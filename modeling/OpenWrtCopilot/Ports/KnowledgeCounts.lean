import OpenWrtCopilot.Ports.KnowledgeStores

/-!
# What a collection says of itself

A collection keeps the ids of its documents and the number of its chunks beside the documents
and the chunks.  Storing a document brings all of them up to date.  Removing one takes its id
off the list, and leaves the number of chunks as it was.

## Main results

* `sound_store` — storing a document counts the chunks anew.
* `total_reconcileFrom_lt` — the number of chunks is not lowered when they go.
* `exact_iff` — a collection in memory is exact all along a run exactly if nothing with chunks
  is removed in it; one on disk is exact along such runs too.
* `removed_chunks_counted` — chunks that were removed are still counted.
-/

namespace OpenWrtCopilot.Ports.KnowledgeStores

open Verified
open Verified.PyDict (Dict get? keys mapValues)
open Verified.PyText
open Ports.KnowledgeIndex (KnowledgeDocument KnowledgeVersion KnowledgeCollection
  Entry Indexer)

variable {M C σ : Type}

/-! ## Chunks in total -/

/-- The number of chunks of all documents. -/
def total {α : Type} (chunks : Dict Text (List α)) : Nat :=
  (chunks.map fun item => item.2.length).sum

section Total

variable {α : Type}

theorem total_cons (id : Text) (chunks : List α) (rest : Dict Text (List α)) :
    total ((id, chunks) :: rest) = chunks.length + total rest := rfl

theorem total_erase_le (id : Text) (chunks : Dict Text (List α)) :
    total (PyDict.erase id chunks) ≤ total chunks := by
  induction chunks with
  | nil => exact Nat.le_refl _
  | cons item rest ih =>
    obtain ⟨k, v⟩ := item
    rw [PyDict.erase] at ih ⊢
    by_cases hk : k = id
    · rw [List.filter_cons_of_neg (by simp [hk]), total_cons]
      omega
    · rw [List.filter_cons_of_pos (by simp [hk]), total_cons, total_cons]
      omega

/-- Chunks that are removed lower the total. -/
theorem total_erase_lt {id : Text} {chunks : Dict Text (List α)}
    (h : (get? id chunks).getD [] ≠ []) : total (PyDict.erase id chunks) < total chunks := by
  induction chunks with
  | nil => exact absurd rfl h
  | cons item rest ih =>
    obtain ⟨k, v⟩ := item
    have hrest := total_erase_le id rest
    rw [PyDict.erase] at ih hrest ⊢
    by_cases hk : k = id
    · rw [get?, if_pos hk] at h
      have hv : 0 < v.length := List.length_pos_iff.mpr h
      rw [List.filter_cons_of_neg (by simp [hk]), total_cons]
      omega
    · rw [get?, if_neg hk] at h
      have hlater := ih h
      rw [List.filter_cons_of_pos (by simp [hk]), total_cons, total_cons]
      omega

/-- Without chunks, a document does not count. -/
theorem total_erase_eq {id : Text} {chunks : Dict Text (List α)} (hnodup : (keys chunks).Nodup)
    (h : (get? id chunks).getD [] = []) : total (PyDict.erase id chunks) = total chunks := by
  induction chunks with
  | nil => rfl
  | cons item rest ih =>
    obtain ⟨k, v⟩ := item
    obtain ⟨hnew, hnodup⟩ := List.nodup_cons.mp hnodup
    rw [PyDict.erase] at ih ⊢
    by_cases hk : k = id
    · rw [get?, if_pos hk] at h
      have hv : v = [] := h
      have hrest : (get? id rest).getD [] = [] := by
        rw [PyDict.get?_eq_none_iff.mpr (hk ▸ hnew)]
        rfl
      rw [List.filter_cons_of_neg (by simp [hk]), total_cons, ih hnodup hrest, hv]
      exact (Nat.zero_add _).symm
    · rw [get?, if_neg hk] at h
      rw [List.filter_cons_of_pos (by simp [hk]), total_cons, total_cons, ih hnodup h]

theorem total_mapValues {β : Type} (f : List α → List β) (hf : ∀ l, (f l).length = l.length)
    (chunks : Dict Text (List α)) : total (mapValues (fun _ => f) chunks) = total chunks := by
  simp [total, mapValues, Function.comp_def, hf]

end Total

/-! ## Sound entries -/

/-- An entry says of itself what is in it. -/
structure Sound (entry : Entry M C) : Prop where
  nodup : entry.collection.documentIds.Nodup
  documents : keys entry.documents = entry.collection.documentIds
  chunks : keys entry.chunks = entry.collection.documentIds
  named : ∀ id document, get? id entry.documents = some document → document.id = id
  counted : entry.collection.chunkCount = total entry.chunks

/-- All collections are sound. -/
def AllSound (a : Indexer M C) : Prop := ∀ c entry, get? c a = some entry → Sound entry

theorem sound_empty : Sound ({} : Entry M C) := ⟨List.nodup_nil, rfl, rfl, nofun, rfl⟩

variable {a : Indexer M C} {c : Text}

theorem AllSound.getD (h : AllSound a) (c : Text) : Sound ((get? c a).getD {}) := by
  cases hentry : get? c a with
  | none => exact sound_empty
  | some entry => exact h c entry hentry

theorem AllSound.set (h : AllSound a) {entry : Entry M C} (hentry : Sound entry) :
    AllSound (PyDict.set c entry a) := by
  intro other entry' hother
  by_cases hsame : other = c
  · rw [hsame, PyDict.get?_set_self] at hother
    exact Option.some.inj hother ▸ hentry
  · rw [PyDict.get?_set_of_ne hsame] at hother
    exact h other entry' hother

/-- **Storing a document keeps a collection sound: its chunks are counted anew.** -/
theorem sound_store (h : AllSound a) (document : KnowledgeDocument M) (chunks : List C) :
    AllSound (Indexer.store c document chunks a) := by
  have hentry := h.getD c
  refine h.set ?_
  constructor
  · dsimp only
    split_ifs with hmem
    · exact hentry.nodup
    · rw [List.nodup_append]
      refine ⟨hentry.nodup, List.nodup_singleton _, ?_⟩
      intro id hid id' hid' heq
      exact hmem (List.mem_singleton.mp hid' ▸ heq ▸ hid)
  · dsimp only
    rw [PyDict.keys_set, hentry.documents]
    split_ifs <;> rfl
  · dsimp only
    rw [PyDict.keys_set, hentry.chunks]
    split_ifs <;> rfl
  · intro id stored hstored
    dsimp only at hstored
    by_cases hid : id = document.id
    · rw [hid, PyDict.get?_set_self] at hstored
      rw [hid, ← Option.some.inj hstored]
    · rw [PyDict.get?_set_of_ne hid] at hstored
      exact hentry.named id stored hstored
  · rfl

theorem sound_recordVersion (h : AllSound a) (version : KnowledgeVersion) :
    AllSound (Indexer.recordVersion c version a) := by
  have hentry := h.getD c
  exact h.set ⟨hentry.nodup, hentry.documents, hentry.chunks, hentry.named, hentry.counted⟩

/-- Removing a document without chunks keeps a collection sound. -/
theorem sound_remove (h : AllSound a) {id : Text}
    (hempty : ∀ entry, get? c a = some entry → (get? id entry.chunks).getD [] = []) :
    AllSound (Indexer.remove id c a) := by
  rw [Indexer.remove]
  cases hget : get? c a with
  | none => exact h
  | some entry =>
    have hentry := h c entry hget
    refine h.set ?_
    constructor
    · exact hentry.nodup.erase id
    · dsimp only
      rw [PyDict.keys_erase (hentry.documents ▸ hentry.nodup), hentry.documents]
    · dsimp only
      rw [PyDict.keys_erase (hentry.chunks ▸ hentry.nodup), hentry.chunks]
    · intro other document hdocument
      dsimp only at hdocument
      rw [PyDict.get?_erase] at hdocument
      split_ifs at hdocument
      exact hentry.named other document hdocument
    · have hnodup : (keys entry.chunks).Nodup := hentry.chunks ▸ hentry.nodup
      exact hentry.counted.trans (total_erase_eq hnodup (hempty entry hget)).symm

/-- **When documents are removed the count of the chunks stays; the chunks go.** -/
theorem total_reconcileFrom_lt (seen : List Text) (documents : List (KnowledgeDocument M))
    {entry : Entry M C} (h : get? c a = some entry) :
    ∃ entry', get? c (KnowledgeIndex.reconcileFrom seen c documents a).2 = some entry' ∧
      entry'.collection.chunkCount = entry.collection.chunkCount ∧
      total entry'.chunks ≤ total entry.chunks ∧
      ((∃ document ∈ documents, document.id ∉ seen ∧
        (get? document.id entry.chunks).getD [] ≠ []) →
          total entry'.chunks < total entry.chunks) := by
  induction documents generalizing a entry with
  | nil =>
    refine ⟨entry, h, rfl, Nat.le_refl _, ?_⟩
    rintro ⟨_, hmem, -⟩
    exact absurd hmem List.not_mem_nil
  | cons document documents ih =>
    rw [KnowledgeIndex.reconcileFrom]
    by_cases hseen : document.id ∈ seen
    · rw [if_pos hseen]
      obtain ⟨entry', hget, hcount, hle, hlt⟩ := ih h
      refine ⟨entry', hget, hcount, hle, ?_⟩
      rintro ⟨other, hother, hunseen, hchunks⟩
      obtain rfl | hother := List.mem_cons.mp hother
      · exact absurd hseen hunseen
      · exact hlt ⟨other, hother, hunseen, hchunks⟩
    · rw [if_neg hseen]
      have hremoved : get? c (Indexer.remove document.id c a) = some
          { entry with
            documents := PyDict.erase document.id entry.documents
            chunks := PyDict.erase document.id entry.chunks
            collection := { entry.collection with
              documentIds := entry.collection.documentIds.erase document.id } } := by
        rw [Indexer.remove, h]
        exact PyDict.get?_set_self c _ a
      obtain ⟨entry', hget, hcount, hle, hlt⟩ := ih hremoved
      have hfirst := total_erase_le document.id entry.chunks
      dsimp only at hcount hle hlt
      refine ⟨entry', hget, hcount, Nat.le_trans hle hfirst, ?_⟩
      rintro ⟨other, hother, hunseen, hchunks⟩
      by_cases hsame : other.id = document.id
      · rw [hsame] at hchunks
        exact Nat.lt_of_le_of_lt hle (total_erase_lt hchunks)
      · have hother' : other ∈ documents := by
          obtain rfl | hother := List.mem_cons.mp hother
          · exact absurd rfl hsame
          · exact hother
        refine Nat.lt_of_lt_of_le (hlt ⟨other, hother', hunseen, ?_⟩) hfirst
        rwa [PyDict.get?_erase, if_neg hsame]

/-! ## Operations -/

inductive Operation (M C : Type)
  | ingest (collectionId : Text) (document : KnowledgeDocument M) (chunks : List C)
  | reconcile (collectionId : Text) (seen : List Text)

/-- One operation; what was done before an exception stays done. -/
def operate (ix : KnowledgeIndexer σ M C) (documentChecksum : Text → Text) (op : Operation M C)
    (s : σ) : Option σ :=
  match op with
  | .ingest collectionId document chunks =>
      some (ix.ingest documentChecksum collectionId document chunks s).2
  | .reconcile collectionId seen => some (ix.reconcile seen collectionId s).2

/-- No document with chunks is removed from the plain indexer. -/
def Spares (a : Indexer M C) : Operation M C → Prop
  | .ingest .. => True
  | .reconcile c seen => ∀ document ∈ Indexer.documents c a, document.id ∉ seen →
      ∀ entry, get? c a = some entry → (get? document.id entry.chunks).getD [] = []

/-- Documents without chunks can be removed from sound collections. -/
theorem Refines.operate_sound {ix : KnowledgeIndexer σ M C} {index : σ → Indexer M C}
    {I : σ → Prop} (h : Refines ix index I) {documentChecksum : Text → Text}
    {op : Operation M C} {s s' : σ} (hs : I s) (hsound : AllSound (index s))
    (hspares : Spares (index s) op) (hstep : operate ix documentChecksum op s = some s') :
    I s' ∧ AllSound (index s') := by
  cases op with
  | ingest c document chunks =>
    obtain rfl := Option.some.inj hstep
    obtain ⟨hs', hkeeps⟩ := h.ingest (c := c) hs
      document chunks
    exact ⟨hs', hkeeps AllSound hsound (fun stored _ => sound_store hsound stored chunks)
      fun a version ha => sound_recordVersion ha version⟩
  | reconcile c seen =>
    obtain rfl := Option.some.inj hstep
    rw [Spares] at hspares
    -- what was to be without chunks stays without while other documents are removed
    let P : Indexer M C → Prop := fun a => AllSound a ∧
      ∀ document ∈ ix.documents c s, document.id ∉ seen →
        ∀ entry, get? c a = some entry → (get? document.id entry.chunks).getD [] = []
    have hstart : P (index s) := by
      refine ⟨hsound, ?_⟩
      rw [h.documents hs]
      exact hspares
    have hremove : ∀ document ∈ ix.documents c s, document.id ∉ seen → ∀ a, P a →
        P (Indexer.remove document.id c a) := by
      intro document hdocument hseen a ha
      refine ⟨sound_remove ha.1 (ha.2 document hdocument hseen), ?_⟩
      intro other hother hunseen entry hentry
      rw [Indexer.remove] at hentry
      cases hget : get? c a with
      | none =>
        rw [hget] at hentry
        dsimp only at hentry
        rw [hget] at hentry
        cases hentry
      | some old =>
        rw [hget] at hentry
        dsimp only at hentry
        rw [PyDict.get?_set_self] at hentry
        obtain rfl := Option.some.inj hentry
        dsimp only
        rw [PyDict.get?_erase]
        split_ifs
        · rfl
        · exact ha.2 other hother hunseen old hget
    obtain ⟨hs', hend⟩ := h.reconcileFrom seen hremove hs hstart
    exact ⟨hs', hend.1⟩

/-! ## Exact collections -/

/-- A collection says of itself what is in it: its documents' ids, each once, which are the ids
that have chunks, and the number of the chunks. -/
structure Exact {α : Type} (info : CollectionInfo) (documents : List (KnowledgeDocument M))
    (chunks : Dict Text (List α)) : Prop where
  nodup : info.documentIds.Nodup
  listed : documents.map (·.id) = info.documentIds
  chunked : ∀ id, id ∈ keys chunks ↔ id ∈ info.documentIds
  counted : info.chunkCount = total chunks

/-- All collections in memory are exact. -/
def InMemory.AllExact (s : InMemory M C) : Prop :=
  ∀ c info, get? c s.collections = some info →
    Exact info (memory.documents c s) ((get? c s.chunks).getD [])

/-- No document with chunks is removed from memory. -/
def InMemory.Spares (s : InMemory M C) : Operation M C → Prop
  | .ingest .. => True
  | .reconcile c seen => ∀ document ∈ memory.documents c s, document.id ∉ seen →
      (get? document.id ((get? c s.chunks).getD [])).getD [] = []

section Files

variable {J F : Type}

/-- All collections on disk are exact. -/
def FileSystem.AllExact (json : Json M C J F) (s : FileSystem J F) : Prop :=
  ∀ c data, get? c s.state = some data →
    Exact data.collection (data.documents.map fun item => json.validateDocument item.2)
      data.chunks

/-- No document with chunks is removed from disk. -/
def FileSystem.Spares (json : Json M C J F) (s : FileSystem J F) : Operation M C → Prop
  | .ingest .. => True
  | .reconcile c seen => ∀ data, get? c s.state = some data →
      ∀ item ∈ data.documents, (json.validateDocument item.2).id ∉ seen →
        (get? (json.validateDocument item.2).id data.chunks).getD [] = []

end Files

/-- Documents that are kept under their ids have the keys as their ids. -/
theorem map_id_eq_keys {documents : Dict Text (KnowledgeDocument M)}
    (hnodup : (keys documents).Nodup)
    (h : ∀ id document, get? id documents = some document → document.id = id) :
    (documents.map Prod.snd).map (·.id) = keys documents := by
  rw [List.map_map]
  refine List.map_congr_left fun item hitem => ?_
  exact h item.1 item.2 ((PyDict.get?_eq_some_iff hnodup).mpr hitem)

theorem Sound.exact {entry : Entry M C} (h : Sound entry) (c : Text) :
    Exact (infoOf c entry) (entry.documents.map Prod.snd) entry.chunks where
  nodup := h.nodup
  listed := (map_id_eq_keys (h.documents ▸ h.nodup) h.named).trans h.documents
  chunked id := by
    rw [h.chunks]
    rfl
  counted := h.counted

namespace InMemory

variable {s : InMemory M C}

theorem allExact (h : s.Aligned) (hsound : AllSound s.index) : s.AllExact := by
  intro c info hinfo
  have hget := get?_index s c
  rw [hinfo] at hget
  have hexact := (hsound c _ hget).exact c
  rwa [infoOf, ← h.named c info hinfo] at hexact

/-- If a document with chunks is removed, its chunks are still counted. -/
theorem not_allExact (h : s.Aligned) (hsound : AllSound s.index)
    (documentChecksum : Text → Text) {op : Operation M C} (hremoves : ¬ s.Spares op)
    {s' : InMemory M C} (hstep : operate memory documentChecksum op s = some s') :
    ¬ s'.AllExact := by
  cases op with
  | ingest c document chunks => exact absurd trivial hremoves
  | reconcile c seen =>
    rw [Spares] at hremoves
    simp only [not_forall] at hremoves
    obtain ⟨document, hdocument, hunseen, hchunks⟩ := hremoves
    obtain ⟨s'', hrun, hindex, haligned, -⟩ := memory_refines.reconcileFrom_quiet
      (memory_quiet c) h trivial seen (memory.documents c s)
    have hs' : s'' = s' := by
      have hlast := Option.some.inj hstep
      rw [KnowledgeIndexer.reconcile, Fallible.read_bind_apply, hrun] at hlast
      exact hlast
    subst hs'
    -- the collection has an entry, as it has a document
    cases hentry : get? c s.index with
    | none =>
      rw [memory_refines.documents h] at hdocument
      have hnone : plain.documents c s.index = [] := by
        show ((((get? c s.index).map (·.documents)).getD []).map Prod.snd) = _
        rw [hentry]
        rfl
      rw [hnone] at hdocument
      cases hdocument
    | some entry =>
      have hsame := congrArg Entry.chunks (getD_index h c)
      rw [hentry, Option.getD_some] at hsame
      dsimp only at hsame
      rw [← hsame] at hchunks
      obtain ⟨entry', hget, hcount, -, hlt⟩ := total_reconcileFrom_lt seen
        (memory.documents c s) hentry
      have hless := hlt ⟨document, hdocument, hunseen, hchunks⟩
      rw [← hindex, get?_index] at hget
      obtain ⟨info, hinfo, rfl⟩ := Option.map_eq_some_iff.mp hget
      intro hexact
      have hcounted := (hexact c info hinfo).counted
      have hsound' := (hsound c entry hentry).counted
      dsimp only at hcount hless
      omega

end InMemory

theorem InMemory.spares_index {s : InMemory M C} (h : s.Aligned) {op : Operation M C}
    (hspares : s.Spares op) : KnowledgeStores.Spares s.index op := by
  cases op with
  | ingest c document chunks => trivial
  | reconcile c seen =>
    intro document hdocument hunseen entry hentry
    have hsame := congrArg Entry.chunks (InMemory.getD_index h c)
    rw [hentry, Option.getD_some] at hsame
    dsimp only at hsame
    rw [hsame]
    refine hspares document ?_ hunseen
    rw [memory_refines.documents h]
    exact hdocument

section Files

variable {J F : Type} {json : Json M C J F} {s : FileSystem J F}

theorem FileSystem.allExact (h : s.Named) (hsound : AllSound (s.index json)) :
    s.AllExact json := by
  intro c data hdata
  have hget := @FileSystem.get?_index M C J F json s c
  rw [hdata] at hget
  have hexact := (hsound c _ hget).exact c
  have hcollection := h c data hdata
  rw [infoOf, Json.entry] at hexact
  dsimp only at hexact
  rw [← hcollection] at hexact
  refine ⟨hexact.nodup, ?_, ?_, hexact.counted.trans ?_⟩
  · have hlisted := hexact.listed
    simp only [mapValues, List.map_map] at hlisted ⊢
    exact hlisted
  · intro id
    rw [← hexact.chunked id, PyDict.keys_mapValues]
  · exact total_mapValues _ (fun chunks => List.length_map json.validateChunk) data.chunks

theorem FileSystem.spares_index {op : Operation M C} (hspares : s.Spares json op) :
    KnowledgeStores.Spares (s.index json) op := by
  cases op with
  | ingest c document chunks => trivial
  | reconcile c seen =>
    intro document hdocument hunseen entry hentry
    rw [FileSystem.get?_index] at hentry
    obtain ⟨data, hdata, rfl⟩ := Option.map_eq_some_iff.mp hentry
    rw [Indexer.documents, Indexer.documentsOf, FileSystem.get?_index, hdata] at hdocument
    simp only [Option.map_some, Option.getD_some, Json.entry, mapValues, List.map_map,
      List.mem_map, Function.comp_apply] at hdocument
    obtain ⟨item, hitem, rfl⟩ := hdocument
    have hempty := hspares data hdata item hitem hunseen
    rw [Json.entry, PyDict.get?_mapValues]
    cases hchunks : get? (json.validateDocument item.2).id data.chunks with
    | none => rfl
    | some chunks =>
      rw [hchunks, Option.getD_some] at hempty
      rw [hempty]
      rfl

end Files

/-! ## Runs -/

/-- **The collections in memory are exact all along a run exactly if no document that has
chunks is removed in it; those on disk are exact along every such run, whether it can write
them or not.** -/
theorem exact_iff (documentChecksum : Text → Text) (ops : List (Operation M C)) :
    (Runs.Always (operate memory documentChecksum) InMemory.AllExact ops {} ↔
      Runs.Meets (operate memory documentChecksum) InMemory.Spares ops {}) ∧
    ∀ {J F : Type} (json : Json M C J F) (writeError : Text → Option Text) (root : Text),
      Runs.Meets (operate (files json writeError) documentChecksum)
        (FileSystem.Spares json) ops { root := root } →
      Runs.Always (operate (files json writeError) documentChecksum)
        (FileSystem.AllExact json) ops { root := root } := by
  have htotal {τ : Type} (ix : KnowledgeIndexer τ M C) (op : Operation M C) (s : τ) :
      ∃ s', operate ix documentChecksum op s = some s' := by
    cases op with
    | ingest c document chunks => exact ⟨_, rfl⟩
    | reconcile c seen => exact ⟨_, rfl⟩
  constructor
  · obtain ⟨t, hrun⟩ := Runs.run_total (htotal memory) ops ({} : InMemory M C)
    refine Runs.always_iff_meets (I := fun s => s.Aligned ∧ AllSound s.index)
      (fun s hs => InMemory.allExact hs.1 hs.2) ?_ ?_
      ⟨⟨List.nodup_nil, rfl, rfl, nofun, nofun⟩, nofun⟩ hrun
    · intro s op s' hs hspares hstep
      exact memory_refines.operate_sound hs.1 hs.2 (InMemory.spares_index hs.1 hspares) hstep
    · intro s op s' hs hremoves hstep
      exact InMemory.not_allExact hs.1 hs.2 documentChecksum hremoves hstep
  · intro J F json writeError root hmeets
    refine Runs.always_of_meets (I := fun s => s.Named ∧ AllSound (s.index json))
      (fun s hs => FileSystem.allExact hs.1 hs.2) ?_ ⟨nofun, nofun⟩ hmeets
    intro s op s' hs hspares hstep
    exact (files_refines json writeError).operate_sound hs.1 hs.2
      (FileSystem.spares_index hspares) hstep

/-- A document with a chunk is ingested, and then gone. -/
def removal (chunks : List Text) : List (Operation Unit Text) :=
  [.ingest "wiki".toList { id := "setup".toList, metadata := () } chunks,
    .reconcile "wiki".toList []]

/-- Its chunk is still counted. -/
theorem removed_chunks_counted :
    ¬ ∀ ops : List (Operation Unit Text),
      Runs.Always (operate memory id) InMemory.AllExact ops {} := by
  intro h
  have hexact := ((h (removal ["chunk".toList])).2 _ rfl).2 _ rfl
  exact absurd (hexact "wiki".toList _ rfl).counted (by decide)

/-- An empty document, which has no chunks, can be removed. -/
theorem empty_document_removed :
    Runs.Always (operate memory id) InMemory.AllExact (removal []) {} := by
  refine (exact_iff id (removal [])).1.mpr ⟨trivial, fun s hs => ⟨?_, fun _ _ => trivial⟩⟩
  obtain rfl := Option.some.inj hs
  intro document hdocument _
  obtain rfl := List.mem_singleton.mp hdocument
  rfl

end OpenWrtCopilot.Ports.KnowledgeStores
