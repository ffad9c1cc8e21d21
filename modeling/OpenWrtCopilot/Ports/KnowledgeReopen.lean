import OpenWrtCopilot.Ports.KnowledgeStores

/-!
# Indexers that are opened anew

A collection on disk has a file that is named by the collection's id.  An indexer that is
opened anew finds the files that are in the directory itself, and gives each collection the
stem of its file as its id.  For an id that is a file name this is the same collection again,
so the indexer on disk, opened anew at any points, does what the one in memory does.  Nothing
checks that the id is a file name.

## Main results

* `agree_iff` — the ids under which a collection on disk, reopened at any points, is always the
  same as one in memory.
* `nested_id_lost` — an id with a slash is none of them.
-/

namespace OpenWrtCopilot.Ports.KnowledgeStores

open Verified
open Verified.PyDict (Dict get? keys)
open Verified.PyText
open Verified.PySplit (splitOn)
open Ports.KnowledgeIndex (KnowledgeDocument KnowledgeVersion Indexer)

variable {M C σ : Type}

/-! ## One collection, reopened -/

/-- The id names a file of the directory, and the system lets that file be written. -/
structure Fileable (writeError : Text → Option Text) (collectionId : Text) : Prop where
  nonempty : collectionId ≠ []
  flat : '/' ∉ collectionId
  written : writeError (collectionId ++ suffix) = none

theorem reverse_suffix : suffix.reverse = ['n', 'o', 's', 'j', '.'] := rfl

/-- The stem of a state file is the id, unless there is nothing before the dot. -/
theorem stem_append_suffix {collectionId : Text} (h : collectionId ≠ []) :
    stem (collectionId ++ suffix) = collectionId := by
  have htail : (collectionId ++ suffix).reverse.takeWhile (· ≠ '.') = ['n', 'o', 's', 'j'] := by
    rw [List.reverse_append, reverse_suffix]
    rfl
  have hrest : ((collectionId ++ suffix).reverse.dropWhile (· ≠ '.')).tail =
      collectionId.reverse := by
    rw [List.reverse_append, reverse_suffix]
    rfl
  rw [stem]
  simp only [htail, hrest, List.reverse_reverse]
  rw [if_neg]
  simpa using h

theorem fileName_append_suffix {collectionId : Text} (h : collectionId ≠ [])
    (hflat : '/' ∉ collectionId) :
    fileName (collectionId ++ suffix) = some (collectionId ++ suffix) := by
  have hsplit : splitOn ['/'] (collectionId ++ suffix) = [collectionId ++ suffix] := by
    refine PySplit.splitFrom_of_notMem ?_ []
    rw [List.mem_append, not_or]
    exact ⟨hflat, by decide⟩
  obtain ⟨first, rest, rfl⟩ := List.exists_cons_of_ne_nil h
  have hfirst : first ≠ '/' := fun heq => hflat (heq ▸ List.mem_cons_self)
  have hrest : rest ++ suffix ≠ [] := by simp [suffix]
  rw [fileName, hsplit]
  simp [hfirst, hrest]

theorem mem_of_mem_stem {name : Text} {ch : Char} (h : ch ∈ stem name) : ch ∈ name := by
  rw [stem] at h
  split_ifs at h
  · exact h
  · have hdropped := List.mem_of_mem_tail (List.mem_reverse.mp h)
    exact List.mem_reverse.mp ((List.dropWhile_sublist _).mem hdropped)

/-- A file of the directory has no slash in its name. -/
theorem slash_notMem_fileName {path name : Text} (h : fileName path = some name) :
    '/' ∉ name := by
  rw [fileName] at h
  split_ifs at h
  cases hparts : (splitOn ['/'] path).filter fun part => part ≠ [] ∧ part ≠ ['.'] with
  | nil =>
    rw [hparts] at h
    cases h
  | cons part parts =>
    rw [hparts] at h
    cases parts with
    | cons second parts => cases h
    | nil =>
      have hpart : part ∈ (splitOn ['/'] path).filter
          fun part => part ≠ [] ∧ part ≠ ['.'] := by
        rw [hparts]
        exact List.mem_cons_self
      rw [← Option.some.inj h]
      exact PySplit.notMem_splitFrom List.not_mem_nil (List.mem_filter.mp hpart).1

/-- Another id than one that names a file is not found under its own name again. -/
theorem stem_ne {collectionId name : Text} (h : collectionId = [] ∨ '/' ∈ collectionId)
    (hname : fileName (collectionId ++ suffix) = some name) : stem name ≠ collectionId := by
  obtain rfl | hslash := h
  · obtain rfl : suffix = name := Option.some.inj ((by decide :
      fileName ([] ++ suffix) = some suffix).symm.trans hname)
    decide
  · intro heq
    rw [← heq] at hslash
    exact slash_notMem_fileName hname (mem_of_mem_stem hslash)

/-- What is done to a collection: documents are ingested, it is reconciled with what was seen,
or the indexer is opened anew. -/
inductive Event (M C : Type)
  | ingest (document : KnowledgeDocument M) (chunks : List C)
  | reconcile (seen : List Text)
  | reopen

section Perform

variable (ix : KnowledgeIndexer σ M C) (reopen : Fallible Text σ Unit)
  (documentChecksum : Text → Text) (collectionId : Text)

/-- One event, with the changes it reports. -/
def perform : Event M C → Fallible Text σ (List KnowledgeVersion)
  | .ingest document chunks => do
      let version ← ix.ingest documentChecksum collectionId document chunks
      return [version]
  | .reconcile seen => ix.reconcile seen collectionId
  | .reopen => do
      reopen
      return []

/-- A sequence of events, with what each of them returns or raises. -/
def performAll : List (Event M C) → σ → List (Except Text (List KnowledgeVersion)) × σ
  | [], s => ([], s)
  | event :: events, s =>
      let (outcome, s) := perform ix reopen documentChecksum collectionId event s
      let (outcomes, s) := performAll events s
      (outcome :: outcomes, s)

end Perform

/-- What can be read of a collection. -/
structure View (M C : Type) where
  documents : List (KnowledgeDocument M)
  chunks : Text → List C
  versions : List KnowledgeVersion
  collection : Option CollectionInfo

def KnowledgeIndexer.view (ix : KnowledgeIndexer σ M C) (collectionId : Text) (s : σ) :
    View M C where
  documents := ix.documents collectionId s
  chunks documentId := ix.chunks documentId s
  versions := ix.versions collectionId s
  collection := ix.collection collectionId s

/-- After the events, which the indexer on disk starts in an empty directory, both have
reported the same changes and the collection reads the same in both. -/
def Agree {J F : Type} (json : Json M C J F) (writeError : Text → Option Text)
    (documentChecksum : Text → Text) (root collectionId : Text) (events : List (Event M C)) :
    Prop :=
  let inMemory := performAll memory (pure ()) documentChecksum collectionId events {}
  let onDisk := performAll (files json writeError) (FileSystem.reopen json) documentChecksum
    collectionId events { root := root }
  onDisk.1 = inMemory.1 ∧
    (files json writeError).view collectionId onDisk.2 = memory.view collectionId inMemory.2

section Saved

variable {J F : Type} {json : Json M C J F} {writeError : Text → Option Text}

namespace FileSystem

/-- The collection is the only one, and what is in memory is on disk. -/
structure Saved (json : Json M C J F) (collectionId : Text) (s : FileSystem J F) : Prop where
  root : s.root ≠ []
  saved : (s.state = [] ∧ s.files = []) ∨ ∃ data, s.state = [(collectionId, data)] ∧
    s.files = [(collectionId ++ suffix, json.dumps data)]

variable {c : Text} {s : FileSystem J F}

/-- The collection is written to its file. -/
theorem Saved.flush_put (h : Saved json c s) (hc : Fileable writeError c) (data : FileEntry J) :
    (flush json writeError (s.put c data)).1 = .ok () ∧
      Saved json c (flush json writeError (s.put c data)).2 := by
  have hname := fileName_append_suffix hc.nonempty hc.flat
  have hstate : (s.put c data).state = [(c, data)] ∧
      PyDict.set (c ++ suffix) (json.dumps data) s.files =
        [(c ++ suffix, json.dumps data)] := by
    obtain ⟨hstate, hfiles⟩ | ⟨old, hstate, hfiles⟩ := h.saved
    · rw [put, hstate, hfiles]
      exact ⟨rfl, rfl⟩
    · rw [put, hstate, hfiles]
      exact ⟨if_pos rfl, if_pos rfl⟩
  have hwrite : writeAll json writeError (s.put c data).state s.files =
      (.ok (), [(c ++ suffix, json.dumps data)]) := by
    rw [hstate.1, writeAll]
    simp only [hc.written, hname]
    rw [writeAll, hstate.2]
  have hroot : (s.put c data).root ≠ [] := h.root
  have hflush : flush json writeError (s.put c data) =
      (.ok (), { s.put c data with files := [(c ++ suffix, json.dumps data)] }) := by
    rw [flush, if_neg hroot]
    have hfiles : (s.put c data).files = s.files := rfl
    rw [hfiles, hwrite]
  rw [hflush]
  exact ⟨rfl, hroot, Or.inr ⟨data, hstate.1, rfl⟩⟩

/-- A new indexer over the directory has what the old one had. -/
theorem Saved.reopen (h : Saved json c s) (hc : c ≠ []) : reopen json s = (.ok (), s) := by
  rw [FileSystem.reopen, if_neg h.root]
  obtain ⟨hstate, hfiles⟩ | ⟨data, hstate, hfiles⟩ := h.saved
  · have hload : loadAll json s.root s.files [] = .ok s.state := by
      rw [hfiles, loadAll, ← hstate]
    rw [hload]
  · have hload : loadAll json s.root s.files [] = .ok s.state := by
      rw [hfiles, loadAll, json.entry_inverse]
      dsimp only
      rw [loadAll, stem_append_suffix hc, PyDict.set, ← hstate]
    rw [hload]

end FileSystem

theorem files_quiet {c : Text} (hc : Fileable writeError c) :
    Quiet (files json writeError) (FileSystem.Saved json c) c where
  store h document chunks := h.flush_put hc _
  recordVersion h version := h.flush_put hc _
  remove := by
    intro s h id
    show (FileSystem.remove json writeError id c s).1 = .ok () ∧
      FileSystem.Saved json c (FileSystem.remove json writeError id c s).2
    rw [FileSystem.remove, Fallible.read_bind_apply]
    cases get? c s.state with
    | none => exact ⟨rfl, h⟩
    | some data => exact h.flush_put hc _

/-- What the two indexers have in common: they stand for one plain indexer, and what the one
on disk has in memory is on disk. -/
structure Same (json : Json M C J F) (c : Text) (inMemory : InMemory M C)
    (onDisk : FileSystem J F) : Prop where
  aligned : inMemory.Aligned
  named : onDisk.Named
  saved : onDisk.Saved json c
  index : onDisk.index json = inMemory.index

variable {c : Text} {inMemory : InMemory M C} {onDisk : FileSystem J F}
  {documentChecksum : Text → Text}

/-- One event keeps them alike. -/
theorem Same.perform (h : Same json c inMemory onDisk) (hc : Fileable writeError c)
    (event : Event M C) :
    let inMemory' := perform memory (pure ()) documentChecksum c event inMemory
    let onDisk' := perform (files json writeError) (FileSystem.reopen json) documentChecksum c
      event onDisk
    onDisk'.1 = inMemory'.1 ∧ Same json c inMemory'.2 onDisk'.2 := by
  have hfiles := files_refines json writeError
  have hquiet := @files_quiet M C J F json writeError c hc
  cases event with
  | ingest document chunks =>
    obtain ⟨m, hm, hmindex, hmaligned, -⟩ := memory_refines.ingest_quiet
      (memory_quiet c) h.aligned trivial document chunks
    obtain ⟨d, hd, hdindex, hdnamed, hdsaved⟩ := hfiles.ingest_quiet
      hquiet h.named h.saved document chunks
    rw [h.index] at hd hdindex
    dsimp only
    rw [KnowledgeStores.perform, KnowledgeStores.perform, Fallible.bind_of_ok hm,
      Fallible.bind_of_ok hd]
    exact ⟨rfl, hmaligned, hdnamed, hdsaved, hdindex.trans hmindex.symm⟩
  | reconcile seen =>
    obtain ⟨m, hm, hmindex, hmaligned, -⟩ := memory_refines.reconcileFrom_quiet
      (memory_quiet c) h.aligned trivial seen (memory.documents c inMemory)
    obtain ⟨d, hd, hdindex, hdnamed, hdsaved⟩ := hfiles.reconcileFrom_quiet
      hquiet h.named h.saved seen ((files json writeError).documents c onDisk)
    have hdocuments : (files json writeError).documents c onDisk =
        memory.documents c inMemory := by
      rw [hfiles.documents h.named, memory_refines.documents h.aligned, h.index]
    rw [h.index, hdocuments] at hd hdindex
    dsimp only
    rw [KnowledgeStores.perform, KnowledgeStores.perform, KnowledgeIndexer.reconcile,
      KnowledgeIndexer.reconcile, Fallible.read_bind_apply, Fallible.read_bind_apply, hm,
      hdocuments, hd]
    exact ⟨rfl, hmaligned, hdnamed, hdsaved, hdindex.trans hmindex.symm⟩
  | reopen =>
    dsimp only
    rw [KnowledgeStores.perform, KnowledgeStores.perform,
      Fallible.bind_of_ok (h.saved.reopen hc.nonempty)]
    exact ⟨rfl, h⟩

theorem Same.performAll (h : Same json c inMemory onDisk) (hc : Fileable writeError c)
    (events : List (Event M C)) :
    let inMemory' := performAll memory (pure ()) documentChecksum c events inMemory
    let onDisk' := performAll (files json writeError) (FileSystem.reopen json) documentChecksum
      c events onDisk
    onDisk'.1 = inMemory'.1 ∧ Same json c inMemory'.2 onDisk'.2 := by
  induction events generalizing inMemory onDisk with
  | nil => exact ⟨rfl, h⟩
  | cons event events ih =>
    obtain ⟨hfirst, hsame⟩ := h.perform hc event
    obtain ⟨hrest, hlast⟩ := ih hsame
    exact ⟨List.cons_eq_cons.mpr ⟨hfirst, hrest⟩, hlast⟩

theorem same_empty {root : Text} (hroot : root ≠ []) (json : Json M C J F) (c : Text) :
    Same json c {} { root := root } where
  aligned := ⟨List.nodup_nil, rfl, rfl, nofun, nofun⟩
  named := nofun
  saved := ⟨hroot, Or.inl ⟨rfl, rfl⟩⟩
  index := rfl

/-- Indexers that stand for one plain indexer read the same. -/
theorem Same.view (h : Same json c inMemory onDisk) :
    (files json writeError).view c onDisk = memory.view c inMemory := by
  have hfiles := files_refines json writeError
  have hmemory : Refines (memory : KnowledgeIndexer (InMemory M C) M C) _ _ := memory_refines
  simp only [KnowledgeIndexer.view, hfiles.documents h.named, hfiles.chunks h.named,
    hfiles.versions h.named, hfiles.collection h.named, hmemory.documents h.aligned,
    hmemory.chunks h.aligned, hmemory.versions h.aligned, hmemory.collection h.aligned, h.index]

end Saved

/-! ## Other ids -/

section Lost

variable {J F : Type} {json : Json M C J F} {writeError : Text → Option Text}

/-- `ingest` keeps what storing a document and recording a version keep. -/
theorem ingest_keeping {ix : KnowledgeIndexer σ M C} {I : σ → Prop} {c : Text}
    (hstore : ∀ document chunks,
      Fallible.Respects (Fallible.Keeping I) (ix.store c document chunks))
    (hrecord : ∀ version, Fallible.Respects (Fallible.Keeping I) (ix.recordVersion c version))
    (documentChecksum : Text → Text) (document : KnowledgeDocument M) (chunks : List C) :
    Fallible.Respects (Fallible.Keeping I) (ix.ingest documentChecksum c document chunks) := by
  refine Fallible.Respects.read.bind fun s => Fallible.Respects.ite ?_ ?_
  · intro _
    exact Fallible.Respects.pure _
  · intro _
    exact (hstore _ chunks).bind fun _ => (hrecord _).bind fun _ => Fallible.Respects.pure _

namespace FileSystem

/-- The collection is the only one in memory, and not found on disk. -/
structure Lost (c : Text) (s : FileSystem J F) : Prop where
  root : s.root ≠ []
  only : ∀ other ∈ keys s.state, other = c
  files : ∀ name ∈ keys s.files, stem name ≠ c

variable {c : Text} {s : FileSystem J F}

/-- The collection is not written where it would be found. -/
theorem lost_writeAll (hc : ¬ Fileable writeError c) {state : Dict Text (FileEntry J)}
    (hstate : ∀ other ∈ keys state, other = c) {saved : Dict Text F}
    (hsaved : ∀ name ∈ keys saved, stem name ≠ c) :
    ∀ name ∈ keys (writeAll json writeError state saved).2, stem name ≠ c := by
  induction state generalizing saved with
  | nil => exact hsaved
  | cons item rest ih =>
    obtain ⟨other, data⟩ := item
    obtain rfl := hstate other List.mem_cons_self
    have hrest : ∀ other' ∈ keys rest, other' = other :=
      fun other' hother' => hstate other' (List.mem_cons_of_mem _ hother')
    rw [writeAll]
    cases hwrite : writeError (other ++ suffix) with
    | some e => exact hsaved
    | none =>
      dsimp only
      cases hname : fileName (other ++ suffix) with
      | none => exact ih hrest hsaved
      | some name =>
        refine ih hrest ?_
        intro name' hname'
        rw [PyDict.keys_set] at hname'
        have hcases : name' ∈ keys saved ∨ name' = name := by
          split_ifs at hname'
          · exact Or.inl hname'
          · simpa using hname'
        obtain hold | rfl := hcases
        · exact hsaved name' hold
        · refine stem_ne ?_ hname
          by_contra hid
          rw [not_or] at hid
          exact hc ⟨hid.1, hid.2, hwrite⟩

theorem Lost.put (h : Lost c s) (data : FileEntry J) : Lost c (s.put c data) := by
  refine ⟨h.root, ?_, h.files⟩
  intro other hother
  rw [FileSystem.put, PyDict.keys_set] at hother
  split_ifs at hother
  · exact h.only other hother
  · obtain hother | hother := List.mem_append.mp hother
    · exact h.only other hother
    · exact List.mem_singleton.mp hother

theorem Lost.flush (hc : ¬ Fileable writeError c) (h : Lost c s) :
    Lost c (flush json writeError s).2 := by
  rw [FileSystem.flush, if_neg h.root]
  exact ⟨h.root, h.only, lost_writeAll hc h.only h.files⟩

/-- A new indexer does not have the collection. -/
theorem lost_loadAll {root : Text} {saved : Dict Text F}
    (hsaved : ∀ name ∈ keys saved, stem name ≠ c) {state state' : Dict Text (FileEntry J)}
    (hstate : get? c state = none) (hload : loadAll json root saved state = .ok state') :
    get? c state' = none := by
  induction saved generalizing state with
  | nil => exact Except.ok.inj hload ▸ hstate
  | cons item rest ih =>
    obtain ⟨name, content⟩ := item
    rw [loadAll] at hload
    cases hcontent : json.loads content with
    | error e =>
      rw [hcontent] at hload
      cases hload
    | ok data =>
      rw [hcontent] at hload
      refine ih (fun other hother => hsaved other (List.mem_cons_of_mem _ hother)) ?_ hload
      rw [PyDict.get?_set_of_ne (Ne.symm (hsaved name List.mem_cons_self))]
      exact hstate

theorem Lost.reopen (h : Lost c s) : get? c (reopen json s).2.state = none := by
  rw [FileSystem.reopen, if_neg h.root]
  cases hload : loadAll json s.root s.files [] with
  | error e => rfl
  | ok state => exact lost_loadAll h.files rfl hload

end FileSystem

/-- A document is ingested into a new indexer. -/
theorem lost_ingest (hc : ¬ Fileable writeError c) {root : Text} (hroot : root ≠ [])
    (documentChecksum : Text → Text) (document : KnowledgeDocument M) (chunks : List C) :
    FileSystem.Lost c ((files json writeError).ingest documentChecksum c document chunks
      { root := root }).2 := by
  refine ingest_keeping (fun stored chunks s h => ?_) (fun version s h => ?_) documentChecksum
    document chunks _ ⟨hroot, nofun, nofun⟩
  · exact FileSystem.Lost.flush hc (h.put _)
  · exact FileSystem.Lost.flush hc (h.put _)

end Lost

/-! ## The ids under which a collection can be reopened -/

section Agree

variable {J F : Type} {json : Json M C J F} {writeError : Text → Option Text}
  {documentChecksum : Text → Text} {root c : Text}

/-- A document that a new indexer ingests makes its collection known. -/
theorem mem_keys_ingest (documentChecksum : Text → Text) (c : Text)
    (document : KnowledgeDocument M) (chunks : List C) :
    c ∈ keys (KnowledgeIndex.ingest documentChecksum c document chunks ([] : Indexer M C)).2 := by
  show c ∈ keys (Indexer.recordVersion c _ (Indexer.store c _ chunks []))
  rw [Indexer.recordVersion, PyDict.keys_set, if_pos (mem_keys_store c _ chunks [])]
  exact mem_keys_store c _ chunks []

/-- Under another id, a collection with a document is gone when the indexer is opened anew. -/
theorem not_agree (hroot : root ≠ []) (hc : ¬ Fileable writeError c)
    (document : KnowledgeDocument M) (chunks : List C) :
    ¬ Agree json writeError documentChecksum root c [.ingest document chunks, .reopen] := by
  intro h
  obtain ⟨m, hm, hindex, haligned, -⟩ := memory_refines.ingest_quiet
    (s := ({} : InMemory M C)) (memory_quiet c)
    ⟨List.nodup_nil, rfl, rfl, nofun, nofun⟩ trivial document chunks
  have hlost : FileSystem.Lost c ((files json writeError).ingest documentChecksum c document chunks
      { root := root }).2 := lost_ingest hc hroot documentChecksum document chunks
  have hviews := congrArg View.collection h.2
  have hmemory : (performAll memory (pure ()) documentChecksum c
      [.ingest document chunks, .reopen] ({} : InMemory M C)).2 = m := by
    simp only [performAll, perform]
    rw [Fallible.bind_of_ok hm]
    rfl
  have hknown : memory.collection c m ≠ none := by
    rw [memory_refines.collection haligned, hindex]
    intro hnone
    have hentry := Option.map_eq_none_iff.mp hnone
    exact PyDict.get?_eq_none_iff.mp hentry (mem_keys_ingest documentChecksum c document chunks)
  rw [hmemory] at hviews
  refine hknown (hviews.symm.trans ?_)
  show (get? c (FileSystem.state _)).map (·.collection) = none
  rw [Option.map_eq_none_iff]
  simp only [performAll, perform]
  cases hrun : (files json writeError).ingest documentChecksum c document chunks
      { root := root } with
  | mk outcome s =>
    rw [hrun] at hlost
    have hreopened : get? c (FileSystem.reopen json _).2.state = none := hlost.reopen
    have hlast : ((FileSystem.reopen json >>= fun _ => pure ([] : List KnowledgeVersion)) s).2 =
        (FileSystem.reopen json s).2 := by
      rw [Fallible.bind_apply]
      split <;> simp_all
    cases outcome with
    | error e =>
      rw [Fallible.bind_of_error hrun, hlast]
      exact hreopened
    | ok version =>
      rw [Fallible.bind_of_ok hrun, Fallible.pure_apply, hlast]
      exact hreopened

/-- **A collection on disk, reopened at any points, always reports and reads what the same
collection in memory does exactly if its id names a file of the directory that can be
written.** -/
theorem agree_iff (json : Json M C J F) (hroot : root ≠ []) (metadata : M) :
    (∀ events, Agree json writeError documentChecksum root c events) ↔
      Fileable writeError c := by
  constructor
  · intro h
    by_contra hc
    exact not_agree hroot hc { id := [], metadata := metadata } [] (h _)
  · intro hc events
    obtain ⟨houtcomes, hsame⟩ := (same_empty hroot json c).performAll
      hc events
    exact ⟨houtcomes, hsame.view⟩

end Agree

/-! ## An id with a slash -/

/-- JSON data that are the models themselves. -/
inductive Model
  | document (document : KnowledgeDocument Unit)
  | chunk (chunk : Text)
  | version (version : KnowledgeVersion)

/-- Entries that are kept as they are. -/
def modelJson : Json Unit Text Model (FileEntry Model) where
  dumpDocument := .document
  validateDocument
    | .document document => document
    | _ => { id := [], metadata := () }
  dumpChunk := .chunk
  validateChunk
    | .chunk chunk => chunk
    | _ => []
  dumpVersion := .version
  validateVersion
    | .version version => version
    | _ => { documentId := [] }
  dumps entry := entry
  loads := .ok
  document_inverse _ := rfl
  chunk_inverse _ := rfl
  version_inverse _ := rfl
  entry_inverse _ := rfl

/-- A directory without further ones in it. -/
def flatDirectory (path : Text) : Option Text :=
  if '/' ∈ path then some "[Errno 2] No such file or directory".toList else none

/-- The file of such a collection cannot be written. -/
theorem nested_id_lost :
    ¬ ∀ collectionId (events : List (Event Unit Text)),
      Agree modelJson flatDirectory id "index".toList collectionId events := by
  intro h
  have hflat : ¬ Fileable flatDirectory "wiki/wireguard".toList := by
    intro hc
    exact hc.flat (by decide)
  exact not_agree (by decide) hflat { id := "setup".toList, metadata := () } [] (h _ _)

/-- An ordinary id. -/
theorem plain_id_kept : Fileable flatDirectory "wireguard".toList ∧
    ∀ events : List (Event Unit Text),
      Agree modelJson flatDirectory id "index".toList "wireguard".toList events :=
  ⟨⟨by decide, by decide, by decide⟩,
    (agree_iff modelJson (by decide) ()).mpr ⟨by decide, by decide, by decide⟩⟩

end OpenWrtCopilot.Ports.KnowledgeStores
