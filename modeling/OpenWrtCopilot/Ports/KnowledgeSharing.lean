import OpenWrtCopilot.Ports.KnowledgeIndex

/-!
# Collections that share documents

The ids of documents do not name their collections, and `get_document` and `chunks` look into
all collections.  A pass over a collection therefore takes a document that another collection
has under the same id for its own: it reports the document as unchanged and does not store it.
As long as no pass sees an id that another collection has, each collection is what it would be
without the others.

## Main results

* `indexCollection_alike` — what a pass does to its collection, from that collection alone.
* `separate_of_unshared` — collections without common ids are independent of one another, over
  whole runs; where the documents of the passes have distinct contents, each pass stores all of
  them and finds them unchanged when it is repeated.
* `shared_document_lost` — a document that two collections see is in one of them only.
-/

namespace OpenWrtCopilot.Ports.KnowledgeSharing

open Verified
open Verified.PyDict (Dict get? keys)
open Verified.PyText
open Ports.KnowledgeIndex
open Ports.KnowledgeIndex.Indexer

variable {M C : Type}

/-! ## Collections apart -/

/-- The chunks of a collection by their documents' ids. -/
def chunksOf (collectionId : Text) (ix : Indexer M C) : Dict Text (List C) :=
  ((get? collectionId ix).map (·.chunks)).getD []

/-- No other collection has a document under the id. -/
def OnlyHere (collectionId id : Text) (ix : Indexer M C) : Prop :=
  ∀ other entry, other ≠ collectionId → get? other ix = some entry →
    id ∉ keys entry.documents

/-- No two collections have documents under one id. -/
structure Separated (ix : Indexer M C) : Prop where
  nodup : (keys ix).Nodup
  keyed : Keyed ix
  chunks : ∀ c entry, get? c ix = some entry → keys entry.chunks = keys entry.documents
  apart : ∀ c, ∀ id ∈ keys (documentsOf c ix), OnlyHere c id ix

theorem separated_empty : Separated ([] : Indexer M C) :=
  ⟨List.nodup_nil, keyed_empty, nofun, nofun⟩

section Separated

variable {ix ix' : Indexer M C} {c id : Text}

/-- A document that is nowhere else is looked up in its collection. -/
theorem getDocument_eq (h : Separated ix) (hid : OnlyHere c id ix) :
    getDocument id ix = get? id (documentsOf c ix) := by
  have honly := PyDict.findSome?_only h.nodup c (fun entry : Entry M C => get? id entry.documents)
    fun other entry hother hentry => PyDict.get?_eq_none_iff.mpr (hid other entry hother hentry)
  rw [getDocument, honly, documentsOf]
  cases get? c ix with
  | none => rfl
  | some entry => rfl

/-- So are its chunks. -/
theorem chunks_eq (h : Separated ix) (hid : OnlyHere c id ix) :
    chunks id ix = (get? id (chunksOf c ix)).getD [] := by
  have honly := PyDict.findSome?_only h.nodup c (fun entry : Entry M C => get? id entry.chunks)
    fun other entry hother hentry => PyDict.get?_eq_none_iff.mpr (by
      rw [h.chunks other entry hentry]
      exact hid other entry hother hentry)
  rw [Indexer.chunks, honly, chunksOf]
  cases get? c ix with
  | none => rfl
  | some entry => rfl

theorem OnlyHere.of_elsewhere (hid : OnlyHere c id ix)
    (h : ∀ other, other ≠ c → get? other ix' = get? other ix) : OnlyHere c id ix' := by
  intro other entry hother hentry
  rw [h other hother] at hentry
  exact hid other entry hother hentry

theorem documentsOf_of_get? {entry : Entry M C} (h : get? c ix = some entry) :
    documentsOf c ix = entry.documents := by
  rw [documentsOf, h]
  rfl

/-- An entry whose ids are nowhere else keeps the collections apart. -/
theorem Separated.set (h : Separated ix) {entry : Entry M C}
    (hkeyed : Keyed (PyDict.set c entry ix)) (hchunks : keys entry.chunks = keys entry.documents)
    (hids : ∀ id ∈ keys entry.documents, OnlyHere c id ix) :
    Separated (PyDict.set c entry ix) := by
  have helsewhere : ∀ other, other ≠ c → get? other (PyDict.set c entry ix) = get? other ix :=
    fun other hother => PyDict.get?_set_of_ne hother entry ix
  refine ⟨PyDict.nodup_keys_set h.nodup c entry, hkeyed, ?_, ?_⟩
  · intro other entry' hentry'
    by_cases hother : other = c
    · rw [hother, PyDict.get?_set_self] at hentry'
      rw [← Option.some.inj hentry']
      exact hchunks
    · rw [helsewhere other hother] at hentry'
      exact h.chunks other entry' hentry'
  · intro other id hid other' entry' hother' hentry'
    by_cases hother : other = c
    · subst hother
      rw [documentsOf_of_get? (PyDict.get?_set_self other entry ix)] at hid
      exact (hids id hid).of_elsewhere helsewhere other' entry' hother' hentry'
    · rw [documentsOf, helsewhere other hother, ← documentsOf] at hid
      by_cases hsame : other' = c
      · rw [hsame, PyDict.get?_set_self] at hentry'
        obtain rfl := Option.some.inj hentry'
        intro hmem
        have hold : ∃ old, get? other ix = some old ∧ id ∈ keys old.documents := by
          cases hget : get? other ix with
          | none =>
            rw [documentsOf, hget] at hid
            cases hid
          | some old =>
            rw [documentsOf_of_get? hget] at hid
            exact ⟨old, rfl, hid⟩
        obtain ⟨old, hold, hmem'⟩ := hold
        exact hids id hmem other old hother hold hmem'
      · rw [helsewhere other' hsame] at hentry'
        exact h.apart other id hid other' entry' hother' hentry'

end Separated

/-! ## One document -/

section Ingest

variable {documentChecksum : Text → Text} {ix ix0 ix' : Indexer M C} {c : Text}

/-- What a pass may do: the collections stay apart, and the others stay as they are. -/
structure Passed (c : Text) (ix ix' : Indexer M C) : Prop where
  separated : Separated ix'
  elsewhere : ∀ other, other ≠ c → get? other ix' = get? other ix

theorem Passed.refl (h : Separated ix) (c : Text) : Passed c ix ix := ⟨h, fun _ _ => rfl⟩

theorem Passed.trans {ix'' : Indexer M C} (h : Passed c ix ix') (h' : Passed c ix' ix'') :
    Passed c ix ix'' :=
  ⟨h'.separated, fun other hother =>
    (h'.elsewhere other hother).trans (h.elsewhere other hother)⟩

theorem chunks_getD (h : Separated ix) (c : Text) :
    keys ((get? c ix).getD {}).chunks = keys ((get? c ix).getD {}).documents := by
  cases hentry : get? c ix with
  | none => rfl
  | some entry => exact h.chunks c entry hentry

theorem passed_store (h : Separated ix) {document : KnowledgeDocument M}
    (hid : OnlyHere c document.id ix) (chunks : List C) :
    Passed c ix (store c document chunks ix) := by
  have hkeyed := keyed_store h.keyed (replaced_store c document chunks ix)
  refine ⟨h.set hkeyed ?_ ?_, fun other hother => PyDict.get?_set_of_ne hother _ ix⟩
  · dsimp only
    rw [PyDict.keys_set, PyDict.keys_set, chunks_getD h c]
  · intro id hmem
    dsimp only at hmem
    rw [PyDict.keys_set, documents_getD] at hmem
    split_ifs at hmem
    · exact h.apart c id hmem
    · obtain hmem | hmem := List.mem_append.mp hmem
      · exact h.apart c id hmem
      · rwa [List.mem_singleton.mp hmem]

theorem keyed_recordVersion (h : Keyed ix) (version : KnowledgeVersion) :
    Keyed (recordVersion c version ix) :=
  h.replaced (replaced_recordVersion c version ix) (h.nodup c) (h.id c)

theorem passed_recordVersion (h : Separated ix) (version : KnowledgeVersion) :
    Passed c ix (recordVersion c version ix) := by
  refine ⟨h.set (keyed_recordVersion h.keyed version) (chunks_getD h c) ?_,
    fun other hother => PyDict.get?_set_of_ne hother _ ix⟩
  intro id hmem
  dsimp only at hmem
  rw [documents_getD] at hmem
  exact h.apart c id hmem

variable (documentChecksum) in
theorem passed_ingest (h : Separated ix) {document : KnowledgeDocument M}
    (hid : OnlyHere c document.id ix) (chunks : List C) :
    Passed c ix (ingest documentChecksum c document chunks ix).2 := by
  rw [ingest]
  dsimp only
  split_ifs
  · exact Passed.refl h c
  · have hstored := @passed_store M C ix c h { document with
      checksum := (decide documentChecksum c document (getDocument document.id ix) ix).checksum
      version := (decide documentChecksum c document (getDocument document.id ix) ix).version }
      hid chunks
    exact hstored.trans (passed_recordVersion hstored.separated _)

variable (documentChecksum) in
/-- What happens to a document depends on its collection alone. -/
theorem ingest_alike (h : Separated ix) (h0 : Separated ix0) (hsame : get? c ix = get? c ix0)
    {document : KnowledgeDocument M} (hid : OnlyHere c document.id ix)
    (hid0 : OnlyHere c document.id ix0) (chunks : List C) :
    (ingest documentChecksum c document chunks ix).1 =
        (ingest documentChecksum c document chunks ix0).1 ∧
      get? c (ingest documentChecksum c document chunks ix).2 =
        get? c (ingest documentChecksum c document chunks ix0).2 := by
  have hdocuments : documentsOf c ix = documentsOf c ix0 := by
    rw [documentsOf, hsame, documentsOf]
  have hexisting : getDocument document.id ix = getDocument document.id ix0 := by
    rw [getDocument_eq h hid, getDocument_eq h0 hid0, hdocuments]
  have hdecide : decide documentChecksum c document (getDocument document.id ix0) ix =
      decide documentChecksum c document (getDocument document.id ix0) ix0 := by
    simp only [KnowledgeIndex.decide, checksumOwner, documents, hdocuments]
  rw [ingest, ingest]
  simp only [hexisting, hdecide]
  split_ifs
  · exact ⟨rfl, hsame⟩
  · refine ⟨rfl, ?_⟩
    rw [recordVersion, recordVersion, PyDict.get?_set_self, PyDict.get?_set_self, store, store,
      PyDict.get?_set_self, PyDict.get?_set_self, hsame]

end Ingest

/-! ## Documents that are gone -/

section Reconcile

variable {ix ix0 : Indexer M C} {c : Text}

theorem keyed_remove (h : Keyed ix) (id : Text) : Keyed (remove id c ix) := by
  refine h.replaced (replaced_remove id c ix) (PyDict.nodup_keys_erase (h.nodup c) id) ?_
  intro other document hdocument
  rw [PyDict.get?_erase] at hdocument
  split_ifs at hdocument
  exact h.id c other document hdocument

theorem passed_remove (h : Separated ix) (id : Text) : Passed c ix (remove id c ix) := by
  have hkeyed := keyed_remove (c := c) h.keyed id
  rw [remove] at hkeyed ⊢
  cases hentry : get? c ix with
  | none => exact Passed.refl h c
  | some entry =>
    rw [hentry] at hkeyed
    have hnodup : (keys entry.documents).Nodup := by
      rw [← documentsOf_of_get? hentry]
      exact h.keyed.nodup c
    have hchunks := h.chunks c entry hentry
    refine ⟨h.set hkeyed ?_ ?_, fun other hother => PyDict.get?_set_of_ne hother _ ix⟩
    · dsimp only
      rw [PyDict.keys_erase hnodup, PyDict.keys_erase (hchunks ▸ hnodup), hchunks]
    · intro other hother
      dsimp only at hother
      rw [PyDict.keys_erase hnodup] at hother
      refine h.apart c other ?_
      rw [documentsOf_of_get? hentry]
      exact List.mem_of_mem_erase hother

theorem passed_reconcileFrom (h : Separated ix) (seen : List Text)
    (documents : List (KnowledgeDocument M)) :
    Passed c ix (reconcileFrom seen c documents ix).2 := by
  induction documents generalizing ix with
  | nil => exact Passed.refl h c
  | cons document documents ih =>
    rw [reconcileFrom]
    split_ifs
    · exact ih h
    · have hremoved := passed_remove (c := c) h document.id
      exact hremoved.trans (ih hremoved.separated)

theorem remove_alike (hsame : get? c ix = get? c ix0) (id : Text) :
    get? c (remove id c ix) = get? c (remove id c ix0) := by
  rw [remove, remove, ← hsame]
  cases hentry : get? c ix with
  | none => exact hsame
  | some entry =>
    dsimp only
    rw [PyDict.get?_set_self, PyDict.get?_set_self]

theorem reconcileFrom_alike (hsame : get? c ix = get? c ix0) (seen : List Text)
    (documents : List (KnowledgeDocument M)) :
    (reconcileFrom seen c documents ix).1 = (reconcileFrom seen c documents ix0).1 ∧
      get? c (reconcileFrom seen c documents ix).2 =
        get? c (reconcileFrom seen c documents ix0).2 := by
  induction documents generalizing ix ix0 with
  | nil => exact ⟨rfl, hsame⟩
  | cons document documents ih =>
    rw [reconcileFrom, reconcileFrom]
    by_cases hseen : document.id ∈ seen
    · rw [if_pos hseen, if_pos hseen]
      exact ih hsame
    · rw [if_neg hseen, if_neg hseen]
      obtain ⟨hremoved, hlater⟩ := ih (remove_alike hsame document.id)
      exact ⟨List.cons_eq_cons.mpr ⟨rfl, hremoved⟩, hlater⟩

end Reconcile

/-! ## A whole pass -/

section Pass

variable (documentChecksum : Text → Text)

/-- The documents that are prepared before one of them raises. -/
def preparedFrom (pass : Pass M C) : List Text → List (Item M C)
  | [] => []
  | reference :: references =>
      match prepare documentChecksum pass reference with
      | .error _ => []
      | .ok item => item.toList ++ preparedFrom pass references

/-- The documents a pass offers to the indexer. -/
def seenBy (pass : Pass M C) : List (Item M C) :=
  match pass.references with
  | .error _ => []
  | .ok references => preparedFrom documentChecksum pass references

variable {documentChecksum} {pass : Pass M C} {ix ix0 : Indexer M C}

theorem passed_indexReferences (references : List Text) (result : IndexResult)
    (seen : List Text) (h : Separated ix)
    (hids : ∀ item ∈ preparedFrom documentChecksum pass references,
      OnlyHere pass.collection item.document.id ix) :
    Passed pass.collection ix
      (indexReferences documentChecksum pass references result seen ix).2 := by
  induction references generalizing result seen ix with
  | nil => exact Passed.refl h _
  | cons reference references ih =>
    rw [preparedFrom] at hids
    rw [indexReferences]
    cases hprepare : prepare documentChecksum pass reference with
    | error e => exact Passed.refl h _
    | ok prepared =>
      rw [hprepare] at hids
      cases prepared with
      | none => exact ih result seen h hids
      | some item =>
        have hfirst := passed_ingest documentChecksum h
          (hids item List.mem_cons_self) item.chunks
        refine hfirst.trans (ih _ _ hfirst.separated ?_)
        intro other hother
        exact (hids other (List.mem_cons_of_mem item hother)).of_elsewhere hfirst.elsewhere

theorem indexReferences_alike (references : List Text) (result : IndexResult)
    (seen : List Text) (h : Separated ix) (h0 : Separated ix0)
    (hsame : get? pass.collection ix = get? pass.collection ix0)
    (hids : ∀ item ∈ preparedFrom documentChecksum pass references,
      OnlyHere pass.collection item.document.id ix)
    (hids0 : ∀ item ∈ preparedFrom documentChecksum pass references,
      OnlyHere pass.collection item.document.id ix0) :
    (indexReferences documentChecksum pass references result seen ix).1 =
        (indexReferences documentChecksum pass references result seen ix0).1 ∧
      get? pass.collection (indexReferences documentChecksum pass references result seen ix).2 =
        get? pass.collection
          (indexReferences documentChecksum pass references result seen ix0).2 := by
  induction references generalizing result seen ix ix0 with
  | nil => exact ⟨rfl, hsame⟩
  | cons reference references ih =>
    rw [preparedFrom] at hids hids0
    rw [indexReferences, indexReferences]
    cases hprepare : prepare documentChecksum pass reference with
    | error e => exact ⟨rfl, hsame⟩
    | ok prepared =>
      rw [hprepare] at hids hids0
      cases prepared with
      | none => exact ih result seen h h0 hsame hids hids0
      | some item =>
        have hitem := hids item List.mem_cons_self
        have hitem0 := hids0 item List.mem_cons_self
        have hpassed := passed_ingest documentChecksum h hitem item.chunks
        have hpassed0 := passed_ingest documentChecksum h0 hitem0 item.chunks
        obtain ⟨hversion, hentry⟩ := ingest_alike documentChecksum h h0 hsame hitem hitem0
          item.chunks
        have hlater := ih (result.tally (ingest documentChecksum pass.collection
          item.document item.chunks ix).1) (seen ++ [item.document.id]) hpassed.separated
          hpassed0.separated hentry
          (fun other hother => (hids other (List.mem_cons_of_mem item hother)).of_elsewhere
            hpassed.elsewhere)
          (fun other hother => (hids0 other (List.mem_cons_of_mem item hother)).of_elsewhere
            hpassed0.elsewhere)
        rw [hversion] at hlater
        dsimp only
        rw [hversion]
        exact hlater

/-- The documents of a collection are nowhere else. -/
theorem onlyHere_of_mem (h : Separated ix) {c : Text} {document : KnowledgeDocument M}
    (hdocument : document ∈ documents c ix) : OnlyHere c document.id ix := by
  refine h.apart c document.id ?_
  by_contra hmem
  have hnone := PyDict.get?_eq_none_iff.mpr hmem
  rw [(mem_documents_iff h.keyed).mp hdocument] at hnone
  cases hnone

/-- What is counted in the end depends on the collection alone. -/
theorem chunks_alike (h : Separated ix) (h0 : Separated ix0) {c : Text}
    (hsame : get? c ix = get? c ix0) : documents c ix = documents c ix0 ∧
      ∀ document ∈ documents c ix, chunks document.id ix = chunks document.id ix0 := by
  have hdocuments : documents c ix = documents c ix0 := by
    rw [documents, documentsOf, hsame, documents, documentsOf]
  refine ⟨hdocuments, fun document hdocument => ?_⟩
  rw [chunks_eq h (onlyHere_of_mem h hdocument),
    chunks_eq h0 (onlyHere_of_mem h0 (hdocuments ▸ hdocument)), chunksOf, hsame, chunksOf]

/-- **A pass leaves the collections apart and the others alone, and what it does to its own
and reports depends on that one only, if no other collection has an id that it sees.** -/
theorem indexCollection_alike (h : Separated ix) (h0 : Separated ix0)
    (hsame : get? pass.collection ix = get? pass.collection ix0)
    (hids : ∀ item ∈ seenBy documentChecksum pass,
      OnlyHere pass.collection item.document.id ix)
    (hids0 : ∀ item ∈ seenBy documentChecksum pass,
      OnlyHere pass.collection item.document.id ix0) :
    Passed pass.collection ix (indexCollection documentChecksum pass ix).2 ∧
      (indexCollection documentChecksum pass ix).1 =
        (indexCollection documentChecksum pass ix0).1 ∧
      get? pass.collection (indexCollection documentChecksum pass ix).2 =
        get? pass.collection (indexCollection documentChecksum pass ix0).2 := by
  rw [seenBy] at hids hids0
  rw [indexCollection, indexCollection]
  cases hreferences : pass.references with
  | error e => exact ⟨Passed.refl h _, rfl, hsame⟩
  | ok references =>
    rw [hreferences] at hids hids0
    have hpassed := passed_indexReferences references
      { documentsSeen := references.length } [] h hids
    have hpassed0 := passed_indexReferences references
      { documentsSeen := references.length } [] h0 hids0
    obtain ⟨houtcome, hentry⟩ := indexReferences_alike references
      { documentsSeen := references.length } [] h h0 hsame hids hids0
    dsimp only
    cases hindex : indexReferences documentChecksum pass references
        { documentsSeen := references.length } [] ix with
    | mk outcome after =>
      cases hindex0 : indexReferences documentChecksum pass references
          { documentsSeen := references.length } [] ix0 with
      | mk outcome0 after0 =>
        rw [hindex] at houtcome hentry hpassed
        rw [hindex0] at houtcome hentry hpassed0
        dsimp only at houtcome hentry hpassed hpassed0
        subst houtcome
        cases outcome with
        | error e => exact ⟨hpassed, rfl, hentry⟩
        | ok ended =>
          obtain ⟨result, seen⟩ := ended
          have hdocuments : documents pass.collection after =
              documents pass.collection after0 :=
            (chunks_alike hpassed.separated hpassed0.separated hentry).1
          have hreconciled := passed_reconcileFrom (c := pass.collection)
            hpassed.separated seen (documents pass.collection after)
          have hreconciled0 := passed_reconcileFrom (c := pass.collection)
            hpassed0.separated seen (documents pass.collection after0)
          obtain ⟨hremoved, hlast⟩ := reconcileFrom_alike hentry seen
            (documents pass.collection after)
          dsimp only [reconcile]
          rw [← hdocuments] at hreconciled0 ⊢
          obtain ⟨hdocuments', hchunks⟩ := chunks_alike hreconciled.separated
            hreconciled0.separated hlast
          refine ⟨hpassed.trans hreconciled, ?_, hlast⟩
          have htotals := List.map_congr_left
            (fun document hdocument => congrArg List.length (hchunks document hdocument))
          rw [hremoved, htotals, hdocuments']

end Pass

/-! ## Passes that skip nothing -/

section Distinct

variable {documentChecksum : Text → Text} {pass : Pass M C} {ix : Indexer M C}

/-- A document that is new when it is offered has a content that no document of the collection
has at that time, and no id stands for two contents. -/
def Distinct (documentChecksum : Text → Text) (collectionId : Text) (ix : Indexer M C)
    (items : List (Item M C)) : Prop :=
  Consistent documentChecksum items ∧
    ∀ before item after, items = before ++ item :: after →
      get? item.document.id (documentsOf collectionId ix) = none →
      item.document.id ∉ before.map (·.document.id) →
        (∀ document ∈ documents collectionId ix,
          document.checksum = item.content documentChecksum →
            document.id ∈ before.map (·.document.id)) ∧
        ∀ other ∈ before, other.content documentChecksum ≠ item.content documentChecksum

/-- The same, said of the collection as a store. -/
theorem Distinct.store {items : List (Item M C)} {c : Text}
    (h : Distinct documentChecksum c ix items) (hkeyed : Keyed ix) :
    Passes.Distinct (contentOf documentChecksum items) (own c ix)
      (items.map (·.document.id)) := by
  intro before id after hsplit hnew hbefore
  obtain ⟨first, rest, hitems, rfl, hrest⟩ := List.map_eq_append_iff.mp hsplit
  obtain ⟨item, last, rfl, rfl, rfl⟩ := List.map_eq_cons_iff.mp hrest
  have hitem : item ∈ items := by
    rw [hitems]
    exact List.mem_append_right first List.mem_cons_self
  obtain ⟨howners, hothers⟩ := h.2 first item last hitems (Option.map_eq_none_iff.mp hnew) hbefore
  rw [contentOf_eq h.1 hitem]
  constructor
  · intro id hid
    obtain ⟨document, hdocument, hcontent⟩ := own_eq_some_iff.mp hid
    have hsame := hkeyed.id c id document hdocument
    rw [← hsame]
    exact howners document ((mem_documents_iff hkeyed).mpr (by rwa [hsame])) hcontent
  · intro id hid
    obtain ⟨other, hother, rfl⟩ := List.mem_map.mp hid
    rw [contentOf_eq h.1 (by rw [hitems]; exact List.mem_append_left _ hother)]
    exact hothers other hother

theorem ownBefore_eq_none {c id : Text}
    (h : ∀ item ∈ ix, item.1 ≠ c → get? id item.2.documents = none) : ownBefore c ix id = none := by
  induction ix with
  | nil => rfl
  | cons item rest ih =>
    obtain ⟨name, entry⟩ := item
    rw [ownBefore]
    split_ifs with hname
    · rfl
    · rw [h (name, entry) List.mem_cons_self hname, Option.map_none, Option.none_or]
      exact ih fun other hother => h other (List.mem_cons_of_mem _ hother)

theorem ownAfter_eq_none {c id : Text} (hnodup : (keys ix).Nodup)
    (h : ∀ item ∈ ix, item.1 ≠ c → get? id item.2.documents = none) : ownAfter c ix id = none := by
  induction ix with
  | nil => rfl
  | cons item rest ih =>
    obtain ⟨name, entry⟩ := item
    obtain ⟨hnew, hnodup⟩ := List.nodup_cons.mp hnodup
    have hrest := fun other hother => h other (List.mem_cons_of_mem (name, entry) hother)
    rw [ownAfter]
    split_ifs with hname
    · rw [Option.map_eq_none_iff, getDocument, List.findSome?_eq_none_iff]
      intro other hother
      refine hrest other hother ?_
      intro hsame
      have hmem := List.mem_map_of_mem (f := Prod.fst) hother
      rw [hsame, ← hname] at hmem
      exact hnew hmem
    · exact ih hnodup hrest

/-- An id that is nowhere else has no neighbours. -/
theorem neighbours_eq_none (h : Separated ix) {c id : Text} (hid : OnlyHere c id ix) :
    (neighbours c ix).before id = none ∧ (neighbours c ix).after id = none := by
  have hother : ∀ item ∈ ix, item.1 ≠ c → get? id item.2.documents = none := by
    intro item hitem hname
    exact PyDict.get?_eq_none_iff.mpr
      (hid item.1 item.2 hname ((PyDict.get?_eq_some_iff h.nodup).mpr hitem))
  exact ⟨ownBefore_eq_none hother, ownAfter_eq_none h.nodup hother⟩

theorem seenBy_eq {items : List (Item M C)} (hitems : pass.items documentChecksum = .ok items) :
    seenBy documentChecksum pass = items := by
  rw [seenBy]
  cases hreferences : pass.references with
  | error e =>
    rw [Pass.items, hreferences] at hitems
    cases hitems
  | ok references =>
    rw [Pass.items, hreferences] at hitems
    have hprepared : prepareAll documentChecksum pass references = .ok items := hitems
    clear hitems hreferences
    dsimp only
    induction references generalizing items with
    | nil =>
      obtain rfl := Except.ok.inj hprepared
      rfl
    | cons reference references ih =>
      rw [prepareAll] at hprepared
      rw [preparedFrom]
      cases hitem : prepare documentChecksum pass reference with
      | error e =>
        rw [hitem] at hprepared
        cases hprepared
      | ok item =>
        rw [hitem] at hprepared
        cases hrest : prepareAll documentChecksum pass references with
        | error e =>
          rw [hrest] at hprepared
          cases hprepared
        | ok rest =>
          rw [hrest] at hprepared
          obtain rfl := Except.ok.inj hprepared
          rw [ih hrest]

/-- What a collection has after such a pass: the documents that were seen, with their
contents. -/
theorem own_after (h : Separated ix) {items : List (Item M C)}
    (hitems : pass.items documentChecksum = .ok items)
    (hids : ∀ item ∈ items, OnlyHere pass.collection item.document.id ix)
    (hdistinct : Distinct documentChecksum pass.collection ix items) (id : Text) :
    own pass.collection (indexCollection documentChecksum pass ix).2 id =
      if id ∈ items.map (·.document.id) then some (contentOf documentChecksum items id)
      else none := by
  rw [own_indexCollection h.keyed hitems fun item hitem => contentOf_eq hdistinct.1 hitem]
  by_cases hid : id ∈ items.map (·.document.id)
  · rw [if_pos hid, if_pos hid]
    refine Passes.pass_all ?_ (hdistinct.store h.keyed) hid
    intro other hother
    obtain ⟨item, hitem, rfl⟩ := List.mem_map.mp hother
    exact neighbours_eq_none h (hids item hitem)
  · rw [if_neg hid, if_neg hid]

theorem ingest_unchanged {c : Text} {document existing : KnowledgeDocument M} (chunks : List C)
    (hexisting : getDocument document.id ix = some existing)
    (hsame : existing.checksum = checksumOf documentChecksum document) :
    ∃ version, ingest documentChecksum c document chunks ix = (version, ix) ∧
      version.documentId = document.id ∧ version.change = .unchanged := by
  rw [ingest]
  simp only [hexisting, KnowledgeIndex.decide, if_pos hsame, true_or, if_true]
  exact ⟨_, rfl, rfl, rfl⟩

/-- What a report says about the documents. -/
def changes (result : IndexResult) : List (Text × KnowledgeChange) :=
  result.versions.map fun version => (version.documentId, version.change)

theorem versions_tally (result : IndexResult) (version : KnowledgeVersion) :
    (result.tally version).versions = result.versions ++ [version] := by
  rw [IndexResult.tally]
  cases version.change <;> rfl

/-- A pass over documents that are there as they are. -/
theorem indexReferences_unchanged (references : List Text) {items : List (Item M C)}
    (hitems : prepareAll documentChecksum pass references = .ok items)
    (hthere : ∀ item ∈ items, ∃ existing, getDocument item.document.id ix = some existing ∧
      existing.checksum = item.content documentChecksum)
    (result : IndexResult) (seen : List Text) :
    ∃ result', indexReferences documentChecksum pass references result seen ix =
        (.ok (result', seen ++ items.map (·.document.id)), ix) ∧
      changes result' = changes result ++
        items.map fun item => (item.document.id, .unchanged) := by
  induction references generalizing items result seen with
  | nil =>
    obtain rfl := Except.ok.inj hitems
    exact ⟨result, by simp [indexReferences], by simp⟩
  | cons reference references ih =>
    rw [prepareAll] at hitems
    cases hprepare : prepare documentChecksum pass reference with
    | error e =>
      rw [hprepare] at hitems
      cases hitems
    | ok prepared =>
      rw [hprepare] at hitems
      cases hrest : prepareAll documentChecksum pass references with
      | error e =>
        rw [hrest] at hitems
        cases hitems
      | ok rest =>
        rw [hrest] at hitems
        obtain rfl := Except.ok.inj hitems
        cases prepared with
        | none =>
          simp only [indexReferences, hprepare]
          exact ih hrest hthere result seen
        | some item =>
          obtain ⟨existing, hexisting, hsame⟩ := hthere item List.mem_cons_self
          obtain ⟨version, hingest, hid, hchange⟩ := ingest_unchanged
            (c := pass.collection) item.chunks hexisting hsame
          obtain ⟨result', hindex, hchanges⟩ := ih hrest
            (fun other hother => hthere other (List.mem_cons_of_mem item hother))
            (result.tally version) (seen ++ [item.document.id])
          simp only [indexReferences, hprepare, hingest]
          refine ⟨result', ?_, ?_⟩
          · rw [hindex, List.append_assoc]
            rfl
          · rw [hchanges, changes, versions_tally, List.map_append, List.append_assoc,
              changes]
            simp [hid, hchange]

theorem reconcileFrom_seen {c : Text} {seen : List Text} {documents : List (KnowledgeDocument M)}
    (h : ∀ document ∈ documents, document.id ∈ seen) :
    reconcileFrom seen c documents ix = ([], ix) := by
  induction documents with
  | nil => rfl
  | cons document documents ih =>
    rw [reconcileFrom, if_pos (h document List.mem_cons_self)]
    exact ih fun other hother => h other (List.mem_cons_of_mem document hother)

/-- A pass that finds its documents as they are, and no others, reports them as unchanged. -/
theorem indexCollection_unchanged {items : List (Item M C)}
    (hitems : pass.items documentChecksum = .ok items)
    (hthere : ∀ item ∈ items, ∃ existing, getDocument item.document.id ix = some existing ∧
      existing.checksum = item.content documentChecksum)
    (hothers : ∀ document ∈ documents pass.collection ix,
      document.id ∈ items.map (·.document.id)) :
    ∃ again, (indexCollection documentChecksum pass ix).1 = .ok again ∧
      changes again = items.map fun item => (item.document.id, .unchanged) := by
  rw [indexCollection]
  cases hreferences : pass.references with
  | error e =>
    rw [Pass.items, hreferences] at hitems
    cases hitems
  | ok references =>
    rw [Pass.items, hreferences] at hitems
    obtain ⟨result, hindex, hchanges⟩ := indexReferences_unchanged references hitems hthere
      { documentsSeen := references.length } []
    rw [List.nil_append] at hindex
    have hreconcile : reconcile (items.map (·.document.id)) pass.collection ix = ([], ix) :=
      reconcileFrom_seen hothers
    simp only [hindex, hreconcile]
    refine ⟨_, rfl, ?_⟩
    rw [changes, List.append_nil]
    exact hchanges

end Distinct

/-! ## Runs -/

/-- An indexer after some passes, with what they reported. -/
structure Indexings (M C : Type) where
  index : Indexer M C := []
  reports : List (Pass M C × Except Text IndexResult) := []

section Run

variable (documentChecksum : Text → Text)

/-- One pass; an exception ends it where it is. -/
def stepPass (pass : Pass M C) (s : Indexings M C) : Option (Indexings M C) :=
  some
    { index := (indexCollection documentChecksum pass s.index).2
      reports := s.reports ++ [(pass, (indexCollection documentChecksum pass s.index).1)] }

/-- The passes over one collection. -/
def passesOver (collectionId : Text) (passes : List (Pass M C)) : List (Pass M C) :=
  passes.filter fun pass => pass.collection = collectionId

/-- Each collection has the documents, the chunks and the reports that its own passes alone
would have led to, and the chunks of its documents are those it has. -/
def Independent (passes : List (Pass M C)) (s : Indexings M C) : Prop :=
  ∀ c, ∃ alone, Runs.run (stepPass documentChecksum) (passesOver c passes) {} = some alone ∧
    documents c s.index = documents c alone.index ∧
    (∀ document ∈ documents c s.index,
      chunks document.id s.index = chunks document.id alone.index ∧
      chunks document.id s.index = (get? document.id (chunksOf c s.index)).getD []) ∧
    s.reports.filter (fun report => report.1.collection = c) = alone.reports

/-- The documents that the latest pass saw are in its collection with their contents. -/
def Stored (s : Indexings M C) : Prop :=
  ∀ pass result, s.reports.getLast? = some (pass, .ok result) →
    ∀ items, pass.items documentChecksum = .ok items →
      ∀ item ∈ items, ∃ document ∈ documents pass.collection s.index,
        document.id = item.document.id ∧ document.checksum = item.content documentChecksum

/-- The latest pass, repeated with the same content, reports each document as unchanged. -/
def Repeatable (s : Indexings M C) : Prop :=
  ∀ pass result, s.reports.getLast? = some (pass, .ok result) →
    ∀ items, pass.items documentChecksum = .ok items →
      ∃ again, (indexCollection documentChecksum pass s.index).1 = .ok again ∧
        changes again = items.map fun item => (item.document.id, .unchanged)

/-- No other collection has a document under an id that the pass sees. -/
def Unshared (s : Indexings M C) (pass : Pass M C) : Prop :=
  ∀ item ∈ seenBy documentChecksum pass, OnlyHere pass.collection item.document.id s.index

/-- And nothing that the pass sees, if it ends, is a duplicate. -/
def Unrepeated (s : Indexings M C) (pass : Pass M C) : Prop :=
  Unshared documentChecksum s pass ∧ ∀ items, pass.items documentChecksum = .ok items →
    Distinct documentChecksum pass.collection s.index items

variable {documentChecksum}

/-- A collection among others, and on its own. -/
structure Apart (c : Text) (s alone : Indexings M C) : Prop where
  separated : Separated s.index
  separated_alone : Separated alone.index
  only : ∀ other, other ≠ c → get? other alone.index = none
  same : get? c s.index = get? c alone.index
  reports : s.reports.filter (fun report => report.1.collection = c) = alone.reports

theorem apart_empty (c : Text) : Apart c ({} : Indexings M C) {} :=
  ⟨separated_empty, separated_empty, fun _ _ => rfl, rfl, rfl⟩

/-- A pass over the collection. -/
theorem Apart.own {c : Text} {s alone : Indexings M C} (h : Apart c s alone) {pass : Pass M C}
    (hpass : pass.collection = c) (hunshared : Unshared documentChecksum s pass) :
    Apart c
      { index := (indexCollection documentChecksum pass s.index).2
        reports := s.reports ++ [(pass, (indexCollection documentChecksum pass s.index).1)] }
      { index := (indexCollection documentChecksum pass alone.index).2
        reports := alone.reports ++
          [(pass, (indexCollection documentChecksum pass alone.index).1)] } := by
  subst hpass
  have halone : ∀ item ∈ seenBy documentChecksum pass,
      OnlyHere pass.collection item.document.id alone.index := by
    intro item _ other entry hother hentry
    rw [h.only other hother] at hentry
    cases hentry
  obtain ⟨hpassed, houtcome, hsame⟩ := indexCollection_alike h.separated h.separated_alone h.same
    hunshared halone
  obtain ⟨hpassed0, -, -⟩ := indexCollection_alike h.separated_alone h.separated h.same.symm
    halone hunshared
  refine ⟨hpassed.separated, hpassed0.separated, ?_, hsame, ?_⟩
  · intro other hother
    exact (hpassed0.elsewhere other hother).trans (h.only other hother)
  · rw [List.filter_append, h.reports, houtcome]
    simp

/-- A pass over another collection. -/
theorem Apart.other {c : Text} {s alone : Indexings M C} (h : Apart c s alone)
    {pass : Pass M C} (hpass : pass.collection ≠ c)
    (hunshared : Unshared documentChecksum s pass) :
    Apart c
      { index := (indexCollection documentChecksum pass s.index).2
        reports := s.reports ++ [(pass, (indexCollection documentChecksum pass s.index).1)] }
      alone := by
  obtain ⟨hpassed, -, -⟩ := indexCollection_alike h.separated h.separated rfl hunshared hunshared
  refine ⟨hpassed.separated, h.separated_alone, h.only, ?_, ?_⟩
  · exact (hpassed.elsewhere c (Ne.symm hpass)).trans h.same
  · rw [List.filter_append, h.reports]
    simp [hpass]

/-- A whole run, and the passes of it that are over the collection. -/
theorem Apart.run {c : Text} {passes : List (Pass M C)} {s s' alone : Indexings M C}
    (h : Apart c s alone) (hmeets : Runs.Meets (stepPass documentChecksum)
      (Unshared documentChecksum) passes s)
    (hrun : Runs.run (stepPass documentChecksum) passes s = some s') :
    ∃ alone', Runs.run (stepPass documentChecksum) (passesOver c passes) alone = some alone' ∧
      Apart c s' alone' := by
  induction passes generalizing s alone with
  | nil =>
    obtain rfl := Option.some.inj hrun
    exact ⟨alone, rfl, h⟩
  | cons pass passes ih =>
    obtain ⟨hunshared, hmeets⟩ := hmeets
    by_cases hpass : pass.collection = c
    · obtain ⟨alone', hrun', hapart⟩ := ih (h.own hpass hunshared) (hmeets _ rfl) hrun
      refine ⟨alone', ?_, hapart⟩
      rw [passesOver, List.filter_cons_of_pos (by simpa using hpass)]
      exact hrun'
    · obtain ⟨alone', hrun', hapart⟩ := ih (h.other hpass hunshared) (hmeets _ rfl) hrun
      refine ⟨alone', ?_, hapart⟩
      rw [passesOver, List.filter_cons_of_neg (by simpa using hpass)]
      exact hrun'

theorem independent_of_unshared {passes : List (Pass M C)} {s : Indexings M C}
    (hmeets : Runs.Meets (stepPass documentChecksum) (Unshared documentChecksum) passes {})
    (hrun : Runs.run (stepPass documentChecksum) passes {} = some s) :
    Independent documentChecksum passes s := by
  intro c
  obtain ⟨alone, hrun', hapart⟩ := (apart_empty c).run hmeets hrun
  obtain ⟨hdocuments, hchunks⟩ := chunks_alike hapart.separated hapart.separated_alone hapart.same
  refine ⟨alone, hrun', hdocuments, fun document hdocument => ⟨hchunks document hdocument, ?_⟩,
    hapart.reports⟩
  exact chunks_eq hapart.separated (onlyHere_of_mem hapart.separated hdocument)

/-- What holds of the states of a run whose passes see no duplicates. -/
structure Settled (documentChecksum : Text → Text) (s : Indexings M C) : Prop where
  separated : Separated s.index
  stored : Stored documentChecksum s
  repeatable : Repeatable documentChecksum s

theorem settled_empty : Settled documentChecksum ({} : Indexings M C) := by
  refine ⟨separated_empty, ?_, ?_⟩
  · intro pass result hlatest
    cases hlatest
  · intro pass result hlatest
    cases hlatest

/-- One such pass. -/
theorem settled_step {s s' : Indexings M C} {pass : Pass M C} (h : Separated s.index)
    (hunrepeated : Unrepeated documentChecksum s pass)
    (hstep : stepPass documentChecksum pass s = some s') : Settled documentChecksum s' := by
  obtain rfl := Option.some.inj hstep
  obtain ⟨hunshared, hdistinct⟩ := hunrepeated
  obtain ⟨hpassed, -, -⟩ := indexCollection_alike h h rfl hunshared hunshared
  have hthere : ∀ items, pass.items documentChecksum = .ok items → ∀ item ∈ items,
      ∃ document, get? item.document.id (documentsOf pass.collection
        (indexCollection documentChecksum pass s.index).2) = some document ∧
        document.checksum = item.content documentChecksum := by
    intro items hitems item hitem
    rw [Unshared, seenBy_eq hitems] at hunshared
    have hown := own_after h hitems hunshared (hdistinct items hitems) item.document.id
    rw [if_pos (List.mem_map_of_mem (f := (·.document.id)) hitem),
      contentOf_eq (hdistinct items hitems).1 hitem] at hown
    exact own_eq_some_iff.mp hown
  refine ⟨hpassed.separated, ?_, ?_⟩
  · intro latest result hlatest items hitems item hitem
    rw [List.getLast?_concat] at hlatest
    obtain ⟨rfl, -⟩ := Prod.mk.inj (Option.some.inj hlatest)
    obtain ⟨document, hdocument, hcontent⟩ := hthere items hitems item hitem
    have hid := hpassed.separated.keyed.id _ _ document hdocument
    exact ⟨document, (mem_documents_iff hpassed.separated.keyed).mpr (by rwa [hid]), hid,
      hcontent⟩
  · intro latest result hlatest items hitems
    rw [List.getLast?_concat] at hlatest
    obtain ⟨rfl, -⟩ := Prod.mk.inj (Option.some.inj hlatest)
    rw [Unshared, seenBy_eq hitems] at hunshared
    refine indexCollection_unchanged hitems ?_ ?_
    · intro item hitem
      obtain ⟨document, hdocument, hcontent⟩ := hthere items hitems item hitem
      refine ⟨document, ?_, hcontent⟩
      rw [getDocument_eq hpassed.separated
        ((hunshared item hitem).of_elsewhere hpassed.elsewhere)]
      exact hdocument
    · intro document hdocument
      by_contra hmem
      have hown := own_after h hitems hunshared (hdistinct items hitems) document.id
      rw [if_neg hmem, own, Option.map_eq_none_iff,
        (mem_documents_iff hpassed.separated.keyed).mp hdocument] at hown
      cases hown

/-- **Over every run whose passes see no ids that other collections have, each collection has
the documents, chunks and reports that its own passes alone lead to; if the passes see no
duplicates either, each pass that ends has stored what it saw, and would find it unchanged.** -/
theorem separate_of_unshared (documentChecksum : Text → Text) (passes : List (Pass M C))
    (s : Indexings M C) (hrun : Runs.run (stepPass documentChecksum) passes {} = some s) :
    (Runs.Meets (stepPass documentChecksum) (Unshared documentChecksum) passes {} →
      Independent documentChecksum passes s) ∧
    (Runs.Meets (stepPass documentChecksum) (Unrepeated documentChecksum) passes {} →
      Independent documentChecksum passes s ∧ Stored documentChecksum s ∧
        Repeatable documentChecksum s) := by
  refine ⟨fun hmeets => independent_of_unshared hmeets hrun, fun hmeets => ?_⟩
  have hunshared : Runs.Meets (stepPass documentChecksum) (Unshared documentChecksum) passes {} :=
    hmeets.imp (I := fun _ => True) (fun _ _ _ _ _ _ => trivial)
      (fun _ _ _ hunrepeated => hunrepeated.1) trivial
  have hsettled : Settled documentChecksum s :=
    Runs.run_invariant
      (fun s pass s' (h : Settled documentChecksum s) hunrepeated hstep =>
        settled_step h.separated hunrepeated hstep)
      settled_empty hmeets hrun
  exact ⟨independent_of_unshared hunshared hrun, hsettled.stored, hsettled.repeatable⟩

end Run

/-! ## Two collections over one source -/

/-- Both collections see the document. -/
theorem shared_document_lost :
    ¬ ∀ (passes : List (Pass Unit Text)) (s : Indexings Unit Text),
      Runs.run (stepPass id) passes {} = some s →
        Independent id passes s ∧ Stored id s ∧ Repeatable id s := by
  intro h
  have hstored := (h [copiesPass ["a.txt".toList],
    { copiesPass ["a.txt".toList] with collection := "wiki".toList }] _ rfl).2.1
  obtain ⟨document, hmem, -⟩ := hstored _ _ rfl _ rfl _ List.mem_cons_self
  cases hmem

theorem distinct_singleton {documentChecksum : Text → Text} {c : Text} {ix : Indexer M C}
    (h : documents c ix = []) (item : Item M C) : Distinct documentChecksum c ix [item] := by
  constructor
  · intro first hfirst second hsecond _
    rw [List.mem_singleton.mp hfirst, List.mem_singleton.mp hsecond]
  · intro before other after hsplit _ _
    cases before with
    | nil =>
      rw [h]
      exact ⟨nofun, nofun⟩
    | cons first rest =>
      have hlength := congrArg List.length hsplit
      simp at hlength

/-- Each collection sees a document of its own. -/
theorem own_documents_kept : ∃ s, Runs.run (stepPass id) [copiesPass ["a.txt".toList],
      { copiesPass ["b.txt".toList] with collection := "wiki".toList }] {} = some s ∧
    Independent id [copiesPass ["a.txt".toList],
      { copiesPass ["b.txt".toList] with collection := "wiki".toList }] s ∧ Stored id s ∧
    Repeatable id s := by
  refine ⟨_, rfl, (separate_of_unshared id _ _ rfl).2 ⟨⟨nofun, ?_⟩, ?_⟩⟩
  · intro items hitems
    obtain rfl := Except.ok.inj (Eq.symm hitems)
    exact distinct_singleton rfl _
  · intro s hs
    obtain rfl := Option.some.inj (Eq.symm hs)
    refine ⟨⟨?_, ?_⟩, fun _ _ => trivial⟩
    · intro item hitem other entry hother hentry
      obtain rfl := List.mem_singleton.mp hitem
      by_cases hname : other = "notes".toList
      · subst hname
        obtain rfl := Option.some.inj hentry
        decide
      · have hnone := hentry.symm.trans (if_neg (Ne.symm hname))
        cases hnone
    · intro items hitems
      obtain rfl := Except.ok.inj (Eq.symm hitems)
      exact distinct_singleton rfl _

end OpenWrtCopilot.Ports.KnowledgeSharing
