import OpenWrtCopilot.Ports.KnowledgeIndex
import OpenWrtCopilot.Ports.KnowledgeText
import OpenWrtCopilot.Verified.PyWordwise
import OpenWrtCopilot.Verified.UciReading

/-!
# Checksums of documents

Ports `canonical_text` and `document_checksum`, and what an indexer makes of a new text by them.
The canonical form lowercases the normalized text and removes its punctuation, also within the
words, so that texts with different numbers or addresses may have one checksum.

## Main results

* `canonicalText_eq` — the canonical form has the bare words of the text, with single spaces.
* `stamped_run` — a stored document carries the checksum of its text.
* `noticed_iff` — when a new text is noticed.
-/

namespace OpenWrtCopilot.Ports.KnowledgeChecksums

open Verified
open Verified.PyDict (Dict get? keys)
open Verified.PyText
open Verified.UciReading (WordClass)
open Ports.KnowledgeText (NormalForm normalizeText)
open Ports.KnowledgeIndex
open Ports.KnowledgeIndex.Indexer

/-! ## The canonical form -/

/-- What the checksum of a text depends on besides the text: the normal form NFC, `str.lower`,
which works word by word (also a final sigma is final before a space), `\w`, and `sha256_hex`,
whose digests are not empty. -/
structure Tables where
  nfc : NormalForm
  lower : Text → Text
  lower_wordwise : Wordwise lower
  words : WordClass
  sha256Hex : Text → Text
  sha256Hex_ne_nil : ∀ t, sha256Hex t ≠ []

section Canonical

variable (tables : Tables)

/-- `_NON_ALNUM.sub("", t)`. -/
def stripPunctuation (t : Text) : Text :=
  t.filter fun c => tables.words.isWord c || isSpace c

/-- `canonical_text`. -/
def canonicalText (text : Text) : Text :=
  let normalized := normalizeText tables.nfc text
  let normalized := tables.lower normalized
  let normalized := stripPunctuation tables normalized
  strip (collapseSpaces normalized)

/-- `document_checksum`. -/
def documentChecksum (text : Text) : Text := tables.sha256Hex (canonicalText tables text)

/-! ## Words -/

/-- The words of the normalized text. -/
def wordsOf (text : Text) : List Text := words (normalizeText tables.nfc text)

/-- A word without its letter case, and without leading and trailing punctuation. -/
def core (word : Text) : Text :=
  let outer (c : Char) : Bool := !(tables.words.isWord c || isSpace c)
  ((tables.lower word).dropWhile outer).rdropWhile outer

/-- Two texts differ in some word by more than letter case and punctuation around it. -/
def Differ (a b : Text) : Prop :=
  (wordsOf tables a).map (core tables) ≠ (wordsOf tables b).map (core tables)

/-- The words without their letter case and without any punctuation, where something is left. -/
def bareWords (text : Text) : List Text :=
  let bare (word : Text) : Text := stripPunctuation tables (tables.lower word)
  ((wordsOf tables text).map bare).filter (· ≠ [])

theorem wordwise_bare : Wordwise fun t => stripPunctuation tables (tables.lower t) := by
  refine Wordwise.comp (wordwise_filter fun c hc => ?_) tables.lower_wordwise
  rw [hc, Bool.or_true]

/-- **The canonical form has the bare words of the text, with single spaces.** -/
theorem canonicalText_eq (text : Text) :
    canonicalText tables text = join [' '] (bareWords tables text) := by
  rw [canonicalText, strip_collapseSpaces, (wordwise_bare tables).words]
  rfl

theorem words_canonicalText (text : Text) :
    words (canonicalText tables text) = bareWords tables text := by
  rw [canonicalText, strip_collapseSpaces, words_join_words, (wordwise_bare tables).words]
  rfl

theorem canonicalText_eq_iff (a b : Text) :
    canonicalText tables a = canonicalText tables b ↔ bareWords tables a = bareWords tables b := by
  constructor
  · intro h
    rw [← words_canonicalText, h, words_canonicalText]
  · intro h
    rw [canonicalText_eq, h, canonicalText_eq]

end Canonical

/-! ## Runs of an indexer -/

section Index

variable {M C : Type} (tables : Tables)

/-- A document whose checksum is still to be computed, or is that of its text. -/
def Unstamped (document : KnowledgeDocument M) : Prop :=
  document.checksum = [] ∨ document.checksum = documentChecksum tables document.text

/-- What is done to an indexer. -/
inductive Action (M C : Type)
  | ingest (collectionId : Text) (document : KnowledgeDocument M) (chunks : List C)
  | reconcile (seen : List Text) (collectionId : Text)

/-- What the manager does: documents come without a checksum. -/
def Action.FromManager : Action M C → Prop
  | .ingest _ document _ => Unstamped tables document
  | .reconcile _ _ => True

def step : Action M C → Indexer M C → Option (Indexer M C)
  | .ingest collectionId document chunks, ix =>
      some (ingest (documentChecksum tables) collectionId document chunks ix).2
  | .reconcile seen collectionId, ix => some (reconcile seen collectionId ix).2

/-- All documents of all collections carry the checksums of their texts. -/
def AllStamped (ix : Indexer M C) : Prop :=
  ∀ item ∈ ix, ∀ entry ∈ item.2.documents,
    entry.2.checksum = documentChecksum tables entry.2.text

variable {tables} {ix : Indexer M C} {collectionId : Text}

theorem checksumOf_unstamped {document : KnowledgeDocument M} (h : Unstamped tables document) :
    checksumOf (documentChecksum tables) document = documentChecksum tables document.text := by
  rw [checksumOf, orText]
  obtain h | h := h
  · rw [h, if_neg fun h => h rfl]
  · rw [h, ite_self]

theorem AllStamped.set (h : AllStamped tables ix) {entry : Entry M C}
    (hentry : ∀ item ∈ entry.documents,
      item.2.checksum = documentChecksum tables item.2.text) :
    AllStamped tables (PyDict.set collectionId entry ix) := by
  intro item hitem
  obtain rfl | hold := PyDict.mem_set hitem
  · exact hentry
  · exact h item hold

theorem AllStamped.entry (h : AllStamped tables ix) :
    ∀ item ∈ ((get? collectionId ix).getD {}).documents,
      item.2.checksum = documentChecksum tables item.2.text := by
  cases hentry : get? collectionId ix with
  | none => exact nofun
  | some entry => exact h _ (PyDict.mem_of_get? hentry)

theorem AllStamped.recordVersion (h : AllStamped tables ix) (version : KnowledgeVersion) :
    AllStamped tables (recordVersion collectionId version ix) := h.set h.entry

theorem AllStamped.store (h : AllStamped tables ix) {document : KnowledgeDocument M}
    (hdocument : document.checksum = documentChecksum tables document.text) (chunks : List C) :
    AllStamped tables (store collectionId document chunks ix) := by
  refine h.set fun item hitem => ?_
  obtain rfl | hold := PyDict.mem_set hitem
  · exact hdocument
  · exact h.entry item hold

theorem checksum_decide (document : KnowledgeDocument M) (existing : Option (KnowledgeDocument M)) :
    (KnowledgeIndex.decide (documentChecksum tables) collectionId document existing ix).checksum =
      checksumOf (documentChecksum tables) document := by
  unfold KnowledgeIndex.decide
  dsimp only
  split
  · split
    · split <;> rfl
    · rfl
  · split <;> rfl

theorem checksum_ingest (document : KnowledgeDocument M) (chunks : List C) :
    (ingest (documentChecksum tables) collectionId document chunks ix).1.checksum =
      checksumOf (documentChecksum tables) document := by
  rw [ingest]
  dsimp only
  split
  · exact checksum_decide document _
  · exact checksum_decide document _

theorem AllStamped.ingest (h : AllStamped tables ix) {document : KnowledgeDocument M}
    (hdocument : Unstamped tables document) (chunks : List C) :
    AllStamped tables
      (ingest (documentChecksum tables) collectionId document chunks ix).2 := by
  have hchecksum : (KnowledgeIndex.decide (documentChecksum tables) collectionId document
      (getDocument document.id ix) ix).checksum = documentChecksum tables document.text := by
    rw [checksum_decide, checksumOf_unstamped hdocument]
  rw [KnowledgeIndex.ingest]
  dsimp only
  split
  · exact h
  · exact (h.store hchecksum chunks).recordVersion _

theorem AllStamped.remove (h : AllStamped tables ix) (id : Text) :
    AllStamped tables (remove id collectionId ix) := by
  rw [Indexer.remove]
  cases hentry : get? collectionId ix with
  | none => exact h
  | some entry =>
    refine h.set fun item hitem => ?_
    exact h _ (PyDict.mem_of_get? hentry) item (List.mem_of_mem_filter hitem)

theorem AllStamped.reconcileFrom (h : AllStamped tables ix) (seen : List Text)
    (documents : List (KnowledgeDocument M)) :
    AllStamped tables (reconcileFrom seen collectionId documents ix).2 := by
  induction documents generalizing ix with
  | nil => exact h
  | cons document documents ih =>
    rw [KnowledgeIndex.reconcileFrom]
    split
    · exact ih h
    · exact ih (h.remove document.id)

/-- Documents are kept under their ids, with the checksums of their texts. -/
structure Stamped (tables : Tables) (ix : Indexer M C) : Prop where
  keyed : Keyed ix
  all : AllStamped tables ix

theorem stamped_empty : Stamped tables ([] : Indexer M C) := ⟨keyed_empty, nofun⟩

theorem stamped_step {ix' : Indexer M C} {action : Action M C} (h : Stamped tables ix)
    (haction : action.FromManager tables) (hstep : step tables action ix = some ix') :
    Stamped tables ix' := by
  cases action with
  | ingest collectionId document chunks =>
    obtain rfl := Option.some.inj hstep
    have hoffered : Offered collectionId
        (fun _ => checksumOf (documentChecksum tables) document) [document.id] ix
        (ingest (documentChecksum tables) collectionId document chunks ix).2 :=
      ingest_offered h.keyed document chunks rfl
    exact ⟨hoffered.keyed, h.all.ingest haction chunks⟩
  | reconcile seen collectionId =>
    obtain rfl := Option.some.inj hstep
    exact ⟨keyed_reconcile h.keyed seen collectionId, h.all.reconcileFrom seen _⟩

/-- **A stored document carries the checksum of its text, after every run.** -/
theorem stamped_run {actions : List (Action M C)} (hactions : ∀ a ∈ actions, a.FromManager tables)
    (hrun : Runs.run (step tables) actions [] = some ix) : Stamped tables ix :=
  Runs.run_invariant (fun _ _ _ h hC hstep => stamped_step h hC hstep) stamped_empty
    (Runs.meets_of_forall hactions _) hrun

/-! ## Looking documents up -/

theorem mem_entry {document : KnowledgeDocument M}
    (hmem : document ∈ documents collectionId ix) :
    ∃ item ∈ ix, ∃ id, (id, document) ∈ item.2.documents := by
  obtain ⟨⟨id, _⟩, hitem, rfl⟩ := List.mem_map.mp hmem
  rw [← documents_getD] at hitem
  cases hentry : get? collectionId ix with
  | none =>
    rw [hentry] at hitem
    cases hitem
  | some entry =>
    rw [hentry] at hitem
    exact ⟨_, PyDict.mem_of_get? hentry, id, hitem⟩

/-- A stored document, or another one of its id, is found. -/
theorem exists_found (h : Keyed ix) {document : KnowledgeDocument M}
    (hmem : document ∈ documents collectionId ix) :
    ∃ found, getDocument document.id ix = some found := by
  have hget := (mem_documents_iff h).mp hmem
  rw [← documents_getD] at hget
  cases hentry : get? collectionId ix with
  | none =>
    rw [hentry] at hget
    cases hget
  | some entry =>
    rw [hentry] at hget
    have hsome : (getDocument document.id ix).isSome = true := by
      rw [getDocument, List.findSome?_isSome_iff]
      exact ⟨_, PyDict.mem_of_get? hentry, Option.isSome_iff_exists.mpr ⟨document, hget⟩⟩
    exact Option.isSome_iff_exists.mp hsome

theorem checksum_found (h : AllStamped tables ix) {id : Text} {found : KnowledgeDocument M}
    (hfound : getDocument id ix = some found) :
    found.checksum = documentChecksum tables found.text := by
  obtain ⟨item, hitem, hget⟩ := List.exists_of_findSome?_eq_some hfound
  exact h item hitem _ (PyDict.mem_of_get? hget)

theorem checksum_stored (h : AllStamped tables ix) {document : KnowledgeDocument M}
    (hmem : document ∈ documents collectionId ix) :
    document.checksum = documentChecksum tables document.text := by
  obtain ⟨item, hitem, id, hentry⟩ := mem_entry hmem
  exact h item hitem _ hentry

/-- There is always a new id. -/
theorem exists_new (ix : Indexer M C) : ∃ id, getDocument id ix = none := by
  obtain ⟨id, hid⟩ := Infinite.exists_notMem_finset
    (ix.flatMap fun item => keys item.2.documents).toFinset
  rw [List.mem_toFinset, List.mem_flatMap] at hid
  refine ⟨id, List.findSome?_eq_none_iff.mpr fun item hitem => ?_⟩
  exact PyDict.get?_eq_none_iff.mpr fun hmem => hid ⟨item, hitem, hmem⟩

/-! ## New texts -/

variable (tables) (ix) (collectionId) in
/-- A new text of a stored document that differs from the stored one is noticed: offered under
the id of the document it is an update, and the new text is stored; offered under another id it
is not a duplicate of the document. -/
def Noticed (stored : KnowledgeDocument M) (text : Text) : Prop :=
  Differ tables stored.text text →
    (∀ (document : KnowledgeDocument M) (chunks : List C), document.id = stored.id →
      document.text = text → Unstamped tables document →
      let (version, after) :=
        ingest (documentChecksum tables) collectionId document chunks ix
      version.change = .updated ∧
        ∃ kept ∈ documents collectionId after, kept.id = stored.id ∧ kept.text = text) ∧
    ∀ (document : KnowledgeDocument M) (chunks : List C), document.id ≠ stored.id →
      document.text = text → Unstamped tables document →
      let version := (ingest (documentChecksum tables) collectionId document chunks ix).1
      ¬(version.change = .duplicate ∧ version.checksum = stored.checksum)

/-- The digest of a text tells it from a stored one. -/
def Told (tables : Tables) (stored : KnowledgeDocument M) (text : Text) : Prop :=
  tables.sha256Hex (canonicalText tables stored.text) =
      tables.sha256Hex (canonicalText tables text) →
    canonicalText tables stored.text = canonicalText tables text

theorem documentChecksum_eq_iff {stored : KnowledgeDocument M} {text : Text}
    (h : Told tables stored text) :
    documentChecksum tables stored.text = documentChecksum tables text ↔
      bareWords tables stored.text = bareWords tables text := by
  rw [← canonicalText_eq_iff]
  exact ⟨h, congrArg tables.sha256Hex⟩

theorem mem_documents_store (document : KnowledgeDocument M) (chunks : List C)
    (version : KnowledgeVersion) (ix : Indexer M C) :
    document ∈ documents collectionId
      (recordVersion collectionId version (store collectionId document chunks ix)) := by
  rw [documents, (replaced_recordVersion collectionId version _).here,
    (replaced_store collectionId document chunks ix).here]
  have hget := PyDict.get?_set_self document.id document (documentsOf collectionId ix)
  exact List.mem_map.mpr ⟨_, PyDict.mem_of_get? hget, rfl⟩

/-- A document whose id is found, with another checksum, is stored. -/
theorem ingest_updated {document found : KnowledgeDocument M} (chunks : List C)
    (hfound : getDocument document.id ix = some found)
    (hchecksum : found.checksum ≠ checksumOf (documentChecksum tables) document) :
    let (version, after) := ingest (documentChecksum tables) collectionId document chunks ix
    version.change = .updated ∧
      ∃ kept ∈ documents collectionId after,
        kept.id = document.id ∧ kept.text = document.text := by
  have hdecide : (KnowledgeIndex.decide (documentChecksum tables) collectionId document
      (some found) ix).change = .updated := by
    unfold KnowledgeIndex.decide
    dsimp only
    rw [if_neg hchecksum]
  rw [ingest, hfound]
  dsimp only
  rw [if_neg (by rw [hdecide]; simp)]
  exact ⟨hdecide, _, mem_documents_store _ chunks _ ix, rfl, rfl⟩

theorem ingest_same {document found : KnowledgeDocument M} (chunks : List C)
    (hfound : getDocument document.id ix = some found)
    (hchecksum : found.checksum = checksumOf (documentChecksum tables) document) :
    (ingest (documentChecksum tables) collectionId document chunks ix).1.change = .unchanged := by
  simp [ingest, KnowledgeIndex.decide, hfound, hchecksum]

theorem ingest_owned (h : Keyed ix) {document stored : KnowledgeDocument M} (chunks : List C)
    (hnew : getDocument document.id ix = none) (hstored : stored ∈ documents collectionId ix)
    (hchecksum : stored.checksum = checksumOf (documentChecksum tables) document) :
    (ingest (documentChecksum tables) collectionId document chunks ix).1.change = .duplicate := by
  cases howner : checksumOwner collectionId (checksumOf (documentChecksum tables) document) ix with
  | none =>
    have hnone := (checksumOwner_none_iff _).mp howner
    exact absurd ⟨stored, hstored, hchecksum⟩ hnone
  | some owner =>
    have hother : owner ≠ document.id := by
      rintro rfl
      obtain ⟨document', hfind, hid⟩ := Option.map_eq_some_iff.mp howner
      obtain ⟨found, hfound⟩ := exists_found h (List.mem_of_find?_eq_some hfind)
      rw [hid, hnew] at hfound
      cases hfound
    simp [ingest, KnowledgeIndex.decide, hnew, howner, hother]

/--
**A new text of a stored document is noticed if and only if it does not differ, or its words
without any punctuation are not those of the stored text, nor those of the text that is found
under the id.**
-/
theorem noticed_iff {actions : List (Action M C)} (hactions : ∀ a ∈ actions, a.FromManager tables)
    (hrun : Runs.run (step tables) actions [] = some ix)
    {stored : KnowledgeDocument M} (hstored : stored ∈ documents collectionId ix) (text : Text) :
    ∃ found, getDocument stored.id ix = some found ∧
      (Told tables stored text → Told tables found text →
        (Noticed tables ix collectionId stored text ↔
          (Differ tables stored.text text →
            bareWords tables stored.text ≠ bareWords tables text ∧
              bareWords tables found.text ≠ bareWords tables text))) := by
  have hstamped := stamped_run hactions hrun
  obtain ⟨found, hfound⟩ := exists_found hstamped.keyed hstored
  refine ⟨found, hfound, fun htold htoldFound => ?_⟩
  have hstoredChecksum := checksum_stored hstamped.all hstored
  have hfoundChecksum := checksum_found hstamped.all hfound
  have hbare := documentChecksum_eq_iff htold
  have hbareFound := documentChecksum_eq_iff htoldFound
  refine imp_congr_right fun _ => ⟨fun ⟨hupdate, hother⟩ => ⟨fun hsame => ?_, fun hsame => ?_⟩,
    fun ⟨hne, hneFound⟩ => ⟨?_, ?_⟩⟩
  · obtain ⟨id, hid⟩ := exists_new ix
    have hdifferent : id ≠ stored.id := by
      rintro rfl
      rw [hfound] at hid
      cases hid
    have hchecksum := hstoredChecksum.trans (hbare.mpr hsame)
    have hnew := hother { stored with id := id, text := text, checksum := [] } [] hdifferent rfl
      (Or.inl rfl)
    exact hnew ⟨ingest_owned hstamped.keyed [] hid hstored hchecksum,
      (checksum_ingest _ _).trans hchecksum.symm⟩
  · have hchecksum := hfoundChecksum.trans (hbareFound.mpr hsame)
    have hagain := (hupdate { stored with text := text, checksum := [] } [] rfl rfl
      (Or.inl rfl)).1
    have hunchanged := @ingest_same M C tables ix collectionId
      { stored with text := text, checksum := [] } found [] hfound hchecksum
    cases hunchanged.symm.trans hagain
  · intro document chunks hid htext hunstamped
    have hchecksum : found.checksum ≠ checksumOf (documentChecksum tables) document := by
      rw [hfoundChecksum, checksumOf_unstamped hunstamped, htext]
      exact fun heq => hneFound (hbareFound.mp heq)
    rw [← hid] at hfound
    have hupdated := @ingest_updated M C tables ix collectionId _ _ chunks hfound hchecksum
    rwa [hid, htext] at hupdated
  · intro document chunks _ htext hunstamped _ hduplicate
    have hchecksum := hduplicate.2
    have hsame := (checksum_ingest document chunks).symm.trans hchecksum
    rw [checksumOf_unstamped hunstamped, htext, hstoredChecksum] at hsame
    exact hne (hbare.mp hsame.symm)

end Index

/-! ## Addresses -/

section Examples

theorem range_of_upper {c : Char} (h : c.val ≥ 'A'.val ∧ c.val ≤ 'Z'.val) :
    65 ≤ c.toNat ∧ c.toNat ≤ 90 :=
  ⟨UInt32.le_iff_toNat_le.mp h.1, UInt32.le_iff_toNat_le.mp h.2⟩

theorem toLower_of_isSpace {c : Char} (h : isSpace c = true) : c.toLower = c := by
  rw [Char.toLower]
  split
  · next hupper =>
      have hrange := range_of_upper hupper
      have hletter : isSpace c = false := isSpace_of_printable (by omega) (by omega)
      rw [hletter] at h
      cases h
  · rfl

theorem isSpace_toLower {c : Char} (h : isSpace c = false) : isSpace c.toLower = false := by
  rw [Char.toLower]
  split
  · next hupper =>
      have hrange := range_of_upper hupper
      rw [Char.toNat] at hrange
      have hadd : (c.val + ('a'.val - 'A'.val)).toNat = c.val.toNat + 32 := by
        have hdiff : ('a'.val - 'A'.val).toNat = 32 := rfl
        rw [UInt32.toNat_add, hdiff]
        exact Nat.mod_eq_of_lt (by omega)
      apply isSpace_of_printable
      · rw [Char.toNat, hadd]
        omega
      · rw [Char.toNat, hadd]
        omega
  · exact h

/-- ASCII texts, with the digests of two texts. -/
def asciiTables : Tables where
  nfc := ⟨id, fun _ h => h, rfl⟩
  lower := List.map Char.toLower
  lower_wordwise := wordwise_map (fun _ => toLower_of_isSpace) fun _ => isSpace_toLower
  words := UciReading.asciiWords
  sha256Hex t :=
    if t = "gateway 10001".toList then
      "f06f807b83456408ffae6e25af7007606b924ec61276ab07495e31dd013677e5".toList
    else if t = "gateway 10002".toList then
      "ced9d43171103126e317d6f47ecb6c250a7c88072831cf490037eb8602d348f7".toList
    else "0".toList
  sha256Hex_ne_nil t := by
    split
    · decide
    · split
      · decide
      · decide

def note (text : String) : KnowledgeDocument Unit :=
  { id := "txt:notes:router.txt".toList, text := text.toList, metadata := () }

def noted : List (Action Unit Text) := [.ingest "notes".toList (note "gateway 10.0.0.1") []]

def stampedNote : KnowledgeDocument Unit :=
  { note "gateway 10.0.0.1" with
    checksum := documentChecksum asciiTables "gateway 10.0.0.1".toList }

/-- The index with the note. -/
def notedIndex (tables : Tables) : Indexer Unit Text :=
  (ingest (documentChecksum tables) "notes".toList (note "gateway 10.0.0.1") [] []).2

theorem run_noted (tables : Tables) : Runs.run (step tables) noted [] = some (notedIndex tables) :=
  rfl

theorem documents_notedIndex (tables : Tables) :
    documents "notes".toList (notedIndex tables) = [{ note "gateway 10.0.0.1" with
      checksum := documentChecksum tables "gateway 10.0.0.1".toList }] :=
  rfl

theorem getDocument_notedIndex (tables : Tables) :
    getDocument stampedNote.id (notedIndex tables) = some { note "gateway 10.0.0.1" with
      checksum := documentChecksum tables "gateway 10.0.0.1".toList } :=
  rfl

theorem stampedNote_mem :
    stampedNote ∈ documents "notes".toList (notedIndex asciiTables) := by
  rw [documents_notedIndex]
  exact List.mem_singleton_self _

/-- **An address becomes another one, and the indexer reports the document as unchanged.** -/
theorem address_unnoticed :
    ∃ ix, Runs.run (step asciiTables) noted [] = some ix ∧
      stampedNote ∈ documents "notes".toList ix ∧
      ¬Noticed asciiTables ix "notes".toList stampedNote "gateway 100.0.1".toList := by
  refine ⟨_, run_noted asciiTables, stampedNote_mem, fun hnoticed => ?_⟩
  have hdiffer : Differ asciiTables stampedNote.text "gateway 100.0.1".toList := by
    unfold Differ
    decide
  have hupdated := ((hnoticed hdiffer).1 (note "gateway 100.0.1") [] rfl rfl (Or.inl rfl)).1
  exact absurd hupdated (by decide)

/-- Another address is noticed. -/
theorem other_address_noticed :
    ∃ ix, Runs.run (step asciiTables) noted [] = some ix ∧
      Noticed asciiTables ix "notes".toList stampedNote "gateway 10.0.0.2".toList := by
  have hactions : ∀ a ∈ noted, a.FromManager asciiTables :=
    List.forall_mem_singleton.mpr (Or.inl rfl)
  refine ⟨_, run_noted asciiTables, ?_⟩
  obtain ⟨found, hfound, hiff⟩ :=
    noticed_iff hactions (run_noted asciiTables) stampedNote_mem "gateway 10.0.0.2".toList
  obtain rfl : stampedNote = found := by
    rw [getDocument_notedIndex] at hfound
    exact Option.some.inj hfound
  have htold : Told asciiTables stampedNote "gateway 10.0.0.2".toList :=
    fun h => absurd h (by decide)
  refine (hiff htold htold).mpr fun _ => ?_
  have hbare : bareWords asciiTables stampedNote.text ≠
      bareWords asciiTables "gateway 10.0.0.2".toList := by decide
  exact ⟨hbare, hbare⟩

end Examples

end OpenWrtCopilot.Ports.KnowledgeChecksums
