import OpenWrtCopilot.Ports.KnowledgeIndex
import OpenWrtCopilot.Verified.PyFnmatch

/-!
# Patterns of filesystem sources

Ports `FileSystemSource.list_documents`, which lists what `Path.glob` finds, and `_list_references`
of the manager, which keeps what `fnmatch` takes with the collection's pattern.  For `glob` two
stars stand for directories, or for none; for `fnmatch` a star stands for any text, and each slash
of the pattern for one of the path.

## Main results

* `grouped_iff` — what `fnmatch` takes, said about the names of a path.
* `indexed_iff` — when what is indexed is what the glob matches.
* `root_file_dropped` — a file at the root that is dropped.
-/

namespace OpenWrtCopilot.Ports.KnowledgeGlobs

open Verified
open Verified.PyFnmatch
open Verified.PySplit (splitOn)
open Verified.PyText
open Ports.KnowledgeIndex

/-! ## Directories -/

/-- A path from the top, by its names. -/
abbrev Path := List Text

/-- The directories and the files there are; no file is a directory. -/
structure FileSystem where
  dirs : List Path
  files : List Path
  disjoint : ∀ path ∈ files, path ∉ dirs

/-- The names in a directory. -/
def FileSystem.children (fs : FileSystem) (at' : Path) : List Text :=
  (fs.dirs ++ fs.files).filterMap fun path => if path.dropLast = at' then path.getLast? else none

inductive GlobError
  | valueError
  | notImplementedError
  | indexError
  deriving DecidableEq

/-- The selectors of `glob`: the names that are found from a directory on, and where they lead.
After a component there has to be a directory for the next one. -/
def select (fs : FileSystem) : List Text → Path → List (List Text × Path)
  | [], at' => [([], at')]
  | part :: rest, at' =>
      if part = [] then [([], at')]
      else if part = "**".toList then
        (fs.dirs.filter (at'.isPrefixOf ·)).flatMap fun below =>
          (select fs rest below).map fun (names, path) => (below.drop at'.length ++ names, path)
      else if part = "..".toList then
        (select fs rest at'.dropLast).map fun (names, path) => ("..".toList :: names, path)
      else
        (fs.children at').flatMap fun name =>
          if fnmatch name part = true ∧ (rest ≠ [] → at' ++ [name] ∈ fs.dirs) then
            (select fs rest (at' ++ [name])).map fun (names, path) => (name :: names, path)
          else []

/-- `root.glob(pattern)`. -/
def glob (fs : FileSystem) (root : Path) (pattern : Text) :
    Except GlobError (List (List Text × Path)) :=
  if pattern = [] then .error .valueError
  else if pattern.head? = some '/' then .error .notImplementedError
  else
    let parts := (splitOn ['/'] pattern).filter fun part => part ≠ [] ∧ part ≠ ".".toList
    let parts := if pattern.getLast? = some '/' then parts ++ [[]] else parts
    if parts = [] then .error .indexError
    else if parts.any fun part => part ≠ "**".toList ∧ "**".toList <:+: part then .error .valueError
    else .ok (select fs parts root).dedup

/-! ## Sources -/

/-- `KnowledgeSource`, as `_list_references` uses it. -/
structure Source where
  sourceType : Text
  listDocuments : Except GlobError (List Text)

/-- `FileSystemSource`, in a file system. -/
structure FileSystemSource where
  fs : FileSystem
  root : Path
  pattern : Text := "**/*".toList

/-- `FileSystemSource.list_documents`. -/
def FileSystemSource.listDocuments (source : FileSystemSource) : Except GlobError (List Text) :=
  if source.root ∉ source.fs.dirs then .ok []
  else
    (glob source.fs source.root source.pattern).map fun found =>
      ((found.filter fun (_, path) => path ∈ source.fs.files).map fun (names, _) =>
        join ['/'] names).mergeSort fun a b => a ≤ b

def FileSystemSource.toSource (source : FileSystemSource) : Source where
  sourceType := "filesystem".toList
  listDocuments := source.listDocuments

/-- `KnowledgeCollectionConfig`, as `_list_references` reads it; no topics and an empty pattern
stand for `None`. -/
structure CollectionConfig where
  topics : List Text := []
  pattern : Text := []

/-- `reference.split(":", 1)[-1]`. -/
def topicOf (reference : Text) : Text := (splitFirst ':' reference).2.getD reference

/-- `_list_references`. -/
def listReferences (source : Source) (config : CollectionConfig) :
    Except GlobError (List Text) :=
  let listed :=
    match source.listDocuments with
    | .error .notImplementedError => source.listDocuments
    | listed => listed
  listed.map fun references =>
    let references :=
      if config.topics ≠ [] ∧ source.sourceType = "openwrt".toList then
        references.filter fun reference => topicOf reference ∈ config.topics
      else references
    if config.pattern ≠ [] ∧ source.sourceType = "filesystem".toList then
      references.filter fun reference => fnmatch reference config.pattern
    else references

/-! ## The property and the condition -/

/-- What is indexed is what the glob matches, and a pass over it removes no document of a file that
it matches. -/
structure Indexed (source : FileSystemSource) (config : CollectionConfig) : Prop where
  references : listReferences source.toSource config = source.listDocuments
  kept : ∀ {M C : Type} (documentChecksum : Text → Text) (pass : Pass M C) (ix ix' : Indexer M C)
    (listed references seen : List Text) (result result' : IndexResult),
    source.listDocuments = .ok listed → listReferences source.toSource config = .ok references →
    indexReferences documentChecksum pass references result [] ix = (.ok (result', seen), ix') →
    ∀ reference ∈ listed, ∀ item, prepare documentChecksum pass reference = .ok (some item) →
      ∀ version ∈ (reconcile seen pass.collection ix').1, version.documentId ≠ item.document.id

/-- The names of the path fall into as many groups as the pattern has components: each component
takes at least one name, two stars included. -/
def Grouped (pattern reference : Text) : Prop :=
  ∃ groups : List (List Text), groups.flatten = splitOn ['/'] reference ∧
    (∀ group ∈ groups, group ≠ []) ∧
    List.Forall₂ (fun piece group => matchTokens piece (join ['/'] group) = true)
      ((tokens pattern).splitOnP (· == .char '/')) groups

theorem grouped_iff (pattern reference : Text) :
    Grouped pattern reference ↔ fnmatch reference pattern = true :=
  (match_iff_groups '/' (tokens pattern) reference).symm

/-! ## Passes -/

section Pass

variable {M C : Type} (documentChecksum : Text → Text) (pass : Pass M C)

/-- What is prepared from a reference is seen. -/
theorem seen_of_indexReferences {references seen seen' : List Text} {result result' : IndexResult}
    {ix ix' : Indexer M C}
    (h : indexReferences documentChecksum pass references result seen ix =
      (.ok (result', seen'), ix')) :
    seen ⊆ seen' ∧ ∀ reference ∈ references, ∀ item,
      prepare documentChecksum pass reference = .ok (some item) → item.document.id ∈ seen' := by
  induction references generalizing result seen ix with
  | nil =>
    rw [indexReferences] at h
    obtain rfl := (Prod.mk.inj (Except.ok.inj (Prod.mk.inj h).1)).2
    exact ⟨List.Subset.refl _, fun reference hmem => by cases hmem⟩
  | cons reference references ih =>
    rw [indexReferences] at h
    cases hprepare : prepare documentChecksum pass reference with
    | error e =>
      rw [hprepare] at h
      cases (Prod.mk.inj h).1
    | ok prepared =>
      rw [hprepare] at h
      cases prepared with
      | none =>
        obtain ⟨hsubset, hlater⟩ := ih h
        refine ⟨hsubset, List.forall_mem_cons.mpr ⟨fun item hitem => ?_, hlater⟩⟩
        rw [hprepare] at hitem
        cases hitem
      | some item =>
        obtain ⟨hsubset, hlater⟩ := ih h
        refine ⟨fun id hid => hsubset (List.mem_append_left _ hid),
          List.forall_mem_cons.mpr ⟨fun other hother => ?_, hlater⟩⟩
        rw [hprepare] at hother
        obtain rfl := Option.some.inj (Except.ok.inj hother)
        exact hsubset (List.mem_append_right _ (List.mem_singleton_self _))

/-- Only what was not seen is removed. -/
theorem notMem_seen_of_reconcileFrom {seen : List Text} {collectionId : Text}
    {documents : List (KnowledgeDocument M)} {ix : Indexer M C} {version : KnowledgeVersion}
    (h : version ∈ (reconcileFrom seen collectionId documents ix).1) :
    version.documentId ∉ seen := by
  induction documents generalizing ix with
  | nil => cases h
  | cons document documents ih =>
    rw [reconcileFrom] at h
    split at h
    · exact ih h
    · next hseen =>
        obtain rfl | h := List.mem_cons.mp h
        · exact hseen
        · exact ih h

end Pass

/-! ## When everything is indexed -/

theorem listReferences_filesystem (source : FileSystemSource) (config : CollectionConfig) :
    listReferences source.toSource config =
      source.listDocuments.map fun references =>
        if config.pattern ≠ [] then
          references.filter fun reference => fnmatch reference config.pattern
        else references := by
  have htype : source.toSource.sourceType = "filesystem".toList := rfl
  have hother : ¬(config.topics ≠ [] ∧ "filesystem".toList = "openwrt".toList) :=
    fun h => absurd h.2 (by decide)
  have hlisted : (match source.toSource.listDocuments with
      | .error .notImplementedError => source.toSource.listDocuments
      | listed => listed) = source.listDocuments := by
    split
    · rfl
    · rfl
  rw [listReferences, hlisted]
  simp only [htype, if_neg hother, and_true]

/-- The glob finds nothing with no pattern. -/
theorem pattern_ne_nil {source : FileSystemSource} {listed : List Text} {reference : Text}
    (h : source.listDocuments = .ok listed) (hmem : reference ∈ listed) : source.pattern ≠ [] := by
  intro hnil
  rw [FileSystemSource.listDocuments] at h
  split at h
  · obtain rfl := Except.ok.inj h
    cases hmem
  · rw [glob, if_pos hnil] at h
    cases h

/-- **What is indexed is what the glob matches exactly if the names of each file that it matches
fall into groups for the components of the pattern.** -/
theorem indexed_iff (source : FileSystemSource) (topics : List Text) :
    Indexed source { topics := topics, pattern := source.pattern } ↔
      ∀ listed, source.listDocuments = .ok listed → ∀ reference ∈ listed,
        Grouped source.pattern reference := by
  constructor
  · intro h listed hlisted reference hmem
    have hreferences := h.references
    rw [listReferences_filesystem, hlisted] at hreferences
    have hfilter := Except.ok.inj hreferences
    dsimp only at hfilter
    rw [if_pos (pattern_ne_nil hlisted hmem)] at hfilter
    exact (grouped_iff _ _).mpr (List.filter_eq_self.mp hfilter reference hmem)
  · intro h
    have hsame : listReferences source.toSource { topics := topics, pattern := source.pattern } =
        source.listDocuments := by
      rw [listReferences_filesystem]
      cases hlisted : source.listDocuments with
      | error e => rfl
      | ok listed =>
        refine congrArg Except.ok ?_
        split
        · exact List.filter_eq_self.mpr fun reference hmem =>
            (grouped_iff _ _).mp (h listed hlisted reference hmem)
        · rfl
    refine ⟨hsame, ?_⟩
    intro M C documentChecksum pass ix ix' listed references seen result result' hlisted
      hreferences hindex reference hmem item hitem version hversion heq
    rw [hsame, hlisted] at hreferences
    obtain rfl := Except.ok.inj hreferences
    have hseen := (seen_of_indexReferences documentChecksum pass hindex).2 reference hmem item hitem
    exact notMem_seen_of_reconcileFrom hversion (heq ▸ hseen)

/-- A file at the root is dropped. -/
theorem root_file_dropped :
    ¬ ∀ (source : FileSystemSource) (topics : List Text),
      Indexed source { topics := topics, pattern := source.pattern } := by
  intro h
  have hindexed := h
    { fs := { dirs := [["kb".toList]], files := [["kb".toList, "a.md".toList]]
              disjoint := by decide }
      root := ["kb".toList], pattern := "**/*.md".toList } []
  have hreferences := hindexed.references
  rw [listReferences_filesystem] at hreferences
  exact absurd hreferences (by decide +kernel)

end OpenWrtCopilot.Ports.KnowledgeGlobs
