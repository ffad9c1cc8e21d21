import OpenWrtCopilot.Ports.VectorNames

/-!
# The metadata of a Chroma collection

What `collection_info` and `list_collections` say of a collection that `create_collection` has
made, on a server that stores metadata as it is.  The values of the caller and those of the store
share one dictionary, in which those of the caller are written last and the keys of the store are
left out when it is read.

## Main results

* `updated_of_fresh` — without the keys of the store both halves of the dictionary are kept.
* `keepsMetadata_iff` — when a collection is reported as it was created.
* `dimension_overwritten` — a collection that is not.
-/

namespace OpenWrtCopilot.Ports.ChromaStore

open Verified
open Verified.PyDict (Dict get? keys)
open Verified.PyText
open Ports.VectorStore

variable {K : Type}

/-! ## Created collections -/

/-- The keys that the store writes, and leaves out when it reads. -/
def reservedKeys : List Text :=
  [marker, "namespace".toList, "name".toList, "dimension".toList, "hnsw:space".toList]

/-- The collection that `create_collection` makes. -/
def created (K : Type) (namespaceName name : Text) (dimension : Int) (metadata : VectorMetadata) :
    Entry K where
  metadata := updated (collectionMetadata namespaceName name dimension) metadata

/-- The collection after these changes of its documents. -/
def afterChanges (parseInt : Text → Option Int) (name : Text) (ops : List (Change K))
    (entry : Entry K) : Entry K :=
  ops.foldl (fun entry op => (change parseInt name op entry).2) entry

/-- The collection is reported as it was created, now and after changes of its documents. -/
structure RoundTrips (K : Type) (parseInt : Text → Option Int) (namespaceName name : Text)
    (dimension : Int) (metadata : VectorMetadata) : Prop where
  /-- `collection_info` says what was given. -/
  info : ∀ ops : List (Change K), ∃ count,
    collectionInfo parseInt namespaceName name
        (afterChanges parseInt name ops (created K namespaceName name dimension metadata)) =
      .ok (some
        { name := name, namespaceName := namespaceName, dimension := dimension,
          metadata := metadata, documentCount := count })
  /-- `list_collections`, of this namespace or of all, shows it beside what it showed before. -/
  listed : ∀ (collections : Dict Text (Entry K)) (onlyIn : Option Text) before,
    qname namespaceName name ∉ keys collections → onlyIn.all (· = namespaceName) = true →
      listCollections parseInt onlyIn 0 none collections = .ok before →
        ∃ after,
          listCollections parseInt onlyIn 0 none
              (collections ++
                [(qname namespaceName name, created K namespaceName name dimension metadata)]) =
            .ok after ∧
          ({ name := name, namespaceName := namespaceName, dimension := dimension,
             metadata := metadata, documentCount := 0 } : CollectionInfo) ∈ after
  /-- The dimension that vectors are compared with. -/
  checks : ∀ ops : List (Change K),
    markerDimension parseInt
        (afterChanges parseInt name ops
          (created K namespaceName name dimension metadata)).metadata =
      .ok dimension

/-- Changes of the documents keep the metadata of a collection. -/
theorem afterChanges_metadata (parseInt : Text → Option Int) (name : Text)
    (ops : List (Change K)) (entry : Entry K) :
    (afterChanges parseInt name ops entry).metadata = entry.metadata := by
  induction ops generalizing entry with
  | nil => rfl
  | cons op ops ih =>
    have hstep := change_sameMetadata parseInt name op entry
    exact (ih _).trans hstep

/-! ## The shared dictionary -/

/-- **New keys come after those that are there.** -/
theorem updated_of_fresh {base metadata : VectorMetadata} (hnodup : (keys metadata).Nodup)
    (hfresh : ∀ key ∈ keys metadata, key ∉ keys base) :
    updated base metadata = base ++ metadata := by
  induction metadata generalizing base with
  | nil => exact (List.append_nil base).symm
  | cons item metadata ih =>
    obtain ⟨hitem, hnodup⟩ := List.nodup_cons.mp hnodup
    have hset : PyDict.set item.1 item.2 base = base ++ [item] :=
      PyDict.set_of_notMem (hfresh item.1 List.mem_cons_self) item.2
    have hrest : ∀ key ∈ keys metadata, key ∉ keys (base ++ [item]) := by
      intro key hkey hmem
      rw [PyDict.keys_append, List.mem_append] at hmem
      rcases hmem with hbase | hsame
      · exact hfresh key (List.mem_cons_of_mem _ hkey) hbase
      · exact hitem (List.mem_singleton.mp hsame ▸ hkey)
    rw [updated, List.foldl_cons, hset, ← updated, ih hnodup hrest, List.append_assoc]
    rfl

theorem keys_collectionMetadata (namespaceName name : Text) (dimension : Int) :
    keys (collectionMetadata namespaceName name dimension) =
      ["hnsw:space".toList, marker, "namespace".toList, "name".toList, "dimension".toList] := rfl

theorem mem_reservedKeys_iff {namespaceName name : Text} {dimension : Int} {key : Text} :
    key ∈ reservedKeys ↔ key ∈ keys (collectionMetadata namespaceName name dimension) := by
  have hperm : ∀ a b c d e : Text, key ∈ [a, b, c, d, e] ↔ key ∈ [e, a, b, c, d] := by
    intro a b c d e
    show key ∈ [a, b, c, d] ++ [e] ↔ key ∈ e :: [a, b, c, d]
    rw [List.mem_append, List.mem_singleton, or_comm, ← List.mem_cons]
  rw [keys_collectionMetadata]
  exact hperm _ _ _ _ _

theorem mem_userMetadata {metadata : VectorMetadata} {item : Text × Value} :
    item ∈ userMetadata metadata ↔ item ∈ metadata ∧ item.1 ∉ reservedKeys := by
  rw [userMetadata, List.mem_filter, decide_eq_true_iff, reservedKeys]

/-- The caller's half of the dictionary. -/
theorem userMetadata_created {metadata : VectorMetadata} (hnodup : (keys metadata).Nodup)
    (hfree : ∀ key ∈ keys metadata, key ∉ reservedKeys) (namespaceName name : Text)
    (dimension : Int) :
    userMetadata (created K namespaceName name dimension metadata).metadata = metadata := by
  have hown : userMetadata (collectionMetadata namespaceName name dimension) = [] := by
    rw [List.eq_nil_iff_forall_not_mem]
    intro item hitem
    rw [mem_userMetadata] at hitem
    exact hitem.2 (mem_reservedKeys_iff.mpr (List.mem_map_of_mem hitem.1))
  have hkept : userMetadata metadata = metadata := by
    rw [userMetadata, List.filter_eq_self]
    exact fun item hitem => decide_eq_true (hfree item.1 (List.mem_map_of_mem hitem))
  have hfresh : ∀ key ∈ keys metadata, key ∉ keys (collectionMetadata namespaceName name
      dimension) := fun key hkey hmem => hfree key hkey (mem_reservedKeys_iff.mpr hmem)
  rw [created, updated_of_fresh hnodup hfresh]
  show List.filter _ (collectionMetadata namespaceName name dimension ++ metadata) = metadata
  rw [List.filter_append]
  exact (congrArg₂ (· ++ ·) hown hkept).trans (List.nil_append metadata)

/-- The store's half of the dictionary. -/
theorem get?_created {metadata : VectorMetadata} (hnodup : (keys metadata).Nodup)
    (hfree : ∀ key ∈ keys metadata, key ∉ reservedKeys) {namespaceName name key : Text}
    {dimension : Int} {value : Value}
    (h : get? key (collectionMetadata namespaceName name dimension) = some value) :
    get? key (created K namespaceName name dimension metadata).metadata = some value := by
  have hfresh : ∀ key ∈ keys metadata, key ∉ keys (collectionMetadata namespaceName name
      dimension) := fun key hkey hmem => hfree key hkey (mem_reservedKeys_iff.mpr hmem)
  rw [created, updated_of_fresh hnodup hfresh, PyDict.get?_append, h, Option.some_or]

theorem intOr_integer (parseInt : Text → Option Int) (n : Int) :
    intOr parseInt (.integer n) = .ok n := by
  rw [intOr]
  by_cases h : n = 0
  · rw [if_neg, h]
    rw [truthy, decide_eq_true_iff]
    exact not_not.mpr h
  · exact if_pos (decide_eq_true h)

/-- The information of a collection with the metadata of a created one. -/
theorem entryInfo_created (parseInt : Text → Option Int) {metadata : VectorMetadata}
    (hnodup : (keys metadata).Nodup) (hfree : ∀ key ∈ keys metadata, key ∉ reservedKeys)
    {namespaceName name : Text} {dimension : Int} {entry : Entry K}
    (hentry : entry.metadata = (created K namespaceName name dimension metadata).metadata) :
    marked entry.metadata = true ∧ markerDimension parseInt entry.metadata = .ok dimension ∧
      entryInfo parseInt namespaceName name entry =
        .ok { name := name, namespaceName := namespaceName, dimension := dimension,
              metadata := metadata, documentCount := entry.records.length } := by
  have hmarker : get? marker entry.metadata = some (.bool true) := by
    rw [hentry]
    exact get?_created hnodup hfree rfl
  have hdimension : markerDimension parseInt entry.metadata = .ok dimension := by
    have hget : get? "dimension".toList entry.metadata = some (.integer dimension) := by
      rw [hentry]
      exact get?_created hnodup hfree rfl
    rw [markerDimension, hget, Option.getD_some, intOr_integer]
  refine ⟨by rw [marked, hmarker]; rfl, hdimension, ?_⟩
  rw [entryInfo, hdimension, hentry, userMetadata_created hnodup hfree]
  rfl

/-! ## Reports -/

/-- A loop that gets to the last item. -/
theorem filterMapM_concat_ok {α β ε : Type} {f : α → Except ε (Option β)} {items : List α}
    {item : α} {results : List β} {result : β} (hitems : items.filterMapM f = .ok results)
    (hitem : f item = .ok (some result)) :
    (items ++ [item]).filterMapM f = .ok (results ++ [result]) := by
  induction items generalizing results with
  | nil =>
    obtain rfl := Except.ok.inj hitems
    rw [List.nil_append, List.filterMapM_cons, hitem]
    rfl
  | cons first items ih =>
    rw [List.filterMapM_cons] at hitems
    rw [List.cons_append, List.filterMapM_cons]
    cases hfirst : f first with
    | error e =>
      rw [hfirst] at hitems
      cases hitems
    | ok found =>
      rw [hfirst] at hitems
      cases found with
      | none => exact ih hitems
      | some b =>
        cases hrest : items.filterMapM f with
        | error e =>
          rw [hrest] at hitems
          cases hitems
        | ok rest =>
          rw [hrest] at hitems
          obtain rfl := Except.ok.inj hitems
          show (List.filterMapM f (items ++ [item]) >>= fun rest => pure (b :: rest)) = _
          rw [ih hrest]
          rfl

/-- A listing is the loop's result in order. -/
theorem listCollections_eq_ok_iff {parseInt : Text → Option Int} {onlyIn : Option Text}
    {collections : Dict Text (Entry K)} {listed : List CollectionInfo} :
    listCollections parseInt onlyIn 0 none collections = .ok listed ↔
      ∃ infos, collections.filterMapM (listedInfo parseInt onlyIn) = .ok infos ∧
        listed = sortInfos infos := by
  rw [listCollections]
  cases collections.filterMapM (listedInfo parseInt onlyIn) with
  | error e => simp
  | ok infos =>
    constructor
    · exact fun h => ⟨infos, rfl, (Except.ok.inj h).symm⟩
    · rintro ⟨_, hinfos, rfl⟩
      obtain rfl := Except.ok.inj hinfos
      rfl

theorem mem_sortInfos {infos : List CollectionInfo} {info : CollectionInfo} :
    info ∈ sortInfos infos ↔ info ∈ infos := (List.mergeSort_perm infos _).mem_iff

/-- What is reported has none of the store's keys. -/
theorem free_of_collectionInfo {parseInt : Text → Option Int} {namespaceName name : Text}
    {entry : Entry K} {info : CollectionInfo}
    (h : collectionInfo parseInt namespaceName name entry = .ok (some info)) :
    ∀ key ∈ keys info.metadata, key ∉ reservedKeys := by
  rw [collectionInfo] at h
  split at h
  · cases hdimension : markerDimension parseInt entry.metadata with
    | error e =>
      rw [entryInfo, hdimension] at h
      cases h
    | ok dimension =>
      rw [entryInfo, hdimension] at h
      obtain rfl := Option.some.inj (Except.ok.inj h)
      rintro key hkey
      obtain ⟨item, hitem, rfl⟩ := List.mem_map.mp hkey
      exact (mem_userMetadata.mp hitem).2
  · cases h

/-- A collection that is listed alone is listed under the parts of its name. -/
theorem rsplit_of_listed {parseInt : Text → Option Int} {key : Text} {entry : Entry K}
    {infos : List CollectionInfo} {info : CollectionInfo}
    (h : [(key, entry)].filterMapM (listedInfo parseInt none) = .ok infos) (hmem : info ∈ infos) :
    rsplit key = some (info.namespaceName, info.name) := by
  rw [List.filterMapM_cons] at h
  cases hinfo : listedInfo parseInt none (key, entry) with
  | error e =>
    rw [hinfo] at h
    cases h
  | ok result =>
    rw [hinfo] at h
    cases result with
    | none =>
      obtain rfl := Except.ok.inj h
      cases hmem
    | some listed =>
      obtain rfl := Except.ok.inj h
      obtain rfl := List.mem_singleton.mp hmem
      rw [listedInfo] at hinfo
      cases hsplit : rsplit key with
      | none =>
        rw [hsplit] at hinfo
        cases hinfo
      | some parsed =>
        rw [hsplit] at hinfo
        dsimp only at hinfo
        split at hinfo
        · cases hdimension : markerDimension parseInt entry.metadata with
          | error e =>
            rw [entryInfo, hdimension] at hinfo
            cases hinfo
          | ok dimension =>
            rw [entryInfo, hdimension] at hinfo
            obtain rfl := Option.some.inj (Except.ok.inj hinfo)
            rfl
        · cases hinfo

/-- **Which collections are reported as they were created.** -/
theorem keepsMetadata_iff (parseInt : Text → Option Int) (namespaceName name : Text)
    (dimension : Int) {metadata : VectorMetadata} (hnodup : (keys metadata).Nodup) :
    RoundTrips K parseInt namespaceName name dimension metadata ↔
      (∀ key ∈ keys metadata, key ∉ reservedKeys) ∧
        rsplit (qname namespaceName name) = some (namespaceName, name) := by
  constructor
  · intro h
    refine ⟨?_, ?_⟩
    · obtain ⟨count, hinfo⟩ := h.info []
      exact free_of_collectionInfo hinfo
    · have hempty : listCollections parseInt none 0 none ([] : Dict Text (Entry K)) =
          .ok (sortInfos []) := listCollections_eq_ok_iff.mpr ⟨[], rfl, rfl⟩
      obtain ⟨after, hafter, hmem⟩ := h.listed [] none _ List.not_mem_nil rfl hempty
      obtain ⟨infos, hinfos, rfl⟩ := listCollections_eq_ok_iff.mp hafter
      exact rsplit_of_listed hinfos (mem_sortInfos.mp hmem)
  · rintro ⟨hfree, hsplit⟩
    have hentry := fun ops : List (Change K) =>
      entryInfo_created parseInt hnodup hfree
        (afterChanges_metadata parseInt name ops
          (created K namespaceName name dimension metadata))
    refine ⟨fun ops => ?_, ?_, fun ops => (hentry ops).2.1⟩
    · obtain ⟨hmarked, _, hinfo⟩ := hentry ops
      exact ⟨_, by rw [collectionInfo, if_pos hmarked, hinfo]; rfl⟩
    · intro collections onlyIn before _ honly hbefore
      obtain ⟨hmarked, _, hinfo⟩ := hentry []
      obtain ⟨infos, hinfos, -⟩ := listCollections_eq_ok_iff.mp hbefore
      have hlisted : listedInfo parseInt onlyIn
          (qname namespaceName name, created K namespaceName name dimension metadata) =
            .ok (some
              { name := name, namespaceName := namespaceName, dimension := dimension,
                metadata := metadata, documentCount := 0 }) := by
        rw [listedInfo, hsplit]
        exact (if_pos ⟨hmarked, honly⟩).trans (congrArg (Except.map some) hinfo)
      exact ⟨_, listCollections_eq_ok_iff.mpr ⟨_, filterMapM_concat_ok hinfos hlisted, rfl⟩,
        mem_sortInfos.mpr (List.mem_append_right _ List.mem_cons_self)⟩

/-- No text is a number. -/
def noIntegers : Text → Option Int := fun _ => none

theorem docs_keepMetadata_iff :
    RoundTrips ℚ noIntegers "default".toList "docs".toList 3 [("owner".toList, .text "me".toList)] ↔
      (∀ key ∈ keys ([("owner".toList, .text "me".toList)] : VectorMetadata), key ∉ reservedKeys) ∧
        rsplit (qname "default".toList "docs".toList) =
          some ("default".toList, "docs".toList) :=
  keepsMetadata_iff noIntegers _ _ _ (List.nodup_singleton _)

/-- The dimension of the caller's metadata replaces that of the collection. -/
theorem dimension_overwritten :
    ¬RoundTrips ℚ noIntegers "default".toList "docs".toList 3
      [("dimension".toList, .integer 99)] := by
  intro h
  have hchecks := h.checks []
  have hactual : markerDimension noIntegers (afterChanges noIntegers "docs".toList []
      (created ℚ "default".toList "docs".toList 3
        [("dimension".toList, .integer 99)])).metadata = .ok 99 := rfl
  rw [hactual] at hchecks
  exact absurd (Except.ok.inj hchecks) (by decide)

end OpenWrtCopilot.Ports.ChromaStore
