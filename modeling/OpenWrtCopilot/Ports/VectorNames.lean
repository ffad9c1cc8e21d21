import OpenWrtCopilot.Ports.ChromaStore
import OpenWrtCopilot.Ports.FaissCollections
import OpenWrtCopilot.Ports.QdrantStore

/-!
# Physical names of collections

The FAISS, Qdrant and Chroma backends keep the collections of all namespaces under one physical
name each, and take the name apart again to list a namespace.  A backend contains a set of pairs
of namespace and name if in all calls on them the answers of each are those it gets alone, and
listings are exact.

## Main results

* `contained_iff` — which sets of pairs the backends contain.
* `replaced_character_shared` — a character that is replaced makes two pairs share a collection.
-/

namespace OpenWrtCopilot.Ports.VectorNames

open Verified
open Verified.Compartments (Exact Injective Isolated alive final log)
open Verified.PyDict (Dict get? keys)
open Verified.PyText
open Ports.VectorStore
open Ports.FaissStore (fileOf)

/-! ## Listings -/

/-- The pair that an information names. -/
def pairOf (info : CollectionInfo) : Pair := (info.namespaceName, info.name)

/-- The pairs that a listing names. -/
def pairs (infos : List CollectionInfo) : List Pair := infos.map pairOf

/-- A listing names the pairs of the informations that it has, in some order. -/
theorem pairs_listing {V : Type} (f : Text × V → Option CollectionInfo) (d : Dict Text V) :
    (pairs (page 0 none (sortInfos (d.filterMap f)))).Perm
      (d.filterMap fun item => (f item).map pairOf) := by
  rw [← List.map_filterMap]
  exact (List.mergeSort_perm (d.filterMap f) _).map _

/-- The first part of a physical name is at least as long as the namespace. -/
theorem exists_rsplit (ns name : Text) :
    ∃ first second, rsplit (qname ns name) = some (first, second) ∧ ns.length ≤ first.length := by
  have hreverse : (qname ns name).reverse =
      (sanitize name).reverse ++ ("__".toList ++ (sanitize ns).reverse) := by
    rw [qname, List.reverse_append, List.reverse_append]
    rfl
  have hat : PySub.At "__".toList (qname ns name).reverse (sanitize name).length := by
    rw [PySub.At, hreverse, List.drop_append_of_le_length (List.length_reverse.ge),
      List.drop_eq_nil_of_le (List.length_reverse.le), List.nil_append]
    exact List.prefix_append _ _
  have hex : ∃ i, PySub.At "__".toList (qname ns name).reverse i := ⟨_, hat⟩
  have hlt := (Nat.find_spec hex).lt_length (by decide)
  have hle : Nat.find hex ≤ (sanitize name).length := Nat.find_min' hex hat
  have hfind : PySub.find "__".toList (qname ns name).reverse = some (Nat.find hex) :=
    PySub.find_eq_some_iff.mpr ⟨hlt.le, Nat.find_spec hex, fun j hj => Nat.find_min hex hj⟩
  refine ⟨_, _, by rw [rsplit, hfind]; rfl, ?_⟩
  have hlength : (qname ns name).reverse.length = name.length + (2 + ns.length) := by
    rw [hreverse, List.length_append, List.length_append, List.length_reverse, List.length_reverse,
      sanitize, sanitize, List.length_map, List.length_map]
    rfl
  have hname : (sanitize name).length = name.length := List.length_map _
  rw [List.length_reverse, List.length_drop, hlength]
  omega

variable {K : Type}

/-- The runs of a backend contain the pairs: each is isolated in all calls on them, and the
listings of all namespaces are exact. -/
def Contained {V A : Type} (act : Compartments.Act Pair (Operation K) V A)
    (effect : Operation K → A → Option Bool) (defaultNamespace : Text)
    (listed : Text → Dict Text V → Option (List Pair)) (allowed : Pair × Operation K → Prop)
    (S : Pair → Prop) : Prop :=
  ∀ calls : List (Pair × Operation K), (∀ call ∈ calls, S call.1 ∧ allowed call) →
    (∀ p, S p → Isolated (fileOf defaultNamespace) act calls p) ∧
    ∀ ns, ∃ names, listed ns (final (fileOf defaultNamespace) act calls []) = some names ∧
      Exact names (fun p => p.1 = ns)
        (fun p => alive effect p (log (fileOf defaultNamespace) act calls []) false)

section Contained

variable {V A : Type} {act : Compartments.Act Pair (Operation K) V A}
  {effect : Operation K → A → Option Bool} {defaultNamespace : Text}
  {listed : Text → Dict Text V → Option (List Pair)} {allowed : Pair × Operation K → Prop}
  {S : Pair → Prop}

/-- Two pairs with one name are not isolated: one finds what the other created. -/
theorem Contained.injective (h : Contained act effect defaultNamespace listed allowed S)
    (op : Operation K) (hop : ∀ p, S p → allowed (p, op))
    (hact : ∀ p, (act p op none).2.isSome = true)
    (hanswer : ∀ p q value, (act q op none).2 = some value →
      (act p op (some value)).1 ≠ (act p op none).1) :
    Injective (fileOf defaultNamespace) S := by
  intro p q hp hq hkey
  by_contra hne
  have hallowed : ∀ call ∈ [(q, op), (p, op)], S call.1 ∧ allowed call := by
    intro call hcall
    obtain rfl | hcall := List.mem_cons.mp hcall
    · exact ⟨hq, hop q hq⟩
    · obtain rfl := List.mem_singleton.mp hcall
      exact ⟨hp, hop p hp⟩
  obtain ⟨value, hvalue⟩ := Option.isSome_iff_exists.mp (hact q)
  exact Compartments.not_isolated_of_shared (Ne.symm hne) hkey.symm hvalue
    (hanswer p q value hvalue) ((h _ hallowed).1 p hp)

/-- A collection that is created is listed in its namespace. -/
theorem Contained.listed_single (h : Contained act effect defaultNamespace listed allowed S)
    {p : Pair} (hp : S p) (op : Operation K) (hop : allowed (p, op)) {value : V}
    (hvalue : (act p op none).2 = some value)
    (heffect : effect op (act p op none).1 = some true) :
    ∃ names, listed p.1 [(fileOf defaultNamespace p, value)] = some names ∧
      Exact names (fun q => q.1 = p.1)
        (fun q => alive effect q (log (fileOf defaultNamespace) act [(p, op)] []) false) ∧
      p ∈ names := by
  obtain ⟨names, hnames, hexact⟩ := (h [(p, op)] (by
    intro call hcall
    obtain rfl := List.mem_singleton.mp hcall
    exact ⟨hp, hop⟩)).2 p.1
  rw [Compartments.final_single hvalue] at hnames
  exact ⟨names, hnames, hexact, (hexact.2 p).mpr ⟨rfl, Compartments.alive_single heffect⟩⟩

end Contained

/-! ## The backends -/

section Backends

variable [Field K] [LinearOrder K] (configured : Text)

/-- The name that the FAISS backend lists a collection of a pair under is in its namespace. -/
def ParsesNamespace (pair : Pair) : Prop :=
  (rsplit (fileOf (defaultNamespace configured) pair)).map Prod.fst = some pair.1

/-- A physical name that is taken apart gives the pair. -/
def Parses (pair : Pair) : Prop :=
  rsplit (fileOf (defaultNamespace configured) pair) = some pair

variable {configured}

theorem defaultNamespace_ne_nil : defaultNamespace configured ≠ [] := by
  rw [defaultNamespace]
  by_cases hconfigured : configured = []
  · rw [if_pos hconfigured]
    decide
  · rwa [if_neg hconfigured]

/-- A pair whose namespace is found again gives one. -/
theorem ParsesNamespace.effective {pair : Pair} (h : ParsesNamespace configured pair) :
    effective (defaultNamespace configured) pair.1 = pair.1 := by
  rw [VectorStore.effective]
  refine if_neg fun hempty => ?_
  obtain ⟨first, second, hsplit, hlength⟩ :=
    exists_rsplit (defaultNamespace configured) pair.2
  have hfirst : first = [] := by
    rw [ParsesNamespace, fileOf, VectorStore.effective, if_pos hempty, hsplit, hempty] at h
    exact Option.some.inj h
  rw [hfirst] at hlength
  exact defaultNamespace_ne_nil (List.length_eq_zero_iff.mp (Nat.le_zero.mp hlength))

/-- The listing of the FAISS backend. -/
def faissListed (ns : Text) (files : Dict Text (FaissStore.CollectionData K)) :
    Option (List Pair) :=
  some (pairs (FaissStore.listCollections (some ns) 0 none files))

/-- The pairs that the FAISS backend contains. -/
theorem faiss_contained_iff (nearest : FaissStore.IndexSearch K) (R : SquareRoot K)
    (S : Pair → Prop) :
    Contained (FaissStore.act nearest R (defaultNamespace configured)) effect
        (defaultNamespace configured) faissListed (fun _ => True) S ↔
      Injective (fileOf (defaultNamespace configured)) S ∧
        ∀ p, S p → ParsesNamespace configured p := by
  constructor
  · intro h
    refine ⟨h.injective (.createCollection 0 []) (fun _ _ => trivial) (fun _ => rfl) ?_, ?_⟩
    · rintro p q value _ ⟨⟩
    · intro p hp
      obtain ⟨names, hnames, -, hmem⟩ :=
        h.listed_single hp (.createCollection 0 []) trivial rfl rfl
      rw [← Option.some.inj hnames] at hmem
      obtain ⟨file, hfile, hlisted⟩ :=
        List.mem_filterMap.mp ((pairs_listing _ _).mem_iff.mp hmem)
      obtain rfl := List.mem_singleton.mp hfile
      obtain ⟨info, hinfo, -⟩ := Option.map_eq_some_iff.mp hlisted
      obtain ⟨first, second, hsplit, -⟩ :=
        exists_rsplit (effective (defaultNamespace configured) p.1) p.2
      rw [FaissStore.listedInfo_of_rsplit hsplit] at hinfo
      by_cases hns : p.1 = first
      · rw [ParsesNamespace, fileOf, hsplit, Option.map_some, hns]
      · rw [if_neg hns] at hinfo
        cases hinfo
  · rintro ⟨hinj, hparses⟩ calls hcalls
    have hS : ∀ call ∈ calls, S call.1 := fun call hcall => (hcalls call hcall).1
    refine ⟨fun p hp => Compartments.isolated_of_apart fun call hcall =>
      hinj call.1 p (hS call hcall) hp, fun ns => ⟨_, rfl, ?_⟩⟩
    refine (Compartments.exact_listed FaissStore.tells
      (FaissStore.Holds (defaultNamespace configured)) hinj hS
      (fun call _ => FaissStore.operate_holds call.1 call.2) ?_).of_perm (pairs_listing _ _)
    intro p data hp hholds
    have heffective := (hparses p hp).effective
    have hpair : pairOf (FaissStore.dataToInfo data) = p := by
      rw [pairOf, FaissStore.dataToInfo]
      exact Prod.ext (hholds.1.trans heffective) hholds.2
    obtain ⟨parsed, hsplit, hfirst⟩ := Option.map_eq_some_iff.mp (hparses p hp)
    rw [FaissStore.listedInfo_of_rsplit hsplit, hfirst, apply_ite (Option.map pairOf),
      Option.map_some, hpair, Option.map_none]
    exact if_congr eq_comm rfl rfl

/-- The listing of the Qdrant backend. -/
def qdrantListed (ns : Text) (collections : Dict Text (QdrantStore.Entry K)) :
    Option (List Pair) :=
  some (pairs (QdrantStore.listCollections (some ns) 0 none collections))

theorem injective_of_parses {S : Pair → Prop} (h : ∀ p, S p → Parses configured p) :
    Injective (fileOf (defaultNamespace configured)) S := by
  intro p q hp hq hkey
  have hsame := h p hp
  rw [Parses, hkey, h q hq] at hsame
  exact (Option.some.inj hsame).symm

omit [Field K] in
/-- The pairs that the Qdrant backend contains. -/
theorem qdrant_contained_iff (uuid5 : QdrantStore.Uuid5) (nearest : QdrantStore.ServerSearch K)
    (S : Pair → Prop) :
    Contained (QdrantStore.act uuid5 nearest (defaultNamespace configured)) effect
        (defaultNamespace configured) qdrantListed (fun _ => True) S ↔
      ∀ p, S p → Parses configured p := by
  constructor
  · intro h p hp
    obtain ⟨names, hnames, -, hmem⟩ :=
      h.listed_single hp (.createCollection 0 []) trivial rfl rfl
    rw [← Option.some.inj hnames] at hmem
    obtain ⟨item, hitem, hlisted⟩ :=
      List.mem_filterMap.mp ((pairs_listing _ _).mem_iff.mp hmem)
    obtain rfl := List.mem_singleton.mp hitem
    obtain ⟨info, hinfo, hpair⟩ := Option.map_eq_some_iff.mp hlisted
    obtain ⟨first, second, hsplit, -⟩ :=
      exists_rsplit (effective (defaultNamespace configured) p.1) p.2
    rw [QdrantStore.listedInfo_of_rsplit hsplit] at hinfo
    by_cases hns : p.1 = first
    · rw [if_pos hns] at hinfo
      rw [Parses, fileOf, hsplit, ← hpair, ← Option.some.inj hinfo]
      rfl
    · rw [if_neg hns] at hinfo
      cases hinfo
  · intro hparses calls hcalls
    have hS : ∀ call ∈ calls, S call.1 := fun call hcall => (hcalls call hcall).1
    have hinj := injective_of_parses hparses
    refine ⟨fun p hp => Compartments.isolated_of_apart fun call hcall =>
      hinj call.1 p (hS call hcall) hp, fun ns => ⟨_, rfl, ?_⟩⟩
    refine (Compartments.exact_listed QdrantStore.tells (fun _ _ => True) hinj hS
      (fun _ _ _ _ _ _ => trivial) ?_).of_perm (pairs_listing _ _)
    intro p entry hp _
    have hsplit : rsplit (fileOf (defaultNamespace configured) p, entry).1 = some p :=
      hparses p hp
    rw [QdrantStore.listedInfo_of_rsplit hsplit, apply_ite (Option.map pairOf),
      Option.map_some, Option.map_none]
    exact if_congr eq_comm rfl rfl

/-- The listing of the Chroma backend, unless it raises. -/
def chromaListed (parseInt : Text → Option Int) (ns : Text)
    (collections : Dict Text (ChromaStore.Entry K)) : Option (List Pair) :=
  match ChromaStore.listCollections parseInt (some ns) 0 none collections with
  | .ok infos => some (pairs infos)
  | .error _ => none

/-- A call does not hide the marker of a collection that it creates. -/
def HarmlessCall (parseInt : Text → Option Int) (configured : Text)
    (call : Pair × Operation K) : Prop :=
  ∀ dimension metadata, call.2 = .createCollection dimension metadata →
    ChromaStore.Harmless parseInt
      (ChromaStore.updated (ChromaStore.collectionMetadata
        (effective (defaultNamespace configured) call.1.1) call.1.2 dimension) metadata)

omit [Field K] [LinearOrder K] in
/-- A collection that is listed alone is harmless, and its name parses. -/
theorem parses_of_chromaListed {parseInt : Text → Option Int} {entry : ChromaStore.Entry K}
    {p : Pair} {names : List Pair}
    (h : chromaListed parseInt p.1 [(fileOf (defaultNamespace configured) p, entry)] = some names)
    (hmem : p ∈ names) :
    ChromaStore.Harmless parseInt entry.metadata ∧ Parses configured p := by
  obtain ⟨first, second, hsplit, -⟩ :=
    exists_rsplit (effective (defaultNamespace configured) p.1) p.2
  rw [chromaListed, ChromaStore.listCollections, List.filterMapM_cons, List.filterMapM_nil] at h
  cases hinfo : ChromaStore.listedInfo parseInt (some p.1)
      (fileOf (defaultNamespace configured) p, entry) with
  | error e =>
    rw [hinfo] at h
    cases h
  | ok result =>
    rw [hinfo] at h
    cases result with
    | none =>
      have hnone : p ∈ pairs (page 0 none (sortInfos [])) := Option.some.inj h ▸ hmem
      cases ((List.mergeSort_perm [] _).map pairOf).mem_iff.mp hnone
    | some info =>
      have hpair : p ∈ pairs (page 0 none (sortInfos [info])) :=
        Option.some.inj h ▸ hmem
      have hp : p = pairOf info := List.mem_singleton.mp
        (((List.mergeSort_perm [info] _).map pairOf).mem_iff.mp hpair)
      refine ⟨ChromaStore.harmless_of_listedInfo hinfo, ?_⟩
      have hharmless := ChromaStore.harmless_of_listedInfo hinfo
      rw [ChromaStore.listedInfo_of_rsplit parseInt hsplit] at hinfo
      split at hinfo
      · obtain ⟨info', hinfo', hns, hname⟩ :=
          ChromaStore.entryInfo_of_harmless hharmless first second
        rw [hinfo'] at hinfo
        obtain rfl := Option.some.inj (Except.ok.inj hinfo)
        rw [Parses, fileOf, hsplit, hp, pairOf, hns, hname]
      · cases hinfo

/-- The pairs that the Chroma backend contains. -/
theorem chroma_contained_iff (parseInt : Text → Option Int)
    (nearest : ChromaStore.ServerQuery K) (S : Pair → Prop) :
    Contained (ChromaStore.act parseInt nearest (defaultNamespace configured)) effect
        (defaultNamespace configured) (chromaListed parseInt)
        (HarmlessCall parseInt configured) S ↔
      ∀ p, S p → Parses configured p := by
  constructor
  · intro h p hp
    obtain ⟨names, hnames, -, hmem⟩ := h.listed_single hp (.createCollection 0 [])
      (by rintro dimension metadata ⟨⟩; exact ChromaStore.harmless_updated_nil _ _ _ _) rfl rfl
    exact (parses_of_chromaListed hnames hmem).2
  · intro hparses calls hcalls
    have hS : ∀ call ∈ calls, S call.1 := fun call hcall => (hcalls call hcall).1
    have hinj := injective_of_parses hparses
    have hact : ∀ call ∈ calls, ∀ value value',
        (∀ v, value = some v → ChromaStore.Harmless parseInt v.metadata) →
          (ChromaStore.act parseInt nearest (defaultNamespace configured) call.1 call.2 value).2 =
            some value' → ChromaStore.Harmless parseInt value'.metadata :=
      fun call hcall => ChromaStore.operate_harmless (hcalls call hcall).2
    have howned := Compartments.owned_final hinj hS hact
      (Compartments.owned_nil _
        (fun _ (entry : ChromaStore.Entry K) => ChromaStore.Harmless parseInt entry.metadata) S)
    refine ⟨fun p hp => Compartments.isolated_of_apart fun call hcall =>
      hinj call.1 p (hS call hcall) hp, fun ns => ?_⟩
    -- every collection is harmless, so that the loop over them does not raise
    have hinfos : ∀ item ∈ final (fileOf (defaultNamespace configured))
        (ChromaStore.act parseInt nearest (defaultNamespace configured)) calls [],
        ∃ result, ChromaStore.listedInfo parseInt (some ns) item = .ok result := by
      rintro ⟨key, entry⟩ hitem
      obtain ⟨q, hq, hkey, hharmless⟩ :=
        howned.owner key entry ((PyDict.get?_eq_some_iff howned.nodup).mpr hitem)
      have hsplit : rsplit (key, entry).1 = some q := hkey ▸ hparses q hq
      rw [ChromaStore.listedInfo_of_rsplit parseInt hsplit]
      obtain ⟨info, hinfo, -⟩ := ChromaStore.entryInfo_of_harmless hharmless q.1 q.2
      rw [hinfo]
      split
      · exact ⟨_, rfl⟩
      · exact ⟨_, rfl⟩
    refine ⟨_, by rw [chromaListed, ChromaStore.listCollections, filterMapM_ok hinfos]; rfl, ?_⟩
    refine (Compartments.exact_listed ChromaStore.tells
      (fun _ entry => ChromaStore.Harmless parseInt entry.metadata) hinj hS hact
      ?_).of_perm (pairs_listing _ _)
    intro p entry hp hharmless
    have hsplit : rsplit (fileOf (defaultNamespace configured) p, entry).1 = some p :=
      hparses p hp
    obtain ⟨info, hinfo, hns, hname⟩ :=
      ChromaStore.entryInfo_of_harmless hharmless p.1 p.2
    rw [ChromaStore.listedInfo_of_rsplit parseInt hsplit, hinfo]
    by_cases hp : p.1 = ns
    · rw [if_pos hp, if_pos ⟨hharmless.1, hp.symm⟩]
      show some (pairOf info) = _
      rw [pairOf, hns, hname]
    · rw [if_neg hp, if_neg fun h => hp h.2.symm]
      rfl

/-- A collection whose name parses is listed exactly if it was created harmless. -/
theorem chroma_listed_iff (parseInt : Text → Option Int)
    (nearest : ChromaStore.ServerQuery K) {p : Pair} (hp : Parses configured p)
    (dimension : Nat) (metadata : VectorMetadata) :
    let act := ChromaStore.act parseInt nearest (defaultNamespace configured)
    let calls := [(p, Operation.createCollection dimension metadata)]
    (∀ ns, ∃ names, chromaListed parseInt ns
        (final (fileOf (defaultNamespace configured)) act calls []) = some names ∧
        Exact names (fun q => q.1 = ns)
          (fun q => alive effect q (log (fileOf (defaultNamespace configured)) act calls [])
            false)) ↔
      HarmlessCall parseInt configured
        (p, (Operation.createCollection dimension metadata : Operation K)) := by
  intro act calls
  constructor
  · intro h
    obtain ⟨names, hnames, hexact⟩ := h p.1
    rw [Compartments.final_single rfl] at hnames
    have hmem := (hexact.2 p).mpr ⟨rfl, Compartments.alive_single rfl⟩
    rintro _ _ ⟨⟩
    exact (parses_of_chromaListed hnames hmem).1
  · intro hharmless ns
    refine (((chroma_contained_iff parseInt nearest (· = p)).mpr ?_) calls ?_).2 ns
    · rintro q rfl
      exact hp
    · intro call hcall
      obtain rfl := List.mem_singleton.mp hcall
      exact ⟨rfl, hharmless⟩

variable (configured) in
/-- **Which pairs are contained.**  The FAISS backend contains a set of pairs exactly if no two of
them have one file and the namespace is found again in the name of each file; the Qdrant and Chroma
backends exactly if the pair is found again in each physical name.  For Chroma the metadata of a
collection also has to leave the marker to be seen. -/
theorem contained_iff (index : FaissStore.IndexSearch K) (R : SquareRoot K)
    (uuid5 : QdrantStore.Uuid5) (server : QdrantStore.ServerSearch K)
    (parseInt : Text → Option Int) (query : ChromaStore.ServerQuery K) (S : Pair → Prop) :
    (Contained (FaissStore.act index R (defaultNamespace configured)) effect
        (defaultNamespace configured) faissListed (fun _ => True) S ↔
      Injective (fileOf (defaultNamespace configured)) S ∧
        ∀ p, S p → ParsesNamespace configured p) ∧
    (Contained (QdrantStore.act uuid5 server (defaultNamespace configured)) effect
        (defaultNamespace configured) qdrantListed (fun _ => True) S ↔
      ∀ p, S p → Parses configured p) ∧
    (Contained (ChromaStore.act parseInt query (defaultNamespace configured)) effect
        (defaultNamespace configured) (chromaListed parseInt)
        (HarmlessCall parseInt configured) S ↔
      ∀ p, S p → Parses configured p) ∧
    ∀ p, Parses configured p → ∀ dimension metadata,
      let act := ChromaStore.act parseInt query (defaultNamespace configured)
      let calls := [(p, Operation.createCollection dimension metadata)]
      (∀ ns, ∃ names, chromaListed parseInt ns
          (final (fileOf (defaultNamespace configured)) act calls []) = some names ∧
          Exact names (fun q => q.1 = ns)
            (fun q => alive effect q (log (fileOf (defaultNamespace configured)) act calls [])
              false)) ↔
        HarmlessCall parseInt configured
          (p, (Operation.createCollection dimension metadata : Operation K)) :=
  ⟨faiss_contained_iff index R S, qdrant_contained_iff uuid5 server S,
    chroma_contained_iff parseInt query S,
    fun _ hp dimension metadata => chroma_listed_iff parseInt query hp dimension metadata⟩

end Backends

/-! ### Names that are kept apart, and names that are not -/

/-- Two pairs of plain names. -/
def Plain (pair : Pair) : Prop :=
  pair = ("home".toList, "docs".toList) ∨ pair = ("lab".toList, "docs".toList)

/-- Plain names are kept apart. -/
theorem plain_contained :
    Contained (FaissStore.act (fun _ _ _ => []) FaissStore.realRoot (defaultNamespace [])) effect
        (defaultNamespace []) faissListed (fun _ => True) Plain ∧
      Contained (QdrantStore.act (K := ℝ) id (fun _ _ _ => []) (defaultNamespace [])) effect
        (defaultNamespace []) qdrantListed (fun _ => True) Plain := by
  obtain ⟨hfaiss, hqdrant, -⟩ := contained_iff [] (fun _ _ _ => []) FaissStore.realRoot id
    (fun _ _ _ => []) (fun _ => none) (fun _ _ _ => []) Plain
  have hparses : ∀ p, Plain p → Parses [] p := by
    rintro p (rfl | rfl)
    · rw [Parses]
      decide
    · rw [Parses]
      decide
  refine ⟨hfaiss.mpr ⟨injective_of_parses hparses, fun p hp => ?_⟩, hqdrant.mpr hparses⟩
  rw [ParsesNamespace, hparses p hp]
  rfl

/-- Two pairs that a replaced character brings together. -/
def Replaced (pair : Pair) : Prop :=
  pair = ("a b".toList, "docs".toList) ∨ pair = ("a_b".toList, "docs".toList)

/-- A character that is replaced makes two pairs share a collection, in all three backends. -/
theorem replaced_character_shared :
    ¬ Contained (FaissStore.act (fun _ _ _ => []) FaissStore.realRoot (defaultNamespace []))
        effect (defaultNamespace []) faissListed (fun _ => True) Replaced ∧
      ¬ Contained (QdrantStore.act (K := ℝ) id (fun _ _ _ => []) (defaultNamespace [])) effect
        (defaultNamespace []) qdrantListed (fun _ => True) Replaced ∧
      ¬ Contained (ChromaStore.act (K := ℝ) (fun _ => none) (fun _ _ _ => [])
          (defaultNamespace [])) effect (defaultNamespace []) (chromaListed fun _ => none)
        (HarmlessCall (fun _ => none) []) Replaced := by
  have hkeys : fileOf (defaultNamespace []) ("a b".toList, "docs".toList) =
      fileOf (defaultNamespace []) ("a_b".toList, "docs".toList) := by decide
  have hne : ("a b".toList, "docs".toList) ≠ ("a_b".toList, "docs".toList) := by decide
  have hparses : ¬ Parses [] ("a b".toList, "docs".toList) := by
    rw [Parses]
    decide
  refine ⟨fun h => ?_, fun h => ?_, fun h => ?_⟩
  · obtain ⟨hinj, -⟩ := (faiss_contained_iff _ _ _).mp h
    exact hne (hinj _ _ (Or.inl rfl) (Or.inr rfl) hkeys)
  · exact hparses ((qdrant_contained_iff _ _ _).mp h _ (Or.inl rfl))
  · exact hparses ((chroma_contained_iff _ _ _).mp h _ (Or.inl rfl))


end OpenWrtCopilot.Ports.VectorNames
