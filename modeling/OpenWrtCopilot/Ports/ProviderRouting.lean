import OpenWrtCopilot.Verified.PyDict
import OpenWrtCopilot.Verified.PyText

/-!
# Choosing a provider

Ports `get_for_capability` of the provider manager, the selection of `EmbeddingFactory`
and `RerankFactory`, which ask the manager first and then probe the providers, and
`provider_for` of the chat service.  All of them look the preferred name up before they
know that it is configured.

## Main results

* `getForCapability_of_known` — the order in which providers are asked.
* `getForCapability_of_unknown` — a preferred name that is not configured raises.
* `routing_iff` — when the choice is right.
-/

namespace OpenWrtCopilot.Ports.ProviderRouting

open Verified
open Verified.PyText
open Verified.PyDict (Dict keys)

/-! ## The manager -/

/-- What of a provider decides the choice. -/
structure Provider where
  name : Text
  /-- `config.capabilities`. -/
  capabilities : Option (List Text)
  capabilityDefaults : List Text

/-- `static_capabilities`. -/
def Provider.staticCapabilities (p : Provider) : List Text :=
  p.capabilities.getD p.capabilityDefaults

def Provider.declares (p : Provider) (capability : Text) : Bool :=
  capability ∈ p.staticCapabilities

/-- The configured providers that are enabled, and the default if it is one of them. -/
structure ProviderManager where
  providers : Dict Text Provider
  defaultName : Option Text
  distinct : (keys providers).Nodup
  configured : ∀ name ∈ defaultName, name ∈ keys providers

/-- `ProviderManager(providers, default_provider=…)`. -/
def ProviderManager.make (providers : Dict Text Provider) (distinct : (keys providers).Nodup)
    (defaultProvider : Option Text) : ProviderManager where
  providers := providers
  defaultName := defaultProvider.filter fun name => decide (name ∈ keys providers)
  distinct := distinct
  configured := by
    intro name hname
    exact of_decide_eq_true (Option.filter_eq_some_iff.mp hname).2

inductive RoutingError where
  /-- `KeyError` of a dictionary. -/
  | keyError (name : Text)
  /-- `NoEmbeddingProviderError`, `NoRerankProviderError` or `NoChatProviderError`. -/
  | noProvider (message : Text)
  deriving DecidableEq

/-- `if name:` for an optional name. -/
def given (name : Option Text) : List Text := name.toList.filter (· ≠ [])

/-- The names in the order in which they are tried. -/
def ProviderManager.ordered (m : ProviderManager) (preferred : Option Text) : List Text :=
  let wanted := given preferred
  let withDefault := wanted ++ (given m.defaultName).filter (· ∉ wanted)
  withDefault ++ (keys m.providers).filter (· ∉ withDefault)

/-- The first of some names whose provider passes a test, which may be made on the
network. -/
def firstOf (providers : Dict Text Provider) (test : Provider → Bool) :
    List Text → Except RoutingError (Option Provider)
  | [] => .ok none
  | name :: names =>
      match PyDict.get? name providers with
      | none => .error (.keyError name)
      | some provider =>
          if test provider then .ok (some provider) else firstOf providers test names

/-- `get_for_capability`. -/
def ProviderManager.getForCapability (m : ProviderManager) (capability : Text)
    (preferred : Option Text) : Except RoutingError (Option Provider) :=
  firstOf m.providers (fun p => p.declares capability) (m.ordered preferred)

/-! ## Selection -/

/-- `_detect_runtime`: a probe that raises skips the provider. -/
def detectRuntime {ε : Type} (m : ProviderManager) (supports : Provider → Except ε Bool)
    (preferred : Option Text) : Except RoutingError (Option Provider) :=
  firstOf m.providers
    (fun p =>
      match supports p with
      | .ok supported => supported
      | .error _ => false)
    (m.ordered preferred)

/-- `_get_provider`, for a capability and the message of the error. -/
def getProvider {ε : Type} (capability message : Text) (m : ProviderManager)
    (supports : Provider → Except ε Bool) (preferred : Option Text) :
    Except RoutingError Provider := do
  match ← m.getForCapability capability preferred with
  | some provider => return provider
  | none =>
      match ← detectRuntime m supports preferred with
      | some provider => return provider
      | none => throw (.noProvider message)

def noEmbeddingProvider : Text :=
  ("No provider with the 'embeddings' capability is configured. " ++
    "Add an embedding-capable provider to providers.yaml and restart.").toList

def noRerankProvider : Text :=
  ("No provider with the 'rerank' capability is configured. " ++
    "Add a rerank-capable provider (e.g. nim) to providers.yaml and restart.").toList

def noChatProvider : Text :=
  ("No provider with the 'chat' capability is configured. " ++
    "Add a provider to providers.yaml (e.g. ollama) and restart.").toList

/-- `EmbeddingFactory._get_provider`. -/
def embeddingProvider {ε : Type} : ProviderManager → (Provider → Except ε Bool) → Option Text →
    Except RoutingError Provider :=
  getProvider "embeddings" noEmbeddingProvider

/-- `RerankFactory._get_provider`. -/
def rerankProvider {ε : Type} : ProviderManager → (Provider → Except ε Bool) → Option Text →
    Except RoutingError Provider :=
  getProvider "rerank" noRerankProvider

/-- `ChatService.provider_for`, which does not probe. -/
def providerFor (m : ProviderManager) (preferred : Option Text) :
    Except RoutingError Provider := do
  match ← m.getForCapability "chat" preferred with
  | some provider => return provider
  | none => throw (.noProvider noChatProvider)

/-! ## What the choice should be -/

/-- The preferred name, if there is one, is that of a configured provider.  The empty name
is none. -/
def Known (m : ProviderManager) (preferred : Option Text) : Prop :=
  ∀ name ∈ given preferred, name ∈ keys m.providers

/-- The provider of a name, if it declares the capability. -/
def declaring (m : ProviderManager) (capability name : Text) : Option Provider :=
  (PyDict.get? name m.providers).filter fun p => p.declares capability

/-- The first provider that declares the capability: preferred, default, any other. -/
def firstDeclaring (m : ProviderManager) (capability : Text) (preferred : Option Text) :
    Option Provider :=
  (given preferred ++ given m.defaultName ++ keys m.providers).findSome? (declaring m capability)

/-- The manager does not raise, and chooses the first provider that declares the
capability; none exactly if no configured provider does. -/
def RoutesRight (m : ProviderManager) (capability : Text) (preferred : Option Text) : Prop :=
  ∃ choice, m.getForCapability capability preferred = .ok choice ∧
    choice = firstDeclaring m capability preferred ∧
    (choice = none ↔
      ∀ name p, PyDict.get? name m.providers = some p → p.declares capability = false)

/-- A provider is selected, or the error of the factory is raised. -/
def SelectsRight (message : Text) (selected : Except RoutingError Provider) : Prop :=
  (∃ provider, selected = .ok provider) ∨ selected = .error (.noProvider message)

/-! ## Names that are tried -/

section Order

variable {m : ProviderManager} {preferred : Option Text}

theorem mem_keys_ordered (hknown : Known m preferred) :
    ∀ name ∈ m.ordered preferred, name ∈ keys m.providers := by
  intro name hname
  simp only [ProviderManager.ordered, List.mem_append, List.mem_filter] at hname
  obtain (hpreferred | ⟨hdefault, _⟩) | ⟨hmem, _⟩ := hname
  · exact hknown name hpreferred
  · exact m.configured name (Option.mem_toList.mp (List.mem_filter.mp hdefault).1)
  · exact hmem

/-- Names that were tried need not be tried again. -/
theorem findSome?_append_filter {β : Type} (f : Text → Option β) (tried l : List Text) :
    (tried ++ l.filter (· ∉ tried)).findSome? f = (tried ++ l).findSome? f := by
  rw [List.findSome?_append, List.findSome?_append]
  cases htried : tried.findSome? f with
  | some found => rfl
  | none =>
    rw [Option.none_or, Option.none_or]
    induction l with
    | nil => rfl
    | cons x l ih =>
      by_cases hx : x ∈ tried
      · rw [List.filter_cons_of_neg (by simpa using hx), List.findSome?_cons,
          List.findSome?_eq_none_iff.mp htried x hx, ih]
      · rw [List.filter_cons_of_pos (by simpa using hx), List.findSome?_cons,
          List.findSome?_cons, ih]

theorem findSome?_ordered {β : Type} (f : Text → Option β) :
    (m.ordered preferred).findSome? f =
      (given preferred ++ given m.defaultName ++ keys m.providers).findSome? f := by
  rw [ProviderManager.ordered, findSome?_append_filter, List.findSome?_append,
    findSome?_append_filter, ← List.findSome?_append]

/-- The first name that is tried is the preferred one. -/
theorem head_ordered {name : Text} (h : name ∈ given preferred) :
    ∃ names, m.ordered preferred = name :: names := by
  have hgiven : given preferred = [name] := by
    obtain ⟨hname, hne⟩ := List.mem_filter.mp h
    obtain rfl := Option.mem_toList.mp hname
    exact List.filter_cons_of_pos hne
  rw [ProviderManager.ordered, hgiven]
  exact ⟨_, rfl⟩

end Order

/-! ## The loop -/

/-- Among configured names the loop finds the first that passes. -/
theorem firstOf_of_configured {providers : Dict Text Provider} {test : Provider → Bool}
    {names : List Text} (h : ∀ name ∈ names, name ∈ keys providers) :
    firstOf providers test names =
      .ok (names.findSome? fun name => (PyDict.get? name providers).filter test) := by
  induction names with
  | nil => rfl
  | cons name names ih =>
    obtain ⟨hname, hrest⟩ := List.forall_mem_cons.mp h
    obtain ⟨provider, hget⟩ := Option.isSome_iff_exists.mp (PyDict.isSome_get?_iff.mpr hname)
    rw [firstOf, hget, List.findSome?_cons, hget, Option.filter_some]
    cases htest : test provider with
    | true => simp [htest]
    | false => simp [htest, ih hrest]

section Choice

variable {m : ProviderManager} {preferred : Option Text} {capability : Text}

/-- The order in which providers are asked. -/
theorem getForCapability_of_known (hknown : Known m preferred) :
    m.getForCapability capability preferred = .ok (firstDeclaring m capability preferred) := by
  rw [ProviderManager.getForCapability, firstOf_of_configured (mem_keys_ordered hknown),
    findSome?_ordered]
  rfl

/-- A name that is not configured raises, whatever is asked for. -/
theorem firstOf_of_unknown {name : Text} (hname : name ∈ given preferred)
    (hunknown : name ∉ keys m.providers) (test : Provider → Bool) :
    firstOf m.providers test (m.ordered preferred) = .error (.keyError name) := by
  obtain ⟨names, hordered⟩ := head_ordered (m := m) hname
  rw [hordered, firstOf, PyDict.get?_eq_none_iff.mpr hunknown]

theorem getForCapability_of_unknown {name : Text} (hname : name ∈ given preferred)
    (hunknown : name ∉ keys m.providers) :
    m.getForCapability capability preferred = .error (.keyError name) :=
  firstOf_of_unknown hname hunknown _

theorem firstDeclaring_eq_none_iff :
    firstDeclaring m capability preferred = none ↔
      ∀ name p, PyDict.get? name m.providers = some p → p.declares capability = false := by
  rw [firstDeclaring, List.findSome?_eq_none_iff]
  constructor
  · intro hnone name p hget
    have hmem : name ∈ keys m.providers := PyDict.isSome_get?_iff.mp (by rw [hget]; rfl)
    have hname := hnone name (List.mem_append_right _ hmem)
    rw [declaring, hget, Option.filter_some] at hname
    by_contra hdeclares
    rw [if_pos (Bool.ne_false_iff.mp hdeclares)] at hname
    cases hname
  · intro hnone name _
    rw [declaring, Option.filter_eq_none_iff]
    intro p hget
    rw [hnone name p hget]
    decide

/-- The manager chooses rightly among known names. -/
theorem routesRight_iff : RoutesRight m capability preferred ↔ Known m preferred := by
  constructor
  · rintro ⟨choice, hchoice, _⟩ name hname
    by_contra hunknown
    rw [getForCapability_of_unknown hname hunknown] at hchoice
    cases hchoice
  · intro hknown
    exact ⟨_, getForCapability_of_known hknown, rfl, firstDeclaring_eq_none_iff⟩

/-- So do the factories, whatever the probes answer. -/
theorem selectsRight_iff {ε : Type} (message : Text) (supports : Provider → Except ε Bool) :
    SelectsRight message (getProvider capability message m supports preferred) ↔
      Known m preferred := by
  constructor
  · intro hselects name hname
    by_contra hunknown
    have hraises : getProvider capability message m supports preferred =
        .error (.keyError name) := by
      rw [getProvider, getForCapability_of_unknown hname hunknown]
      rfl
    rw [hraises] at hselects
    obtain ⟨_, hok⟩ | hno := hselects
    · cases hok
    · cases hno
  · intro hknown
    rw [getProvider, getForCapability_of_known hknown, detectRuntime,
      firstOf_of_configured (mem_keys_ordered hknown)]
    cases firstDeclaring m capability preferred with
    | some provider => exact .inl ⟨provider, rfl⟩
    | none =>
      cases (m.ordered preferred).findSome? fun name => (PyDict.get? name m.providers).filter
          fun p =>
            match supports p with
            | .ok supported => supported
            | .error _ => false with
      | some provider => exact .inl ⟨provider, rfl⟩
      | none => exact .inr rfl

/-- And the chat service. -/
theorem providerFor_iff :
    SelectsRight noChatProvider (providerFor m preferred) ↔ Known m preferred := by
  constructor
  · intro hselects name hname
    by_contra hunknown
    have hraises : providerFor m preferred = .error (.keyError name) := by
      rw [providerFor, getForCapability_of_unknown hname hunknown]
      rfl
    rw [hraises] at hselects
    obtain ⟨_, hok⟩ | hno := hselects
    · cases hok
    · cases hno
  · intro hknown
    rw [providerFor, getForCapability_of_known hknown]
    cases firstDeclaring m "chat" preferred with
    | some provider => exact .inl ⟨provider, rfl⟩
    | none => exact .inr rfl

end Choice

/--
**The manager chooses the first provider that declares the capability, and the factories
and the chat service select a provider or raise their own error, if and only if the
preferred name is configured or there is none.**
-/
theorem routing_iff {ε : Type} (m : ProviderManager) (preferred : Option Text)
    (supports : Provider → Except ε Bool) :
    (∀ capability, RoutesRight m capability preferred ↔ Known m preferred) ∧
    (SelectsRight noEmbeddingProvider (embeddingProvider m supports preferred) ↔
      Known m preferred) ∧
    (SelectsRight noRerankProvider (rerankProvider m supports preferred) ↔ Known m preferred) ∧
    (SelectsRight noChatProvider (providerFor m preferred) ↔ Known m preferred) :=
  ⟨fun _ => routesRight_iff, selectsRight_iff noEmbeddingProvider supports,
    selectsRight_iff noRerankProvider supports, providerFor_iff⟩

section Examples

def ollama : Provider where
  name := "ollama".toList
  capabilities := none
  capabilityDefaults := ["chat".toList, "stream".toList]

def onlyOllama : ProviderManager :=
  .make [("ollama".toList, ollama)] (by decide) (some "ollama".toList)

/-- **With `ollama` alone, asking for `nim` raises a `KeyError`, and so do all selections.** -/
theorem unknown_preferred_raises :
    onlyOllama.getForCapability "chat" (some "nim".toList) = .error (.keyError "nim".toList) ∧
    embeddingProvider onlyOllama (fun _ => (.ok true : Except Unit Bool)) (some "nim".toList) =
      .error (.keyError "nim".toList) ∧
    rerankProvider onlyOllama (fun _ => (.ok true : Except Unit Bool)) (some "nim".toList) =
      .error (.keyError "nim".toList) ∧
    providerFor onlyOllama (some "nim".toList) = .error (.keyError "nim".toList) ∧
    ¬∀ m capability preferred, RoutesRight m capability preferred := by
  refine ⟨rfl, rfl, rfl, rfl, fun hall => ?_⟩
  have hknown := routesRight_iff.mp (hall onlyOllama "chat" (some "nim".toList))
  exact absurd (hknown "nim".toList (by decide)) (by decide)

end Examples

end OpenWrtCopilot.Ports.ProviderRouting
