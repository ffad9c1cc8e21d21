import OpenWrtCopilot.Ports.ProviderAdmin

/-!
# The provider configuration file

Ports `from_file` and `to_file` of `ProvidersConfig`.  The writer always writes YAML; the
reader chooses the format by the suffix of the name, and checks more than the constructor
of a configuration does.  What PyYAML writes and reads is a parameter, as are the
conversions pydantic makes when the data of a field has another type.

## Main results

* `modelValidate_modelDump_iff` — the data of a configuration is accepted exactly if every
  provider stands under its type.
* `fromFile_toml` — a configuration that was saved as TOML is never read again.
* `restores_iff` — when a saved configuration is read back.
-/

namespace OpenWrtCopilot.Ports.ProviderFiles

open Verified
open Verified.PyDict (Dict get? keys)
open Verified.PyText
open Ports.ProviderAdmin

/-! ## Plain data -/

/-- What a YAML or TOML document holds.  A float is its bits. -/
inductive Data where
  | null
  | bool (b : Bool)
  | int (n : Int)
  | float (bits : UInt64)
  | text (t : Text)
  | list (items : List Data)
  | set (items : Finset Text)
  | map (items : List (Text × Data))

/-- `not d`. -/
def Data.falsy : Data → Bool
  | .null => true
  | .bool b => !b
  | .int n => n = 0
  | .float bits => bits = 0 || bits = 0x8000000000000000
  | .text t => t = []
  | .list items => items.isEmpty
  | .set items => items = ∅
  | .map items => items.isEmpty

/-- The fields of `ProviderConfig` that the administration endpoints pass on. -/
structure Settings where
  embedModel : Text := []
  visionModel : Text := []
  rerankModel : Text := []
  embedDimensions : Option Int := none
  embedBatchSize : Option Int := none
  /-- The bits of `60.0`. -/
  timeoutSeconds : UInt64 := 0x404E000000000000
  verifyTls : Bool := true
  extraHeaders : Dict Text Text := []
  capabilities : Option (Finset Text) := none
  costPer1kPrompt : UInt64 := 0
  costPer1kCompletion : UInt64 := 0
  deriving DecidableEq

/-- PyYAML, the part of `tomllib` behind its first check, `repr`, and what pydantic makes
of data that is not of the type of its field. -/
structure Libraries where
  safeDump : Data → Text
  safeLoad : Text → Except Text Data
  tomlRest : Text → Except Text Data
  repr : Data → Text
  laxText : Data → Option Text
  laxBool : Data → Option Bool
  laxInt : Data → Option Int
  laxFloat : Data → Option UInt64
  laxHeaders : Data → Option (Dict Text Text)
  laxCapabilities : Data → Option (Finset Text)

/-! ## Writing -/

/-- `exclude_none=True`. -/
def present (fields : Dict Text (Option Data)) : Dict Text Data :=
  fields.filterMap fun field => field.2.map (field.1, ·)

/-- The fields `model_dump` sees, in order; `api_key` is excluded. -/
def dumpedFields (cfg : ProviderConfig Settings) : Dict Text (Option Data) :=
  [("type".toList, some (.text cfg.type)),
    ("name".toList, some (.text cfg.name)),
    ("enabled".toList, some (.bool cfg.enabled)),
    ("base_url".toList, cfg.baseUrl.map .text),
    ("api_key_env".toList, cfg.apiKeyEnv.map .text),
    ("api_key_ref".toList, cfg.apiKeyRef.map .text),
    ("model".toList, some (.text cfg.model)),
    ("embed_model".toList, some (.text cfg.settings.embedModel)),
    ("vision_model".toList, some (.text cfg.settings.visionModel)),
    ("rerank_model".toList, some (.text cfg.settings.rerankModel)),
    ("embed_dimensions".toList, cfg.settings.embedDimensions.map .int),
    ("embed_batch_size".toList, cfg.settings.embedBatchSize.map .int),
    ("timeout_seconds".toList, some (.float cfg.settings.timeoutSeconds)),
    ("verify_tls".toList, some (.bool cfg.settings.verifyTls)),
    ("extra_headers".toList,
      some (.map (PyDict.mapValues (fun _ => .text) cfg.settings.extraHeaders))),
    ("capabilities".toList, cfg.settings.capabilities.map .set),
    ("cost_per_1k_prompt".toList, some (.float cfg.settings.costPer1kPrompt)),
    ("cost_per_1k_completion".toList, some (.float cfg.settings.costPer1kCompletion))]

def dumpProvider (cfg : ProviderConfig Settings) : Data := .map (present (dumpedFields cfg))

def defaultProviderKey : Text := "default_provider".toList

def providersKey : Text := "providers".toList

/-- `model_dump(exclude_none=True, mode="python")`. -/
def modelDump (c : ProvidersConfig Settings) : Data :=
  .map (present [(defaultProviderKey, c.defaultProvider.map .text),
    (providersKey, some (.map (PyDict.mapValues (fun _ => dumpProvider) c.providers)))])

structure Path where
  parent : Text
  name : Text
  deriving DecidableEq

/-- `Path.suffix`. -/
def Path.suffix (path : Path) : Text :=
  let extension := (path.name.reverse.takeWhile (· ≠ '.')).reverse
  if extension ≠ [] ∧ extension.length + 1 < path.name.length then '.' :: extension else []

abbrev Files := Path → Option Text

section

variable (lib : Libraries)

/-- `to_file`, where the file system raises nothing. -/
def toFile (c : ProvidersConfig Settings) (path : Path) (files : Files) : Files :=
  Function.update files path (some (lib.safeDump (modelDump c)))

/-! ## Reading -/

/-- What `from_file` raises. -/
inductive ConfigError where
  /-- `FileNotFoundError`. -/
  | missing
  /-- A `ValueError` about the suffix. -/
  | unsupported (message : Text)
  | yaml (message : Text)
  | toml (message : Text)
  /-- A validator of the source. -/
  | invalid (location : List Text) (message : Text)
  /-- A check of pydantic.  It lists all of them; this is the first. -/
  | refused (location : List Text)
  deriving DecidableEq

/-- Newlines, as a file opened for text reads them. -/
def universalNewlines : Text → Text
  | [] => []
  | '\r' :: '\n' :: t => '\n' :: universalNewlines t
  | '\r' :: t => '\n' :: universalNewlines t
  | c :: t => c :: universalNewlines t

def isBareKeyChar (c : Char) : Bool := c.isAlphanum || c = '-' || c = '_'

/-- The message for a character on the first line. -/
def equalsExpected (column : Nat) : Text :=
  "Expected '=' after a key in a key/value pair (at line 1, column ".toList ++
    (Nat.repr column).toList ++ ")".toList

/-- `tomllib.loads`, as far as a document that begins with a bare key is refused because
neither `=` nor `.` follows. -/
def tomlLoads (text : Text) : Except Text Data :=
  let key := text.takeWhile isBareKeyChar
  let after := text.dropWhile isBareKeyChar
  let blanks := after.takeWhile fun c => c = ' ' || c = '\t'
  if key = [] then lib.tomlRest text
  else
    match after.dropWhile fun c => c = ' ' || c = '\t' with
    | [] => .error "Expected '=' after a key in a key/value pair (at end of document)".toList
    | c :: _ =>
        if c = '=' ∨ c = '.' then lib.tomlRest text
        else .error (equalsExpected (key.length + blanks.length + 1))

def readText : Data → Option Text
  | .text t => some t
  | d => lib.laxText d

def readBool : Data → Option Bool
  | .bool b => some b
  | d => lib.laxBool d

def readInt : Data → Option Int
  | .int n => some n
  | d => lib.laxInt d

def readFloat : Data → Option UInt64
  | .float bits => some bits
  | d => lib.laxFloat d

def readHeaders : Data → Option (Dict Text Text)
  | .map items => items.mapM fun item => (readText lib item.2).map (item.1, ·)
  | d => lib.laxHeaders d

def readCapabilities : Data → Option (Finset Text)
  | .set items => some items
  | d => lib.laxCapabilities d

/-- `… | None`. -/
def nullable {β : Type} (read : Data → Option β) : Data → Option (Option β)
  | .null => some none
  | d => (read d).map some

/-- A field that has a default. -/
def readField {β : Type} (location : List Text) (items : Dict Text Data) (name : Text)
    (default : β) (read : Data → Option β) : Except ConfigError β :=
  match get? name items with
  | none => .ok default
  | some d =>
      match read d with
      | some value => .ok value
      | none => .error (.refused (location ++ [name]))

/-- The fields of `ProviderConfig`; no others are allowed. -/
def fieldNames : List Text :=
  ["type".toList, "name".toList, "enabled".toList, "base_url".toList, "api_key_env".toList,
    "api_key_ref".toList, "api_key".toList, "model".toList, "embed_model".toList,
    "vision_model".toList, "rerank_model".toList, "embed_dimensions".toList,
    "embed_batch_size".toList, "timeout_seconds".toList, "verify_tls".toList,
    "extra_headers".toList, "capabilities".toList, "cost_per_1k_prompt".toList,
    "cost_per_1k_completion".toList]

/-- `_validate_type`. -/
def validateType (location : List Text) (type : Text) : Except ConfigError Unit :=
  if type ∈ keys defaultBaseUrls then .ok ()
  else .error (.invalid (location ++ ["type".toList])
    ("Unsupported provider type ".toList ++ lib.repr (.text type) ++ "; supported: ".toList ++
      join ", ".toList ((keys defaultBaseUrls).mergeSort (· ≤ ·))))

/-- `_require_base_url_for_compat`. -/
def requireBaseUrlForCompat (location : List Text) (cfg : ProviderConfig Settings) :
    Except ConfigError (ProviderConfig Settings) :=
  if cfg.type = compat ∧ truthy cfg.baseUrl = none then
    .error (.invalid location
      "base_url is required for a custom OpenAI-compatible provider".toList)
  else .ok cfg

/-- The validation of one entry of `providers`. -/
def readProvider (item : Text × Data) : Except ConfigError (Text × ProviderConfig Settings) :=
  let location := [providersKey, item.1]
  match item.2 with
  | .map items => do
      let field {β : Type} (name : Text) (default : β) (read : Data → Option β) :=
        readField location items name default read
      match ← field "type".toList none fun d => (readText lib d).map some with
      | none => throw (.refused (location ++ ["type".toList]))
      | some type =>
          validateType lib location type
          let name ← field "name".toList [] (readText lib)
          let enabled ← field "enabled".toList true (readBool lib)
          let baseUrl ← field "base_url".toList none (nullable (readText lib))
          let apiKeyEnv ← field "api_key_env".toList none (nullable (readText lib))
          let apiKeyRef ← field "api_key_ref".toList none (nullable (readText lib))
          let apiKey ← field "api_key".toList none (nullable (readText lib))
          let model ← field "model".toList [] (readText lib)
          let embedModel ← field "embed_model".toList [] (readText lib)
          let visionModel ← field "vision_model".toList [] (readText lib)
          let rerankModel ← field "rerank_model".toList [] (readText lib)
          let embedDimensions ← field "embed_dimensions".toList none (nullable (readInt lib))
          let embedBatchSize ← field "embed_batch_size".toList none (nullable (readInt lib))
          let timeoutSeconds ←
            field "timeout_seconds".toList 0x404E000000000000 (readFloat lib)
          let verifyTls ← field "verify_tls".toList true (readBool lib)
          let extraHeaders ← field "extra_headers".toList [] (readHeaders lib)
          let capabilities ← field "capabilities".toList none (nullable (readCapabilities lib))
          let costPer1kPrompt ← field "cost_per_1k_prompt".toList 0 (readFloat lib)
          let costPer1kCompletion ← field "cost_per_1k_completion".toList 0 (readFloat lib)
          match (keys items).find? (· ∉ fieldNames) with
          | some extra => throw (.refused (location ++ [extra]))
          | none =>
              let cfg ← requireBaseUrlForCompat location
                { type := type, name := name, enabled := enabled, baseUrl := baseUrl
                  apiKeyEnv := apiKeyEnv, apiKeyRef := apiKeyRef, apiKey := apiKey, model := model
                  settings :=
                    { embedModel := embedModel, visionModel := visionModel
                      rerankModel := rerankModel, embedDimensions := embedDimensions
                      embedBatchSize := embedBatchSize, timeoutSeconds := timeoutSeconds
                      verifyTls := verifyTls, extraHeaders := extraHeaders
                      capabilities := capabilities, costPer1kPrompt := costPer1kPrompt
                      costPer1kCompletion := costPer1kCompletion } }
              return (item.1, cfg)
  | _ => throw (.refused location)

def mismatch (key : Text) (declared : Data) : ConfigError :=
  .invalid [] ("Provider entry ".toList ++ lib.repr (.text key) ++ " declares type ".toList ++
    lib.repr declared ++ "; expected ".toList ++ lib.repr (.text key))

/-- One round of `_infer_provider_types`. -/
def inferProviderType (item : Text × Data) : Except ConfigError (Text × Data) :=
  match item.2 with
  | .map entry =>
      match get? "type".toList entry with
      | none | some .null =>
          .ok (item.1, .map (PyDict.set "type".toList (.text item.1) entry))
      | some (.text declared) =>
          if declared = item.1 then .ok item else .error (mismatch lib item.1 (.text declared))
      | some declared => .error (mismatch lib item.1 declared)
  | _ => .ok item

/-- `_infer_provider_types`. -/
def inferProviderTypes (items : Dict Text Data) : Except ConfigError (Dict Text Data) :=
  match get? providersKey items with
  | some (.map entries) => do
      let entries ← entries.mapM (inferProviderType lib)
      return PyDict.set providersKey (.map entries) items
  | _ => .ok items

/-- `model_validate`. -/
def modelValidate : Data → Except ConfigError (ProvidersConfig Settings)
  | .map items => do
      let items ← inferProviderTypes lib items
      let default ← readField [] items defaultProviderKey none (nullable (readText lib))
      match get? providersKey items with
      | none => return { defaultProvider := truthy default, providers := [] }
      | some (.map entries) =>
          let providers ← entries.mapM (readProvider lib)
          return { defaultProvider := truthy default, providers := providers }
      | some _ => throw (.refused [providersKey])
  | _ => .error (.refused [])

def yamlSuffixes : List Text := [".yaml".toList, ".yml".toList]

def tomlSuffix : Text := ".toml".toList

/-- `from_file`.  No letter outside ASCII becomes one of a suffix in lower case. -/
def fromFile (path : Path) (files : Files) : Except ConfigError (ProvidersConfig Settings) :=
  match files path with
  | none => .error .missing
  | some content =>
      let text := universalNewlines content
      let suffix := path.suffix.map Char.toLower
      if suffix ∈ yamlSuffixes then
        match lib.safeLoad text with
        | .error message => .error (.yaml message)
        | .ok data => modelValidate lib (if data.falsy then .map [] else data)
      else if suffix = tomlSuffix then
        match tomlLoads lib text with
        | .error message => .error (.toml message)
        | .ok data => modelValidate lib data
      else .error (.unsupported "Unsupported config format; use .yaml, .yml or .toml".toList)

/-- What PyYAML promises for some data: it reads what it wrote, writes no carriage return,
and puts the keys of a mapping on lines of their own. -/
structure Faithful (d : Data) : Prop where
  load_dump : lib.safeLoad (lib.safeDump d) = .ok d
  no_return : '\r' ∉ lib.safeDump d
  block : ∀ key value items, d = .map ((key, value) :: items) →
    key = defaultProviderKey ∨ key = providersKey → ∃ t, lib.safeDump d = key ++ ':' :: t

end

/-! ## What the reader asks for -/

/-- What the validators of `ProviderConfig` ensure. -/
structure ValidProvider (cfg : ProviderConfig Settings) : Prop where
  supported : cfg.type ∈ keys defaultBaseUrls
  addressed : cfg.type = compat → truthy cfg.baseUrl ≠ none

/-- What the validators ensure of a configuration that is put together from its parts. -/
structure Valid (c : ProvidersConfig Settings) : Prop where
  default_named : c.defaultProvider ≠ some []
  providers : ∀ item ∈ c.providers, ValidProvider item.2

/-- Every provider stands under its type.  The constructor asks this of dictionaries only. -/
def KeyedByType (c : ProvidersConfig Settings) : Prop :=
  ∀ item ∈ c.providers, item.1 = item.2.type

/-- A saved configuration is read back, but for the keys in memory. -/
def Restores (lib : Libraries) (c : ProvidersConfig Settings) (path : Path) (files : Files) :
    Prop :=
  fromFile lib path (toFile lib c path files) = .ok c.persisted

/-! ## One provider -/

theorem get?_present {fields : Dict Text (Option Data)} (h : (keys fields).Nodup) (name : Text) :
    get? name (present fields) = (get? name fields).join := by
  induction fields with
  | nil => rfl
  | cons field fields ih =>
    obtain ⟨key, value⟩ := field
    obtain ⟨hnot, hnodup⟩ := List.nodup_cons.mp h
    have hrest := ih hnodup
    by_cases hkey : key = name
    · subst hkey
      rw [get?, if_pos rfl]
      cases value with
      | some d => exact if_pos rfl
      | none =>
        rw [PyDict.get?_eq_none_iff.mpr hnot] at hrest
        exact hrest
    · rw [get?, if_neg hkey]
      cases value with
      | some d => exact (if_neg hkey).trans hrest
      | none => exact hrest

theorem mem_keys_of_present {fields : Dict Text (Option Data)} {name : Text}
    (h : name ∈ keys (present fields)) : name ∈ keys fields := by
  obtain ⟨item, hitem, rfl⟩ := List.mem_map.mp h
  obtain ⟨field, hfield, hsome⟩ := List.mem_filterMap.mp hitem
  obtain ⟨_, _, rfl⟩ := Option.map_eq_some_iff.mp hsome
  exact List.mem_map_of_mem hfield

/-- Every field but `api_key` is dumped. -/
theorem keys_dumpedFields (cfg : ProviderConfig Settings) :
    keys (dumpedFields cfg) = fieldNames.erase "api_key".toList := by
  rfl

theorem nodup_fieldNames : fieldNames.Nodup := by decide

theorem get?_dumped (cfg : ProviderConfig Settings) (name : Text) :
    get? name (present (dumpedFields cfg)) = (get? name (dumpedFields cfg)).join :=
  get?_present (by rw [keys_dumpedFields]; exact nodup_fieldNames.erase _) name

/-- No field is dumped that is not allowed. -/
theorem find?_dumped (cfg : ProviderConfig Settings) :
    (keys (present (dumpedFields cfg))).find? (· ∉ fieldNames) = none := by
  rw [List.find?_eq_none]
  intro name hname
  have hfield := mem_keys_of_present hname
  rw [keys_dumpedFields] at hfield
  simpa using List.mem_of_mem_erase hfield

section Reading

variable {lib : Libraries}

theorem readField_of {β : Type} {location : List Text} {items : Dict Text Data} {name : Text}
    {default value : β} {read : Data → Option β} {d : Data} (hitem : get? name items = some d)
    (hread : read d = some value) : readField location items name default read = .ok value := by
  simp only [readField, hitem, hread]

/-- Reading a field that was dumped. -/
theorem readField_dumped {β : Type} {location : List Text} {cfg : ProviderConfig Settings}
    {default : β} {d : Data} {read : Data → Option β} (name : Text) (value : β)
    (hfield : get? name (dumpedFields cfg) = some (some d)) (hread : read d = some value) :
    readField location (present (dumpedFields cfg)) name default read = .ok value :=
  readField_of (by rw [get?_dumped, hfield, Option.join_some]) hread

/-- Reading a field that may be `None`. -/
theorem readField_optional {β : Type} {location : List Text} {cfg : ProviderConfig Settings}
    {make : β → Data} {read : Data → Option β} (name : Text) (value : Option β)
    (hfield : get? name (dumpedFields cfg) = some (value.map make))
    (hread : ∀ x, nullable read (make x) = some (some x)) :
    readField location (present (dumpedFields cfg)) name none (nullable read) = .ok value := by
  cases value with
  | some x => exact readField_dumped name (some x) hfield (hread x)
  | none =>
    have hnone : get? name (present (dumpedFields cfg)) = none := by
      rw [get?_dumped, hfield]
      rfl
    rw [readField, hnone]

theorem readField_apiKey {location : List Text} (cfg : ProviderConfig Settings) :
    readField location (present (dumpedFields cfg)) "api_key".toList none
      (nullable (readText lib)) = .ok none := by
  have hnone : get? "api_key".toList (present (dumpedFields cfg)) = none := by
    rw [get?_dumped]
    rfl
  rw [readField, hnone]

theorem readHeaders_dumped (headers : Dict Text Text) :
    readHeaders lib (.map (PyDict.mapValues (fun _ => .text) headers)) = some headers := by
  induction headers with
  | nil => rfl
  | cons item headers ih =>
    rw [readHeaders] at ih ⊢
    rw [PyDict.mapValues, List.map_cons, List.mapM_cons]
    exact congrArg (fun rest => rest.bind fun rest => some (item :: rest)) ih

/-- All fields come back; what is left are the two validators. -/
theorem readProvider_dump (key : Text) (cfg : ProviderConfig Settings) :
    readProvider lib (key, dumpProvider cfg) = (do
      validateType lib [providersKey, key] cfg.type
      let read ← requireBaseUrlForCompat [providersKey, key] { cfg with apiKey := none }
      return (key, read)) := by
  simp only [readProvider, dumpProvider, find?_dumped]
  rw [readField_dumped "type".toList (some cfg.type) rfl rfl,
    readField_dumped "name".toList cfg.name rfl rfl,
    readField_dumped "enabled".toList cfg.enabled rfl rfl,
    readField_optional "base_url".toList cfg.baseUrl rfl fun _ => rfl,
    readField_optional "api_key_env".toList cfg.apiKeyEnv rfl fun _ => rfl,
    readField_optional "api_key_ref".toList cfg.apiKeyRef rfl fun _ => rfl,
    readField_apiKey,
    readField_dumped "model".toList cfg.model rfl rfl,
    readField_dumped "embed_model".toList cfg.settings.embedModel rfl rfl,
    readField_dumped "vision_model".toList cfg.settings.visionModel rfl rfl,
    readField_dumped "rerank_model".toList cfg.settings.rerankModel rfl rfl,
    readField_optional "embed_dimensions".toList cfg.settings.embedDimensions rfl fun _ => rfl,
    readField_optional "embed_batch_size".toList cfg.settings.embedBatchSize rfl fun _ => rfl,
    readField_dumped "timeout_seconds".toList cfg.settings.timeoutSeconds rfl rfl,
    readField_dumped "verify_tls".toList cfg.settings.verifyTls rfl rfl,
    readField_dumped "extra_headers".toList cfg.settings.extraHeaders rfl (readHeaders_dumped _),
    readField_optional "capabilities".toList cfg.settings.capabilities rfl fun _ => rfl,
    readField_dumped "cost_per_1k_prompt".toList cfg.settings.costPer1kPrompt rfl rfl,
    readField_dumped "cost_per_1k_completion".toList cfg.settings.costPer1kCompletion rfl rfl]
  rfl

theorem readProvider_of_valid (key : Text) {cfg : ProviderConfig Settings}
    (h : ValidProvider cfg) :
    readProvider lib (key, dumpProvider cfg) = .ok (key, { cfg with apiKey := none }) := by
  rw [readProvider_dump, validateType, if_pos h.supported, requireBaseUrlForCompat,
    if_neg fun hcompat => h.addressed hcompat.1 hcompat.2]
  rfl

theorem valid_of_readProvider {key : Text} {cfg : ProviderConfig Settings}
    {read : Text × ProviderConfig Settings}
    (h : readProvider lib (key, dumpProvider cfg) = .ok read) : ValidProvider cfg := by
  rw [readProvider_dump] at h
  by_cases hsupported : cfg.type ∈ keys defaultBaseUrls
  · by_cases hcompat : cfg.type = compat ∧ truthy cfg.baseUrl = none
    · rw [validateType, if_pos hsupported, requireBaseUrlForCompat, if_pos hcompat] at h
      cases h
    · exact ⟨hsupported, fun htype hurl => hcompat ⟨htype, hurl⟩⟩
  · rw [validateType, if_neg hsupported] at h
    cases h

/-! ## The whole configuration -/

theorem inferProviderType_dump (key : Text) (cfg : ProviderConfig Settings) :
    inferProviderType lib (key, dumpProvider cfg) =
      if cfg.type = key then .ok (key, dumpProvider cfg)
      else .error (mismatch lib key (.text cfg.type)) := by
  have htype : get? "type".toList (present (dumpedFields cfg)) = some (.text cfg.type) := by
    rw [get?_dumped]
    rfl
  simp only [inferProviderType, dumpProvider, htype]

/-- The entries of `providers` as they are written. -/
def dumpedProviders (c : ProvidersConfig Settings) : Dict Text Data :=
  PyDict.mapValues (fun _ => dumpProvider) c.providers

/-- What is written for the whole. -/
def dumpedConfig (c : ProvidersConfig Settings) : Dict Text Data :=
  present [(defaultProviderKey, c.defaultProvider.map .text),
    (providersKey, some (.map (dumpedProviders c)))]

theorem mem_dumpedProviders {c : ProvidersConfig Settings} {item : Text × Data}
    (h : item ∈ dumpedProviders c) :
    ∃ cfg, (item.1, cfg) ∈ c.providers ∧ item = (item.1, dumpProvider cfg) := by
  obtain ⟨⟨key, cfg⟩, hcfg, rfl⟩ := List.mem_map.mp h
  exact ⟨cfg, hcfg, rfl⟩

theorem dumpProvider_mem {c : ProvidersConfig Settings} {item : Text × ProviderConfig Settings}
    (h : item ∈ c.providers) : (item.1, dumpProvider item.2) ∈ dumpedProviders c :=
  List.mem_map_of_mem (f := fun item => (item.1, dumpProvider item.2)) h

theorem get?_providers (c : ProvidersConfig Settings) :
    get? providersKey (dumpedConfig c) = some (.map (dumpedProviders c)) := by
  rw [dumpedConfig]
  cases c.defaultProvider with
  | none => rfl
  | some name => rfl

theorem set_providers (c : ProvidersConfig Settings) :
    PyDict.set providersKey (.map (dumpedProviders c)) (dumpedConfig c) = dumpedConfig c := by
  rw [dumpedConfig]
  cases c.defaultProvider with
  | none => rfl
  | some name => rfl

theorem readField_default (c : ProvidersConfig Settings) :
    readField [] (dumpedConfig c) defaultProviderKey none (nullable (readText lib)) =
      .ok c.defaultProvider := by
  rw [dumpedConfig]
  cases c.defaultProvider with
  | none => rfl
  | some name => rfl

theorem inferProviderTypes_of_keyed {c : ProvidersConfig Settings} (h : KeyedByType c) :
    inferProviderTypes lib (dumpedConfig c) = .ok (dumpedConfig c) := by
  have hentries : (dumpedProviders c).mapM (inferProviderType lib) = .ok (dumpedProviders c) := by
    refine (mapM_ok fun item hitem => ?_).trans (congrArg _ (List.map_id (dumpedProviders c)))
    obtain ⟨cfg, hcfg, heq⟩ := mem_dumpedProviders hitem
    rw [heq, inferProviderType_dump, if_pos (h _ hcfg).symm]
    rfl
  simp only [inferProviderTypes, get?_providers, hentries, bind, Except.bind, set_providers, pure,
    Except.pure]

theorem keyed_of_inferProviderTypes {c : ProvidersConfig Settings} {items : Dict Text Data}
    (h : inferProviderTypes lib (dumpedConfig c) = .ok items) : KeyedByType c := by
  intro item hitem
  simp only [inferProviderTypes, get?_providers] at h
  cases hentries : (dumpedProviders c).mapM (inferProviderType lib) with
  | error e =>
    rw [hentries] at h
    cases h
  | ok entries =>
    obtain ⟨read, hread⟩ := mapM_member hentries (dumpProvider_mem hitem)
    by_contra hkey
    rw [inferProviderType_dump, if_neg (Ne.symm hkey)] at hread
    cases hread

/-- A first provider under another name than its type. -/
theorem modelValidate_of_mismatch {key : Text} {cfg : ProviderConfig Settings}
    {others : Dict Text (ProviderConfig Settings)} {default : Option Text} (h : cfg.type ≠ key) :
    modelValidate lib
        (modelDump { defaultProvider := default, providers := (key, cfg) :: others }) =
      .error (mismatch lib key (.text cfg.type)) := by
  have hinfer : inferProviderTypes lib
      (dumpedConfig { defaultProvider := default, providers := (key, cfg) :: others }) =
        .error (mismatch lib key (.text cfg.type)) := by
    simp only [inferProviderTypes, get?_providers]
    rw [dumpedProviders, PyDict.mapValues, List.map_cons, List.mapM_cons, inferProviderType_dump,
      if_neg h]
    rfl
  exact congrArg (fun read => read >>= _) hinfer

/-- What the data of a well-keyed configuration is read as. -/
theorem modelValidate_of_keyed {c : ProvidersConfig Settings} (h : KeyedByType c) :
    modelValidate lib (modelDump c) =
      ((dumpedProviders c).mapM (readProvider lib)).map fun providers =>
        { defaultProvider := truthy c.defaultProvider, providers := providers } := by
  have hdump : modelDump c = .map (dumpedConfig c) := rfl
  simp only [hdump, modelValidate, inferProviderTypes_of_keyed h, readField_default,
    get?_providers, bind, Except.bind]
  cases (dumpedProviders c).mapM (readProvider lib) with
  | error e => rfl
  | ok providers => rfl

theorem truthy_eq_self_iff {name : Option Text} : truthy name = name ↔ name ≠ some [] := by
  match name with
  | none => simp [truthy]
  | some [] => simp [truthy]
  | some (c :: cs) => simp [truthy]

/-- **The data of a configuration is read as the configuration exactly if every provider
stands under its type and the validators accept it.** -/
theorem modelValidate_modelDump_iff {c : ProvidersConfig Settings} :
    modelValidate lib (modelDump c) = .ok c.persisted ↔ KeyedByType c ∧ Valid c := by
  constructor
  · intro h
    have hkeyed : KeyedByType c := by
      have hdump : modelDump c = .map (dumpedConfig c) := rfl
      cases hinfer : inferProviderTypes lib (dumpedConfig c) with
      | ok items => exact keyed_of_inferProviderTypes hinfer
      | error e =>
        rw [hdump, modelValidate, hinfer] at h
        cases h
    rw [modelValidate_of_keyed hkeyed] at h
    cases hread : (dumpedProviders c).mapM (readProvider lib) with
    | error e =>
      rw [hread] at h
      cases h
    | ok providers =>
      rw [hread] at h
      refine ⟨hkeyed, ?_, fun item hitem => ?_⟩
      · have hdefault := congrArg ProvidersConfig.defaultProvider (Except.ok.inj h)
        exact truthy_eq_self_iff.mp hdefault
      · obtain ⟨_, hitem⟩ := mapM_member hread (dumpProvider_mem hitem)
        exact valid_of_readProvider hitem
  · rintro ⟨hkeyed, hvalid⟩
    have hread : (dumpedProviders c).mapM (readProvider lib) = .ok c.persisted.providers := by
      rw [dumpedProviders, PyDict.mapValues, List.mapM_map]
      exact mapM_ok fun item hitem => readProvider_of_valid item.1 (hvalid.providers item hitem)
    rw [modelValidate_of_keyed hkeyed, hread, truthy_eq_self_iff.mpr hvalid.default_named]
    rfl

end Reading

/-! ## The file -/

theorem universalNewlines_of_notMem {t : Text} (h : '\r' ∉ t) : universalNewlines t = t := by
  induction t using universalNewlines.induct with
  | case1 => rfl
  | case2 t ih => exact absurd List.mem_cons_self h
  | case3 t _ ih => exact absurd List.mem_cons_self h
  | case4 c t _ hc ih =>
    rw [universalNewlines, ih fun hmem => h (List.mem_cons_of_mem c hmem)]
    · assumption
    · exact hc

section File

variable {lib : Libraries}

/-- A line that begins with `key:` is no TOML. -/
theorem tomlLoads_block {key t : Text} (hne : key ≠ []) (hkey : ∀ c ∈ key, isBareKeyChar c) :
    tomlLoads lib (key ++ ':' :: t) = .error (equalsExpected (key.length + 1)) := by
  have htake : (key ++ ':' :: t).takeWhile isBareKeyChar = key := by
    rw [List.takeWhile_append_of_pos hkey]
    exact List.append_nil key
  have hdrop : (key ++ ':' :: t).dropWhile isBareKeyChar = ':' :: t :=
    List.dropWhile_append_of_pos hkey
  rw [tomlLoads, htake, hdrop, if_neg hne]
  rfl

/-- The key on the first line. -/
def firstKey (c : ProvidersConfig Settings) : Text :=
  if c.defaultProvider = none then providersKey else defaultProviderKey

theorem dumpedConfig_first (c : ProvidersConfig Settings) :
    ∃ value items, dumpedConfig c = (firstKey c, value) :: items := by
  rw [dumpedConfig, firstKey]
  cases c.defaultProvider with
  | none => exact ⟨_, _, rfl⟩
  | some name => exact ⟨_, _, rfl⟩

theorem firstKey_cases (c : ProvidersConfig Settings) :
    firstKey c = defaultProviderKey ∨ firstKey c = providersKey := by
  by_cases h : c.defaultProvider = none
  · exact .inr (if_pos h)
  · exact .inl (if_neg h)

theorem tomlLoads_dump {c : ProvidersConfig Settings} (h : Faithful lib (modelDump c)) :
    tomlLoads lib (lib.safeDump (modelDump c)) =
      .error (equalsExpected ((firstKey c).length + 1)) := by
  obtain ⟨value, items, hitems⟩ := dumpedConfig_first c
  obtain ⟨t, ht⟩ := h.block (firstKey c) value items (congrArg Data.map hitems) (firstKey_cases c)
  have hplain : firstKey c ≠ [] ∧ ∀ x ∈ firstKey c, isBareKeyChar x := by
    obtain hkey | hkey := firstKey_cases c
    · rw [hkey]
      decide
    · rw [hkey]
      decide
  rw [ht]
  exact tomlLoads_block hplain.1 hplain.2

/-- What a saved configuration is read as, for each suffix. -/
theorem fromFile_toFile {c : ProvidersConfig Settings} {path : Path} {files : Files}
    (h : Faithful lib (modelDump c)) :
    fromFile lib path (toFile lib c path files) =
      if path.suffix.map Char.toLower ∈ yamlSuffixes then modelValidate lib (modelDump c)
      else if path.suffix.map Char.toLower = tomlSuffix then
        match tomlLoads lib (lib.safeDump (modelDump c)) with
        | .error message => .error (.toml message)
        | .ok data => modelValidate lib data
      else .error (.unsupported "Unsupported config format; use .yaml, .yml or .toml".toList) := by
  have hfull : (modelDump c).falsy = false := by
    obtain ⟨value, items, hitems⟩ := dumpedConfig_first c
    have hdump : modelDump c = .map ((firstKey c, value) :: items) := congrArg Data.map hitems
    rw [hdump]
    rfl
  simp only [fromFile, toFile, Function.update_self, universalNewlines_of_notMem h.no_return,
    h.load_dump, hfull, Bool.false_eq_true, if_false]

/-- **A configuration that was saved under the name of a TOML file cannot be read.** -/
theorem fromFile_toml {c : ProvidersConfig Settings} {path : Path} {files : Files}
    (h : Faithful lib (modelDump c)) (hpath : path.suffix.map Char.toLower = tomlSuffix) :
    fromFile lib path (toFile lib c path files) =
      .error (.toml (equalsExpected ((firstKey c).length + 1))) := by
  have hyaml : tomlSuffix ∉ yamlSuffixes := by decide
  rw [fromFile_toFile h, hpath, if_neg hyaml, if_pos rfl, tomlLoads_dump h]

/--
**A saved configuration is read back if and only if the file is a YAML file, every
provider stands under its type and the validators accept the configuration.**
-/
theorem restores_iff (lib : Libraries) (c : ProvidersConfig Settings) (path : Path)
    (files : Files) (h : Faithful lib (modelDump c)) :
    Restores lib c path files ↔
      path.suffix.map Char.toLower ∈ yamlSuffixes ∧ KeyedByType c ∧ Valid c := by
  by_cases hyaml : path.suffix.map Char.toLower ∈ yamlSuffixes
  · rw [Restores, fromFile_toFile h, if_pos hyaml, and_iff_right hyaml]
    exact modelValidate_modelDump_iff
  · refine iff_of_false (fun hrestores => ?_) fun hright => hyaml hright.1
    by_cases htoml : path.suffix.map Char.toLower = tomlSuffix
    · rw [Restores, fromFile_toml h htoml] at hrestores
      cases hrestores
    · rw [Restores, fromFile_toFile h, if_neg hyaml, if_neg htoml] at hrestores
      cases hrestores

end File

section Examples

/-- The scalars of the documents below, as PyYAML writes them. -/
def scalarText : Data → Text
  | .text [] => "''".toList
  | .text t => t
  | .bool b => if b then "true".toList else "false".toList
  | .float bits => if bits = 0 then "0.0".toList else "60.0".toList
  | _ => "{}".toList

def fieldLines (items : Dict Text Data) : Text :=
  items.flatMap fun item =>
    "    ".toList ++ item.1 ++ ": ".toList ++ scalarText item.2 ++ "\n".toList

def entryLines (item : Text × Data) : Text :=
  match item.2 with
  | .map items => "  ".toList ++ item.1 ++ ":\n".toList ++ fieldLines items
  | d => "  ".toList ++ item.1 ++ ": ".toList ++ scalarText d ++ "\n".toList

def topLines (item : Text × Data) : Text :=
  item.1 ++ ':' :: match item.2 with
    | .map (entry :: entries) => "\n".toList ++ (entry :: entries).flatMap entryLines
    | d => " ".toList ++ scalarText d ++ "\n".toList

/-- `yaml.safe_dump` of the configurations below. -/
def blockText : Data → Text
  | .map items => items.flatMap topLines
  | _ => []

def ollamaConfig : ProviderConfig Settings where
  type := "ollama".toList
  name := []
  enabled := true
  baseUrl := none
  apiKeyEnv := none
  apiKeyRef := none
  apiKey := none
  model := []
  settings := {}

def ollamaOnly : ProvidersConfig Settings :=
  { defaultProvider := none, providers := [("ollama".toList, ollamaConfig)] }

/-- `ProvidersConfig(providers={"local": ProviderConfig(type="ollama")})`. -/
def renamed : ProvidersConfig Settings :=
  { defaultProvider := none, providers := [("local".toList, ollamaConfig)] }

/-- PyYAML for these two. -/
def twoDocuments : Libraries where
  safeDump := blockText
  safeLoad t :=
    match [ollamaOnly, renamed].find? fun c => blockText (modelDump c) = t with
    | some c => .ok (modelDump c)
    | none => .error "another document".toList
  tomlRest := fun _ => .error "another document".toList
  repr d := "'".toList ++ scalarText d ++ "'".toList
  laxText := fun _ => none
  laxBool := fun _ => none
  laxInt := fun _ => none
  laxFloat := fun _ => none
  laxHeaders := fun _ => none
  laxCapabilities := fun _ => none

def yamlPath : Path := { parent := "/etc".toList, name := "providers.yaml".toList }

def tomlPath : Path := { parent := "/etc".toList, name := "providers.toml".toList }

def noFiles : Files := fun _ => none

theorem blockText_block {d : Data} (key : Text) (value : Data) (items : List (Text × Data))
    (hd : d = .map ((key, value) :: items)) (_ : key = defaultProviderKey ∨ key = providersKey) :
    ∃ t, blockText d = key ++ ':' :: t := by
  rw [hd, blockText, List.flatMap_cons, topLines, List.append_assoc]
  exact ⟨_, rfl⟩

theorem safeDump_twoDocuments : twoDocuments.safeDump = blockText := rfl

theorem faithful_ollamaOnly : Faithful twoDocuments (modelDump ollamaOnly) where
  load_dump := by simp only [twoDocuments, List.find?_cons, decide_true]
  no_return := by
    rw [safeDump_twoDocuments]
    decide
  block := blockText_block

theorem faithful_renamed : Faithful twoDocuments (modelDump renamed) where
  load_dump := by
    have hdiffer : blockText (modelDump ollamaOnly) ≠ blockText (modelDump renamed) := by
      decide
    simp only [twoDocuments, List.find?_cons, hdiffer, decide_false, decide_true]
  no_return := by
    rw [safeDump_twoDocuments]
    decide
  block := blockText_block

theorem valid_ollamaConfig : ValidProvider ollamaConfig where
  supported := by decide
  addressed := fun hcompat => absurd hcompat (by decide)

theorem valid_ollamaOnly : Valid ollamaOnly where
  default_named := by decide
  providers := by
    intro item hitem
    obtain rfl := List.mem_singleton.mp hitem
    exact valid_ollamaConfig

theorem equalsExpected_ten : equalsExpected 10 =
    "Expected '=' after a key in a key/value pair (at line 1, column 10)".toList := by
  decide

theorem mismatch_local : mismatch twoDocuments "local".toList (.text "ollama".toList) =
    .invalid [] "Provider entry 'local' declares type 'ollama'; expected 'local'".toList :=
  congrArg (ConfigError.invalid []) (by decide)

theorem ollamaOnly_restores : Restores twoDocuments ollamaOnly yamlPath noFiles :=
  (restores_iff twoDocuments ollamaOnly yamlPath noFiles faithful_ollamaOnly).mpr
    ⟨by decide, by unfold KeyedByType; decide, valid_ollamaOnly⟩

/-- **Saved as TOML, or with a provider under another name than its type, a configuration
is lost.** -/
theorem saved_not_restored :
    fromFile twoDocuments tomlPath (toFile twoDocuments ollamaOnly tomlPath noFiles) =
      .error (.toml
        "Expected '=' after a key in a key/value pair (at line 1, column 10)".toList) ∧
    fromFile twoDocuments yamlPath (toFile twoDocuments renamed yamlPath noFiles) =
      .error (.invalid []
        "Provider entry 'local' declares type 'ollama'; expected 'local'".toList) ∧
    ¬∀ lib c path files, Faithful lib (modelDump c) → Valid c →
      path.suffix.map Char.toLower ∈ tomlSuffix :: yamlSuffixes →
      Restores lib c path files := by
  have hsuffix : tomlPath.suffix.map Char.toLower = tomlSuffix := by decide
  have htoml : fromFile twoDocuments tomlPath (toFile twoDocuments ollamaOnly tomlPath noFiles) =
      .error (.toml (equalsExpected 10)) := fromFile_toml faithful_ollamaOnly hsuffix
  rw [← equalsExpected_ten, ← mismatch_local]
  refine ⟨htoml, ?_, fun hall => ?_⟩
  · have hyaml : yamlPath.suffix.map Char.toLower ∈ yamlSuffixes := by decide
    rw [fromFile_toFile faithful_renamed, if_pos hyaml]
    exact modelValidate_of_mismatch (by decide)
  · have hrestores := hall twoDocuments ollamaOnly tomlPath noFiles faithful_ollamaOnly
      valid_ollamaOnly (by decide)
    rw [Restores, htoml] at hrestores
    cases hrestores

end Examples

end OpenWrtCopilot.Ports.ProviderFiles
