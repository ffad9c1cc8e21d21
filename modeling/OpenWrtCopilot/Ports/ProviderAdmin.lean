import OpenWrtCopilot.Ports.Authentication
import OpenWrtCopilot.Ports.ProviderCredentials
import OpenWrtCopilot.Ports.VaultStartups
import OpenWrtCopilot.Verified.Fallible

/-!
# Provider administration

Ports the seven endpoints that change the provider configuration, with
`resolve_api_key`, `create_provider_manager` and `reload_provider_manager`.  Three pieces
of state are changed one after the other: the configuration file, the credential store
and the live manager.  What was changed before an exception stays changed.

## Main results

* `commit_faithful` — write, change the store, reload: nothing is left over if nothing
  raises on the way.
* `removeCredential_faithful_iff` — removing a credential is faithful exactly if the live
  manager does not use it.
* `run_faithful_iff` — every call of a run leaves the live manager as the files say, or
  changes nothing, exactly if no call is disturbed.
* `removed_credential_in_use` — a provider that goes on with a removed key.
-/

namespace OpenWrtCopilot.Ports.ProviderAdmin

open Verified
open Verified.PyDict (Dict get? keys)
open Verified.PyText
open Ports.Authentication (HttpError)
open Ports.CredentialVault
open Ports.ProviderCredentials (CredentialFile Credentials storedKey hasKey load)

/-! ## Configuration -/

/-- `DEFAULT_BASE_URLS`; its keys are the supported types. -/
def defaultBaseUrls : Dict Text Text :=
  [("ollama".toList, "http://localhost:11434".toList),
    ("openai".toList, "https://api.openai.com/v1".toList),
    ("azure_openai".toList, "https://YOUR_RESOURCE.openai.azure.com/openai/v1".toList),
    ("anthropic".toList, "https://api.anthropic.com/v1".toList),
    ("gemini".toList, "https://generativelanguage.googleapis.com/v1beta/openai".toList),
    ("openrouter".toList, "https://openrouter.ai/api/v1".toList),
    ("together".toList, "https://api.together.xyz/v1".toList),
    ("groq".toList, "https://api.groq.com/openai/v1".toList),
    ("deepseek".toList, "https://api.deepseek.com/v1".toList),
    ("mistral".toList, "https://api.mistral.ai/v1".toList),
    ("xai".toList, "https://api.x.ai/v1".toList),
    ("cohere".toList, "https://api.cohere.com/v1".toList),
    ("perplexity".toList, "https://api.perplexity.ai".toList),
    ("lmstudio".toList, "http://localhost:1234/v1".toList),
    ("vllm".toList, "http://localhost:8000/v1".toList),
    ("nim".toList, "https://integrate.api.nvidia.com/v1".toList),
    ("nvembed".toList, "https://integrate.api.nvidia.com/v1".toList),
    ("fireworks".toList, "https://api.fireworks.ai/inference/v1".toList),
    ("cerebras".toList, "https://api.cerebras.ai/v1".toList),
    ("compat".toList, [])]

def compat : Text := "compat".toList

/-- `ProviderConfig`; `settings` are the fields no function here looks at. -/
structure ProviderConfig (ρ : Type) where
  type : Text
  name : Text
  enabled : Bool
  baseUrl : Option Text
  apiKeyEnv : Option Text
  apiKeyRef : Option Text
  /-- In memory only. -/
  apiKey : Option Text
  model : Text
  settings : ρ
  deriving DecidableEq

/-- `ProvidersConfig`. -/
structure ProvidersConfig (ρ : Type) where
  defaultProvider : Option Text
  providers : Dict Text (ProviderConfig ρ)

def ProvidersConfig.empty {ρ : Type} : ProvidersConfig ρ :=
  { defaultProvider := none, providers := [] }

/-- The configuration file, as `from_file` reads it. -/
inductive ConfigFile (ρ : Type) where
  | absent
  | invalid (error : Text)
  | config (c : ProvidersConfig ρ)

section Plain

variable {ρ : Type}

/-- `or`, as Python reads an optional text: the empty one counts as none. -/
def truthy : Option Text → Option Text
  | some (c :: cs) => some (c :: cs)
  | _ => none

def ProviderConfig.effectiveName (cfg : ProviderConfig ρ) : Text :=
  if cfg.name ≠ [] then cfg.name else cfg.type

def ProviderConfig.effectiveBaseUrl (cfg : ProviderConfig ρ) : Text :=
  (truthy cfg.baseUrl).getD ((get? cfg.type defaultBaseUrls).getD [])

/-- What `to_file` writes: the key in memory is excluded. -/
def ProvidersConfig.persisted (c : ProvidersConfig ρ) : ProvidersConfig ρ :=
  { c with providers := c.providers.map fun item => (item.1, { item.2 with apiKey := none }) }

def ProvidersConfig.enabledProviders (c : ProvidersConfig ρ) : Dict Text (ProviderConfig ρ) :=
  c.providers.filter fun item => item.2.enabled

/-- `read_provider_config`. -/
def ConfigFile.read : ConfigFile ρ → Except HttpError (ProvidersConfig ρ)
  | .absent => .ok .empty
  | .invalid error => .error (.uncaught error)
  | .config c => .ok c

end Plain

/-! ## Live providers -/

/-- What the application finds around it: the vault, the environment, and what the
adapters' constructors raise on. -/
structure Environment (lib : CryptoLibrary) (ρ : Type) where
  vault : lib.Key
  getenv : Text → Option Text
  adapter : ProviderConfig ρ → Option Text → Except Text Unit
  /-- `repr` of a text. -/
  repr : Text → Text
  /-- What pydantic says of a field. -/
  errors : Text → Text

/-- A provider, with the key its transport authenticates with. -/
structure LiveProvider (ρ : Type) where
  config : ProviderConfig ρ
  apiKey : Option Text
  deriving DecidableEq

/-- `ProviderManager`. -/
structure ProviderManager (ρ : Type) where
  providers : Dict Text (LiveProvider ρ)
  defaultName : Option Text
  deriving DecidableEq

section Live

variable {lib : CryptoLibrary} {ρ : Type} (env : Environment lib ρ)

/-- `resolve_api_key`. -/
def resolveApiKey (cfg : ProviderConfig ρ) (credentials : CredentialFile) :
    Except Text (Option Text) :=
  match truthy cfg.apiKey with
  | some key => .ok (some key)
  | none => do
      let stored ← storedKey env.vault cfg.type credentials true
      match truthy stored, truthy cfg.apiKeyEnv, truthy cfg.apiKeyRef with
      | some key, _, _ => .ok (some key)
      | none, some name, _ => .ok (env.getenv name)
      | none, none, some name => .ok (env.getenv name)
      | none, none, none => .ok none

/-- `create_provider`. -/
def createProvider (cfg : ProviderConfig ρ) (credentials : CredentialFile) :
    Except Text (LiveProvider ρ) := do
  let apiKey ← resolveApiKey env cfg credentials
  env.adapter cfg apiKey
  return { config := cfg, apiKey := apiKey }

/-- The loop body of `create_provider_manager`. -/
def createItem (credentials : CredentialFile) (item : Text × ProviderConfig ρ) :
    Except Text (Text × LiveProvider ρ) := do
  let provider ← createProvider env item.2 credentials
  return (item.1, provider)

/-- `create_provider_manager`. -/
def createProviderManager (c : ProvidersConfig ρ) (credentials : CredentialFile) :
    Except Text (ProviderManager ρ) := do
  let providers ← c.enabledProviders.mapM (createItem env credentials)
  return {
    providers := providers
    defaultName := c.defaultProvider.filter fun name => name ∈ keys providers }

/-- `load_provider_manager`. -/
def loadProviderManager (file : ConfigFile ρ) (credentials : CredentialFile) :
    Except HttpError (ProviderManager ρ) :=
  match file.read with
  | .error e => .error e
  | .ok c => (createProviderManager env c credentials).mapError .uncaught

/-! ## The application -/

structure App (ρ : Type) where
  configFile : ConfigFile ρ
  credentials : CredentialFile
  manager : ProviderManager ρ

/-- What goes wrong during a call, and the seed of a token it makes. -/
structure Circumstances (ρ : Type) where
  /-- `to_file` raises, and leaves this behind. -/
  write : Option (ConfigFile ρ) := none
  /-- `_save` of the credential store raises. -/
  save : Bool := false
  /-- Closing the old RAG service or manager raises. -/
  close : Bool := false
  seed : Nat := 0

abbrev Admin (ρ : Type) := Fallible HttpError (App ρ)

def osError : HttpError := .uncaught "OSError".toList

variable (circ : Circumstances ρ)

/-- `write_provider_config`. -/
def writeProviderConfig (c : ProvidersConfig ρ) : Admin ρ Unit := fun app =>
  match circ.write with
  | none => (.ok (), { app with configFile := .config c.persisted })
  | some left => (.error osError, { app with configFile := left })

/-- What a call of the credential store writes. -/
def credentialsAfter (call : ProviderCredentials.Call) (file : CredentialFile) : CredentialFile :=
  .object (call.change (load file true)).sorted

/-- `store.set(type, api_key)`. -/
def storeSet (type apiKey : Text) : Admin ρ Unit := fun app =>
  if circ.save then (.error osError, app)
  else (.ok (), { app with
    credentials :=
      credentialsAfter (.set type (encryptSecret lib env.vault circ.seed apiKey)) app.credentials })

/-- `store.remove(type)`. -/
def storeRemove (type : Text) : Admin ρ Bool := fun app =>
  if type ∈ keys (load app.credentials true).items then
    if circ.save then (.error osError, app)
    else (.ok true, { app with credentials := credentialsAfter (.remove type) app.credentials })
  else (.ok false, app)

/-- `reload_provider_manager`: `load_rag_service` raises nothing, and the old objects are
closed when the new ones are in place. -/
def reloadProviderManager : Admin ρ Unit := fun app =>
  match loadProviderManager env app.configFile app.credentials with
  | .error e => (.error e, app)
  | .ok manager =>
      (if circ.close then .error osError else .ok (), { app with manager := manager })

/-- `_config_summary`. -/
structure Summary where
  type : Text
  name : Text
  enabled : Bool
  isDefault : Bool
  hasCredential : Bool
  baseUrl : Text
  model : Text
  deriving DecidableEq, Repr

/-- `_cfg_has_credential`. -/
def cfgHasCredential (cfg : ProviderConfig ρ) : Bool :=
  (truthy cfg.apiKeyEnv).isSome || (truthy cfg.apiKeyRef).isSome

/-- `_config_summary(type, cfg, default=.., has_credential=..)`. -/
def configSummary (type : Text) (cfg : ProviderConfig ρ) (default : Option Text) :
    Admin ρ Summary := fun app =>
  (.ok { type := type, name := cfg.effectiveName, enabled := cfg.enabled
         isDefault := default = some type
         hasCredential := cfgHasCredential cfg || hasKey type app.credentials true
         baseUrl := cfg.effectiveBaseUrl, model := cfg.model }, app)

/-- What a call does with the credential store after it wrote the configuration. -/
inductive CredentialEdit where
  | keep
  | set (type apiKey : Text)
  | remove (type : Text)
  deriving DecidableEq, Repr

def applyEdit : CredentialEdit → Admin ρ Unit
  | .keep => pure ()
  | .set type apiKey => storeSet env circ type apiKey
  | .remove type => do
      let _ ← storeRemove circ type
      pure ()

/-- The common end of the endpoints: write the file, change the store, reload. -/
def commit (c : ProvidersConfig ρ) (edit : CredentialEdit) : Admin ρ Unit := do
  writeProviderConfig circ c
  applyEdit env circ edit
  reloadProviderManager env circ

/-! ## Endpoints -/

/-- `ProviderCreate`. -/
structure ProviderCreate (ρ : Type) where
  type : Text
  name : Text
  enabled : Bool
  baseUrl : Option Text
  apiKeyEnv : Option Text
  apiKeyRef : Option Text
  credential : Option Text
  model : Text
  settings : ρ

/-- `ProviderUpdate`: `none` is unset, `some none` is null.  `settings` applies the other
fields, or fails their validation. -/
structure ProviderUpdate (ρ : Type) where
  name : Option (Option Text) := none
  enabled : Option (Option Bool) := none
  baseUrl : Option (Option Text) := none
  apiKeyEnv : Option (Option Text) := none
  apiKeyRef : Option (Option Text) := none
  credential : Option (Option Text) := none
  model : Option (Option Text) := none
  settings : ρ → Except Text ρ

def notConfigured (type : Text) : HttpError :=
  .status 404 ("Provider ".toList ++ env.repr type ++ " is not configured".toList)

def invalidConfiguration (field : Text) : HttpError :=
  .status 422 ("Invalid provider configuration: ".toList ++ env.errors field)

/-- The validators of `ProviderConfig`, for fields of the right types. -/
def validateProvider (cfg : ProviderConfig ρ) : Except HttpError (ProviderConfig ρ) :=
  if cfg.type ∉ keys defaultBaseUrls then .error (invalidConfiguration env "type".toList)
  else if cfg.type = compat ∧ truthy cfg.baseUrl = none then
    .error (invalidConfiguration env "base_url".toList)
  else .ok cfg

/-- A field of a merged configuration that must not be null. -/
def mergedField {β : Type} (field : Text) (patch : Option (Option β)) (existing : β) :
    Except HttpError β :=
  match patch with
  | none => .ok existing
  | some (some value) => .ok value
  | some none => .error (invalidConfiguration env field)

/-- The checks of `create_provider_route` on the configuration, and what it adds. -/
def createChecks (body : ProviderCreate ρ) (config : ProvidersConfig ρ) :
    Except HttpError (ProviderConfig ρ × ProvidersConfig ρ) :=
  if body.type ∈ keys config.providers then
    .error (.status 409 ("Provider ".toList ++ env.repr body.type ++ " already exists.".toList))
  else do
    let cfg ← validateProvider env
      { type := body.type, name := body.name, enabled := body.enabled, baseUrl := body.baseUrl
        apiKeyEnv := body.apiKeyEnv, apiKeyRef := body.apiKeyRef
        apiKey := truthy body.credential, model := body.model, settings := body.settings }
    return (cfg, { config with providers := PyDict.set body.type cfg config.providers })

def createEdit (body : ProviderCreate ρ) : CredentialEdit :=
  match truthy body.credential with
  | some key => .set body.type key
  | none => .keep

/-- `create_provider_route`. -/
def createProviderRoute (body : ProviderCreate ρ) : Admin ρ Summary := do
  if body.type ∉ keys defaultBaseUrls then
    Fallible.raise (.status 400 ("Unsupported provider type ".toList ++ env.repr body.type ++
      "; supported: ".toList ++ join ", ".toList ((keys defaultBaseUrls).mergeSort (· ≤ ·))))
  else do
    let app ← Fallible.read
    let config ← Fallible.ofExcept app.configFile.read
    let (cfg, config) ← Fallible.ofExcept (createChecks env body config)
    commit env circ config (createEdit body)
    configSummary body.type cfg config.defaultProvider

/-- The checks of `update_provider_route`, and what it changes. -/
def updateChecks (type : Text) (body : ProviderUpdate ρ) (config : ProvidersConfig ρ) :
    Except HttpError (ProviderConfig ρ × ProvidersConfig ρ) :=
  match get? type config.providers with
  | none => .error (notConfigured env type)
  | some existing => do
      let name ← mergedField env "name".toList body.name existing.name
      let enabled ← mergedField env "enabled".toList body.enabled existing.enabled
      let model ← mergedField env "model".toList body.model existing.model
      let settings ← (body.settings existing.settings).mapError (invalidConfiguration env)
      let cfg ← validateProvider env
        { type := type, name := name, enabled := enabled
          baseUrl := body.baseUrl.getD existing.baseUrl
          apiKeyEnv := body.apiKeyEnv.getD existing.apiKeyEnv
          apiKeyRef := body.apiKeyRef.getD existing.apiKeyRef
          apiKey := none, model := model, settings := settings }
      return (cfg, { config with providers := PyDict.set type cfg config.providers })

/-- Spaces around a new credential are dropped, and an empty one is none. -/
def updateEdit (type : Text) (body : ProviderUpdate ρ) : CredentialEdit :=
  match truthy ((body.credential.getD none).map strip) with
  | some key => .set type key
  | none => .keep

/-- `update_provider_route`. -/
def updateProviderRoute (type : Text) (body : ProviderUpdate ρ) : Admin ρ Summary := do
  let app ← Fallible.read
  let config ← Fallible.ofExcept app.configFile.read
  let (cfg, config) ← Fallible.ofExcept (updateChecks env type body config)
  commit env circ config (updateEdit type body)
  configSummary type cfg config.defaultProvider

/-- The checks of `delete_provider_route`, and what is left. -/
def deleteChecks (type : Text) (config : ProvidersConfig ρ) :
    Except HttpError (ProvidersConfig ρ) :=
  if type ∈ keys config.providers then
    .ok { defaultProvider := if config.defaultProvider = some type then none
            else config.defaultProvider
          providers := PyDict.erase type config.providers }
  else .error (notConfigured env type)

/-- `delete_provider_route`. -/
def deleteProviderRoute (type : Text) : Admin ρ Unit := do
  let app ← Fallible.read
  let config ← Fallible.ofExcept app.configFile.read
  let config ← Fallible.ofExcept (deleteChecks env type config)
  commit env circ config (.remove type)

/-- `remove_provider_credential_route`: whether a credential is left, and whether one was
removed. -/
def removeProviderCredentialRoute (type : Text) : Admin ρ (Bool × Bool) := do
  let app ← Fallible.read
  let config ← Fallible.ofExcept app.configFile.read
  match get? type config.providers with
  | none => Fallible.raise (notConfigured env type)
  | some cfg => do
      let removed ← storeRemove circ type
      let after ← Fallible.read
      pure (cfgHasCredential cfg || hasKey type after.credentials true, removed)

/-- What `enable_provider_route` and `disable_provider_route` change, if anything. -/
def toggleChecks (enabled : Bool) (type : Text) (config : ProvidersConfig ρ) :
    Except HttpError (ProviderConfig ρ × Option (ProvidersConfig ρ)) :=
  match get? type config.providers with
  | none => .error (notConfigured env type)
  | some cfg =>
      if cfg.enabled = enabled then .ok (cfg, none)
      else
        let cfg := { cfg with enabled := enabled }
        .ok (cfg, some { config with providers := PyDict.set type cfg config.providers })

def toggleProviderRoute (enabled : Bool) (type : Text) : Admin ρ Summary := do
  let app ← Fallible.read
  let config ← Fallible.ofExcept app.configFile.read
  let (cfg, changed) ← Fallible.ofExcept (toggleChecks env enabled type config)
  match changed with
  | none => pure ()
  | some config => commit env circ config .keep
  configSummary type cfg config.defaultProvider

/-- `enable_provider_route`. -/
def enableProviderRoute := toggleProviderRoute env circ true

/-- `disable_provider_route`. -/
def disableProviderRoute := toggleProviderRoute env circ false

/-- What `set_default_provider_route` changes, if anything. -/
def defaultChecks (type : Text) (config : ProvidersConfig ρ) :
    Except HttpError (Option (ProvidersConfig ρ)) :=
  match get? type config.providers with
  | none => .error (notConfigured env type)
  | some cfg =>
      if !cfg.enabled then
        .error (.status 400 ("Cannot set disabled provider ".toList ++ env.repr type ++
          " as the default".toList))
      else if config.defaultProvider = some type then .ok none
      else .ok (some { config with defaultProvider := some type })

/-- `set_default_provider_route`. -/
def setDefaultProviderRoute (type : Text) : Admin ρ Unit := do
  let app ← Fallible.read
  let config ← Fallible.ofExcept app.configFile.read
  let changed ← Fallible.ofExcept (defaultChecks env type config)
  match changed with
  | none => pure ()
  | some config => commit env circ config .keep

/-! ## Calls -/

inductive Call (ρ : Type) where
  | create (body : ProviderCreate ρ)
  | update (type : Text) (body : ProviderUpdate ρ)
  | delete (type : Text)
  | removeCredential (type : Text)
  | enable (type : Text)
  | disable (type : Text)
  | setDefault (type : Text)

/-- How a call ends, and what it leaves. -/
def perform : Call ρ → App ρ → Except HttpError Unit × App ρ
  | .create body, app => ignore (createProviderRoute env circ body) app
  | .update type body, app => ignore (updateProviderRoute env circ type body) app
  | .delete type, app => deleteProviderRoute env circ type app
  | .removeCredential type, app => ignore (removeProviderCredentialRoute env circ type) app
  | .enable type, app => ignore (enableProviderRoute env circ type) app
  | .disable type, app => ignore (disableProviderRoute env circ type) app
  | .setDefault type, app => setDefaultProviderRoute env circ type app
where
  /-- Without the body of the response. -/
  ignore {α : Type} (m : Admin ρ α) : Admin ρ Unit := m >>= fun _ => pure ()

/-- The configuration and the change of the credential store that a call sets out to make,
if its checks accept it and there is something to change. -/
def aim (call : Call ρ) (file : ConfigFile ρ) : Option (ProvidersConfig ρ × CredentialEdit) :=
  match file.read with
  | .error _ => none
  | .ok config =>
      match call with
      | .create body =>
          if body.type ∉ keys defaultBaseUrls then none
          else (createChecks env body config).toOption.map fun r => (r.2, createEdit body)
      | .update type body =>
          (updateChecks env type body config).toOption.map fun r => (r.2, updateEdit type body)
      | .delete type => (deleteChecks env type config).toOption.map fun c => (c, .remove type)
      | .removeCredential _ => none
      | .enable type =>
          ((toggleChecks env true type config).toOption.bind (·.2)).map fun c => (c, .keep)
      | .disable type =>
          ((toggleChecks env false type config).toOption.bind (·.2)).map fun c => (c, .keep)
      | .setDefault type =>
          ((defaultChecks env type config).toOption.bind id).map fun c => (c, .keep)

/-- The credential store after a change. -/
def edited (edit : CredentialEdit) (file : CredentialFile) : CredentialFile :=
  match edit with
  | .keep => file
  | .set type apiKey =>
      credentialsAfter (.set type (encryptSecret lib env.vault circ.seed apiKey)) file
  | .remove type =>
      if type ∈ keys (load file true).items then credentialsAfter (.remove type) file else file

/-- The change writes the credential file. -/
def saves : CredentialEdit → CredentialFile → Bool
  | .keep, _ => false
  | .set _ _, _ => true
  | .remove type, file => type ∈ keys (load file true).items

/-! ## What a call ought to do -/

/-- The live manager is the one the two files give. -/
def IsLive (app : App ρ) : Prop :=
  loadProviderManager env app.configFile app.credentials = .ok app.manager

/-- A call that succeeds leaves the manager the files give, and one that fails leaves
everything as it was. -/
def Settles (app : App ρ) (outcome : Except HttpError Unit × App ρ) : Prop :=
  match outcome with
  | (.ok _, after) => IsLive env after
  | (.error _, after) => after = app

/-- Nothing raises from the first write to the end. -/
structure Completes (c : ProvidersConfig ρ) (edit : CredentialEdit) (app : App ρ) : Prop where
  write : circ.write = none
  save : saves edit app.credentials = true → circ.save = false
  close : circ.close = false
  manager : ∃ manager, loadProviderManager env (.config c.persisted)
    (edited env circ edit app.credentials) = .ok manager

/-- An exception strikes where the files are still, or again, what they were. -/
inductive Harmless (c : ProvidersConfig ρ) (edit : CredentialEdit) (app : App ρ) : Prop where
  | write (h : circ.write = some app.configFile)
  | save (hwrite : circ.write = none) (hsaves : saves edit app.credentials = true)
      (hsave : circ.save = true) (h : .config c.persisted = app.configFile)
  | same (hwrite : circ.write = none)
      (hsave : saves edit app.credentials = true → circ.save = false)
      (h : .config c.persisted = app.configFile)
      (hcredentials : edited env circ edit app.credentials = app.credentials)

/-- No key that an enabled provider authenticates with changes when the credential of the
type is removed. -/
def Unused (type : Text) (app : App ρ) : Prop :=
  ∀ c, app.configFile.read = .ok c → ∀ item ∈ c.enabledProviders,
    resolveApiKey env item.2 (credentialsAfter (.remove type) app.credentials) =
      resolveApiKey env item.2 app.credentials

/-- A call that changes the configuration completes, or is interrupted where nothing has
changed; one that removes a credential that is stored removes an unused one. -/
def Undisturbed (app : App ρ) (call : Call ρ) : Prop :=
  (∀ c edit, aim env call app.configFile = some (c, edit) →
    Completes env circ c edit app ∨ Harmless env circ c edit app) ∧
  ∀ type, call = .removeCredential type → ∀ c, app.configFile.read = .ok c →
    type ∈ keys c.providers → type ∈ keys (load app.credentials true).items →
    circ.save = false → Unused env type app

/-! ## Write, change the store, reload -/

variable {env} {circ} {app : App ρ}

theorem storeRemove_apply (type : Text) :
    storeRemove circ type app =
      if type ∈ keys (load app.credentials true).items then
        if circ.save then (.error osError, app)
        else (.ok true, { app with credentials := credentialsAfter (.remove type) app.credentials })
      else (.ok false, app) := rfl

theorem applyEdit_apply (edit : CredentialEdit) :
    applyEdit env circ edit app =
      if saves edit app.credentials = true ∧ circ.save = true then (.error osError, app)
      else (.ok (), { app with credentials := edited env circ edit app.credentials }) := by
  cases edit with
  | keep => rfl
  | set type apiKey =>
    rw [applyEdit, storeSet]
    cases hsave : circ.save with
    | true => rfl
    | false => simp [edited]
  | remove type =>
    rw [applyEdit, Fallible.bind_apply, storeRemove_apply, saves, edited]
    by_cases hstored : type ∈ keys (load app.credentials true).items
    · cases hsave : circ.save with
      | true => simp [hstored]
      | false => simp [hstored]
    · simp [hstored]

theorem commit_apply (c : ProvidersConfig ρ) (edit : CredentialEdit) :
    commit env circ c edit app =
      match circ.write with
      | some left => (.error osError, { app with configFile := left })
      | none =>
        if saves edit app.credentials = true ∧ circ.save = true then
          (.error osError, { app with configFile := .config c.persisted })
        else
          reloadProviderManager env circ
            { app with
              configFile := .config c.persisted
              credentials := edited env circ edit app.credentials } := by
  rw [commit, Fallible.bind_apply, writeProviderConfig]
  cases circ.write with
  | some left => rfl
  | none =>
    simp only [Fallible.bind_apply, applyEdit_apply]
    by_cases hfails : saves edit app.credentials = true ∧ circ.save = true
    · rw [if_pos hfails, if_pos hfails]
    · rw [if_neg hfails, if_neg hfails]

theorem App.eq_iff (app : App ρ) {file : ConfigFile ρ} {credentials : CredentialFile}
    {manager : ProviderManager ρ} :
    ({ configFile := file, credentials := credentials, manager := manager } : App ρ) = app ↔
      file = app.configFile ∧ credentials = app.credentials ∧ manager = app.manager := by
  constructor
  · rintro rfl
    exact ⟨rfl, rfl, rfl⟩
  · intro ⟨hfile, hcredentials, hmanager⟩
    rw [hfile, hcredentials, hmanager]

section Commit

variable (c : ProvidersConfig ρ) (edit : CredentialEdit) {k : Admin ρ Unit}

/-- Where the write of the configuration raises. -/
theorem settles_write {left : ConfigFile ρ} (hwrite : circ.write = some left) :
    Settles env app (.error osError, { app with configFile := left }) ↔
      Completes env circ c edit app ∨ Harmless env circ c edit app := by
  constructor
  · intro hsame
    obtain ⟨rfl, _⟩ := app.eq_iff.mp hsame
    exact Or.inr (.write hwrite)
  · intro h
    obtain hcompletes | hharmless := h
    · cases hwrite.symm.trans hcompletes.write
    · cases hharmless with
      | write h =>
        obtain rfl := Option.some.inj (hwrite.symm.trans h)
        rfl
      | save hnone => cases hwrite.symm.trans hnone
      | same hnone => cases hwrite.symm.trans hnone

/-- Where the write of the credential store raises. -/
theorem settles_save (hwrite : circ.write = none)
    (hfails : saves edit app.credentials = true ∧ circ.save = true) :
    Settles env app (.error osError, { app with configFile := .config c.persisted }) ↔
      Completes env circ c edit app ∨ Harmless env circ c edit app := by
  constructor
  · intro hsame
    exact Or.inr (.save hwrite hfails.1 hfails.2 (app.eq_iff.mp hsame).1)
  · intro h
    obtain hcompletes | hharmless := h
    · cases hfails.2.symm.trans (hcompletes.save hfails.1)
    · cases hharmless with
      | write h => cases hwrite.symm.trans h
      | save _ _ _ h => exact app.eq_iff.mpr ⟨h, rfl, rfl⟩
      | same _ hsave => cases hfails.2.symm.trans (hsave hfails.1)

/-- Where both files are written. -/
theorem settles_reload (hlive : IsLive env app) (hwrite : circ.write = none)
    (hsaved : ¬ (saves edit app.credentials = true ∧ circ.save = true))
    (hk : ∀ s, k s = (.ok (), s)) :
    Settles env app ((reloadProviderManager env circ >>= fun _ => k)
        { app with
          configFile := .config c.persisted
          credentials := edited env circ edit app.credentials }) ↔
      Completes env circ c edit app ∨ Harmless env circ c edit app := by
  have hsave : saves edit app.credentials = true → circ.save = false := by
    intro hsaves
    exact Bool.eq_false_iff.mpr fun hsave => hsaved ⟨hsaves, hsave⟩
  -- where nothing has changed, the manager that is loaded is the live one
  have hsame : .config c.persisted = app.configFile →
      edited env circ edit app.credentials = app.credentials →
      loadProviderManager env (.config c.persisted) (edited env circ edit app.credentials) =
        .ok app.manager := by
    intro hfile hcredentials
    rw [hfile, hcredentials]
    exact hlive
  rw [Fallible.bind_apply, reloadProviderManager]
  cases hload : loadProviderManager env (.config c.persisted)
      (edited env circ edit app.credentials) with
  | error e =>
    refine iff_of_false ?_ ?_
    · intro hunchanged
      obtain ⟨hfile, hcredentials, _⟩ := app.eq_iff.mp hunchanged
      cases hload.symm.trans (hsame hfile hcredentials)
    · intro h
      obtain ⟨_, _, _, manager, hmanager⟩ | hharmless := h
      · cases hload.symm.trans hmanager
      · cases hharmless with
        | write h => cases hwrite.symm.trans h
        | save _ hsaves hfails => exact hsaved ⟨hsaves, hfails⟩
        | same _ _ hfile hcredentials => cases hload.symm.trans (hsame hfile hcredentials)
  | ok manager =>
    cases hclose : circ.close with
    | false =>
      refine iff_of_true ?_ (Or.inl ⟨hwrite, hsave, hclose, manager, hload⟩)
      simp only [Bool.false_eq_true, if_false, hk]
      exact hload
    | true =>
      simp only [if_true]
      constructor
      · intro hunchanged
        obtain ⟨hfile, hcredentials, _⟩ := app.eq_iff.mp hunchanged
        exact Or.inr (.same hwrite hsave hfile hcredentials)
      · intro h
        obtain hcompletes | hharmless := h
        · cases hclose.symm.trans hcompletes.close
        · cases hharmless with
          | write h => cases hwrite.symm.trans h
          | save _ hsaves hfails => exact absurd ⟨hsaves, hfails⟩ hsaved
          | same _ _ hfile hcredentials =>
            have hmanager := Except.ok.inj (hload.symm.trans (hsame hfile hcredentials))
            exact app.eq_iff.mpr ⟨hfile, hcredentials, hmanager⟩

/-- **Nothing is left over of a change exactly if nothing raises, or an exception strikes
where nothing has changed.** -/
theorem commit_faithful (hlive : IsLive env app) (hk : ∀ s, k s = (.ok (), s)) :
    Settles env app ((commit env circ c edit >>= fun _ => k) app) ↔
      Completes env circ c edit app ∨ Harmless env circ c edit app := by
  rw [Fallible.bind_apply, commit_apply]
  cases hwrite : circ.write with
  | some left => exact settles_write c edit hwrite
  | none =>
    by_cases hfails : saves edit app.credentials = true ∧ circ.save = true
    · simp only [if_pos hfails]
      exact settles_save c edit hwrite hfails
    · simp only [if_neg hfails]
      exact settles_reload c edit hlive hwrite hfails hk

end Commit

/-! ## One call -/

/-- The call commits what it aims at, or changes nothing. -/
def CommitsAim (env : Environment lib ρ) (circ : Circumstances ρ) (app : App ρ)
    (goal : Option (ProvidersConfig ρ × CredentialEdit)) (m : Admin ρ Unit) : Prop :=
  match goal with
  | some (c, edit) =>
      ∃ k : Admin ρ Unit, (∀ s, k s = (.ok (), s)) ∧
        m app = (commit env circ c edit >>= fun _ => k) app
  | none => (m app).2 = app

/-- A call whose checks raise changes nothing. -/
theorem commitsAim_of_checks {β : Type} {checks : Except HttpError β}
    {goal : β → Option (ProvidersConfig ρ × CredentialEdit)} (rest : β → Admin ρ Unit)
    {m : Admin ρ Unit} (hm : m app = (Fallible.ofExcept checks >>= rest) app)
    (hrest : ∀ b, checks = .ok b → CommitsAim env circ app (goal b) (rest b)) :
    CommitsAim env circ app (checks.toOption.bind goal) m := by
  cases hchecks : checks with
  | error e =>
    show (m app).2 = app
    rw [hm, Fallible.ofExcept_bind_of_error hchecks]
  | ok b =>
    rw [Fallible.ofExcept_bind_of_ok hchecks] at hm
    have hb := hrest b hchecks
    show CommitsAim env circ app (goal b) m
    unfold CommitsAim at hb ⊢
    rw [hm]
    exact hb

/-- A route that answers with the summary of a provider. -/
theorem commitsAim_summary (c : ProvidersConfig ρ) (edit : CredentialEdit) (type : Text)
    (cfg : ProviderConfig ρ) (default : Option Text) :
    CommitsAim env circ app (some (c, edit))
      ((commit env circ c edit >>= fun _ => configSummary type cfg default) >>=
        fun _ => pure ()) :=
  ⟨configSummary type cfg default >>= fun _ => pure (), fun _ => rfl,
    Fallible.bind_bind_apply _ _ _ _⟩

theorem commitsAim_commit (c : ProvidersConfig ρ) (edit : CredentialEdit) :
    CommitsAim env circ app (some (c, edit)) (commit env circ c edit) := by
  refine ⟨pure (), fun _ => rfl, ?_⟩
  rw [Fallible.bind_apply]
  obtain ⟨_ | _, _⟩ := commit env circ c edit app <;> rfl

/-- A call that changes nothing has settled. -/
theorem settles_unchanged (hlive : IsLive env app) {outcome : Except HttpError Unit × App ρ}
    (h : outcome.2 = app) : Settles env app outcome := by
  obtain ⟨_ | _, after⟩ := outcome
  · exact h
  · obtain rfl : after = app := h
    exact hlive

/-- Where the configuration cannot be read, nothing happens. -/
theorem perform_unread {e : HttpError} (hread : app.configFile.read = .error e)
    (call : Call ρ) : (perform env circ call app).2 = app := by
  have hraises : ∀ {α : Type} (f : ProvidersConfig ρ → Admin ρ α),
      (Fallible.ofExcept app.configFile.read >>= f) app = (.error e, app) :=
    fun f => Fallible.ofExcept_bind_of_error hread f app
  cases call with
  | create body =>
    rw [perform, perform.ignore, createProviderRoute, Fallible.bind_apply]
    by_cases hsupported : body.type ∉ keys defaultBaseUrls
    · rw [if_pos hsupported]
      rfl
    · rw [if_neg hsupported, Fallible.read_bind_apply, hraises]
  | update type body =>
    rw [perform, perform.ignore, updateProviderRoute, Fallible.bind_apply,
      Fallible.read_bind_apply, hraises]
  | delete type => rw [perform, deleteProviderRoute, Fallible.read_bind_apply, hraises]
  | removeCredential type =>
    rw [perform, perform.ignore, removeProviderCredentialRoute, Fallible.bind_apply,
      Fallible.read_bind_apply, hraises]
  | enable type =>
    rw [perform, perform.ignore, enableProviderRoute, toggleProviderRoute,
      Fallible.bind_apply, Fallible.read_bind_apply, hraises]
  | disable type =>
    rw [perform, perform.ignore, disableProviderRoute, toggleProviderRoute,
      Fallible.bind_apply, Fallible.read_bind_apply, hraises]
  | setDefault type => rw [perform, setDefaultProviderRoute, Fallible.read_bind_apply, hraises]

section Read

variable {config : ProvidersConfig ρ}

theorem commitsAim_create (hread : app.configFile.read = .ok config)
    (body : ProviderCreate ρ) :
    CommitsAim env circ app (aim env (.create body) app.configFile)
      (perform env circ (.create body)) := by
  simp only [aim, hread]
  by_cases hsupported : body.type ∉ keys defaultBaseUrls
  · rw [if_pos hsupported]
    show (perform env circ (.create body) app).2 = app
    rw [perform, perform.ignore, createProviderRoute, if_pos hsupported,
      Fallible.raise_bind_apply]
  · rw [if_neg hsupported, Option.map_eq_bind]
    refine commitsAim_of_checks (fun r =>
      (commit env circ r.2 (createEdit body) >>= fun _ =>
        configSummary body.type r.1 r.2.defaultProvider) >>= fun _ => pure ()) ?_ ?_
    · rw [perform, perform.ignore, createProviderRoute, if_neg hsupported,
        Fallible.bind_bind_apply, Fallible.read_bind_apply, Fallible.bind_bind_apply,
        Fallible.ofExcept_bind_of_ok hread, Fallible.bind_bind_apply]
    · intro r _
      exact commitsAim_summary r.2 (createEdit body) body.type r.1 r.2.defaultProvider

theorem commitsAim_update (hread : app.configFile.read = .ok config) (type : Text)
    (body : ProviderUpdate ρ) :
    CommitsAim env circ app (aim env (.update type body) app.configFile)
      (perform env circ (.update type body)) := by
  simp only [aim, hread]
  rw [Option.map_eq_bind]
  refine commitsAim_of_checks (fun r =>
    (commit env circ r.2 (updateEdit type body) >>= fun _ =>
      configSummary type r.1 r.2.defaultProvider) >>= fun _ => pure ()) ?_ ?_
  · rw [perform, perform.ignore, updateProviderRoute, Fallible.bind_bind_apply,
      Fallible.read_bind_apply, Fallible.bind_bind_apply,
      Fallible.ofExcept_bind_of_ok hread, Fallible.bind_bind_apply]
  · intro r _
    exact commitsAim_summary r.2 (updateEdit type body) type r.1 r.2.defaultProvider

theorem commitsAim_delete (hread : app.configFile.read = .ok config) (type : Text) :
    CommitsAim env circ app (aim env (.delete type) app.configFile)
      (perform env circ (.delete type)) := by
  simp only [aim, hread]
  rw [Option.map_eq_bind]
  refine commitsAim_of_checks (fun c => commit env circ c (.remove type)) ?_ ?_
  · rw [perform, deleteProviderRoute, Fallible.read_bind_apply,
      Fallible.ofExcept_bind_of_ok hread]
  · intro c _
    exact commitsAim_commit c (.remove type)

theorem commitsAim_toggle (hread : app.configFile.read = .ok config) (enabled : Bool)
    (type : Text) :
    CommitsAim env circ app
      (((toggleChecks env enabled type config).toOption.bind (·.2)).map fun c => (c, .keep))
      (perform.ignore (toggleProviderRoute env circ enabled type)) := by
  rw [Option.map_bind]
  refine commitsAim_of_checks (fun r =>
    (match r.2 with
      | none => configSummary type r.1 config.defaultProvider
      | some c => commit env circ c .keep >>= fun _ =>
        configSummary type r.1 config.defaultProvider) >>= fun _ => pure ()) ?_ ?_
  · rw [perform.ignore, toggleProviderRoute, Fallible.bind_bind_apply,
      Fallible.read_bind_apply, Fallible.bind_bind_apply,
      Fallible.ofExcept_bind_of_ok hread, Fallible.bind_bind_apply]
  · intro r _
    obtain ⟨cfg, changed⟩ := r
    cases changed with
    | none => rfl
    | some c => exact commitsAim_summary c .keep type cfg config.defaultProvider

theorem commitsAim_setDefault (hread : app.configFile.read = .ok config) (type : Text) :
    CommitsAim env circ app (aim env (.setDefault type) app.configFile)
      (perform env circ (.setDefault type)) := by
  simp only [aim, hread]
  rw [Option.map_bind]
  refine commitsAim_of_checks (fun changed =>
    match changed with
    | none => pure ()
    | some c => commit env circ c .keep) ?_ ?_
  · rw [perform, setDefaultProviderRoute, Fallible.read_bind_apply,
      Fallible.ofExcept_bind_of_ok hread]
  · intro changed _
    cases changed with
    | none => rfl
    | some c => exact commitsAim_commit c .keep

end Read

theorem perform_commitsAim (call : Call ρ) (hcall : ∀ type, call ≠ .removeCredential type) :
    CommitsAim env circ app (aim env call app.configFile) (perform env circ call) := by
  cases hread : app.configFile.read with
  | error e =>
    simp only [aim, hread]
    exact perform_unread hread call
  | ok config =>
    cases call with
    | create body => exact commitsAim_create hread body
    | update type body => exact commitsAim_update hread type body
    | delete type => exact commitsAim_delete hread type
    | removeCredential type => exact absurd rfl (hcall type)
    | enable type =>
      simp only [aim, hread]
      exact commitsAim_toggle hread true type
    | disable type =>
      simp only [aim, hread]
      exact commitsAim_toggle hread false type
    | setDefault type => exact commitsAim_setDefault hread type

/-- A call other than the removal of a credential leaves nothing over exactly if what it
aims at completes, or is interrupted where nothing has changed. -/
theorem perform_faithful_iff (hlive : IsLive env app) {call : Call ρ}
    (hcall : ∀ type, call ≠ .removeCredential type) :
    Settles env app (perform env circ call app) ↔
      ∀ c edit, aim env call app.configFile = some (c, edit) →
        Completes env circ c edit app ∨ Harmless env circ c edit app := by
  have hcommits := @perform_commitsAim _ _ env circ app call hcall
  cases haim : aim env call app.configFile with
  | none =>
    rw [haim] at hcommits
    refine iff_of_true ?_ (by nofun)
    exact settles_unchanged hlive hcommits
  | some goal =>
    obtain ⟨c, edit⟩ := goal
    rw [haim] at hcommits
    obtain ⟨k, hk, hperform⟩ := hcommits
    rw [hperform, commit_faithful c edit hlive hk]
    constructor
    · rintro h _ _ ⟨rfl, rfl⟩
      exact h
    · intro h
      exact h c edit rfl

/-! ## Removing a credential -/

theorem createProvider_eq_ok {cfg : ProviderConfig ρ} {credentials : CredentialFile}
    {provider : LiveProvider ρ} :
    createProvider env cfg credentials = .ok provider ↔
      resolveApiKey env cfg credentials = .ok provider.apiKey ∧
        env.adapter cfg provider.apiKey = .ok () ∧ provider.config = cfg := by
  obtain ⟨config, apiKey⟩ := provider
  rw [createProvider]
  cases resolveApiKey env cfg credentials with
  | error e => simp [bind, Except.bind]
  | ok key =>
    cases hadapter : env.adapter cfg key with
    | error e =>
      simp only [bind, Except.bind, hadapter, reduceCtorEq, false_iff]
      rintro ⟨hkey, hok, _⟩
      cases hkey
      cases hadapter.symm.trans hok
    | ok _ =>
      simp only [bind, Except.bind, hadapter, pure, Except.pure, Except.ok.injEq,
        LiveProvider.mk.injEq]
      constructor
      · rintro ⟨rfl, rfl⟩
        exact ⟨rfl, hadapter, rfl⟩
      · rintro ⟨rfl, _, rfl⟩
        exact ⟨rfl, rfl⟩

/-- Two stores give a provider the same key exactly if it starts alike from both. -/
theorem createProvider_same_iff {cfg : ProviderConfig ρ} {credentials other : CredentialFile}
    {provider : LiveProvider ρ} (h : createProvider env cfg credentials = .ok provider) :
    createProvider env cfg other = .ok provider ↔
      resolveApiKey env cfg other = resolveApiKey env cfg credentials := by
  obtain ⟨hkey, hadapter, hconfig⟩ := createProvider_eq_ok.mp h
  rw [createProvider_eq_ok, hkey]
  exact ⟨fun hother => hother.1, fun hother => ⟨hother, hadapter, hconfig⟩⟩

theorem createItem_eq_ok {credentials : CredentialFile} {item : Text × ProviderConfig ρ}
    {live : Text × LiveProvider ρ} :
    createItem env credentials item = .ok live ↔
      createProvider env item.2 credentials = .ok live.2 ∧ live.1 = item.1 := by
  obtain ⟨type, provider⟩ := live
  rw [createItem]
  cases createProvider env item.2 credentials with
  | error e => simp [bind, Except.bind]
  | ok made => simp [bind, Except.bind, pure, Except.pure, eq_comm, and_comm]

theorem createProviderManager_eq_ok {c : ProvidersConfig ρ} {credentials : CredentialFile}
    {manager : ProviderManager ρ} :
    createProviderManager env c credentials = .ok manager ↔
      c.enabledProviders.mapM (createItem env credentials) = .ok manager.providers ∧
        manager.defaultName = c.defaultProvider.filter fun name => name ∈ keys manager.providers := by
  obtain ⟨providers, defaultName⟩ := manager
  rw [createProviderManager]
  cases c.enabledProviders.mapM (createItem env credentials) with
  | error e => simp [bind, Except.bind]
  | ok made =>
    simp only [bind, Except.bind, pure, Except.pure, Except.ok.injEq, ProviderManager.mk.injEq]
    constructor
    · intro ⟨hproviders, hdefault⟩
      subst hproviders
      exact ⟨rfl, hdefault.symm⟩
    · intro ⟨hproviders, hdefault⟩
      subst hproviders
      exact ⟨rfl, hdefault.symm⟩

/-- Two stores give the same manager exactly if they give the enabled providers the same
keys. -/
theorem createProviderManager_same_iff {c : ProvidersConfig ρ}
    {credentials other : CredentialFile} {manager : ProviderManager ρ}
    (h : createProviderManager env c credentials = .ok manager) :
    createProviderManager env c other = .ok manager ↔
      ∀ item ∈ c.enabledProviders,
        resolveApiKey env item.2 other = resolveApiKey env item.2 credentials := by
  obtain ⟨hproviders, hdefault⟩ := createProviderManager_eq_ok.mp h
  rw [createProviderManager_eq_ok, and_iff_left hdefault, mapM_same_iff hproviders]
  refine forall₂_congr fun item hitem => ?_
  obtain ⟨live, hlive⟩ := mapM_member hproviders hitem
  obtain ⟨hprovider, htype⟩ := createItem_eq_ok.mp hlive
  rw [hlive, createItem_eq_ok, and_iff_left htype, createProvider_same_iff hprovider]

theorem loadProviderManager_eq_ok {file : ConfigFile ρ} {credentials : CredentialFile}
    {c : ProvidersConfig ρ} (hread : file.read = .ok c) {manager : ProviderManager ρ} :
    loadProviderManager env file credentials = .ok manager ↔
      createProviderManager env c credentials = .ok manager := by
  rw [loadProviderManager, hread]
  show (createProviderManager env c credentials).mapError _ = _ ↔ _
  cases createProviderManager env c credentials with
  | error e => simp [Except.mapError]
  | ok made => simp [Except.mapError]

theorem isLive_removed_iff (hlive : IsLive env app) {c : ProvidersConfig ρ}
    (hread : app.configFile.read = .ok c) (type : Text) :
    IsLive env { app with credentials := credentialsAfter (.remove type) app.credentials } ↔
      Unused env type app := by
  have hmanager := (loadProviderManager_eq_ok hread).mp hlive
  rw [IsLive, loadProviderManager_eq_ok hread, createProviderManager_same_iff hmanager]
  constructor
  · rintro h c' hc'
    obtain rfl := Except.ok.inj (hread.symm.trans hc')
    exact h
  · intro h
    exact h c hread

/-- How the endpoint ends once the configuration is read. -/
theorem removeCredential_apply {c : ProvidersConfig ρ} (hread : app.configFile.read = .ok c)
    (type : Text) :
    perform env circ (.removeCredential type) app =
      match get? type c.providers with
      | none => (.error (notConfigured env type), app)
      | some _ =>
        match storeRemove circ type app with
        | (.ok _, after) => (.ok (), after)
        | (.error e, after) => (.error e, after) := by
  rw [perform, perform.ignore, removeProviderCredentialRoute, Fallible.bind_bind_apply,
    Fallible.read_bind_apply, Fallible.bind_bind_apply, Fallible.ofExcept_bind_of_ok hread]
  cases get? type c.providers with
  | none => rfl
  | some cfg =>
    show ((storeRemove circ type >>= fun removed => _) >>= fun _ => pure ()) app = _
    rw [Fallible.bind_bind_apply, Fallible.bind_apply]
    obtain ⟨_ | _, after⟩ := storeRemove circ type app <;> rfl

/-- **Removing a credential is faithful exactly if none is stored, the removal raises, or
no enabled provider authenticates with it.** -/
theorem removeCredential_faithful_iff (hlive : IsLive env app) (type : Text) :
    Settles env app (perform env circ (.removeCredential type) app) ↔
      ∀ c, app.configFile.read = .ok c → type ∈ keys c.providers →
        type ∈ keys (load app.credentials true).items → circ.save = false →
        Unused env type app := by
  cases hread : app.configFile.read with
  | error e => exact iff_of_true (settles_unchanged hlive (perform_unread hread _)) nofun
  | ok c =>
    rw [removeCredential_apply hread, storeRemove_apply]
    cases hconfigured : get? type c.providers with
    | none =>
      refine iff_of_true rfl ?_
      rintro _ ⟨rfl⟩ hmem
      exact absurd hmem (PyDict.get?_eq_none_iff.mp hconfigured)
    | some cfg =>
      by_cases hstored : type ∈ keys (load app.credentials true).items
      · rw [if_pos hstored]
        cases hsave : circ.save with
        | true => exact iff_of_true rfl nofun
        | false =>
          refine (isLive_removed_iff hlive hread type).trans ?_
          refine ⟨fun hunused _ _ _ _ _ => hunused, fun h => ?_⟩
          refine h c rfl ?_ hstored rfl
          by_contra hmissing
          cases hconfigured.symm.trans (PyDict.get?_eq_none_iff.mpr hmissing)
      · rw [if_neg hstored]
        exact iff_of_true hlive fun _ _ _ h => absurd h hstored

/-! ## Runs -/

variable (env) in
/-- A call from beginning to end. -/
def step (a : Call ρ × Circumstances ρ) (app : App ρ) : Option (App ρ) :=
  some (perform env a.2 a.1 app).2

variable (env) in
/-- The call does what it ought to do. -/
def Faithful (app : App ρ) (a : Call ρ × Circumstances ρ) : Prop :=
  Settles env app (perform env a.2 a.1 app)

theorem faithful_iff (hlive : IsLive env app) (a : Call ρ × Circumstances ρ) :
    Faithful env app a ↔ Undisturbed env a.2 app a.1 := by
  obtain ⟨call, circ⟩ := a
  by_cases hremoval : ∃ type, call = .removeCredential type
  · obtain ⟨type, rfl⟩ := hremoval
    rw [Faithful, removeCredential_faithful_iff hlive]
    constructor
    · intro h
      refine ⟨?_, ?_⟩
      · intro c edit haim
        rw [aim] at haim
        cases hread : app.configFile.read <;> rw [hread] at haim <;> cases haim
      · rintro _ ⟨rfl⟩
        exact h
    · intro h
      exact h.2 type rfl
  · have hcall : ∀ type, call ≠ .removeCredential type := by
      intro type htype
      exact hremoval ⟨type, htype⟩
    rw [Faithful, perform_faithful_iff hlive hcall]
    exact (and_iff_left fun type htype => absurd htype (hcall type)).symm

/-- A call that does what it ought to leaves the live manager as the files say. -/
theorem isLive_step (app : App ρ) (a : Call ρ × Circumstances ρ) (after : App ρ)
    (hlive : IsLive env app) (hfaithful : Faithful env app a)
    (hstep : step env a app = some after) : IsLive env after := by
  obtain rfl := Option.some.inj hstep
  rw [Faithful] at hfaithful
  cases hperform : perform env a.2 a.1 app with
  | mk result after =>
    rw [hperform] at hfaithful
    cases result with
    | error e =>
      obtain rfl : after = app := hfaithful
      exact hlive
    | ok _ => exact hfaithful

/-- **Every call of a run leaves the live manager as the files say, or changes nothing,
exactly if no call is disturbed.** -/
theorem run_faithful_iff (calls : List (Call ρ × Circumstances ρ)) (hlive : IsLive env app) :
    Runs.Meets (step env) (Faithful env) calls app ↔
      Runs.Meets (step env) (fun app a => Undisturbed env a.2 app a.1) calls app :=
  Runs.meets_iff isLive_step (fun _ a hlive => faithful_iff hlive a) hlive

end Live

/-! ## A removed key that stays in use -/

/-- A vault of `keyedLibrary`, no variables, and constructors that do not raise. -/
def plainEnvironment : Environment VaultStartups.keyedLibrary Unit where
  vault := ⟨List.replicate 44 'A', rfl⟩
  getenv _ := none
  adapter _ _ := .ok ()
  repr text := "'".toList ++ text ++ "'".toList
  errors field := field

def openai : ProviderConfig Unit where
  type := "openai".toList
  name := []
  enabled := true
  baseUrl := none
  apiKeyEnv := none
  apiKeyRef := none
  apiKey := none
  model := []
  settings := ()

/-- One provider, with a stored key. -/
def keyedApp : App Unit where
  configFile := .config { defaultProvider := none, providers := [("openai".toList, openai)] }
  credentials := .object
    { items := [("openai".toList,
        encryptSecret VaultStartups.keyedLibrary plainEnvironment.vault 0 "sk-1".toList)]
      keys_nodup := List.nodup_singleton _ }
  manager :=
    { providers := [("openai".toList, { config := openai, apiKey := some "sk-1".toList })]
      defaultName := none }

theorem isLive_keyedApp : IsLive plainEnvironment keyedApp := rfl

/-- The provider is disabled before its key is removed: nothing is left over. -/
theorem disabled_credential_removed :
    Runs.Meets (step plainEnvironment) (Faithful plainEnvironment)
      [(.disable "openai".toList, {}), (.removeCredential "openai".toList, {})] keyedApp := by
  refine (run_faithful_iff _ isLive_keyedApp).mpr ⟨⟨?_, nofun⟩, ?_⟩
  · rintro c edit ⟨rfl, rfl⟩
    exact Or.inl ⟨rfl, nofun, rfl, _, rfl⟩
  · rintro _ ⟨rfl⟩
    refine ⟨⟨nofun, ?_⟩, fun _ _ => trivial⟩
    intro type _ c _ _ _ _ c' hc' item hitem
    obtain rfl := Except.ok.inj hc'
    cases hitem

/-- The key of an enabled provider is removed, and the provider goes on with it. -/
theorem removed_credential_in_use :
    IsLive plainEnvironment keyedApp ∧
      ¬ Runs.Meets (step plainEnvironment) (Faithful plainEnvironment)
        [(.removeCredential "openai".toList, {})] keyedApp := by
  refine ⟨isLive_keyedApp, ?_⟩
  intro hmeets
  have hundisturbed := (faithful_iff isLive_keyedApp _).mp hmeets.1
  have hunused := hundisturbed.2 _ rfl _ rfl (by decide) (by decide) rfl
  have hkey := hunused _ rfl ("openai".toList, openai) (List.mem_singleton_self _)
  have hremoved : storedKey plainEnvironment.vault openai.type
      (credentialsAfter (.remove "openai".toList) keyedApp.credentials) true = .ok none := by
    rw [credentialsAfter, storedKey, load, ProviderCredentials.get?_sorted]
    rfl
  rw [resolveApiKey] at hkey
  simp only [show truthy openai.apiKey = none from rfl, hremoved] at hkey
  cases hkey

end OpenWrtCopilot.Ports.ProviderAdmin
