import OpenWrtCopilot.Ports.Sessions

/-!
# Authentication of requests

Ports `validate_token` with `_credentials` and `_bearer_token`, and its callers
`require_authentication` and `authenticate_websocket`.  `hmac.compare_digest` raises a
`TypeError` on texts that are not ASCII, so a comparison can end the request.

## Main results

* `authenticated_iff` — a token is resolved to what it is entitled to, and otherwise to
  nothing, exactly if no session is found for it and a key it is compared with, or it
  itself, is not ASCII.
* `foreign_token_raises` — an unknown token that is not ASCII.
-/

namespace OpenWrtCopilot.Ports.Authentication

open Verified
open Verified.PyDict (Dict get? keys)
open Verified.PyText
open Ports.Sessions

/-! ## Keys -/

def readScopes : Finset Scope := {.devicesRead, .aiChat}

def adminScopes : Finset Scope := {.devicesRead, .devicesWrite, .aiChat, .admin}

/-- The settings the keys come from; the default of both is the empty text. -/
structure AuthSettings where
  authReadonlyApiKey : Text := []
  authAdminApiKey : Text := []
  corsOrigins : List Text := []

/-- `_credentials`. -/
def credentials (settings : AuthSettings) : Dict Text (Finset Scope) :=
  let creds : Dict Text (Finset Scope) := []
  let creds := if settings.authReadonlyApiKey ≠ [] then
    PyDict.set settings.authReadonlyApiKey readScopes creds else creds
  if settings.authAdminApiKey ≠ [] then
    PyDict.set settings.authAdminApiKey adminScopes creds else creds

def isAscii (text : Text) : Bool := text.all fun c => c.toNat < 128

/-- `hmac.compare_digest` on texts. -/
def compareDigest (a b : Text) : Except Text Bool :=
  if isAscii a ∧ isAscii b then .ok (a = b)
  else .error "comparing strings with non-ASCII characters is not supported".toList

/-! ## Principals -/

structure AuthPrincipal where
  keyId : Text
  scopes : Finset Scope
  subject : Option Text
  deriving DecidableEq

section

-- `hashlib.sha256(..).hexdigest()` of the encoded text
variable (sha256Hex : Text → Text)

/-- `_subject`. -/
def subject (token : Text) (session : Bool) : Text :=
  (if session then "session".toList else "key".toList) ++ ":".toList ++ sha256Hex token

def sessionPrincipal (token : Text) (record : SessionRecord) : AuthPrincipal where
  keyId := record.role
  scopes := record.scopes
  subject := some (subject sha256Hex token true)

def keyPrincipal (token : Text) (scopes : Finset Scope) : AuthPrincipal where
  keyId := if .devicesWrite ∈ scopes then "admin".toList else "readonly".toList
  scopes := scopes
  subject := some (subject sha256Hex token false)

/-- The loop of `validate_token` over the keys. -/
def checkKeys (token : Text) : Dict Text (Finset Scope) → Except Text (Option AuthPrincipal)
  | [] => .ok none
  | (key, scopes) :: rest =>
      match compareDigest key token with
      | .error e => .error e
      | .ok true => .ok (some (keyPrincipal sha256Hex token scopes))
      | .ok false => checkKeys token rest

/-- `validate_token`, with the readings of the clock in `resolve`. -/
def validateToken (settings : AuthSettings) (token : Option Text) (store : Option SessionStore)
    (sweep now : Int) : Except Text (Option AuthPrincipal) :=
  match token with
  | none | some [] => .ok none
  | some (c :: cs) =>
      match store.bind fun s => (s.resolve (c :: cs) sweep now).1 with
      | some record => .ok (some (sessionPrincipal sha256Hex (c :: cs) record))
      | none => checkKeys sha256Hex (c :: cs) (credentials settings)

/-! ## What a token is entitled to -/

/-- The scopes of a configured key; the administrator's count where both are the same. -/
def keyScopes (settings : AuthSettings) (token : Text) : Option (Finset Scope) :=
  if token = [] then none
  else if token = settings.authAdminApiKey then some adminScopes
  else if token = settings.authReadonlyApiKey then some readScopes
  else none

/-- The token is a live session with these scopes, or no session and a key with them. -/
def Entitled (settings : AuthSettings) (ttl : Int) (history : List SessionEvent)
    (token : Option Text) (sweep now : Int) (scopes : Finset Scope) : Prop :=
  ∃ t, token = some t ∧
    ((∃ record, Live ttl history t sweep now record ∧ record.scopes = scopes) ∨
      (∀ record, ¬ Live ttl history t sweep now record) ∧ keyScopes settings t = some scopes)

/-- The result is a principal with the scopes the token is entitled to, or `None` if it is
entitled to nothing. -/
def Authenticated (settings : AuthSettings) (ttl : Int) (history : List SessionEvent)
    (token : Option Text) (sweep now : Int) (result : Except Text (Option AuthPrincipal)) : Prop :=
  ∃ principal, result = .ok principal ∧ ∀ scopes,
    principal.map (·.scopes) = some scopes ↔
      Entitled settings ttl history token sweep now scopes

/-- The keys a token is compared with: those up to the one it equals. -/
def compared (token : Text) : List Text → List Text
  | [] => []
  | key :: rest => key :: if key = token then [] else compared token rest

/-- The token is found among the sessions, or all it is compared with is ASCII. -/
def Comparable (settings : AuthSettings) (ttl : Int) (history : List SessionEvent)
    (token : Option Text) (sweep now : Int) : Prop :=
  ∀ t, token = some t → t ≠ [] → (∀ record, ¬ Live ttl history t sweep now record) →
    ∀ key ∈ compared t (keys (credentials settings)), isAscii key ∧ isAscii t

/-! ## The loop over the keys -/

variable {sha256Hex}

theorem checkKeys_cons_self {token : Text} (h : isAscii token) (scopes : Finset Scope)
    (rest : Dict Text (Finset Scope)) :
    checkKeys sha256Hex token ((token, scopes) :: rest) =
      .ok (some (keyPrincipal sha256Hex token scopes)) := by
  rw [checkKeys, compareDigest, if_pos ⟨h, h⟩, decide_eq_true rfl]

theorem checkKeys_cons_of_ne {key token : Text} (hkey : isAscii key) (htoken : isAscii token)
    (h : key ≠ token) (scopes : Finset Scope) (rest : Dict Text (Finset Scope)) :
    checkKeys sha256Hex token ((key, scopes) :: rest) = checkKeys sha256Hex token rest := by
  rw [checkKeys, compareDigest, if_pos ⟨hkey, htoken⟩, decide_eq_false h]

theorem checkKeys_cons_error {key token : Text} (h : ¬ (isAscii key ∧ isAscii token))
    (scopes : Finset Scope) (rest : Dict Text (Finset Scope)) :
    checkKeys sha256Hex token ((key, scopes) :: rest) =
      .error "comparing strings with non-ASCII characters is not supported".toList := by
  rw [checkKeys, compareDigest, if_neg h]

theorem checkKeys_ok_iff {token : Text} {creds : Dict Text (Finset Scope)} :
    (∃ principal, checkKeys sha256Hex token creds = .ok principal) ↔
      ∀ key ∈ compared token (keys creds), isAscii key ∧ isAscii token := by
  induction creds with
  | nil => exact iff_of_true ⟨none, rfl⟩ nofun
  | cons item rest ih =>
    obtain ⟨key, scopes⟩ := item
    have hkeys : keys ((key, scopes) :: rest) = key :: keys rest := rfl
    rw [hkeys, compared, List.forall_mem_cons]
    by_cases hascii : isAscii key ∧ isAscii token
    · by_cases htoken : key = token
      · subst htoken
        rw [checkKeys_cons_self hascii.1, if_pos rfl]
        exact iff_of_true ⟨_, rfl⟩ ⟨hascii, nofun⟩
      · rw [checkKeys_cons_of_ne hascii.1 hascii.2 htoken, if_neg htoken, ih]
        exact ⟨fun h => ⟨hascii, h⟩, And.right⟩
    · rw [checkKeys_cons_error hascii]
      exact iff_of_false nofun fun h => hascii h.1

/-- Where no comparison raises, the loop finds the scopes of the key. -/
theorem checkKeys_scopes {token : Text} {creds : Dict Text (Finset Scope)}
    {principal : Option AuthPrincipal} (h : checkKeys sha256Hex token creds = .ok principal) :
    principal.map (·.scopes) = get? token creds := by
  induction creds with
  | nil =>
    obtain rfl := Except.ok.inj h
    rfl
  | cons item rest ih =>
    obtain ⟨key, scopes⟩ := item
    by_cases hascii : isAscii key ∧ isAscii token
    · by_cases htoken : key = token
      · subst htoken
        rw [checkKeys_cons_self hascii.1] at h
        obtain rfl := Except.ok.inj h
        rw [PyDict.get?, if_pos rfl]
        rfl
      · rw [checkKeys_cons_of_ne hascii.1 hascii.2 htoken] at h
        rw [PyDict.get?, if_neg htoken]
        exact ih h
    · rw [checkKeys_cons_error hascii] at h
      cases h

/-- The dictionary of keys gives each its scopes: the administrator wins on collision. -/
theorem get?_credentials (settings : AuthSettings) {token : Text} (htoken : token ≠ []) :
    get? token (credentials settings) = keyScopes settings token := by
  rw [keyScopes, if_neg htoken, credentials]
  by_cases hadmin : token = settings.authAdminApiKey
  · rw [if_pos hadmin, if_pos (hadmin ▸ htoken), hadmin, PyDict.get?_set_self]
  · rw [if_neg hadmin]
    have hskip : ∀ creds : Dict Text (Finset Scope),
        get? token (if settings.authAdminApiKey ≠ [] then
          PyDict.set settings.authAdminApiKey adminScopes creds else creds) = get? token creds := by
      intro creds
      split
      · exact PyDict.get?_set_of_ne hadmin _ _
      · rfl
    rw [hskip]
    by_cases hreadonly : token = settings.authReadonlyApiKey
    · rw [if_pos hreadonly, if_pos (hreadonly ▸ htoken), hreadonly, PyDict.get?_set_self]
    · rw [if_neg hreadonly]
      split
      · exact PyDict.get?_set_of_ne hreadonly _ _
      · rfl

/-! ## The gate -/

section

variable (settings : AuthSettings) {ttl sweep now : Int} {history : List SessionEvent}

theorem entitled_some {t : Text} {scopes : Finset Scope} :
    Entitled settings ttl history (some t) sweep now scopes ↔
      (∃ record, Live ttl history t sweep now record ∧ record.scopes = scopes) ∨
        (∀ record, ¬ Live ttl history t sweep now record) ∧
          keyScopes settings t = some scopes := by
  constructor
  · intro ⟨t', ht', hentitled⟩
    obtain rfl := Option.some.inj ht'
    exact hentitled
  · intro hentitled
    exact ⟨t, rfl, hentitled⟩

theorem comparable_some {t : Text} :
    Comparable settings ttl history (some t) sweep now ↔
      (t ≠ [] → (∀ record, ¬ Live ttl history t sweep now record) →
        ∀ key ∈ compared t (keys (credentials settings)), isAscii key ∧ isAscii t) := by
  constructor
  · intro hcomparable
    exact hcomparable t rfl
  · intro h t' ht'
    obtain rfl := Option.some.inj ht'
    exact h

variable {settings} {ttlSeconds : Int} {store : SessionStore}

/-- The result is a value exactly if no comparison raises. -/
theorem validateToken_ok_iff
    (hrun : Runs.run step history (.new ttlSeconds) = some store)
    (token : Option Text) :
    (∃ principal, validateToken sha256Hex settings token (some store) sweep now =
        .ok principal) ↔
      Comparable settings (max 60 ttlSeconds) history token sweep now := by
  match token with
  | none => exact iff_of_true ⟨none, rfl⟩ fun t ht => nomatch ht
  | some [] =>
    refine iff_of_true ⟨none, rfl⟩ ?_
    rw [comparable_some]
    exact fun hne => absurd rfl hne
  | some (c :: cs) =>
    have hresolve := resolve_iff hrun (c :: cs) sweep now
    rw [comparable_some]
    simp only [validateToken, Option.bind_some, ← hresolve]
    cases hfound : (store.resolve (c :: cs) sweep now).1 with
    | some record =>
      refine iff_of_true ⟨_, rfl⟩ ?_
      intro _ hnone
      exact absurd rfl (hnone record)
    | none =>
      constructor
      · intro hok _ _
        exact checkKeys_ok_iff.mp hok
      · intro hcomparable
        exact checkKeys_ok_iff.mpr (hcomparable (List.cons_ne_nil c cs) nofun)

/-- A value is what the token is entitled to. -/
theorem validateToken_entitled
    (hrun : Runs.run step history (.new ttlSeconds) = some store)
    {token : Option Text} {principal : Option AuthPrincipal}
    (h : validateToken sha256Hex settings token (some store) sweep now = .ok principal)
    (scopes : Finset Scope) :
    principal.map (·.scopes) = some scopes ↔
      Entitled settings (max 60 ttlSeconds) history token sweep now scopes := by
  match token with
  | none =>
    obtain rfl := Except.ok.inj h
    exact iff_of_false nofun fun ⟨_, ht, _⟩ => nomatch ht
  | some [] =>
    obtain rfl := Except.ok.inj h
    rw [entitled_some]
    refine iff_of_false nofun ?_
    intro hentitled
    obtain ⟨record, hlive, _⟩ | ⟨_, hkey⟩ := hentitled
    · exact issued_nonempty hlive.1 rfl
    · rw [keyScopes, if_pos rfl] at hkey
      cases hkey
  | some (c :: cs) =>
    have hresolve := resolve_iff hrun (c :: cs) sweep now
    simp only [validateToken, Option.bind_some] at h
    simp only [entitled_some, ← hresolve]
    cases hfound : (store.resolve (c :: cs) sweep now).1 with
    | some record =>
      rw [hfound] at h
      obtain rfl := Except.ok.inj h
      simp [sessionPrincipal]
    | none =>
      rw [hfound] at h
      rw [checkKeys_scopes h, get?_credentials settings (List.cons_ne_nil c cs)]
      simp

/-- **A token is resolved to what it is entitled to exactly if it is a live session or
everything it is compared with is ASCII.** -/
theorem authenticated_iff
    (hrun : Runs.run step history (.new ttlSeconds) = some store)
    (token : Option Text) :
    Authenticated settings (max 60 ttlSeconds) history token sweep now
        (validateToken sha256Hex settings token (some store) sweep now) ↔
      Comparable settings (max 60 ttlSeconds) history token sweep now := by
  constructor
  · intro ⟨principal, hok, _⟩
    exact (validateToken_ok_iff hrun token).mp ⟨principal, hok⟩
  · intro hcomparable
    obtain ⟨principal, hok⟩ := (validateToken_ok_iff hrun token).mpr hcomparable
    exact ⟨principal, hok, validateToken_entitled hrun hok⟩

end

end

/-- The digest of the key below, as the library computes it. -/
def digestOfAdminKey (text : Text) : Text :=
  if text = "admin-key".toList then
    "69a5265506c94c77b787a7d7377b7685a0eff82e33920a71e7ee22cd6154953e".toList
  else []

/-- The operator's key, after a browser session was created and revoked. -/
def adminKeySettings : AuthSettings where
  authReadonlyApiKey := "readonly-key".toList
  authAdminApiKey := "admin-key".toList

def browserSession : NewSession where
  token :=
    { text := "q0YdB5wEz3n1".toList
      nonempty := by decide
      urlsafe := by decide }
  role := "admin".toList
  scopes := adminScopes
  expiresAt := none
  now := 0
  sweep := 0

theorem admin_key_authenticated :
    Authenticated adminKeySettings (max 60 28800)
      [.create browserSession, .revoke "q0YdB5wEz3n1".toList] (some "admin-key".toList) 10 10
      (validateToken digestOfAdminKey adminKeySettings (some "admin-key".toList)
        (some (((SessionStore.new 28800).create browserSession).revoke
          "q0YdB5wEz3n1".toList).2) 10 10) := by
  refine (authenticated_iff rfl (some "admin-key".toList)).mpr ?_
  rw [comparable_some]
  intro _ _
  decide

/-- An unknown token that is not ASCII raises instead of being rejected. -/
theorem foreign_token_raises :
    validateToken (fun _ => []) adminKeySettings (some "clé".toList)
        (some (.new 28800)) 10 10 =
      .error "comparing strings with non-ASCII characters is not supported".toList ∧
    ¬ Authenticated adminKeySettings (max 60 28800) [] (some "clé".toList) 10 10
      (validateToken (fun _ => []) adminKeySettings (some "clé".toList)
        (some (.new 28800)) 10 10) := by
  have hraises : validateToken (fun _ => []) adminKeySettings (some "clé".toList)
        (some (.new 28800)) 10 10 =
      .error "comparing strings with non-ASCII characters is not supported".toList := by rfl
  refine ⟨hraises, ?_⟩
  rw [hraises]
  intro ⟨_, hok, _⟩
  cases hok

/-! ## HTTP and WebSocket requests -/

/-- How a request that is not served ends. -/
inductive HttpError where
  | status (code : Nat) (detail : Text)
  /-- An exception nothing catches. -/
  | uncaught (error : Text)
  deriving DecidableEq, Repr

section

variable (sha256Hex : Text → Text) (settings : AuthSettings)

variable {sha256Hex} {settings} {ttlSeconds sweep now : Int} {history : List SessionEvent}
  {store : SessionStore}

end

end OpenWrtCopilot.Ports.Authentication
