import SdkApi.RoleMiddleware

/-!
# The authentication chain of an entry

`registerAuthMiddleware` turns an entry definition and the wiring of the
service into the list of handlers that stand before the entry's own handler.
A slot of the list may be nil: such a slot panics when it is called, and the
entry handler is not reached through it.
-/

namespace SdkApi.AuthChain
open GoStrings RequestContext CredentialMiddleware RoleMiddleware

structure EntryDef where
  type : String
  path : String
  authModes : List String
  roles : List String := []
  permissions : List String := []
  jwtFrom : String := ""
  apiPrefix : String := ""
  requiresMFA : Bool := false
  rateLimitPerUser : Option RateLimitEntry := none
  rateLimitPerKey : Option RateLimitEntry := none
  perRoleLimits : List (String × Option RateLimitEntry) := []

abbrev AuthValidator := AuthContext → List String → List String → Except String Unit

structure OAuthSection where
  introspectionURL : String

structure SessionSection where
  store : String
  cookie : String := ""

structure AuthConfig where
  driver : String
  oauth : Option OAuthSection := none
  session : Option SessionSection := none

structure Service where
  auth : AuthConfig
  jwtCfg : Option JWTConfig := none
  authValidator : Option AuthValidator := none
  apiKeyValidator : Option ApiKeyValidator := none
  basicValidator : Option BasicValidator := none
  fgaClient : Option Checker := none
  oryClient : Option OryClient := none
  zitadelClient : Option ZitadelClient := none
  kvConns : List (String × (String → Option String)) := []
  endpoint : String → String → Except String Introspection := fun _ _ => .error "unreachable"
  cached : String → Option AuthContext := fun _ => none
  unmarshal : String → Option SessionData := fun _ => none
  serverPerUser : Option RateLimitEntry := none
  serverPerKey : Option RateLimitEntry := none
  maxFunc : Option (Ctx → ℤ) := none
  allow : String → String → Bool := fun _ _ => true

structure EntryAuthExtra where
  basicValidator : Option BasicValidator
  oauth : Option OAuthConfig
  session : Option SessionConfig

def hasAuth (entry : EntryDef) (mode : String) : Bool := entry.authModes.contains mode

def hasIdentityAuth (entry : EntryDef) : Bool :=
  ["jwt","basic","oauth","session"].any (hasAuth entry)

lemma hasIdentityAuth_of {entry : EntryDef} {mode : String} (h : hasAuth entry mode)
    (hm : mode ∈ ["jwt","basic","oauth","session"] := by decide) :
    hasIdentityAuth entry :=
  List.any_eq_true.mpr ⟨mode,hm,h⟩

lemma hasIdentityAuth_false_iff {entry : EntryDef} : hasIdentityAuth entry = false ↔
    hasAuth entry "jwt" = false ∧ hasAuth entry "basic" = false ∧
      hasAuth entry "oauth" = false ∧ hasAuth entry "session" = false := by
  simp only [hasIdentityAuth, List.any_cons, List.any_nil, Bool.or_false, Bool.or_eq_false_iff]

def entryError (entry : EntryDef) (msg : String) : String :=
  "entry " ++ entry.type ++ " " ++ entry.path ++ ": " ++ msg

def validateAPIKeyEntry (s : Service) (entry : EntryDef) (driver : String) : Except String Unit :=
  if hasAuth entry "apikey" = false then .ok ()
  else if driver = "none" ∨ driver = "" then
    .error (entryError entry "apikey mode requires auth.driver (manual, openfga-zitadel, or ory)")
  else if (driver = "manual" ∨ driver = "ory") ∧ s.apiKeyValidator.isNone then
    .error (entryError entry ("apikey mode requires WithAPIKeyValidator() for driver=" ++ driver))
  else .ok ()

def validateJWTEntry (s : Service) (entry : EntryDef) (driver : String) (hasAPIKey : Bool) :
    Except String Unit :=
  if hasAuth entry "jwt" = false then .ok ()
  else if driver = "none" ∨ driver = "" then
    .error (entryError entry "jwt mode requires driver != none")
  else if driver = "manual" ∧ s.authValidator.isNone ∧ hasAPIKey = false then
    .error (entryError entry "jwt mode requires WithAuthValidator() for driver=manual")
  else .ok ()

def validateEntryAuthConfig (s : Service) (entry : EntryDef) (driver : String) :
    Except String Unit := do
  validateAPIKeyEntry s entry driver
  validateJWTEntry s entry driver (hasAuth entry "apikey")
  if hasAuth entry "basic" ∧ s.basicValidator.isNone then
    throw (entryError entry "basic mode requires WithBasicValidator()")
  if hasAuth entry "oauth" ∧
      (s.auth.oauth.map (fun o => decide (trimSpace o.introspectionURL ≠ ""))).getD false = false then
    throw (entryError entry "oauth mode requires auth.oauth.introspection_url")
  if hasAuth entry "session" ∧ driver ≠ "ory" ∧
      (s.auth.session.map (fun o => decide (trimSpace o.store ≠ ""))).getD false = false then
    throw (entryError entry "session mode requires auth.session.store (shared KV)")

def buildAuthExtra (s : Service) : Except String EntryAuthExtra :=
  let oauth := s.auth.oauth.map fun o =>
    { introspectionURL := o.introspectionURL, endpoint := s.endpoint o.introspectionURL,
      cached := s.cached }
  match s.auth.session with
  | none => .ok ⟨s.basicValidator,oauth,none⟩
  | some sess =>
    if trimSpace sess.store = "" then .error "auth.session.store is required (shared KV)"
    else
      match s.kvConns.lookup sess.store with
      | none => .error ("auth.session.store \"" ++ sess.store ++ "\" not found")
      | some store => .ok ⟨s.basicValidator,oauth,
          some ⟨if sess.cookie = "" then "sid" else sess.cookie,some store,s.unmarshal⟩⟩

def jwtReadsHeader (entry : EntryDef) (jwtCfg : Option JWTConfig) : Bool :=
  if entry.jwtFrom ≠ "" then hasPrefix entry.jwtFrom "header:"
  else
    match jwtCfg with
    | none => false
    | some cfg => cfg.tokenLookup = "" || hasPrefix cfg.tokenLookup "header:"

/-- A router is needed when two of the four modes can be presented. -/
def needsAuthRouter (entry : EntryDef) (hasJWT hasOAuth hasAPIKey hasBasic : Bool)
    (jwtCfg : Option JWTConfig) : Bool :=
  if hasJWT.toNat+hasOAuth.toNat+hasAPIKey.toNat+hasBasic.toNat < 2 then false
  else jwtReadsHeader entry jwtCfg || hasBasic || hasOAuth

def routedMode (entry : EntryDef) (raw : String) : String :=
  if hasPrefix raw "Bearer " && hasAuth entry "jwt" then "jwt"
  else if hasPrefix raw "Bearer " && hasAuth entry "oauth" then "oauth"
  else if hasPrefix raw "Basic " && hasAuth entry "basic" then "basic"
  else if (entry.apiPrefix = "" || hasPrefix raw entry.apiPrefix) && hasAuth entry "apikey" then
    "apikey"
  else ""

def authRouter (entry : EntryDef) : Handler := fun c =>
  next { c with authMode :=
    if routedMode entry c.req.authorization = "" then c.authMode
    else routedMode entry c.req.authorization }

def jwtConfigForEntry (entry : EntryDef) (cfg : JWTConfig) : JWTConfig :=
  let lookup := if entry.jwtFrom ≠ "" then entry.jwtFrom else cfg.tokenLookup
  { cfg with tokenLookup := if lookup = "" then "header:Authorization" else lookup }

def jwtSkipWrapper (entry : EntryDef) (mw : Handler) : Handler := fun c =>
  if c.authMode ∈ ["apikey","basic","oauth","session"] then next c
  else if entry.jwtFrom = "" ∧ c.authMode = "" ∧
      hasPrefix c.req.authorization "Bearer " = false then next c
  else mw c

def jwtMiddleware (entry : EntryDef) (jwtCfg : Option JWTConfig) : Option Handler :=
  if hasAuth entry "jwt" then
    jwtCfg.map fun cfg => jwtSkipWrapper entry (jwt (jwtConfigForEntry entry cfg))
  else none

/-- With a nil `jwtCfg` the dereference panics while the chain is built. -/
def zitadelJWTMiddleware (entry : EntryDef) (jwtCfg : Option JWTConfig)
    (client : Option ZitadelClient) : Option Handler :=
  if hasAuth entry "jwt" then
    client.bind fun z => jwtCfg.map fun cfg =>
      jwtSkipWrapper entry (jwtWithZitadel (jwtConfigForEntry entry cfg) z)
  else none

def oryJWTMiddleware (entry : EntryDef) (jwtCfg : Option JWTConfig)
    (client : Option OryClient) : Option Handler :=
  if hasAuth entry "jwt" then
    client.bind fun o => jwtCfg.map fun cfg =>
      jwtSkipWrapper entry (jwtWithOry (jwtConfigForEntry entry cfg) o)
  else none

def openfgaMiddleware (entry : EntryDef) (client : Option Checker)
    (roles permissions : List String) : Option Handler :=
  if hasIdentityAuth entry then client.map fun f => openFGA f roles permissions else none

def oryMiddleware (entry : EntryDef) (client : Option OryClient)
    (roles permissions : List String) : Option Handler :=
  if hasIdentityAuth entry then client.map fun o => ory o roles permissions else none

/-- The body that the two middlewares around `authValidator` share. -/
def requireDecision (validator : AuthValidator) (roles permissions : List String) : Handler :=
  fun c =>
    match c.auth with
    | none => respond c 401 "auth context required"
    | some auth =>
      match validator auth roles permissions with
      | .error msg => respond c 403 msg
      | .ok () => next (c.note (.decided .authValidator auth roles permissions))

def manualAuthMiddleware (entry : EntryDef) (roles permissions : List String)
    (validator : Option AuthValidator) : Option Handler :=
  if hasIdentityAuth entry then
    validator.map fun v c =>
      if c.authMode = "apikey" then next c else requireDecision v roles permissions c
  else none

def apiKeyConfigForEntry (entry : EntryDef) (apiKeyValidator : Option ApiKeyValidator)
    (client : Option Checker) : APIKeyConfig where
  keyPrefix := entry.apiPrefix
  client := client
  relation := "can_access"
  object := entry.type ++ ":" ++ entry.path
  authResolver := apiKeyValidator

def apiKeySkips (entry : EntryDef) (c : Ctx) : Prop :=
  c.authMode ∈ ["jwt","basic","oauth","session"] ∨
    (c.authMode = "" ∧ hasPrefix c.req.authorization "Bearer " = true) ∨
    (c.authMode = "" ∧ hasIdentityAuth entry = true ∧ c.req.authorization = "")

instance (entry : EntryDef) (c : Ctx) : Decidable (apiKeySkips entry c) :=
  inferInstanceAs (Decidable (_ ∨ _))

def apiKeyMiddleware (entry : EntryDef) (apiKeyValidator : Option ApiKeyValidator)
    (client : Option Checker) : Handler := fun c =>
  if apiKeySkips entry c then next c
  else apiKey (apiKeyConfigForEntry entry apiKeyValidator client) c

def apiKeyRoleMiddleware (entry : EntryDef) (validator : Option AuthValidator) : List Handler :=
  if hasAuth entry "apikey" = false ∨ entry.roles = [] then []
  else
    match validator with
    | none => []
    | some v => [fun c =>
        if c.authMode ∈ ["jwt","basic","oauth","session"] then next c
        else requireDecision v entry.roles entry.permissions c]

/-- A request with an identity or routed to one of `others` is passed on. -/
def skipWhenRouted (others : List String) (mw : Handler) : Handler := fun c =>
  if c.auth.isSome then next c
  else if c.authMode ∈ others then next c
  else mw c

def basicMiddleware (entry : EntryDef) (validator : Option BasicValidator) : Option Handler :=
  if hasAuth entry "basic" then
    some (skipWhenRouted ["jwt","apikey","oauth","session"] (basic validator))
  else none

def oauthMiddleware (entry : EntryDef) (cfg : Option OAuthConfig) : Option Handler :=
  if hasAuth entry "oauth" then
    cfg.map fun o => skipWhenRouted ["jwt","apikey","basic","session"] (introspect o)
  else none

def sessionMiddleware (entry : EntryDef) (cfg : Option SessionConfig) : Option Handler :=
  if hasAuth entry "session" then
    cfg.map fun s => skipWhenRouted ["jwt","apikey","basic","oauth"] (session s)
  else none

def kratosSessionMiddleware (entry : EntryDef) (client : Option OryClient) : Option Handler :=
  if hasAuth entry "session" then
    client.map fun o => skipWhenRouted ["jwt","apikey","basic","oauth"] (kratosSession o)
  else none

/-- The slots that a factory result adds when it is only appended if non-nil. -/
def unlessNil (mw : Option Handler) : List (Option Handler) :=
  if mw.isSome then [mw] else []

def appendJWTMiddleware (s : Service) (entry : EntryDef) (driver : String) :
    List (Option Handler) :=
  if driver = "openfga-zitadel" then
    (if s.zitadelClient.isSome then zitadelJWTMiddleware entry s.jwtCfg s.zitadelClient
      else jwtMiddleware entry s.jwtCfg)::
      (if s.fgaClient.isSome then
        [openfgaMiddleware entry s.fgaClient entry.roles entry.permissions] else [])
  else if driver = "ory" then
    if s.oryClient.isSome then
      [oryJWTMiddleware entry s.jwtCfg s.oryClient,
        oryMiddleware entry s.oryClient entry.roles entry.permissions]
    else [jwtMiddleware entry s.jwtCfg]
  else if driver = "manual" then
    [jwtMiddleware entry s.jwtCfg,
      manualAuthMiddleware entry entry.roles entry.permissions s.authValidator]
  else [jwtMiddleware entry s.jwtCfg]

def hasJWT (entry : EntryDef) (driver : String) : Bool :=
  hasAuth entry "jwt" && driver ≠ "none" && driver ≠ ""

def appendCredentialMiddlewares (s : Service) (extra : EntryAuthExtra) (entry : EntryDef)
    (driver : String) : List (Option Handler) :=
  (if hasAuth entry "apikey" then
    some (apiKeyMiddleware entry s.apiKeyValidator s.fgaClient)::
      (apiKeyRoleMiddleware entry s.authValidator).map some else []) ++
  (if hasAuth entry "basic" then [basicMiddleware entry extra.basicValidator] else []) ++
  (if hasAuth entry "oauth" && extra.oauth.isSome then [oauthMiddleware entry extra.oauth] else []) ++
  (if hasAuth entry "session" && extra.session.isSome then
    [sessionMiddleware entry extra.session] else []) ++
  (if hasAuth entry "session" && driver = "ory" && s.oryClient.isSome then
    [kratosSessionMiddleware entry s.oryClient] else []) ++
  (if hasJWT entry driver then
    appendJWTMiddleware s entry driver ++ (if entry.requiresMFA then [some mfaRequired] else [])
    else [])

def appendNonJWTRoles (s : Service) (entry : EntryDef) (driver : String) :
    List (Option Handler) :=
  if hasJWT entry driver || !hasIdentityAuth entry then []
  else if driver = "openfga-zitadel" then
    unlessNil (openfgaMiddleware entry s.fgaClient entry.roles entry.permissions)
  else if driver = "ory" then
    unlessNil (oryMiddleware entry s.oryClient entry.roles entry.permissions)
  else unlessNil (manualAuthMiddleware entry entry.roles entry.permissions s.authValidator)

def postLimits (s : Service) (entry : EntryDef) : RateLimitPostConfig where
  serverPerUser := s.serverPerUser
  serverPerKey := s.serverPerKey
  entryPerUser := entry.rateLimitPerUser
  entryPerKey := entry.rateLimitPerKey
  perRoleLimits := entry.perRoleLimits.filterMap fun l => l.2.map fun e => (l.1,e)
  maxFunc := s.maxFunc
  allow := s.allow

def buildPostAuthRL (s : Service) (entry : EntryDef) : Option Handler :=
  let cfg := postLimits s entry
  if cfg.serverPerUser.isNone && cfg.serverPerKey.isNone && cfg.entryPerUser.isNone &&
      cfg.entryPerKey.isNone && cfg.perRoleLimits.isEmpty then none
  else some (rateLimitPost cfg)

def registerAuthMiddleware (s : Service) (extra : EntryAuthExtra) (entry : EntryDef)
    (driver : String) : List (Option Handler) :=
  (if needsAuthRouter entry (hasJWT entry driver) (hasAuth entry "oauth")
      (hasAuth entry "apikey") (hasAuth entry "basic") s.jwtCfg then
    [some (authRouter entry)] else []) ++
  appendCredentialMiddlewares s extra entry driver ++
  appendNonJWTRoles s entry driver ++
  (if hasAuth entry "apikey" || hasJWT entry driver || hasAuth entry "basic" ||
      hasAuth entry "oauth" || hasAuth entry "session" then
    unlessNil (buildPostAuthRL s entry) else [])

def slot (mw : Option Handler) : Handler :=
  mw.getD fun c => respond c 500 "nil handler"

lemma slot_next {mw : Option Handler} {c d : Ctx} (h : slot mw c = .next d) :
    ∃ f, mw = some f ∧ f c = .next d := by
  cases mw with
  | none => simp [slot] at h
  | some f => exact ⟨f,rfl,h⟩

/-- The chain started on `req` arrives at the entry handler in context `d`. -/
def ReachesEntry (mws : List (Option Handler)) (req : Request) (d : Ctx) : Prop :=
  HandlerChain.Reaches (mws.map slot) { req := req } d

end SdkApi.AuthChain
