import SdkApi.RequestContext

/-!
# Credential middlewares

One handler for each way to present a credential. Validators, token parsers
and remote clients are parameters: nothing is assumed about what they accept.
Each handler either answers or records the acceptance and injects the
identity that its validator has returned.
-/

namespace SdkApi.CredentialMiddleware
open GoStrings RequestContext

structure CheckRequest where
  user : String
  relation : String
  object : String

abbrev Checker := CheckRequest → Except String Bool
abbrev ApiKeyValidator := String → Except String (Option AuthContext)
abbrev BasicValidator := String → String → Except String (Option AuthContext)

structure APIKeyConfig where
  keyPrefix : String
  client : Option Checker
  relation : String
  object : String
  header : String := ""
  authResolver : Option ApiKeyValidator

def alphanumeric (c : Char) : Bool :=
  ('a' ≤ c && c ≤ 'z') || ('A' ≤ c && c ≤ 'Z') || ('0' ≤ c && c ≤ '9')

def deriveKeyID (key : String) : String :=
  String.ofList ((key.toList.take 12).filter alphanumeric)

def presentedKey (cfg : APIKeyConfig) (raw : String) : Except Answer String :=
  if raw = "" then .error ⟨401,"missing API key"⟩
  else
    let key := trimPrefix raw "Bearer "
    if cfg.keyPrefix ≠ "" ∧ hasPrefix key cfg.keyPrefix = false then
      .error ⟨401,"invalid API key format"⟩
    else .ok key

def apiKey (cfg : APIKeyConfig) : Handler := fun c =>
  match presentedKey cfg (c.req.get (if cfg.header = "" then "Authorization" else cfg.header)) with
  | .error a => respond c a.status a.message
  | .ok key =>
    match cfg.authResolver with
    | some resolve =>
      match resolve key with
      | .error msg => respond c 401 msg
      | .ok none => respond c 403 "API key not authorized"
      | .ok (some auth) => next (c.inject "apikey" auth)
    | none =>
      match cfg.client with
      | some check =>
        match check ⟨"apikey:" ++ deriveKeyID key,
            if cfg.relation = "" then "can_access" else cfg.relation,cfg.object⟩ with
        | .error _ => respond c 500 "authorization check failed"
        | .ok false => respond c 403 "API key not authorized"
        | .ok true => next (c.note (.accepted "apikey" none))
      | none => next c

def parseBasicAuth (raw : String) : Option (String × String) :=
  if hasPrefix raw "Basic " = false then none
  else
    match base64Decode (trimPrefix raw "Basic ") with
    | none => none
    | some decoded =>
      match cut decoded ':' with
      | (user,pass,ok) => if ok = true ∧ user ≠ "" then some (user,pass) else none

def basic (validator : Option BasicValidator) : Handler := fun c =>
  match parseBasicAuth c.req.authorization with
  | none => respond c 401 "missing basic credentials"
  | some (user,pass) =>
    match validator with
    | none => respond c 500 "basic validator not configured"
    | some validate =>
      match validate user pass with
      | .error msg => respond c 401 msg
      | .ok none => respond c 403 "basic credentials not authorized"
      | .ok (some auth) => next (c.inject "basic" auth)

structure Introspection where
  active : Bool
  sub : String
  username : String
  scope : String

/-- `endpoint` posts to the introspection URL; `cached` has not expired. -/
structure OAuthConfig where
  introspectionURL : String
  endpoint : String → Except String Introspection
  cached : String → Option AuthContext

def introspectToken (cfg : OAuthConfig) (token : String) : Except String AuthContext :=
  match cfg.endpoint token with
  | .error msg => .error msg
  | .ok claims =>
    if claims.active = false then .error "token inactive or revoked"
    else
      let user := if claims.sub = "" then claims.username else claims.sub
      if user = "" then .error "introspection response has no subject"
      else .ok { userID := user, rawToken := token, roles := fields claims.scope }

def introspect (cfg : OAuthConfig) : Handler := fun c =>
  match cutPrefix c.req.authorization "Bearer " with
  | (token,ok) =>
    if ok = false ∨ trimSpace token = "" then respond c 401 "missing bearer token"
    else if cfg.introspectionURL = "" then respond c 500 "oauth introspection not configured"
    else
      match cfg.cached token with
      | some auth => next (c.inject "oauth" auth)
      | none =>
        match introspectToken cfg token with
        | .error msg => respond c 401 msg
        | .ok auth => next (c.inject "oauth" auth)

structure SessionData where
  userID : String
  roles : List String

/-- `store` is a read of the shared KV; `unmarshal` decodes its JSON. -/
structure SessionConfig where
  cookie : String
  store : Option (String → Option String)
  unmarshal : String → Option SessionData

def sessionKey (id : String) : String := "sess:" ++ id

def SessionConfig.cookieName (cfg : SessionConfig) : String :=
  if cfg.cookie = "" then "sid" else cfg.cookie

def session (cfg : SessionConfig) : Handler := fun c =>
  match cfg.store with
  | none => respond c 500 "session store not configured"
  | some get =>
    let id := c.req.cookie cfg.cookieName
    if id = "" then respond c 401 "missing session"
    else
      match get (sessionKey id) with
      | none => respond c 401 "invalid or expired session"
      | some raw =>
        match cfg.unmarshal raw with
        | none => respond c 401 "invalid session"
        | some data =>
          if data.userID = "" then respond c 401 "invalid session"
          else next (c.inject "session" { userID := data.userID, roles := data.roles })

/-- At `header:<name>`, `cookie:<name>` or `query:<name>`, and the raw value. -/
def extractToken (r : Request) (lookup : String) : String × String :=
  match cut lookup ':' with
  | (_,_,false) => ("","")
  | (source,key,true) =>
    let strip (value : String) : String × String := ((cutPrefix value "Bearer ").1,value)
    if source = "header" then strip (r.get key)
    else if source = "cookie" then strip (r.cookie key)
    else if source = "query" then strip (r.query key)
    else ("","")

structure KratosSession where
  identityID : String
  orgID : String
  roles : List String

structure KetoCheckRequest where
  ns : String
  object : String
  relation : String
  subjectID : String

structure OryClient where
  validateSession : String → Except String KratosSession
  validateJWT : String → Except String MapClaims
  ketoCheck : KetoCheckRequest → Except String Bool
  roleNamespace : String := "roles"
  roleRelation : String := "assignee"
  permissionRelation : String := "perform"

def kratosSessionCookie (r : Request) : String :=
  if r.cookie "ory_session" ≠ "" then r.cookie "ory_session"
  else ((r.cookies.filter (fun kv => hasPrefix kv.1 "ory_session" && kv.2 ≠ "")).head?.map
    Prod.snd).getD ""

def kratosToken (r : Request) : String :=
  if (extractToken r "header:Authorization").1 ≠ "" then (extractToken r "header:Authorization").1
  else if r.get "X-Session-Token" ≠ "" then r.get "X-Session-Token"
  else kratosSessionCookie r

def kratosSession (client : OryClient) : Handler := fun c =>
  let token := kratosToken c.req
  if token = "" then respond c 401 "missing session"
  else
    match client.validateSession token with
    | .error _ => respond c 401 "invalid or expired session"
    | .ok s => next (c.inject "session"
        { userID := s.identityID, orgID := s.orgID, roles := s.roles, rawToken := token })

abbrev TokenParser := String → Except String MapClaims

/-- The parsers stand for signature verification. -/
structure JWTConfig where
  tokenLookup : String := ""
  issuer : String := ""
  audience : String := ""
  currentParser : TokenParser
  prevParser : Option TokenParser := none
  tokenBlacklist : Option (String → Bool) := none
  now : ℤ := 0

def getIssuer (claims : MapClaims) : Option String :=
  match claims.lookup "iss" with
  | none => some ""
  | some (.str s) => some s
  | some _ => none

def getAudience (claims : MapClaims) : Option (List String) :=
  match claims.lookup "aud" with
  | some (.str s) => some [s]
  | some (.list xs) => if xs.all Option.isSome then some (xs.filterMap id) else none
  | _ => some []

def audienceListed (claims : MapClaims) (audience : String) : Bool :=
  ((getAudience claims).map (fun aud => aud.contains audience)).getD false

def expired (claims : MapClaims) (now : ℤ) : Bool :=
  match claims.lookup "exp" with
  | some (.num t) => t ≠ 0 && t < now
  | _ => false

def validateClaims (claims : MapClaims) (cfg : JWTConfig) : Except String Unit :=
  if cfg.issuer ≠ "" ∧ getIssuer claims ≠ some cfg.issuer then .error "invalid issuer"
  else if cfg.audience ≠ "" ∧ audienceListed claims cfg.audience = false then
    .error "invalid audience"
  else if expired claims cfg.now then .error "token expired"
  else .ok ()

/-- A revoked token is still answered with claims and identity stored. -/
def admitToken (blacklist : Option (String → Bool)) (c : Ctx) (claims : MapClaims)
    (rawToken : String) : Outcome :=
  if (blacklist.map (fun f => f rawToken)).getD false then
    respond { c with claims := some claims, auth := some (buildAuthContext claims rawToken) }
      401 "token revoked"
  else next ({ c with claims := some claims }.inject "jwt" (buildAuthContext claims rawToken))

def JWTConfig.lookup (cfg : JWTConfig) : String :=
  if cfg.tokenLookup = "" then "header:Authorization" else cfg.tokenLookup

/-- The current secret first, then the previous one while it is configured. -/
def JWTConfig.parse (cfg : JWTConfig) (token : String) : Except String MapClaims :=
  match cfg.currentParser token, cfg.prevParser with
  | .error _, some prev => prev token
  | r, _ => r

def jwt (cfg : JWTConfig) : Handler := fun c =>
  match extractToken c.req cfg.lookup with
  | (token,rawToken) =>
    if token = "" then respond c 401 "missing or malformed token"
    else
      match cfg.parse token with
      | .error _ => respond c 401 "invalid or expired token"
      | .ok claims =>
        match validateClaims claims cfg with
        | .error msg => respond c 401 msg
        | .ok () => admitToken cfg.tokenBlacklist c claims rawToken

def jwtRemote (cfg : JWTConfig) (validate : TokenParser) : Handler := fun c =>
  match extractToken c.req cfg.tokenLookup with
  | (token,rawToken) =>
    if token = "" then respond c 401 "missing or malformed token"
    else
      match validate token with
      | .error msg => respond c 401 ("invalid token: " ++ msg)
      | .ok claims => admitToken cfg.tokenBlacklist c claims rawToken

structure ZitadelClient where
  validateToken : TokenParser

def jwtWithZitadel (cfg : JWTConfig) (client : ZitadelClient) : Handler :=
  jwtRemote cfg client.validateToken

def jwtWithOry (cfg : JWTConfig) (client : OryClient) : Handler :=
  jwtRemote cfg client.validateJWT

def mfaRequired : Handler := fun c =>
  match c.claims with
  | none => respond c 401 "authentication required"
  | some claims =>
    if claims.lookup "mfa" = some (.flag true) then next c
    else respond c 401 "MFA verification required"

lemma apiKey_next {cfg : APIKeyConfig} {c d : Ctx} (h : apiKey cfg c = .next d) :
    (cfg.authResolver.isSome ∧ Admitted "apikey" c d) ∨
      (cfg.authResolver = none ∧ cfg.client.isSome ∧ d = c.note (.accepted "apikey" none)) ∨
      (cfg.authResolver = none ∧ cfg.client = none ∧ d = c) := by
  rw [apiKey] at h
  split at h
  · simp at h
  · cases hr : cfg.authResolver with
    | some resolve =>
      simp only [hr] at h
      split at h <;> simp at h
      subst h
      exact .inl ⟨rfl,admitted_inject c⟩
    | none =>
      cases hc : cfg.client with
      | some check =>
        simp only [hr, hc] at h
        split at h <;> simp at h
        exact .inr (.inl ⟨rfl,rfl,h.symm⟩)
      | none =>
        simp only [hr, hc, next_eq] at h
        exact .inr (.inr ⟨rfl,rfl,h.symm⟩)

lemma basic_next (validator : Option BasicValidator) (c d : Ctx)
    (h : basic validator c = .next d) : Admitted "basic" c d := by
  rw [basic] at h
  split at h
  · simp at h
  · split at h
    · simp at h
    · split at h <;> simp at h
      subst h
      exact admitted_inject c

lemma introspect_next (cfg : OAuthConfig) (c d : Ctx)
    (h : introspect cfg c = .next d) : Admitted "oauth" c d := by
  simp only [introspect] at h
  split_ifs at h
  · simp at h
  · simp at h
  · split at h
    · rw [next_eq] at h
      exact h ▸ admitted_inject c
    · split at h <;> simp at h
      exact h ▸ admitted_inject c

lemma session_next (cfg : SessionConfig) (c d : Ctx)
    (h : session cfg c = .next d) : Admitted "session" c d := by
  simp only [session] at h
  split at h
  · simp at h
  · split_ifs at h
    · simp at h
    · split at h
      · simp at h
      · split at h
        · simp at h
        · split_ifs at h
          · simp at h
          · rw [next_eq] at h
            exact h ▸ admitted_inject c

lemma kratosSession_next (client : OryClient) (c d : Ctx)
    (h : kratosSession client c = .next d) : Admitted "session" c d := by
  simp only [kratosSession] at h
  split_ifs at h
  · simp at h
  · split at h <;> simp at h
    exact h ▸ admitted_inject c

lemma admitToken_next {blacklist : Option (String → Bool)} {c d : Ctx} {claims : MapClaims}
    {rawToken : String} (h : admitToken blacklist c claims rawToken = .next d) :
    Admitted "jwt" c d := by
  rw [admitToken] at h
  split_ifs at h
  · simp at h
  · rw [next_eq] at h
    subst h
    exact ⟨_,rfl,rfl,rfl,rfl,fun hm => absurd rfl hm⟩

variable (cfg : JWTConfig)

lemma parse_ok_iff (t : String) (claims : MapClaims) :
    cfg.parse t = .ok claims ↔ cfg.currentParser t = .ok claims ∨
      ((∃ e, cfg.currentParser t = .error e) ∧ ∃ prev ∈ cfg.prevParser, prev t = .ok claims) := by
  unfold JWTConfig.parse
  cases hu : cfg.currentParser t with
  | error e =>
    cases he : cfg.prevParser with
    | none => simp
    | some prev => simp
  | ok q => simp

lemma jwt_next_iff (c d : Ctx) {token rawToken : String}
    (ht : extractToken c.req cfg.lookup = (token,rawToken)) :
    jwt cfg c = .next d ↔ token ≠ "" ∧ ∃ claims, cfg.parse token = .ok claims ∧
      validateClaims claims cfg = .ok () ∧
      (cfg.tokenBlacklist.map fun f => f rawToken).getD false = false ∧
      d = { c with claims := some claims }.inject "jwt" (buildAuthContext claims rawToken) := by
  simp only [jwt, ht]
  by_cases he : token = ""
  · simp [he]
  · simp only [if_neg he]
    cases hp : cfg.parse token with
    | error e => simp
    | ok claims =>
      cases hv : validateClaims claims cfg with
      | error e => simp [hv]
      | ok u =>
        by_cases hb : (cfg.tokenBlacklist.map fun f => f rawToken).getD false
        · simp [hv, admitToken, hb]
        · simpa [hv, admitToken, hb, he] using eq_comm

lemma jwt_next (c d : Ctx) (h : jwt cfg c = .next d) : Admitted "jwt" c d := by
  obtain ⟨-,claims,-,-,-,rfl⟩ := (jwt_next_iff cfg c d rfl).mp h
  exact ⟨_,rfl,rfl,rfl,rfl,fun hm => absurd rfl hm⟩

lemma jwtRemote_next {validate : TokenParser} (c d : Ctx)
    (h : jwtRemote cfg validate c = .next d) : Admitted "jwt" c d := by
  simp only [jwtRemote] at h
  split_ifs at h
  · simp at h
  · split at h
    · simp at h
    · exact admitToken_next h

lemma mfaRequired_next {c d : Ctx} (h : mfaRequired c = .next d) : d = c := by
  rw [mfaRequired] at h
  split at h
  · simp at h
  · split_ifs at h
    · exact ((next_eq c d).mp h).symm
    · simp at h

end SdkApi.CredentialMiddleware
