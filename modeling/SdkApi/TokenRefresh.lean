import Mathlib.Data.Int.DivMod
import SdkApi.TokenSigning

/-!
# The refresh endpoint

The endpoint accepts what the JWT middleware of the service accepts and signs
a new token with the claims of the identity. The clock counts nanoseconds, and
numeric dates are whole seconds of it.
-/

namespace SdkApi.TokenRefresh
open GoStrings RequestContext CredentialMiddleware TokenSigning

structure RefreshConfig where
  enabled : Bool := false
  ttl : ℤ := 604800
  endpoint : String := "/auth/refresh"
  secret : String := ""

structure AuthCookieConfig where
  accessTokenName : String := "token"
  path : String := "/"
  domain : String := ""
  httpOnly : Bool := true
  secure : Bool := true
  sameSite : String := "Strict"

structure AuthConfig where
  secret : String := ""
  prevSecret : String := ""
  algorithm : String := "HS256"
  jwksURL : String := ""
  issuer : String := ""
  audience : String := ""
  cookie : Option AuthCookieConfig := none
  refresh : Option RefreshConfig := none

structure Cookie where
  name : String
  value : String
  path : String
  domain : String
  maxAge : ℤ
  httpOnly : Bool
  secure : Bool
  sameSite : String
  deriving DecidableEq

inductive RefreshResponse where
  | problem (answer : Answer)
  | refreshed (cookie : Cookie) (accessToken tokenType : String) (expiresIn : ℤ)

/-- `time.Second` in nanoseconds. -/
def second : ℤ := 1000000000

/-- `time.Duration(ttl) * time.Second`, an `int64`. -/
def lifetime (ttl : ℤ) : ℤ := (ttl*second).bmod (2^64)

/-- The instant of `t.Unix()`. -/
def wholeSeconds (t : ℤ) : ℤ := t/second*second

def effectiveTTL (r : RefreshConfig) : ℤ := if r.ttl ≤ 0 then 604800 else r.ttl

def refreshSecret (auth : AuthConfig) (r : RefreshConfig) : String :=
  if r.secret = "" then auth.secret else r.secret

def sliceClaim (key : String) (xs : List String) : MapClaims :=
  if xs = [] then [] else [(key,.list (xs.map some))]

def refreshedClaims (now ttl : ℤ) (authCtx : AuthContext) : MapClaims :=
  [("sub",.str authCtx.userID),("org_id",.str authCtx.orgID)]++
    sliceClaim "roles" authCtx.roles++sliceClaim "permissions" authCtx.permissions++
    [("iat",.num (wholeSeconds now)),("exp",.num (wholeSeconds (now+lifetime ttl)))]

section

variable {A B : Type} (lib : Library A B) (auth : AuthConfig) (revoked : Option (String → Bool))

def middlewareAlgorithm : String := if auth.algorithm = "" then "HS256" else auth.algorithm

def buildJWTCfg (now : ℤ) : JWTConfig where
  issuer := auth.issuer
  audience := auth.audience
  currentParser := newParser lib now auth.jwksURL (middlewareAlgorithm auth) auth.secret
  prevParser :=
    if auth.prevSecret ≠ "" then
      some (newParser lib now auth.jwksURL (middlewareAlgorithm auth) auth.prevSecret)
    else none
  tokenBlacklist := revoked
  now := now

lemma parse_build_iff (now : ℤ) (t : String) (claims : MapClaims) :
    (buildJWTCfg lib auth revoked now).parse t = .ok claims ↔
      newParser lib now auth.jwksURL (middlewareAlgorithm auth) auth.secret t = .ok claims ∨
      ((∃ e, newParser lib now auth.jwksURL (middlewareAlgorithm auth) auth.secret t = .error e) ∧
        auth.prevSecret ≠ "" ∧
        newParser lib now auth.jwksURL (middlewareAlgorithm auth) auth.prevSecret t =
          .ok claims) := by
  rw [parse_ok_iff]
  by_cases hp : auth.prevSecret = ""
  · simp [buildJWTCfg, hp]
  · simp [buildJWTCfg, hp]

def refreshHandler (r : RefreshConfig) (now : ℤ) (c : Ctx) : RefreshResponse :=
  match jwt (buildJWTCfg lib auth revoked now) c with
  | .stop _ answer => .problem answer
  | .next d =>
    match d.auth with
    | none => .problem ⟨401,"authentication required"⟩
    | some authCtx =>
      let ttl := effectiveTTL r
      match signToken lib (refreshSecret auth r) auth.algorithm
          (refreshedClaims now ttl authCtx) with
      | none => .problem ⟨500,"token signing failed"⟩
      | some signed =>
        let cookieCfg := auth.cookie.getD {}
        .refreshed ⟨cookieCfg.accessTokenName,signed,cookieCfg.path,cookieCfg.domain,ttl,
          cookieCfg.httpOnly,cookieCfg.secure,cookieCfg.sameSite⟩ signed "Bearer" ttl

def registerAuthRefresh (apiPrefix : String) (entryPaths : List String) :
    Option (String × (ℤ → Ctx → RefreshResponse)) := do
  let r ← auth.refresh
  if r.enabled = false ∨ refreshSecret auth r = "" then none
  else
    let path := if r.endpoint = "" then "/auth/refresh" else r.endpoint
    let path := if apiPrefix ≠ "" ∧ hasPrefix path apiPrefix = false then apiPrefix++path else path
    if entryPaths.contains path then none
    else some (path,refreshHandler lib auth revoked r)

end

end SdkApi.TokenRefresh
