import SdkApi.TokenRefresh
import SdkApi.AssocLists

/-!
# What a refreshed token is good for

A token from the refresh endpoint names neither issuer nor audience, has no
`kid` and no `mfa` claim, and is signed with the refresh secret. The JWT
middleware of the same configuration accepts it exactly when nothing of this
matters.
-/

namespace SdkApi.RefreshedTokens
open GoStrings RequestContext CredentialMiddleware TokenSigning TokenRefresh AssocLists List Option

def SameClaims (claims claims' : MapClaims) : Prop :=
  ∀ key ∈ ["sub","org_id","roles","permissions","mfa"], claims'.lookup key = claims.lookup key

def Strings (claims : MapClaims) (key : String) : Prop :=
  claims.lookup key = none ∨ ∃ x xs, claims.lookup key = some (.list ((x::xs).map some))

structure Carried (claims : MapClaims) : Prop where
  sub : ∃ s, claims.lookup "sub" = some (.str s)
  orgID : ∃ s, claims.lookup "org_id" = some (.str s)
  roles : Strings claims "roles"
  permissions : Strings claims "permissions"
  mfa : claims.lookup "mfa" = none

def Lasting (now ttl : ℤ) : Prop :=
  second ≤ lifetime ttl+now%second ∨ (0 ≤ now+lifetime ttl ∧ now+lifetime ttl < second)

section

lemma lookup_sliceClaim (key k : String) (xs : List String) :
    (sliceClaim key xs).lookup k =
      if k = key ∧ xs ≠ [] then some (.list (xs.map some)) else none := by
  by_cases hx : xs = []
  · simp [sliceClaim, hx]
  · simp [sliceClaim, hx, lookup_single]

variable (now ttl : ℤ) (authCtx : AuthContext)

lemma lookup_refreshed (k : String) :
    (refreshedClaims now ttl authCtx).lookup k =
      if k = "sub" then some (.str authCtx.userID)
      else if k = "org_id" then some (.str authCtx.orgID)
      else if k = "roles" ∧ authCtx.roles ≠ [] then some (.list (authCtx.roles.map some))
      else if k = "permissions" ∧ authCtx.permissions ≠ [] then
        some (.list (authCtx.permissions.map some))
      else if k = "iat" then some (.num (wholeSeconds now))
      else if k = "exp" then some (.num (wholeSeconds (now+lifetime ttl)))
      else none := by
  have ha : ∀ (a b : String × Claim), [a,b] = [a]++[b] := fun _ _ => rfl
  simp only [refreshedClaims, ha, lookup_append, lookup_sliceClaim, lookup_single]
  split_ifs <;> rfl

lemma lookup_roles : (refreshedClaims now ttl authCtx).lookup "roles" =
    if authCtx.roles ≠ [] then some (.list (authCtx.roles.map some)) else none := by
  simp [lookup_refreshed]

lemma lookup_permissions : (refreshedClaims now ttl authCtx).lookup "permissions" =
    if authCtx.permissions ≠ [] then some (.list (authCtx.permissions.map some)) else none := by
  simp [lookup_refreshed]

lemma stringList_of_lookup {claims : MapClaims} {key : String} {xs : List String}
    (h : claims.lookup key = if xs ≠ [] then some (.list (xs.map some)) else none) :
    stringList claims key = xs := by
  unfold stringList
  rw [h]
  by_cases hx : xs = []
  · simp [hx]
  · simp [hx]

lemma buildAuthContext_refreshed (raw : String) :
    let auth := buildAuthContext (refreshedClaims now ttl authCtx) raw
    auth.userID = authCtx.userID ∧ auth.orgID = authCtx.orgID ∧ auth.roles = authCtx.roles ∧
      auth.permissions = authCtx.permissions := by
  refine ⟨?_,?_,stringList_of_lookup (lookup_roles now ttl authCtx),
    stringList_of_lookup (lookup_permissions now ttl authCtx)⟩
  · simp [buildAuthContext, stringOr, lookup_refreshed]
  · simp [buildAuthContext, stringOr, lookup_refreshed]

variable (claims : MapClaims)

lemma string_kept_iff (key : String) :
    some (.str (stringOr claims key)) = claims.lookup key ↔
      ∃ s, claims.lookup key = some (.str s) := by
  constructor
  · intro h
    exact ⟨_,h.symm⟩
  · rintro ⟨s,hs⟩
    simp [stringOr, hs]

lemma strings_kept_iff (key : String) :
    (if stringList claims key ≠ [] then some (.list ((stringList claims key).map some)) else none) =
      claims.lookup key ↔ Strings claims key := by
  constructor
  · intro h
    split_ifs at h with he
    · obtain ⟨x,xs,hx⟩ := exists_cons_of_ne_nil he
      exact .inr ⟨x,xs,by rw [← hx, ← h]⟩
    · exact .inl h.symm
  · rintro (hn | ⟨x,xs,hx⟩)
    · simp [stringList, hn]
    · simp [stringList, hx]

lemma sameClaims_iff (raw : String) :
    SameClaims claims (refreshedClaims now ttl (buildAuthContext claims raw)) ↔ Carried claims := by
  have hu : (refreshedClaims now ttl (buildAuthContext claims raw)).lookup "sub" =
      some (.str (stringOr claims "sub")) := by simp [lookup_refreshed, buildAuthContext]
  have hg : (refreshedClaims now ttl (buildAuthContext claims raw)).lookup "org_id" =
      some (.str (stringOr claims "org_id")) := by simp [lookup_refreshed, buildAuthContext]
  have ho := lookup_roles now ttl (buildAuthContext claims raw)
  have he := lookup_permissions now ttl (buildAuthContext claims raw)
  have hm : (refreshedClaims now ttl (buildAuthContext claims raw)).lookup "mfa" = none := by
    simp [lookup_refreshed]
  simp only [SameClaims, forall_mem_cons, hu, hg, ho, he, hm]
  constructor
  · rintro ⟨h1,h2,h3,h4,h5,-⟩
    exact ⟨(string_kept_iff claims "sub").mp h1,(string_kept_iff claims "org_id").mp h2,
      (strings_kept_iff claims "roles").mp h3,(strings_kept_iff claims "permissions").mp h4,h5.symm⟩
  · intro h
    exact ⟨(string_kept_iff claims "sub").mpr h.sub,(string_kept_iff claims "org_id").mpr h.orgID,
      (strings_kept_iff claims "roles").mpr h.roles,
      (strings_kept_iff claims "permissions").mpr h.permissions,h.mfa.symm,by simp⟩

lemma lasting_iff : Lasting now ttl ↔
    wholeSeconds (now+lifetime ttl) = 0 ∨ now < wholeSeconds (now+lifetime ttl) := by
  simp only [Lasting, wholeSeconds, second]
  omega

lemma timely_refreshed : timely now (refreshedClaims now ttl authCtx) ↔ Lasting now ttl := by
  simp [timely, lookup_refreshed, lasting_iff]

lemma validateClaims_refreshed {cfg : JWTConfig} (hn : cfg.now = now) (h : Lasting now ttl) :
    validateClaims (refreshedClaims now ttl authCtx) cfg = .ok () ↔
      cfg.issuer = "" ∧ cfg.audience = "" := by
  have his : getIssuer (refreshedClaims now ttl authCtx) = some "" := by
    simp [getIssuer, lookup_refreshed]
  have hu : audienceListed (refreshedClaims now ttl authCtx) cfg.audience = false := by
    simp [audienceListed, getAudience, lookup_refreshed]
  have hx : (refreshedClaims now ttl authCtx).lookup "exp" =
      some (.num (wholeSeconds (now+lifetime ttl))) := by simp [lookup_refreshed]
  have he : expired (refreshedClaims now ttl authCtx) cfg.now = false := by
    rw [lasting_iff] at h
    simp only [expired, hx, hn, Bool.and_eq_false_imp, decide_eq_true_eq, decide_eq_false_iff_not]
    omega
  simp only [validateClaims, his, hu, he]
  by_cases hi : cfg.issuer = ""
  · by_cases ha : cfg.audience = ""
    · simp [hi, ha]
    · simp [hi, ha]
  · have hne : some "" ≠ some cfg.issuer := fun hq => hi (some.inj hq).symm
    rw [if_pos ⟨hi,hne⟩]
    simp [hi]

lemma lasting_of_le (h : 0 < ttl) (hm : ttl ≤ 9223372036) : Lasting now ttl := by
  have hl : lifetime ttl = ttl*second := by
    apply Int.bmod_eq_of_le
    · simp only [second]
      omega
    · simp only [second]
      omega
  left
  rw [hl]
  simp only [second]
  omega

end

lemma extractToken_bearer {req : Request} {t : String} (h : req.authorization = "Bearer "++t) :
    extractToken req "header:Authorization" = (t,"Bearer "++t) := by
  have hu : cut "header:Authorization" ':' = ("header","Authorization",true) := by decide
  have hg : req.get "Authorization" = "Bearer "++t := h
  simp only [extractToken, hu, if_true, hg, cutPrefix_append]

lemma jwt_bearer (cfg : JWTConfig) (hl : cfg.tokenLookup = "") {t : String} (ht : t ≠ "")
    {c : Ctx} (hc : c.req.authorization = "Bearer "++t) (d : Ctx) :
    jwt cfg c = .next d ↔ ∃ claims, cfg.parse t = .ok claims ∧
      validateClaims claims cfg = .ok () ∧
      (cfg.tokenBlacklist.map fun f => f ("Bearer "++t)).getD false = false ∧
      d = { c with claims := some claims }.inject "jwt"
        (buildAuthContext claims ("Bearer "++t)) := by
  have ho : cfg.lookup = "header:Authorization" := if_pos hl
  rw [jwt_next_iff cfg c d (ho ▸ extractToken_bearer hc)]
  exact and_iff_right ht

lemma jwt_session {cfg : JWTConfig} {c d : Ctx} (h : jwt cfg c = .next d) :
    ∃ token claims raw, cfg.parse token = .ok claims ∧ d.claims = some claims ∧
      d.auth = some (buildAuthContext claims raw) := by
  obtain ⟨-,claims,ha,-,-,rfl⟩ := (jwt_next_iff cfg c d rfl).mp h
  exact ⟨_,claims,_,ha,rfl,rfl⟩

section

variable {A B : Type} (lib : Library A B) (auth : AuthConfig) (revoked : Option (String → Bool))
  {entryPaths : List String} {r : RefreshConfig} {now : ℤ}

def VerifiedBy (secret : String) (k : SigningKey A) : Prop :=
  ∃ v ∈ verifyKey lib.x509 (middlewareAlgorithm auth) secret,
    lib.scheme.pairs (signingMethod auth.algorithm) k v

def KeysAgree (r : RefreshConfig) : Prop :=
  auth.jwksURL = "" ∧ ∃ k ∈ signingKey lib.x509 auth.algorithm (refreshSecret auth r),
    VerifiedBy lib auth auth.secret k ∨
      (auth.prevSecret ≠ "" ∧ VerifiedBy lib auth auth.prevSecret k)

/-- The endpoint answers the request with a new token. -/
structure Refreshes (apiPrefix : String) (entryPaths : List String) (r : RefreshConfig) (now : ℤ)
    (c : Ctx) (claims : MapClaims) (token : String) : Prop where
  config : auth.refresh = some r
  answer : ∃ path handler cookie,
    registerAuthRefresh lib auth revoked apiPrefix entryPaths = some (path,handler) ∧
      handler now c = .refreshed cookie token "Bearer" (effectiveTTL r)
  session : ∃ d, jwt (buildJWTCfg lib auth revoked now) c = .next d ∧ d.claims = some claims

def Usable (now : ℤ) (claims : MapClaims) (token : String) : Prop :=
  ∀ c : Ctx, c.req.authorization = "Bearer "++token →
    ∃ d claims', jwt (buildJWTCfg lib auth revoked now) c = .next d ∧ d.claims = some claims' ∧
      SameClaims claims claims'

def Accepts (r : RefreshConfig) (now : ℤ) (token : String) : Prop :=
  KeysAgree lib auth r ∧ auth.issuer = "" ∧ auth.audience = "" ∧ Lasting now (effectiveTTL r) ∧
    (revoked.map fun f => f ("Bearer "++token)).getD false = false

variable {lib auth revoked}

lemma signing_alg {c d : Ctx} (h : jwt (buildJWTCfg lib auth revoked now) c = .next d)
    (hj : auth.jwksURL = "") : (signingMethod auth.algorithm).alg = middlewareAlgorithm auth := by
  obtain ⟨token,claims,-,he,-⟩ := jwt_session h
  have hk : ∃ m : Method, m.Static ∧ m.alg = middlewareAlgorithm auth := by
    rw [parse_build_iff, hj] at he
    rcases he with hu | ⟨-,-,hpr⟩
    · exact newParser_alg lib hu
    · exact newParser_alg lib hpr
  by_cases ha : auth.algorithm = ""
  · rw [middlewareAlgorithm, if_pos ha, ha]
    rfl
  · rw [middlewareAlgorithm, if_neg ha] at hk ⊢
    obtain ⟨m,ht,hm⟩ := hk
    rw [← hm, alg_signingMethod ht]

lemma parse_refreshed (now : ℤ) {k : SigningKey A} {p q : MapClaims} {t : String}
    (h : lib.scheme.sign (signingMethod auth.algorithm) k p = some t) :
    (buildJWTCfg lib auth revoked now).parse t = .ok q ↔
      q = p ∧ timely now p ∧ auth.jwksURL = "" ∧
        (signingMethod auth.algorithm).alg = middlewareAlgorithm auth ∧
        (VerifiedBy lib auth auth.secret k ∨
          (auth.prevSecret ≠ "" ∧ VerifiedBy lib auth auth.prevSecret k)) := by
  have he := fun secret q => @newParser_sign A B lib now auth.jwksURL
    (middlewareAlgorithm auth) secret _ k p q t h
  rw [parse_build_iff]
  constructor
  · rintro (hu | ⟨-,hn,hpr⟩)
    · obtain ⟨hq,ht,hj,ha,hv⟩ := (he _ _).mp hu
      exact ⟨hq,ht,hj,ha,.inl hv⟩
    · obtain ⟨hq,ht,hj,ha,hv⟩ := (he _ _).mp hpr
      exact ⟨hq,ht,hj,ha,.inr ⟨hn,hv⟩⟩
  · rintro ⟨hq,ht,hj,ha,hv | ⟨hn,hv⟩⟩
    · exact .inl ((he _ _).mpr ⟨hq,ht,hj,ha,hv⟩)
    · cases hu : newParser lib now auth.jwksURL (middlewareAlgorithm auth) auth.secret t with
      | ok q' =>
        obtain ⟨hq',-⟩ := (he _ _).mp hu
        exact .inl (by rw [hq', hq])
      | error e => exact .inr ⟨⟨e,rfl⟩,hn,(he _ _).mpr ⟨hq,ht,hj,ha,hv⟩⟩

lemma registerAuthRefresh_handler {apiPrefix path : String}
    {handler : ℤ → Ctx → RefreshResponse} (hr : auth.refresh = some r)
    (h : registerAuthRefresh lib auth revoked apiPrefix entryPaths = some (path,handler)) :
    handler = refreshHandler lib auth revoked r := by
  simp only [registerAuthRefresh, hr, bind_eq_bind, bind_some] at h
  obtain ⟨-,h⟩ := ite_none_left_eq_some.mp h
  obtain ⟨-,h⟩ := ite_none_left_eq_some.mp h
  exact (Prod.mk.inj (some.inj h)).2.symm

lemma refreshes_signed {apiPrefix : String} {c : Ctx} {claims : MapClaims} {token : String}
    (h : Refreshes lib auth revoked apiPrefix entryPaths r now c claims token) :
    ∃ k raw, signingKey lib.x509 auth.algorithm (refreshSecret auth r) = some k ∧
      lib.scheme.sign (signingMethod auth.algorithm) k
        (refreshedClaims now (effectiveTTL r) (buildAuthContext claims raw)) = some token := by
  obtain ⟨hr,⟨path,handler,cookie,ho,ha⟩,d,hj,hl⟩ := h
  obtain rfl := registerAuthRefresh_handler hr ho
  obtain ⟨-,claims',raw,-,hc',hu⟩ := jwt_session hj
  obtain rfl : claims' = claims := some.inj (hc'.symm.trans hl)
  unfold refreshHandler at ha
  rw [hj] at ha
  simp only [hu] at ha
  split at ha
  · cases ha
  · rename_i signed hi
    cases ha
    obtain ⟨k,hk,hg⟩ := bind_eq_some_iff.mp hi
    exact ⟨k,raw,hk,hg⟩

section

variable {apiPrefix : String} {entryPaths : List String} {r : RefreshConfig} {now : ℤ} {c : Ctx}
  {claims : MapClaims} {token : String}
  (h : Refreshes lib auth revoked apiPrefix entryPaths r now c claims token)
include h

lemma accepted_iff :
    ∃ raw, ∀ c' d' : Ctx, c'.req.authorization = "Bearer "++token →
      (jwt (buildJWTCfg lib auth revoked now) c' = .next d' ↔
        Accepts lib auth revoked r now token ∧
        d' = { c' with claims := some (refreshedClaims now (effectiveTTL r)
            (buildAuthContext claims raw)) }.inject "jwt"
          (buildAuthContext (refreshedClaims now (effectiveTTL r) (buildAuthContext claims raw))
            ("Bearer "++token))) := by
  obtain ⟨k,raw,hk,hg⟩ := refreshes_signed h
  obtain ⟨d,hjw,-⟩ := h.session
  refine ⟨raw,fun c' d' hc' => ?_⟩
  rw [jwt_bearer (buildJWTCfg lib auth revoked now) rfl (lib.scheme.sign_ne _ _ _ _ hg) hc']
  constructor
  · rintro ⟨q,he,hva,hi,hd⟩
    obtain ⟨rfl,ht,hj,-,hv⟩ := (parse_refreshed now hg).mp he
    have hl := (timely_refreshed now _ _).mp ht
    obtain ⟨hu,ha⟩ := (validateClaims_refreshed now _ _ rfl hl).mp hva
    exact ⟨⟨⟨hj,k,hk,hv⟩,hu,ha,hl,hi⟩,hd⟩
  · rintro ⟨⟨⟨hj,k',hk',hv⟩,hu,ha,hl,hi⟩,hd⟩
    obtain rfl : k' = k := some.inj (hk'.symm.trans hk)
    exact ⟨_,(parse_refreshed now hg).mpr
      ⟨rfl,(timely_refreshed now _ _).mpr hl,hj,signing_alg hjw hj,hv⟩,
      (validateClaims_refreshed now _ _ rfl hl).mpr ⟨hu,ha⟩, hi,hd⟩

lemma usable_iff :
    Usable lib auth revoked now claims token ↔
      Accepts lib auth revoked r now token ∧ Carried claims := by
  obtain ⟨raw,he⟩ := accepted_iff h
  constructor
  · intro hu
    obtain ⟨d',claims',hj,hl',hm⟩ :=
      hu { c with req := { c.req with header := fun _ => "Bearer "++token } } rfl
    obtain ⟨ha,rfl⟩ := (he _ d' rfl).mp hj
    obtain rfl := some.inj hl'
    exact ⟨ha,(sameClaims_iff now (effectiveTTL r) claims raw).mp hm⟩
  · rintro ⟨ha,hi⟩ c' hc'
    exact ⟨_,_,(he c' _ hc').mpr ⟨ha,rfl⟩,rfl,
      (sameClaims_iff now (effectiveTTL r) claims raw).mpr hi⟩

end

lemma effectiveTTL_pos (r : RefreshConfig) : 0 < effectiveTTL r := by
  unfold effectiveTTL
  split_ifs <;> omega

end

/-- A new token is accepted with the claims of its session exactly when the
keys agree, no issuer or audience is expected, the lifetime is lasting, the
token is not blacklisted and the claims are of the kind that is carried over.
An accepted token always names the same identity. -/
theorem refreshed_usable_iff {A B : Type} (lib : Library A B) (auth : AuthConfig)
    (revoked : Option (String → Bool)) (apiPrefix : String) (entryPaths : List String)
    (r : RefreshConfig) (now : ℤ) (c : Ctx) (claims : MapClaims) (token : String)
    (h : Refreshes lib auth revoked apiPrefix entryPaths r now c claims token) :
    (Usable lib auth revoked now claims token ↔
      Accepts lib auth revoked r now token ∧ Carried claims) ∧
    (effectiveTTL r ≤ 9223372036 → Lasting now (effectiveTTL r)) ∧
    ∀ c' d' : Ctx, c'.req.authorization = "Bearer "++token →
      jwt (buildJWTCfg lib auth revoked now) c' = .next d' →
      ∃ a, d'.auth = some a ∧ a.userID = stringOr claims "sub" ∧
        a.orgID = stringOr claims "org_id" ∧ a.roles = stringList claims "roles" ∧
        a.permissions = stringList claims "permissions" := by
  refine ⟨usable_iff h,lasting_of_le now _ (effectiveTTL_pos r),?_⟩
  intro c' d' hc' hd'
  obtain ⟨raw,ha⟩ := accepted_iff h
  obtain ⟨-,rfl⟩ := (ha c' d' hc').mp hd'
  exact ⟨_,rfl,buildAuthContext_refreshed now (effectiveTTL r) (buildAuthContext claims raw)
    ("Bearer "++token)⟩

def sameSecret : SigningKey Unit → VerifyKey Unit → Bool
  | .secret s, .secret s' => s = s'
  | _, _ => false

def sharedSecrets (secret refreshSecret : String) (now : ℤ) (claims : MapClaims) :
    Library Unit Unit where
  x509 := ⟨fun _ => none,fun _ => none,fun _ => none,fun _ => none,fun _ => none,id,fun _ => .other⟩
  scheme := .ofLedger
    [⟨"old",.hs256,.secret secret,claims⟩,
      ⟨"new",.hs256,.secret refreshSecret,
        refreshedClaims now 604800 (buildAuthContext claims "Bearer old")⟩]
    (fun _ => sameSecret) (by simp [UniqueRows.KeysUnique]) (by simp)
  jwks := fun _ _ => none

def withToken (token : String) : Ctx where
  req := ⟨fun key => if key = "authorization" then "Bearer "++token else "",[],fun _ => ""⟩

def midnight : ℤ := 1767225600*second

def alice (extra : MapClaims) : MapClaims :=
  [("sub",.str "alice"),("org_id",.str "acme"),("roles",.list [some "admin"]),
    ("exp",.num (midnight+900*second))]++extra

def refreshing (secret refreshSecret : String) : AuthConfig where
  secret := secret
  refresh := some { enabled := true, secret := refreshSecret }

theorem default_token_usable :
    Usable (sharedSecrets "s" "s" midnight (alice [])) (refreshing "s" "") none midnight (alice [])
      "new" :=
  (refreshed_usable_iff (sharedSecrets "s" "s" midnight (alice [])) (refreshing "s" "") none "" []
    { enabled := true, secret := "" } midnight (withToken "old") (alice []) "new"
    ⟨rfl,⟨_,_,_,rfl,rfl⟩,⟨_,rfl,rfl⟩⟩).1.mpr
    ⟨⟨⟨rfl,.secret "s",rfl,.inl ⟨.secret "s",rfl,rfl⟩⟩,rfl,rfl,
      lasting_of_le midnight 604800 (by decide) (by decide),rfl⟩,
      ⟨⟨"alice",rfl⟩,⟨"acme",rfl⟩,.inr ⟨"admin",[],rfl⟩,.inl rfl,rfl⟩⟩

/-- With a refresh secret of its own the endpoint answers with a token that the
middleware refuses, and a session with a second factor loses it. -/
theorem refreshed_token_refused :
    (Refreshes (sharedSecrets "s" "t" midnight (alice [])) (refreshing "s" "t") none "" []
        { enabled := true, secret := "t" } midnight (withToken "old") (alice []) "new" ∧
      jwt (buildJWTCfg (sharedSecrets "s" "t" midnight (alice [])) (refreshing "s" "t") none
        midnight) (withToken "new") = respond (withToken "new") 401 "invalid or expired token" ∧
      ¬ Usable (sharedSecrets "s" "t" midnight (alice [])) (refreshing "s" "t") none midnight
        (alice []) "new") ∧
    Refreshes (sharedSecrets "s" "s" midnight (alice [("mfa",.flag true)])) (refreshing "s" "") none
      "" [] { enabled := true, secret := "" } midnight (withToken "old")
      (alice [("mfa",.flag true)]) "new" ∧
    ¬ Usable (sharedSecrets "s" "s" midnight (alice [("mfa",.flag true)])) (refreshing "s" "") none
      midnight (alice [("mfa",.flag true)]) "new" := by
  have he : Refreshes (sharedSecrets "s" "t" midnight (alice [])) (refreshing "s" "t") none ""
      [] { enabled := true, secret := "t" } midnight (withToken "old") (alice []) "new" :=
    ⟨rfl,⟨_,_,_,rfl,rfl⟩,⟨_,rfl,rfl⟩⟩
  have hm : Refreshes (sharedSecrets "s" "s" midnight (alice [("mfa",.flag true)]))
      (refreshing "s" "") none "" [] { enabled := true, secret := "" } midnight (withToken "old")
      (alice [("mfa",.flag true)]) "new" := ⟨rfl,⟨_,_,_,rfl,rfl⟩,⟨_,rfl,rfl⟩⟩
  refine ⟨⟨he,rfl,?_⟩,hm,?_⟩
  · intro hu
    obtain ⟨d,claims',hd,-⟩ := hu (withToken "new") rfl
    cases hd
  · intro hu
    have hn := ((usable_iff hm).mp hu).2.mfa
    cases hn

end SdkApi.RefreshedTokens
