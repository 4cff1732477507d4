import SdkApi.RefreshedTokens

/-!
# What the JWT middleware accepts

An accepted token is signed with the configured algorithm under one of the two
secrets, whatever its header says. Whether it was revoked is decided on the
value that carried it, which is not the token itself when the value has the
`Bearer` scheme.
-/

namespace SdkApi.TokenAcceptance
open GoStrings RequestContext CredentialMiddleware SignedTokens TokenSigning TokenRefresh
open RefreshedTokens

section

def effective (lookup : String) : String :=
  if lookup = "" then "header:Authorization" else lookup

def carried (r : Request) (lookup : String) : String :=
  match cut lookup ':' with
  | (_,_,false) => ""
  | (source,key,true) =>
    if source = "header" then r.get key
    else if source = "cookie" then r.cookie key
    else if source = "query" then r.query key
    else ""

/-- The request has the token at the lookup, without the scheme. -/
def Bare (r : Request) (lookup token : String) : Prop :=
  carried r (effective lookup) = token

def WithScheme (r : Request) (lookup token : String) : Prop :=
  carried r (effective lookup) = "Bearer "++token

def Presents (r : Request) (lookup token : String) : Prop :=
  Bare r lookup token ∨ WithScheme r lookup token

def readToken (r : Request) (lookup : String) : String :=
  (cutPrefix (carried r (effective lookup)) "Bearer ").1

def Verifies (cfg : JWTConfig) (token : String) : Prop :=
  token ≠ "" ∧ ∃ claims, cfg.parse token = .ok claims ∧ validateClaims claims cfg = .ok ()

/-- A configuration that reads tokens at `lookup` and asks `f` about them. -/
def revoking (cfg : JWTConfig) (lookup : String) (f : String → Bool) : JWTConfig :=
  { cfg with tokenLookup := lookup, tokenBlacklist := some f }

/-- The answer of the blacklist on `s` decides about the request. -/
def Consults (cfg : JWTConfig) (lookup : String) (c : Ctx) (s : String) : Prop :=
  ∀ f, (∃ d, jwt (revoking cfg lookup f) c = .next d) ↔ f s = false

/-- A token that is revoked by its string is not accepted. -/
def Revocable (cfg : JWTConfig) (lookup token : String) (c : Ctx) : Prop :=
  ∀ f, f token = true → ∀ d, jwt (revoking cfg lookup f) c ≠ .next d

lemma extractToken_eq (r : Request) (lookup : String) :
    extractToken r lookup = ((cutPrefix (carried r lookup) "Bearer ").1,carried r lookup) := by
  rcases hu : cut lookup ':' with ⟨source,key,ok⟩
  cases ok with
  | false =>
    simp only [extractToken, carried, hu]
    rfl
  | true =>
    simp only [extractToken, carried, hu]
    split_ifs <;> rfl

variable (cfg : JWTConfig) (lookup : String) (c : Ctx)

lemma revoking_next_iff (f : String → Bool) :
    (∃ d, jwt (revoking cfg lookup f) c = .next d) ↔
      Verifies cfg (readToken c.req lookup) ∧
        f (carried c.req (effective lookup)) = false := by
  have hn := fun d => jwt_next_iff (revoking cfg lookup f) c d
    (extractToken_eq c.req (effective lookup))
  constructor
  · rintro ⟨d,hd⟩
    obtain ⟨he,claims,ha,hl,hf,-⟩ := (hn d).mp hd
    exact ⟨⟨he,claims,ha,hl⟩,hf⟩
  · rintro ⟨⟨he,claims,ha,hl⟩,hf⟩
    exact ⟨_,(hn _).mpr ⟨he,claims,ha,hl,hf,rfl⟩⟩

lemma consults_iff {s : String} :
    Consults cfg lookup c s ↔
      Verifies cfg (readToken c.req lookup) ∧
        s = carried c.req (effective lookup) := by
  simp only [Consults, revoking_next_iff]
  constructor
  · intro h
    have he := ((h fun _ => false).mpr rfl).1
    refine ⟨he,?_⟩
    -- a blacklist of this one string answers differently on every other
    by_contra hn
    have hs := (h fun x => x == s).mp ⟨he,by simpa using Ne.symm hn⟩
    simp at hs
  · rintro ⟨he,rfl⟩ f
    exact and_iff_right he

lemma consulted_iff (token : String) :
    (∀ s, Consults cfg lookup c s → s = token) ↔
      (Verifies cfg (readToken c.req lookup) → Bare c.req lookup token) := by
  simp only [consults_iff]
  constructor
  · intro h he
    exact h _ ⟨he,rfl⟩
  · rintro h s ⟨he,rfl⟩
    exact h he

lemma revocable_iff (token : String) :
    Revocable cfg lookup token c ↔
      (Verifies cfg (readToken c.req lookup) → Bare c.req lookup token) := by
  constructor
  · intro h he
    by_contra hn
    have ho : carried c.req (effective lookup) ≠ token := hn
    obtain ⟨d,hd⟩ := (revoking_next_iff cfg lookup c fun x => x == token).mpr ⟨he,by simpa using ho⟩
    exact h _ (by simp) d hd
  · intro h f hf d hd
    obtain ⟨he,ha⟩ := (revoking_next_iff cfg lookup c f).mp ⟨d,hd⟩
    have hb : carried c.req (effective lookup) = token := h he
    rw [hb, hf] at ha
    cases ha

lemma bearer_append_ne (s : String) : "Bearer "++s ≠ s := by
  intro h
  have hl := congrArg (fun t => t.toList.length) h
  simp only [String.toList_append, List.length_append] at hl
  have he : ("Bearer ".toList).length = 7 := by decide
  omega

lemma bare_iff {token : String} (h : Presents c.req lookup token) :
    (Verifies cfg (readToken c.req lookup) → Bare c.req lookup token) ↔
      (Verifies cfg token → ¬WithScheme c.req lookup token) := by
  rcases h with ha | he
  · have hn : ¬WithScheme c.req lookup token := by
      intro he
      exact bearer_append_ne token (he.symm.trans ha)
    exact ⟨fun _ _ => hn,fun _ _ => ha⟩
  · have hre : readToken c.req lookup = token := by
      unfold readToken
      rw [show carried c.req (effective lookup) = "Bearer "++token from he, cutPrefix_append]
    have hn : ¬Bare c.req lookup token := by
      intro ha
      exact bearer_append_ne token (he.symm.trans ha)
    rw [hre]
    exact ⟨fun hb hv => absurd (hb hv) hn,fun hb hv => absurd he (hb hv)⟩

/-- Two requests with the same token ask the blacklist about the token, and are
refused once it is revoked, exactly when neither has it with the scheme. A
token that does not verify is not asked about. -/
theorem revocation_by_token_iff (cfg : JWTConfig) (token lookup₁ lookup₂ : String) (c₁ c₂ : Ctx)
    (h₁ : Presents c₁.req lookup₁ token) (h₂ : Presents c₂.req lookup₂ token) :
    ((∀ s, Consults cfg lookup₁ c₁ s → s = token) ∧ (∀ s, Consults cfg lookup₂ c₂ s → s = token) ∧
        Revocable cfg lookup₁ token c₁ ∧ Revocable cfg lookup₂ token c₂) ↔
      (Verifies cfg token →
        ¬WithScheme c₁.req lookup₁ token ∧ ¬WithScheme c₂.req lookup₂ token) := by
  rw [consulted_iff, consulted_iff, revocable_iff, revocable_iff, bare_iff cfg lookup₁ c₁ h₁,
    bare_iff cfg lookup₂ c₂ h₂]
  constructor
  · rintro ⟨hi,ho,-,-⟩ he
    exact ⟨hi he,ho he⟩
  · intro h
    exact ⟨fun hv => (h hv).1,fun hv => (h hv).2,fun hv => (h hv).1,fun hv => (h hv).2⟩

def oneToken : JWTConfig where
  currentParser := fun t => if t = "tok" then .ok [] else .error "token is malformed"

def withoutHeader (value : String) : Ctx where
  req := ⟨fun _ => "",[("token",value)],fun _ => value⟩

theorem cookie_and_query_revoked :
    Revocable oneToken "cookie:token" "tok" (withoutHeader "tok") ∧
      Revocable oneToken "query:token" "tok" (withoutHeader "tok") := by
  have hn : "tok" ≠ "Bearer tok" := by decide
  exact ((revocation_by_token_iff oneToken "tok" "cookie:token" "query:token" (withoutHeader "tok")
    (withoutHeader "tok") (.inl rfl) (.inl rfl)).mpr fun _ => ⟨hn,hn⟩).2.2

/-- A token that is revoked by its string is refused in a cookie and accepted
in the header. -/
theorem bearer_token_not_revoked :
    Presents (withoutHeader "tok").req "cookie:token" "tok" ∧
      Presents (withToken "tok").req "" "tok" ∧
      Consults oneToken "cookie:token" (withoutHeader "tok") "tok" ∧
      Consults oneToken "" (withToken "tok") "Bearer tok" ∧
      (∀ d, jwt (revoking oneToken "cookie:token" (· == "tok")) (withoutHeader "tok") ≠ .next d) ∧
      ∃ d, jwt (revoking oneToken "" (· == "tok")) (withToken "tok") = .next d := by
  have he : Verifies oneToken "tok" := ⟨by decide,[],rfl,rfl⟩
  have ho : carried (withoutHeader "tok").req (effective "cookie:token") = "tok" := rfl
  have ha : carried (withToken "tok").req (effective "") = "Bearer tok" := rfl
  refine ⟨.inl ho,.inr ha,?_,?_,?_,?_⟩
  · exact (consults_iff _ _ _).mpr ⟨he,ho.symm⟩
  · exact (consults_iff _ _ _).mpr ⟨he,ha.symm⟩
  · exact (revocable_iff oneToken _ _ "tok").mpr (fun _ => ho) _ (by decide)
  · exact (revoking_next_iff _ _ _ _).mpr ⟨he,by rw [ha]; decide⟩

variable {A B : Type} (lib : Library A B) (auth : AuthConfig)

/-- The signature verifies with the key of the configured algorithm. -/
def SignedUnder (secret token : String) (method : Method) : Prop :=
  ∃ v ∈ verifyKey lib.x509 (middlewareAlgorithm auth) secret,
    lib.scheme.verify method v token = true

/-- The date of `GetExpirationTime`; zero is none. -/
def expirationTime (claims : MapClaims) : Option ℤ :=
  match claims.lookup "exp" with
  | some (.num t) => if t = 0 then none else some t
  | _ => none

def reading (revoked : Option (String → Bool)) (lookup : String) (now : ℤ) : JWTConfig :=
  { buildJWTCfg lib auth revoked now with tokenLookup := lookup }

lemma reading_parse (revoked : Option (String → Bool)) (lookup : String) (now : ℤ) (t : String) :
    (reading lib auth revoked lookup now).parse t = (buildJWTCfg lib auth revoked now).parse t :=
  rfl

structure Pinned (now : ℤ) (token : String) (hd : Header Method) (claims : MapClaims) : Prop where
  inspected : lib.scheme.inspect token = some (hd,claims)
  algorithm : hd.method.alg = middlewareAlgorithm auth
  signature : SignedUnder lib auth auth.secret token hd.method ∨
    (auth.prevSecret ≠ "" ∧ SignedUnder lib auth auth.prevSecret token hd.method)
  issuer : auth.issuer ≠ "" → getIssuer claims = some auth.issuer
  audience : auth.audience ≠ "" → ∃ aud, getAudience claims = some aud ∧ auth.audience ∈ aud
  fresh : ∀ t, expirationTime claims = some t → now < t

variable {claims : MapClaims} {m : Method} {now : ℤ}

lemma timely_fresh (h : timely now claims) (t : ℤ)
    (ht : expirationTime claims = some t) : now < t := by
  unfold expirationTime at ht
  unfold timely at h
  split at ht
  · rename_i t' he
    split_ifs at ht with hz
    cases ht
    simp only [he, hz, decide_false, Bool.false_or, Bool.and_eq_true, decide_eq_true_eq] at h
    exact h.1
  · cases ht

lemma validateClaims_ok {cfg : JWTConfig} (h : validateClaims claims cfg = .ok ()) :
    (cfg.issuer ≠ "" → getIssuer claims = some cfg.issuer) ∧
      (cfg.audience ≠ "" → ∃ aud, getAudience claims = some aud ∧ cfg.audience ∈ aud) := by
  unfold validateClaims at h
  split_ifs at h with hu ha
  constructor
  · intro hn
    by_contra ho
    exact hu ⟨hn,ho⟩
  · intro hn
    have hi : audienceListed claims cfg.audience ≠ false := fun hl => ha ⟨hn,hl⟩
    unfold audienceListed at hi
    cases hau : getAudience claims with
    | none => simp [hau] at hi
    | some aud => exact ⟨aud,rfl,by simpa [hau] using hi⟩

lemma newParser_static {secret token : String}
    (h : newParser lib now "" (middlewareAlgorithm auth) secret token = .ok claims) :
    ∃ hd : Header Method, lib.scheme.inspect token = some (hd,claims) ∧ hd.method.Static ∧
      hd.method.alg = middlewareAlgorithm auth ∧ SignedUnder lib auth secret token hd.method ∧
      timely now claims := by
  rw [newParser_ok_iff, if_neg (by simp)] at h
  simp only [Scheme.parse, Option.bind_eq_bind, Option.bind_eq_some_iff] at h
  obtain ⟨⟨hd,p⟩,hi,v,hv,he⟩ := h
  split_ifs at he with hok
  rw [Bool.and_eq_true] at hok
  cases he
  obtain ⟨ht,ha⟩ := staticKey_some lib hv
  rw [staticKey_eq, if_pos ha] at hv
  exact ⟨hd,hi,ht,ha,⟨v,hv,hok.1⟩,hok.2⟩

lemma static_method_ne_none (h : m.Static) : m ≠ .none := by
  rintro rfl
  exact absurd h (by decide)

lemma public_key_not_hmac (h : hasPrefix m.alg "RS" ∨ hasPrefix m.alg "ES") : m.family ≠ .hmac := by
  revert h
  cases m <;> decide

/-- An accepted token is pinned to the configuration: its method is never
`none`, and never an HMAC when the secrets are RSA or ECDSA keys. -/
theorem accepted_token_pinned {A B : Type} (lib : Library A B) (auth : AuthConfig)
    (revoked : Option (String → Bool)) (lookup : String) (now : ℤ) (c d : Ctx)
    (hj : auth.jwksURL = "") (h : jwt (reading lib auth revoked lookup now) c = .next d) :
    ∃ hd claims, Pinned lib auth now (readToken c.req lookup) hd claims ∧ hd.method ≠ .none ∧
      (hasPrefix (middlewareAlgorithm auth) "RS" = true ∨
        hasPrefix (middlewareAlgorithm auth) "ES" = true → hd.method.family ≠ .hmac) := by
  obtain ⟨-,claims,he,hl,-,-⟩ := (jwt_next_iff (reading lib auth revoked lookup now) c d
    (extractToken_eq c.req (effective lookup))).mp h
  obtain ⟨hu,ha⟩ := validateClaims_ok hl
  rw [reading_parse, parse_build_iff, hj] at he
  obtain ⟨secret,hpa,ht⟩ : ∃ secret,
      newParser lib now "" (middlewareAlgorithm auth) secret (readToken c.req lookup) = .ok claims ∧
        (secret = auth.secret ∨ (auth.prevSecret ≠ "" ∧ secret = auth.prevSecret)) := by
    rcases he with hcu | ⟨-,hne,hpr⟩
    · exact ⟨auth.secret,hcu,.inl rfl⟩
    · exact ⟨auth.prevSecret,hpr,.inr ⟨hne,rfl⟩⟩
  obtain ⟨hd,hn,hsa,hal,hg,hm⟩ := newParser_static lib auth hpa
  have hi : SignedUnder lib auth auth.secret (readToken c.req lookup) hd.method ∨
      (auth.prevSecret ≠ "" ∧
        SignedUnder lib auth auth.prevSecret (readToken c.req lookup) hd.method) := by
    rcases ht with rfl | ⟨hne,rfl⟩
    · exact .inl hg
    · exact .inr ⟨hne,hg⟩
  exact ⟨hd,claims,⟨hn,hal,hi,hu,ha,timely_fresh hm⟩,
    static_method_ne_none hsa,fun hk => public_key_not_hmac (hal ▸ hk)⟩

theorem session_token_pinned :
    ∃ hd claims, Pinned (sharedSecrets "s" "s" midnight (alice [])) (refreshing "s" "") midnight
      "old" hd claims ∧ hd.method ≠ .none := by
  obtain ⟨hd,claims,hi,hn,-⟩ := accepted_token_pinned
    (sharedSecrets "s" "s" midnight (alice [])) (refreshing "s" "") none "" midnight
    (withToken "old") _ rfl rfl
  exact ⟨hd,claims,hi,hn⟩

end

end SdkApi.TokenAcceptance
