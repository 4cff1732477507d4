import SdkApi.AuthorizationGaps
import SdkApi.HandlerPresence

/-!
# The second factor

`MFARequired` reads the claims that the token validator has left in the context
and stands behind it. It is part of the chain only if the entry takes tokens,
so that `requires_mfa` says nothing about an entry that does not. A request
that the token validator passes on to another mode arrives at the check without
claims.
-/

namespace SdkApi.MfaEnforcement
open GoStrings RequestContext CredentialMiddleware RoleMiddleware AuthChain ChainFrames List Option
open AuthSoundness ChainSegments AuthorizationGate AuthorizationGaps HandlerPresence HandlerChain

def secondFactor (claims : MapClaims) : Prop := claims.lookup "mfa" = some (.flag true)

/-- The claims of the credential say that there was a second factor. -/
def MfaEvidence (d : Ctx) : Prop :=
  ∃ mode auth claims, Event.accepted mode (some auth) ∈ d.trace ∧ auth.claims = some claims ∧
    secondFactor claims

def Deploys (s : Service) (extra : EntryAuthExtra) (entry : EntryDef) (driver : String) : Prop :=
  s.auth.driver = driver ∧ validateEntryAuthConfig s entry driver = .ok () ∧
    buildAuthExtra s = .ok extra

/-- The requests that `jwtSkipWrapper` leaves to another mode. -/
def jwtSkips (entry : EntryDef) (c : Ctx) : Prop :=
  c.authMode ∈ ["apikey","basic","oauth","session"] ∨
    (entry.jwtFrom = "" ∧ c.authMode = "" ∧ hasPrefix c.req.authorization "Bearer " = false)

lemma jwtSkipWrapper_eq (entry : EntryDef) (mw : Handler) (c : Ctx) :
    (jwtSkips entry c → jwtSkipWrapper entry mw c = next c) ∧
      (¬ jwtSkips entry c → jwtSkipWrapper entry mw c = mw c) := by
  unfold jwtSkips jwtSkipWrapper
  constructor
  · rintro (h | h)
    · rw [if_pos h]
    · split_ifs <;> rfl
  · intro h
    rw [not_or] at h
    rw [if_neg h.1, if_neg h.2]

def withToken (c : Ctx) (claims : MapClaims) (raw : String) : Ctx :=
  { c with claims := some claims }.inject "jwt" (buildAuthContext claims raw)

/-- Which token handler admits the request depends on the request alone. -/
def AdmitsToken (f : Handler) : Prop :=
  ∀ c d, f c = .next d → ∃ claims raw, ∀ e : Ctx, e.req = c.req → f e = .next (withToken e claims raw)

lemma admitToken_eq {blacklist : Option (String → Bool)} {c d : Ctx} {claims : MapClaims}
    {raw : String} (h : admitToken blacklist c claims raw = .next d) (e : Ctx) :
    admitToken blacklist e claims raw = .next (withToken e claims raw) := by
  unfold admitToken at h ⊢
  split_ifs at h ⊢
  · simp at h
  · rfl

lemma jwt_admitsToken (cfg : JWTConfig) : AdmitsToken (jwt cfg) := by
  intro c d h
  simp only [jwt] at h
  split_ifs at h with ht
  · simp at h
  · split at h
    · simp at h
    · rename_i claims hp
      split at h
      · simp at h
      · rename_i hv
        refine ⟨claims,(extractToken c.req cfg.lookup).2,fun e he => ?_⟩
        simp only [jwt, he, if_neg ht, hp, hv]
        exact admitToken_eq h e

lemma jwtRemote_admitsToken (cfg : JWTConfig) (validate : TokenParser) :
    AdmitsToken (jwtRemote cfg validate) := by
  intro c d h
  simp only [jwtRemote] at h
  split_ifs at h with ht
  · simp at h
  · split at h
    · simp at h
    · rename_i claims hp
      refine ⟨claims,(extractToken c.req cfg.tokenLookup).2,fun e he => ?_⟩
      simp only [jwtRemote, he, if_neg ht, hp]
      exact admitToken_eq h e

section

variable (s : Service) (extra : EntryAuthExtra) (entry : EntryDef) (driver : String)

/-- The token validator of the driver, without the wrapper around it. -/
def tokenValidator : Option Handler :=
  s.jwtCfg.map fun cfg =>
    if driver = "openfga-zitadel" then
      s.zitadelClient.elim (jwt (jwtConfigForEntry entry cfg))
        (jwtWithZitadel (jwtConfigForEntry entry cfg))
    else if driver = "ory" then
      s.oryClient.elim (jwt (jwtConfigForEntry entry cfg))
        (jwtWithOry (jwtConfigForEntry entry cfg))
    else jwt (jwtConfigForEntry entry cfg)

/-- The token of the request at the entry's lookup has these claims. -/
def Carries (req : Request) (claims : MapClaims) : Prop :=
  ∃ f raw, tokenValidator s entry driver = some f ∧
    f { req := req } = .next (withToken { req := req } claims raw)

def beforeMfa : List (Option Handler) :=
  keySegment s entry ++ (userSegment s extra entry driver ++
    (tokenSlot s entry driver::roleTail s entry driver))

def MfaRejects (req : Request) : Prop :=
  ∃ u, Reaches ((beforeMfa s extra entry driver).map slot) (routed s entry driver req) u ∧
    ∀ v, mfaRequired u ≠ .next v

def PassesMfa (req : Request) : Prop :=
  ∃ d, Reaches [slot (tokenSlot s entry driver),mfaRequired] (routed s entry driver req) d

variable {s extra entry driver}

lemma tokenSlot_eq (hj : hasAuth entry "jwt") :
    tokenSlot s entry driver = (tokenValidator s entry driver).map (jwtSkipWrapper entry) := by
  cases hc : s.jwtCfg <;> cases hz : s.zitadelClient <;> cases ho : s.oryClient <;>
    simp only [tokenSlot, tokenValidator, jwtMiddleware, zitadelJWTMiddleware, oryJWTMiddleware,
      hc, hz, ho, hj] <;> split_ifs <;> simp_all

lemma tokenValidator_admits {f : Handler} (h : tokenValidator s entry driver = some f) :
    AdmitsToken f := by
  obtain ⟨cfg,-,hf⟩ := map_eq_some_iff.mp h
  have ht := jwt_admitsToken (jwtConfigForEntry entry cfg)
  have he := jwtRemote_admitsToken (jwtConfigForEntry entry cfg)
  split_ifs at hf
  · cases hz : s.zitadelClient with
    | none =>
      rw [hz, elim_none] at hf
      exact hf ▸ ht
    | some z =>
      rw [hz, elim_some, jwtWithZitadel] at hf
      exact hf ▸ he z.validateToken
  · cases ho : s.oryClient with
    | none =>
      rw [ho, elim_none] at hf
      exact hf ▸ ht
    | some o =>
      rw [ho, elim_some, jwtWithOry] at hf
      exact hf ▸ he o.validateJWT
  · exact hf ▸ ht

lemma mfaRequired_iff (c d : Ctx) :
    mfaRequired c = .next d ↔ d = c ∧ ∃ claims, c.claims = some claims ∧ secondFactor claims := by
  unfold mfaRequired secondFactor
  cases hc : c.claims with
  | none => simp
  | some claims =>
    by_cases hm : claims.lookup "mfa" = some (.flag true)
    · simp [hm, eq_comm]
    · simp [hm]

lemma tokenSlot_step (hj : hasAuth entry "jwt") {c d : Ctx}
    (h : slot (tokenSlot s entry driver) c = .next d) :
    (jwtSkips entry c ∧ d = c) ∨
      (¬ jwtSkips entry c ∧ ∃ claims raw, Carries s entry driver c.req claims ∧
        d = withToken c claims raw) := by
  obtain ⟨g,hg,hgc⟩ := slot_next h
  rw [tokenSlot_eq hj] at hg
  obtain ⟨f,hf,rfl⟩ := map_eq_some_iff.mp hg
  by_cases hs : jwtSkips entry c
  · rw [(jwtSkipWrapper_eq entry f c).1 hs, next_eq] at hgc
    exact .inl ⟨hs,hgc.symm⟩
  · rw [(jwtSkipWrapper_eq entry f c).2 hs] at hgc
    obtain ⟨claims,raw,ha⟩ := tokenValidator_admits hf c d hgc
    have hd : d = withToken c claims raw := by
      rw [ha c rfl] at hgc
      exact (Outcome.next.inj hgc).symm
    exact .inr ⟨hs,claims,raw,⟨f,raw,hf,ha _ rfl⟩,hd⟩

lemma carries_unique {req : Request} {claims claims' : MapClaims}
    (h : Carries s entry driver req claims) (h' : Carries s entry driver req claims') :
    claims = claims' := by
  obtain ⟨f,raw,hf,hn⟩ := h
  obtain ⟨g,raw',hg,hn'⟩ := h'
  obtain rfl : f = g := some.inj (hf.symm.trans hg)
  have he := Outcome.next.inj (hn.symm.trans hn')
  have hc := congrArg Ctx.claims he
  exact some.inj hc

lemma tokenSlot_carried (hj : hasAuth entry "jwt") {c : Ctx} {claims : MapClaims}
    (hc : Carries s entry driver c.req claims) (hs : ¬ jwtSkips entry c) :
    ∃ raw, slot (tokenSlot s entry driver) c = .next (withToken c claims raw) := by
  obtain ⟨f,raw,hf,hn⟩ := hc
  obtain ⟨claims',raw',ha⟩ := tokenValidator_admits hf _ _ hn
  have hl : claims = claims' := by
    have he := Outcome.next.inj (hn.symm.trans (ha _ rfl))
    exact some.inj (congrArg Ctx.claims he)
  refine ⟨raw',?_⟩
  rw [tokenSlot_eq hj, hf, hl]
  exact ((jwtSkipWrapper_eq entry f c).2 hs).trans (ha c rfl)

lemma roleTail_frame {c d : Ctx} (h : Reaches ((roleTail s entry driver).map slot) c d) :
    d.claims = c.claims ∧ c.trace <:+ d.trace := by
  have hm : ∀ mw ∈ roleTail s entry driver, mw = roleSlot s entry driver := by
    unfold roleTail
    split_ifs <;> simp [mem_unlessNil]
  apply reaches_relation (fun c d => d.claims = c.claims ∧ c.trace <:+ d.trace)
    (fun c => ⟨rfl,suffix_rfl⟩) _ _ c d h
  intro g hg a b e ha hb
  obtain ⟨mw,hmw,rfl⟩ := mem_map.mp hg
  rw [hm mw hmw] at hb
  rcases roleSlot_next hb with ⟨-,-,-,rfl⟩ | ⟨auth,who,-,rfl⟩
  · exact ha
  · exact ⟨ha.1,ha.2.trans (suffix_cons _ _)⟩

lemma behindRouter_mfa (hj : hasJWT entry driver) (hm : entry.requiresMFA) :
    behindRouter s extra entry driver = beforeMfa s extra entry driver ++
      some mfaRequired::(appendNonJWTRoles s entry driver ++ limitSegment s entry driver) := by
  rw [behindRouter_split, beforeMfa, tokenChain, if_pos hj, if_pos hm]
  simp

lemma at_tokenSlot {req : Request} {u : Ctx}
    (h : Reaches ((beforeMfa s extra entry driver).map slot) (routed s entry driver req) u) :
    ∃ c v, c.req = req ∧ c.authMode = (routed s entry driver req).authMode ∧ c.claims = none ∧
      slot (tokenSlot s entry driver) c = .next v ∧
      Reaches ((roleTail s entry driver).map slot) v u := by
  simp only [beforeMfa, map_append, map_cons, reaches_append, reaches_cons] at h
  obtain ⟨k,hk,c,hc,v,hv,hu⟩ := h
  obtain ⟨hq,hm,hl⟩ := keySegment_frame hk
  obtain ⟨ha,ho,-⟩ := userSegment_next hc
  have hre : c.req = k.req := by
    have he : ∀ g ∈ (userSegment s extra entry driver).map slot, Keeps entry.authModes g := by
      intro g hg
      apply keeps_behindRouter
      rw [behindRouter_split]
      simp only [map_append, mem_append]
      exact .inr (.inl hg)
    exact (keeps_chain he hc).req
  exact ⟨c,v,hre.trans hq,ho.trans hm,ha.trans hl,hv,hu⟩

lemma jwtSkips_congr {c e : Ctx} (hr : c.req = e.req) (hm : c.authMode = e.authMode) :
    jwtSkips entry c ↔ jwtSkips entry e := by
  unfold jwtSkips
  rw [hr, hm]

lemma evidence_of_reaches (hj : hasJWT entry driver) (hm : entry.requiresMFA)
    {req : Request} {d : Ctx}
    (h : ReachesEntry (registerAuthMiddleware s extra entry driver) req d) : MfaEvidence d := by
  have hau : hasAuth entry "jwt" := by
    simp only [hasJWT, Bool.and_eq_true] at hj
    exact hj.1.1
  rw [reachesEntry_iff, behindRouter_mfa hj hm] at h
  simp only [map_append, map_cons, reaches_append, reaches_cons] at h
  obtain ⟨u,hu,t,ht,r,hr,hd⟩ := h
  obtain ⟨rfl,claims,hl,ha⟩ := (mfaRequired_iff u t).mp ht
  obtain ⟨c,v,-,-,hn,hv,hi⟩ := at_tokenSlot hu
  obtain ⟨hk,he⟩ := roleTail_frame hi
  rcases tokenSlot_step hau hv with ⟨-,rfl⟩ | ⟨-,cl,raw,-,rfl⟩
  · rw [hk, hn] at hl
    cases hl
  · obtain rfl : cl = claims := some.inj (hk.symm.trans hl)
    have hre : ∀ g ∈ (appendNonJWTRoles s entry driver ++ limitSegment s entry driver).map slot,
        Keeps entry.authModes g := by
      intro g hg
      apply @keeps_behindRouter s extra
      rw [behindRouter_split]
      simp only [map_append, mem_append] at hg ⊢
      exact .inr (.inr (.inr hg))
    have hla : t.trace <:+ d.trace := by
      apply (keeps_chain hre _).trace
      rw [map_append, reaches_append]
      exact ⟨r,hr,hd⟩
    exact ⟨"jwt",buildAuthContext cl raw,cl,(he.trans hla).subset (.head _),rfl, ha⟩

lemma not_mfaRejects (hj : hasAuth entry "jwt") {req : Request} {claims : MapClaims}
    (hc : Carries s entry driver req claims) (hf : secondFactor claims)
    (hs : ¬ jwtSkips entry (routed s entry driver req)) :
    ¬ MfaRejects s extra entry driver req := by
  rintro ⟨u,hu,ht⟩
  obtain ⟨c,v,rfl,hm,-,hv,ha⟩ := at_tokenSlot hu
  have hk : ¬ jwtSkips entry c := by
    intro h
    have hq : c.req = (routed s entry driver c.req).req := rfl
    exact hs ((jwtSkips_congr hq hm).mp h)
  rcases tokenSlot_step hj hv with ⟨h,-⟩ | ⟨-,cl,raw,hl,rfl⟩
  · exact hk h
  · obtain rfl := carries_unique hc hl
    obtain ⟨he,-⟩ := roleTail_frame ha
    exact ht u ((mfaRequired_iff u u).mpr ⟨rfl,claims,he,hf⟩)

lemma passesMfa_iff (hj : hasAuth entry "jwt") {req : Request} {claims : MapClaims}
    (hc : Carries s entry driver req claims) (hf : secondFactor claims) :
    PassesMfa s entry driver req ↔ ¬ jwtSkips entry (routed s entry driver req) := by
  unfold PassesMfa
  simp only [reaches_cons, reaches_nil]
  constructor
  · rintro ⟨d,v,hv,w,hw,-⟩ hs
    rcases tokenSlot_step hj hv with ⟨-,rfl⟩ | ⟨h,-⟩
    · obtain ⟨-,cl,hl,-⟩ := (mfaRequired_iff _ w).mp hw
      cases hl
    · exact h hs
  · intro hs
    obtain ⟨raw,hv⟩ := tokenSlot_carried hj hc hs
    exact ⟨_,_,hv,_,(mfaRequired_iff _ _).mpr ⟨rfl,claims,rfl,hf⟩,rfl⟩

variable (driver)

def bare : Service where
  auth := ⟨driver,some ⟨"idp/introspect"⟩,some ⟨"kv",""⟩⟩
  apiKeyValidator := some fun _ => .error "unknown key"
  basicValidator := some fun _ _ => .error "unknown user"
  kvConns := [("kv",fun _ => none)]

def openService : Service := permissive (bare driver)

def openedExtra : EntryAuthExtra := openExtra (bare driver) refusingExtra

lemma no_evidence {c d : Ctx} (hc : c.trace = []) (hd : Plain c d) : ¬ MfaEvidence d := by
  rintro ⟨mode,auth,claims,hm,hl,-⟩
  rcases hd with rfl | ⟨m,a,ha,rfl⟩
  · rw [hc] at hm
    cases hm
  · simp only [Ctx.inject, hc, mem_singleton, Event.accepted.injEq, some.injEq] at hm
    rw [hm.2, ha] at hl
    cases hl

section

variable {driver} (hj : hasAuth entry "jwt" = false)
include hj

lemma open_deploys (hk : hasAuth entry "apikey" → driver ≠ "none" ∧ driver ≠ "") :
    Deploys (openService driver) (openedExtra driver) entry driver := by
  refine ⟨rfl,?_,built_permissive (bare driver) refusingExtra rfl⟩
  have he : validateAPIKeyEntry (openService driver) entry driver = .ok () := by
    unfold validateAPIKeyEntry
    by_cases ha : hasAuth entry "apikey"
    · simp [ha, hk ha, openService, permissive, bare]
    · simp [ha]
  have hjw : validateJWTEntry (openService driver) entry driver (hasAuth entry "apikey") = .ok () := by
    simp [validateJWTEntry, hj]
  have ht : trimSpace "idp/introspect" ≠ "" ∧ trimSpace "kv" ≠ "" := by decide
  simp only [validateEntryAuthConfig, he, hjw]
  simp [openService, permissive, bare, ht, bind, Except.bind, pure, Except.pure]

lemma open_chain :
    behindRouter (openService driver) (openedExtra driver) entry driver =
      keySegment (openService driver) entry ++
        (userSegment (openService driver) (openedExtra driver) entry driver ++
          limitSegment (openService driver) entry driver) := by
  have ho : appendNonJWTRoles (openService driver) entry driver = [] := by
    rw [appendNonJWTRoles_eq]
    split_ifs with h
    · rfl
    · have hi : hasIdentityAuth entry := by
        simp only [Bool.or_eq_true, Bool.not_eq_true', not_or, Bool.not_eq_false] at h
        exact h.2
      have hg : roleGate (openService driver) driver = false := by
        unfold roleGate
        split_ifs <;> rfl
      rw [unlessNil, roleSlot_isSome hi, hg]
      rfl
  rw [behindRouter_split, ho]
  simp [tokenChain, hasJWT, hj]

lemma open_reaches {raw : String} {u : Ctx} (hu : Entered (bare driver) refusingExtra entry raw u) :
    ReachesEntry (registerAuthMiddleware (openService driver) (openedExtra driver) entry driver)
      (visitor (openedExtra driver) entry raw) u := by
  rw [reachesEntry_iff, open_chain hj]
  simp only [map_append, reaches_append]
  obtain ⟨k,hk,hu⟩ := hu
  exact ⟨k,hk,u,hu,limits_open (s := bare driver) driver u⟩

lemma open_without_mfa :
    ∃ req d, ReachesEntry
      (registerAuthMiddleware (openService driver) (openedExtra driver) entry driver) req d ∧
      ¬ MfaEvidence d := by
  obtain ⟨raw,u,hu,hp⟩ := @entered_plain (bare driver) refusingExtra entry hj (fun _ => rfl)
    (fun _ => ⟨_,rfl,by decide⟩) (fun _ _ => rfl) (.inr (.inr (by simp [keyRoleGate, bare])))
  exact ⟨_,u,open_reaches hj hu,no_evidence rfl hp⟩

end

end

lemma apikey_needs_driver {s : Service} {extra : EntryAuthExtra} {entry : EntryDef}
    {driver : String} (h : Deploys s extra entry driver) (ha : hasAuth entry "apikey") :
    ¬ (driver = "none" ∨ driver = "") := by
  intro hd
  have hv := h.2.1
  have hk : ∃ msg, validateAPIKeyEntry s entry driver = .error msg := by
    simp [validateAPIKeyEntry, ha, hd]
  obtain ⟨msg,hk⟩ := hk
  rw [validateEntryAuthConfig, hk] at hv
  cases hv

/-- A second factor is enforced for an entry exactly when the entry takes
tokens (or cannot be served at all); and a request with a token that has one
passes exactly when the token validator does not leave it to another mode. -/
theorem mfa_enforced_iff (entry : EntryDef) (driver : String) (hm : entry.requiresMFA = true) :
    ((∀ s extra req d, Deploys s extra entry driver →
        ReachesEntry (registerAuthMiddleware s extra entry driver) req d → MfaEvidence d) ↔
      hasAuth entry "jwt" = true ∨
        (hasAuth entry "apikey" = true ∧ (driver = "none" ∨ driver = ""))) ∧
    ∀ s extra req claims, Deploys s extra entry driver → hasAuth entry "jwt" = true →
      Carries s entry driver req claims → secondFactor claims →
      (PassesMfa s entry driver req ↔ ¬ jwtSkips entry (routed s entry driver req)) ∧
      (¬ jwtSkips entry (routed s entry driver req) → ¬ MfaRejects s extra entry driver req) := by
  refine ⟨⟨fun hl => ?_,?_⟩,?_⟩
  · by_contra ho
    rw [not_or, Bool.not_eq_true] at ho
    obtain ⟨req,d,he,hno⟩ := open_without_mfa ho.1
    apply hno (hl _ _ req d (open_deploys ho.1 _) he)
    intro ha
    simpa [ha] using ho.2
  · rintro (hj | ⟨ha,hd⟩) s extra req d hde he
    · exact evidence_of_reaches (driver_of_valid hde.2.1 hj) hm he
    · exact absurd hd (apikey_needs_driver hde ha)
  · intro s extra req claims _ hj hc hf
    exact ⟨passesMfa_iff hj hc hf,not_mfaRejects hj hc hf⟩

def passwordEntry : EntryDef where
  type := "rest"
  path := "/transfers"
  authModes := ["basic"]
  requiresMFA := true

def passwordRequest : Request where
  header key := if key = "authorization" then "Basic dTpw" else ""
  cookies := []
  query _ := ""

def tokenOrPassword : EntryDef where
  type := "rest"
  path := "/transfers"
  authModes := ["jwt","basic"]
  jwtFrom := "cookie:token"
  requiresMFA := true

def bothRequest : Request where
  header key := if key = "authorization" then "Basic dTpw" else ""
  cookies := [("token","t")]
  query _ := ""

def mfaClaims : MapClaims := [("sub",.str "user"),("mfa",.flag true)]

def tokenService : Service where
  auth := ⟨"manual",none,none⟩
  jwtCfg := some { currentParser := fun _ => .ok mfaClaims }
  authValidator := some fun _ _ _ => .ok ()
  basicValidator := some fun _ _ => .ok (some { userID := "user" })

def tokenExtra : EntryAuthExtra where
  basicValidator := some fun _ _ => .ok (some { userID := "user" })
  oauth := none
  session := none

theorem token_entry_enforces_mfa :
    tokenOrPassword.requiresMFA = true ∧
    ∀ s extra req d, Deploys s extra tokenOrPassword "manual" →
      ReachesEntry (registerAuthMiddleware s extra tokenOrPassword "manual") req d →
      MfaEvidence d :=
  ⟨rfl,(mfa_enforced_iff tokenOrPassword "manual" rfl).1.mpr (.inl rfl)⟩

def afterPassword (c : Ctx) : Ctx :=
  (c.inject "basic" { userID := "user" }).note (.decided .authValidator { userID := "user" } [] [])

/-- A password alone opens an entry that requires a second factor; where the
entry takes tokens as well, a password beside a token hides the token from the
check. -/
theorem password_enters_without_mfa :
    Deploys tokenService tokenExtra passwordEntry "manual" ∧
    (∃ d, ReachesEntry (registerAuthMiddleware tokenService tokenExtra passwordEntry "manual")
      passwordRequest d ∧ ¬ MfaEvidence d) ∧
    Deploys tokenService tokenExtra tokenOrPassword "manual" ∧
    Carries tokenService tokenOrPassword "manual" bothRequest mfaClaims ∧ secondFactor mfaClaims ∧
    MfaRejects tokenService tokenExtra tokenOrPassword "manual" bothRequest := by
  refine ⟨⟨rfl,rfl,rfl⟩,⟨afterPassword { req := passwordRequest },rfl,?_⟩,⟨rfl,rfl,rfl⟩,
    ⟨_,"t",rfl,rfl⟩,rfl,afterPassword (routed tokenService tokenOrPassword "manual" bothRequest),
    rfl,?_⟩
  · rintro ⟨mode,auth,claims,hm,hl,-⟩
    simp only [afterPassword, Ctx.note, Ctx.inject, mem_cons, reduceCtorEq, false_or,
      Event.accepted.injEq, some.injEq, not_mem_nil, or_false] at hm
    rw [hm.2] at hl
    cases hl
  · intro v hv
    obtain ⟨-,claims,hl,-⟩ := (mfaRequired_iff _ v).mp hv
    cases hl

end SdkApi.MfaEnforcement
