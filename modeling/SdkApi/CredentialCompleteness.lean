import SdkApi.CredentialRoutes

/-!
# A valid credential among several modes

An entry that takes several kinds of credentials asks its validators one after
the other, and a request with one valid credential arrives at its handler only
if every validator of another mode leaves it alone. The router decides from the
Authorization header, so that credentials elsewhere have no route of their own.
-/

namespace SdkApi.CredentialCompleteness
open GoStrings RequestContext CredentialMiddleware RoleMiddleware AuthChain ChainFrames List Option
open AuthSoundness ChainSegments AuthorizationGate AuthorizationGaps MfaEnforcement ModeValidators
open CredentialStages CredentialRoutes HandlerChain

/-- The other modes of the entry leave a credential of mode `m` alone. -/
def Served (s : Service) (extra : EntryAuthExtra) (entry : EntryDef) (m : Mode) (req : Request) :
    Prop :=
  match m with
  | .basic => hasAuth entry "jwt" = true → entry.requiresMFA = false
  | .oauth => hasAuth entry "jwt" = false
  | .apikey =>
    -- a key behind `Bearer ` looks like a token
    if hasPrefix req.authorization "Bearer " = true then
      hasAuth entry "jwt" = false ∧ hasAuth entry "oauth" = false ∧
        if hasAuth entry "basic" = true then
          entry.apiPrefix = "" ∨ hasPrefix req.authorization entry.apiPrefix = true
        else hasAuth entry "session" = false ∧ keyRoleGate s entry = false
    else
      ¬ (hasAuth entry "basic" = true ∧ hasPrefix req.authorization "Basic " = true) ∧
        (hasAuth entry "jwt" = true → routes s entry = true ∧ entry.requiresMFA = false)
  | .session =>
    hasAuth entry "basic" = false ∧ hasAuth entry "oauth" = false ∧ keyRoleGate s entry = false ∧
      (hasAuth entry "jwt" = true → entry.jwtFrom = "" ∧ entry.requiresMFA = false ∧
        (hasAuth entry "apikey" = true → entry.apiPrefix ≠ "")) ∧
      -- with a session store, a session of Kratos is not one of the store
      ∀ cfg, extra.session = some cfg → ∃ d, session cfg { req := req } = .next d
  | .jwt =>
    (if readsAuthorization entry then
        hasAuth entry "session" = true → hasAuth entry "apikey" = true ∨
          hasAuth entry "basic" = true ∨ hasAuth entry "oauth" = true
      else hasAuth entry "basic" = false ∧ hasAuth entry "oauth" = false ∧
        hasAuth entry "session" = false ∧ keyRoleGate s entry = false ∧
        (hasAuth entry "apikey" = true → hasPrefix entry.jwtFrom "header:" = true →
          entry.apiPrefix ≠ "")) ∧
      (entry.requiresMFA = true →
        ∃ claims, Carries s entry s.auth.driver req claims ∧ secondFactor claims)

section

variable {s : Service} {extra : EntryAuthExtra} {entry : EntryDef} {req : Request}
  {auth : AuthContext}

section

variable (h : Wired s extra entry) (hl : ∀ scope id, s.allow scope id)
  (hsat : Satisfied s entry auth)
include h hl hsat

lemma served_basic (hs : Sole s extra entry .basic req auth) :
    Arrives s extra entry req ↔ Served s extra entry .basic req := by
  obtain ⟨f,d,he,hd⟩ := hs.accepted
  obtain ⟨hb,rfl⟩ := mem_basic.mp he
  have hra : hasPrefix req.authorization "Basic " := basic_header (c := { req := req }) hd
  have ho := @routed_authMode s entry req
  rw [routedMode_basic hb hra] at ho
  -- with a second channel there is a router, and it knows the header
  have hu : ∀ m, m = "jwt" ∨ m = "apikey" → hasAuth entry m →
      (arrival s entry req).authMode = "basic" := by
    intro m hm ha
    rw [ho, if_pos]
    apply routes_of_basic h.driver hb
    rcases hm with rfl | rfl
    · exact .inl ha
    · exact .inr (.inr ha)
  have hk : (arrival s entry req).authMode ∉ Mode.basic.others := by
    rw [ho]
    split_ifs <;> decide
  rw [reach_user hs h hl hsat (by decide) (by decide)
    (by simp [userValidators, (hasAuth_iff entry).mp hb, hk]) hd]
  unfold Served
  constructor
  · exact fun hr hj => (hr.2 hj).2
  · intro hmf
    refine ⟨fun ha => ?_,fun hj => ⟨.inl ?_,hmf hj⟩⟩
    · have hm := hu "apikey" (.inr rfl) ha
      exact ⟨.inl (by simp [hm]),.inr (by simp [hm])⟩
    · simp [hu "jwt" (.inl rfl) hj]

lemma served_oauth (hs : Sole s extra entry .oauth req auth) :
    Arrives s extra entry req ↔ Served s extra entry .oauth req := by
  obtain ⟨f,d,hme,hd⟩ := hs.accepted
  obtain ⟨ho,o,hg,rfl⟩ := mem_oauth.mp hme
  have hra : hasPrefix req.authorization "Bearer " :=
    introspect_header (c := { req := req }) hd
  have hm := @routed_authMode s entry req
  rw [routedMode_bearer hra, if_pos ho] at hm
  unfold Served
  by_cases hj : hasAuth entry "jwt"
  · -- the router gives the token to the JWT validator
    rw [hj]
    rw [if_pos (routes_of_oauth h.driver ho (.inl hj)), if_pos hj] at hm
    have hi : ∀ w ∈ userValidators s extra entry,
        (arrival s entry req).authMode ∈ w.1.others := by
      intro w hw
      rw [hm]
      have hn := userValidators_mode w hw
      rcases w with ⟨m,f⟩
      cases m <;> simp_all [Mode.others]
    simp only [Bool.true_eq_false, iff_false]
    rw [reach_stages h]
    rintro ⟨k,u,hk,hu,ht⟩
    obtain ⟨rfl,-⟩ := (hs.key_stage h (by decide) k).mp hk
    obtain rfl := (reaches_excluded _ hi u).mp hu
    exact tail_anonymous h hl (hasIdentityAuth_of hj) _ rfl (by rw [hm]; decide)
      (fun hj => .inr (hs.no_token (by decide) hj)) ht
  · rw [if_neg hj] at hm
    rw [Bool.not_eq_true] at hj
    have hi : (userValidators s extra entry).find?
        ((arrival s entry req).authMode ∉ ·.1.others) = some (.oauth,introspect o) := by
      by_cases hb : hasAuth entry "basic"
      · rw [if_pos (routes_of_oauth h.driver ho (.inr (.inl hb)))] at hm
        simp only [userValidators, hb, ho, hg, hm]
        simp [Mode.others]
      · have ha : (arrival s entry req).authMode ∉ Mode.oauth.others := by
          rw [hm]
          split_ifs <;> decide
        simp [userValidators, (hasAuth_iff entry).not.mp hb, (hasAuth_iff entry).mp ho, hg, ha]
    rw [reach_user hs h hl hsat (by decide) (by decide) hi hd]
    simp only [hj, Bool.false_eq_true, false_implies, and_true, iff_true]
    intro ha
    rw [if_pos (routes_of_oauth h.driver ho (.inr (.inr ha)))] at hm
    exact ⟨.inl (by simp [hm]),.inr (by simp [hm])⟩

lemma served_session (hs : Sole s extra entry .session req auth) :
    Arrives s extra entry req ↔ Served s extra entry .session req := by
  obtain ⟨f,d,hme,hd⟩ := hs.accepted
  obtain ⟨hse,hf⟩ := mem_session.mp hme
  have hra : req.authorization = "" := hs.placed
  unfold Served
  rcases @routed_headerless s entry req hra with hm | ⟨hm,hr,ha,hp⟩
  · have has : ∀ m : Mode, (arrival s entry req).authMode ∉ m.others := by
      intro m
      rw [hm]
      cases m <;> decide
    by_cases hb : hasAuth entry "basic"
    · -- the basic validator answers that there is no password
      have hno := reach_refused (w := (.basic,basic extra.basicValidator)) hs h (by decide)
        (by simp [userValidators, (hasAuth_iff entry).mp hb, has])
        (hs.others .basic _ (mem_basic.mpr ⟨hb,rfl⟩) (by decide))
      simp [hno, (hasAuth_iff entry).mp hb]
    rw [Bool.not_eq_true] at hb
    by_cases ho : hasAuth entry "oauth"
    · obtain ⟨o,hg⟩ := oauth_configured h ho
      have hno := reach_refused (w := (.oauth,introspect o)) hs h (by decide)
        (by simp only [userValidators, hb, ho, hg]; simp [has])
        (hs.others .oauth _ (mem_oauth.mpr ⟨ho,o,hg,rfl⟩) (by decide))
      simp [hno, (hasAuth_iff entry).mp ho]
    rw [Bool.not_eq_true] at ho
    have hn := session_conditions h hse hra hm hb ho
    cases ht : extra.session with
    | some cfg =>
      have hi : (userValidators s extra entry).find?
          ((arrival s entry req).authMode ∉ ·.1.others) = some (.session,session cfg) := by
        simp only [userValidators, hb, ho, hse, ht]
        simp [has]
      by_cases hac : ∃ d, session cfg { req := req } = .next d
      · obtain ⟨e,he⟩ := hac
        rw [reach_user hs h hl hsat (by decide) (by decide) hi he, hn]
        simp [hb, ho, he]
      · have hno := reach_refused hs h (by decide) hi (fun d hd => hac ⟨d,hd⟩)
        simp only [hno, false_iff]
        rintro ⟨-,-,-,-,hal⟩
        exact hac (hal cfg rfl)
    | none =>
      rcases hf with ⟨c,hc,-⟩ | ⟨hdr,o,hor,rfl⟩
      · simp [ht] at hc
      · have hu : userValidators s extra entry = [(.session,kratosSession o)] := by
          simp only [userValidators, hb, ho, hse, ht, hdr, hor]
          simp
        rw [reach_user hs h hl hsat (by decide) (by decide) (by simp [hu, has]) hd, hn]
        simp [hb, ho]
  · -- the router takes the request without a header for an API key
    have hno : ¬ Arrives s extra entry req := by
      rw [reach_stages h]
      rintro ⟨k,u,hk,-,-⟩
      exact ((hs.key_stage h (by decide) k).mp hk).2.route ha hm
    simp only [hno, false_iff]
    rintro ⟨hb,ho,-,hjw,-⟩
    rw [routes_eq h.driver, hb, ho, ha] at hr
    by_cases hj : hasAuth entry "jwt"
    · exact (hjw hj).2.2 ha hp
    · simp [hj] at hr

lemma served_jwt (hs : Sole s extra entry .jwt req auth) :
    Arrives s extra entry req ↔ Served s extra entry .jwt req := by
  obtain ⟨hj,claims,hc,he⟩ := reach_token hs h hl hsat
  have hm : (entry.requiresMFA → secondFactor claims) ↔ (entry.requiresMFA →
      ∃ claims, Carries s entry s.auth.driver req claims ∧ secondFactor claims) := by
    refine forall_congr' fun _ => ⟨fun hf => ⟨claims,hc,hf⟩,?_⟩
    rintro ⟨cl,hcl,hf⟩
    rwa [carries_unique hc hcl]
  unfold Served
  rw [he, hm]
  by_cases ha : readsAuthorization entry
  · rw [if_pos ha, ← token_in_header h hj ha (hs.placed.1 ha)]
  · rw [if_neg ha]
    rw [Bool.not_eq_true] at ha
    rw [← token_elsewhere h hj ha (hs.placed.2 ha)]

variable (hs : Sole s extra entry .apikey req auth)
include hs

lemma served_bearer_key (hra : hasPrefix req.authorization "Bearer ") :
    Arrives s extra entry req ↔ Served s extra entry .apikey req := by
  obtain ⟨ha,he⟩ := reach_key hs h hl hsat
  have hq : hasPrefix (arrival s entry req).req.authorization "Bearer " :=
    hra
  have hm := @routed_authMode s entry req
  rw [routedMode_bearer hra] at hm
  have hu := @routes_eq s entry h.driver
  rw [ha] at hu
  -- unless it is routed to the API key validator, that one leaves it to the others
  have hk : (arrival s entry req).authMode ≠ "apikey" →
      apiKeySkips entry (arrival s entry req) := by
    intro hne
    rw [hm] at hne
    unfold apiKeySkips
    rw [hm]
    split_ifs at hne ⊢ <;> simp_all
  have hnv : (arrival s entry req).authMode ≠ "apikey" →
      hasIdentityAuth entry →
      ¬ Arrives s extra entry req := by
    intro hne hi
    rw [he]
    simp [hk hne, hi]
  unfold Served
  rw [if_pos hra]
  by_cases hj : hasAuth entry "jwt"
  · refine iff_of_false (hnv ?_ (hasIdentityAuth_of hj)) (fun hc => by simp [hj] at hc)
    rw [hm, if_pos hj]
    split_ifs <;> decide
  rw [if_neg hj] at hm
  rw [Bool.not_eq_true] at hj
  by_cases ho : hasAuth entry "oauth"
  · refine iff_of_false (hnv ?_ (hasIdentityAuth_of ho)) (fun hc => by simp [ho] at hc)
    rw [hm, if_pos ho]
    split_ifs <;> decide
  rw [if_neg ho] at hm
  rw [Bool.not_eq_true] at ho
  rw [hj, ho] at hu
  by_cases hb : hasAuth entry "basic"
  · rw [if_pos (routes_of_basic h.driver hb (.inr (.inr ha)))] at hm
    simp only [hj, ho, hb, if_true, true_and]
    by_cases hp : entry.apiPrefix = "" ∨ hasPrefix req.authorization entry.apiPrefix
    · rw [if_pos ⟨ha,hp⟩] at hm
      refine iff_of_true (he.mpr (.inl ⟨?_,fun hn => by simp [hj] at hn⟩)) hp
      simp [apiKeySkips, hm]
    · rw [if_neg fun hc => hp hc.2] at hm
      exact iff_of_false (hnv (by rw [hm]; decide) (hasIdentityAuth_of hb)) hp
  · rw [Bool.not_eq_true] at hb
    rw [hb] at hu
    have hr : routes s entry = false := by simpa using hu
    rw [hr] at hm
    simp only [Bool.false_eq_true, if_false] at hm
    have hsk := hk (by rw [hm]; decide)
    have hi : hasIdentityAuth entry = hasAuth entry "session" := by
      simp only [hasIdentityAuth, any_cons, any_nil, hj, hb, ho, Bool.false_or, Bool.or_false]
    rw [he, hi]
    simp [hsk, hj, ho, hb]

lemma served_plain_key (hra : hasPrefix req.authorization "Bearer " = false) :
    Arrives s extra entry req ↔ Served s extra entry .apikey req := by
  obtain ⟨ha,he⟩ := reach_key hs h hl hsat
  obtain ⟨f,d,hme,hd⟩ := hs.accepted
  have hf : f = keyValidator s entry := by
    simpa [validators, userValidators, (hasAuth_iff entry).mp ha] using hme
  subst hf
  obtain ⟨hne,hfo⟩ := key_header hd
  have hm := @routed_authMode s entry req
  have ho := @routes_eq s entry h.driver
  rw [ha] at ho
  unfold Served
  rw [hra]
  simp only [Bool.false_eq_true, if_false]
  by_cases hb : hasAuth entry "basic" ∧ hasPrefix req.authorization "Basic "
  · -- the router gives the header to the basic validator
    rw [if_pos (routes_of_basic h.driver hb.1 (.inr (.inr ha))), routedMode_basic hb.1 hb.2] at hm
    have hi := hasIdentityAuth_of hb.1
    have hk : apiKeySkips entry (arrival s entry req) := .inl (by simp [hm])
    refine iff_of_false ?_ fun hc => hc.1 hb
    rw [he]
    simp [hk, hi]
  · have hy : routedMode entry req.authorization = "apikey" := by
      have hba : (hasPrefix req.authorization "Basic " && hasAuth entry "basic") = false := by
        rw [Bool.and_eq_false_iff]
        by_contra hn
        simp only [not_or, Bool.not_eq_false] at hn
        exact hb ⟨hn.2,hn.1⟩
      have hf' : ((decide (entry.apiPrefix = "") ||
          hasPrefix req.authorization entry.apiPrefix) && hasAuth entry "apikey") := by
        rw [ha, Bool.and_true, Bool.or_eq_true, decide_eq_true_eq]
        exact hfo hra
      simp only [routedMode, hra, hba, hf', Bool.false_and, Bool.false_eq_true, if_false, if_true]
    rw [hy] at hm
    have hk : ¬ apiKeySkips entry (arrival s entry req) := by
      have hq : (arrival s entry req).req.authorization = req.authorization := rfl
      have hn' : req.authorization ≠ "" := hne
      unfold apiKeySkips
      rw [hm, hq]
      split_ifs <;> simp [hra, hn']
    have ht : hasAuth entry "jwt" →
        (jwtSkips entry (arrival s entry req) ↔ routes s entry) := by
      intro hj
      rw [hj] at ho
      by_cases hr : routes s entry
      · rw [if_pos hr] at hm
        exact iff_of_true (.inl (by simp [hm])) hr
      · rw [if_neg hr] at hm
        refine iff_of_false ?_ hr
        rintro (hin | ⟨hfr,-⟩)
        · simp [hm] at hin
        · apply hr
          rw [ho, readsHeader_default h hfr]
          cases hasAuth entry "basic" <;> cases hasAuth entry "oauth" <;> simp
    rw [he]
    simp only [hk, not_false_eq_true, true_and, false_and, or_false, hb]
    exact forall_congr' fun hj => by rw [ht hj]

end

end

/-- A request with one valid credential reaches the handler exactly when the
other modes of the entry leave it alone. -/
theorem sole_credential_reaches_iff (s : Service) (extra : EntryAuthExtra) (entry : EntryDef)
    (m : Mode) (req : Request) (auth : AuthContext) (h : Wired s extra entry)
    (hl : ∀ scope id, s.allow scope id = true) (hs : Sole s extra entry m req auth)
    (hsat : Satisfied s entry auth) :
    (∃ d, ReachesEntry (registerAuthMiddleware s extra entry s.auth.driver) req d) ↔
      Served s extra entry m req := by
  cases m with
  | basic => exact served_basic h hl hsat hs
  | oauth => exact served_oauth h hl hsat hs
  | session => exact served_session h hl hsat hs
  | jwt => exact served_jwt h hl hsat hs
  | apikey =>
    by_cases ha : hasPrefix req.authorization "Bearer "
    · exact served_bearer_key h hl hsat hs ha
    · exact served_plain_key h hl hsat hs (Bool.not_eq_true _ ▸ ha)

def mixedJWT : JWTConfig where
  currentParser token :=
    if token = "t" then .ok [("sub",.str "user")] else .error "signature is invalid"

def mixedService : Service where
  auth := ⟨"manual",some ⟨"idp/introspect"⟩,some ⟨"kv",""⟩⟩
  jwtCfg := some mixedJWT
  authValidator := some fun _ _ _ => .ok ()
  apiKeyValidator := some fun _ => .error "unknown key"
  basicValidator := some fun user _ =>
    if user = "u" then .ok (some { userID := "user" }) else .error "unknown user"
  kvConns := [("kv",fun key => if key = "sess:1" then some "session" else none)]
  endpoint _ token := if token = "o" then .ok ⟨true,"user","",""⟩ else .error "unknown token"
  unmarshal _ := some ⟨"user",[]⟩

def mixedOAuth : OAuthConfig where
  introspectionURL := "idp/introspect"
  endpoint := mixedService.endpoint "idp/introspect"
  cached _ := none

def mixedSession : SessionConfig where
  cookie := "sid"
  store := some fun key => if key = "sess:1" then some "session" else none
  unmarshal _ := some ⟨"user",[]⟩

def mixedExtra : EntryAuthExtra where
  basicValidator := mixedService.basicValidator
  oauth := some mixedOAuth
  session := some mixedSession

def mixedEntry (modes : List String) : EntryDef where
  type := "rest"
  path := "/orders"
  authModes := modes

def headerRequest (raw : String) : Request where
  header key := if key = "authorization" then raw else ""
  cookies := []
  query _ := ""

def cookieRequest : Request where
  header _ := ""
  cookies := [("sid","1")]
  query _ := ""

variable (modes : List String)

lemma mixed_wired (hv : validateEntryAuthConfig mixedService (mixedEntry modes) "manual" = .ok ()) :
    Wired mixedService mixedExtra (mixedEntry modes) where
  driver := by decide
  valid := hv
  built := rfl
  jwtCfg := ⟨_,rfl,rfl⟩
  apiKeyValidator := rfl
  authValidator _ := rfl
  fgaClient h := absurd h (by decide)
  oryClient h := absurd h (by decide)

lemma mixed_satisfied {auth : AuthContext} : Satisfied mixedService (mixedEntry modes) auth := by
  refine ⟨fun v hv => ?_,fun hi c hc => ?_⟩
  · obtain rfl := some.inj hv
    rfl
  · have ho : roleSlot mixedService (mixedEntry modes) "manual" =
        manualAuthMiddleware (mixedEntry modes) [] [] (some fun _ _ _ => .ok ()) := rfl
    show ∃ d, slot (roleSlot mixedService (mixedEntry modes) "manual") c = .next d
    rw [ho]
    simp only [manualAuthMiddleware, hi, if_true, map_some, slot, getD_some,
      requireDecision, hc]
    split_ifs
    · exact ⟨_,rfl⟩
    · exact ⟨_,rfl⟩

lemma mixed_validators :
    validators mixedService mixedExtra (mixedEntry modes) =
      (if hasAuth (mixedEntry modes) "apikey" then
        [(Mode.apikey,keyValidator mixedService (mixedEntry modes))] else []) ++
      ((if hasAuth (mixedEntry modes) "basic" then
        [(Mode.basic,basic mixedService.basicValidator)] else []) ++
      (if hasAuth (mixedEntry modes) "oauth" then
        [(Mode.oauth,introspect mixedOAuth)] else []) ++
      (if hasAuth (mixedEntry modes) "session" then
        [(Mode.session,session mixedSession)] else [])) ++
      (if hasAuth (mixedEntry modes) "jwt" then
        [(Mode.jwt,jwt (jwtConfigForEntry (mixedEntry modes) mixedJWT))] else []) := by
  have hd : mixedService.auth.driver = "manual" := rfl
  have ht : tokenValidator mixedService (mixedEntry modes) "manual" =
      some (jwt (jwtConfigForEntry (mixedEntry modes) mixedJWT)) := by
    simp [tokenValidator, mixedService]
  simp [validators, userValidators, mixedExtra, hd, ht]

lemma sole_of_pair {s : Service} {extra : EntryAuthExtra} {entry : EntryDef} {m m' : Mode}
    {req : Request} {auth : AuthContext} {f g : Handler} {d : Ctx} (hn : m' ≠ m)
    (he : ∀ w, w ∈ validators s extra entry ↔ w = (m,f) ∨ w = (m',g))
    (hd : f { req := req } = .next d) (ha : d.auth = some auth)
    (hno : ∀ e, g { req := req } ≠ .next e) (hp : Placed entry m req.authorization) :
    Sole s extra entry m req auth := by
  refine ⟨⟨f,d,(he _).mpr (.inl rfl),hd⟩,fun f' d' hf' hd' => ?_,fun m'' f' hf' hm => ?_,hp⟩
  · rcases (he _).mp hf' with hq | hq
    · obtain rfl : f' = f := (Prod.mk.inj hq).2
      obtain rfl := Outcome.next.inj (hd.symm.trans hd')
      exact ha
    · exact absurd (Prod.mk.inj hq).1 hn.symm
  · rcases (he _).mp hf' with hq | hq
    · exact absurd (Prod.mk.inj hq).1 hm
    · obtain rfl : f' = g := (Prod.mk.inj hq).2
      exact hno

theorem password_served :
    Wired mixedService mixedExtra (mixedEntry ["basic","session"]) ∧
    ∃ d, ReachesEntry (registerAuthMiddleware mixedService mixedExtra
      (mixedEntry ["basic","session"]) "manual") (headerRequest "Basic dTpw") d := by
  have hw := mixed_wired ["basic","session"] rfl
  have hm : ∀ w, w ∈ validators mixedService mixedExtra (mixedEntry ["basic","session"]) ↔
      w = (.basic,basic mixedService.basicValidator) ∨ w = (.session,session mixedSession) := by
    intro w
    rw [mixed_validators]
    simp [hasAuth, mixedEntry]
  have ho : Sole mixedService mixedExtra (mixedEntry ["basic","session"]) .basic
      (headerRequest "Basic dTpw") { userID := "user" } :=
    sole_of_pair (by decide) hm (rfl : basic _ _ = .next _) rfl (fun e he => by cases he) trivial
  exact ⟨hw,(sole_credential_reaches_iff mixedService mixedExtra (mixedEntry ["basic","session"])
    .basic (headerRequest "Basic dTpw") { userID := "user" } hw (fun _ _ => rfl) ho
    (mixed_satisfied _)).mpr fun hj => absurd hj (by decide)⟩

lemma session_sole : Sole mixedService mixedExtra (mixedEntry ["session","basic"]) .session
    cookieRequest { userID := "user" } := by
  have hm : ∀ w, w ∈ validators mixedService mixedExtra (mixedEntry ["session","basic"]) ↔
      w = (.session,session mixedSession) ∨ w = (.basic,basic mixedService.basicValidator) := by
    intro w
    rw [mixed_validators]
    simp [hasAuth, mixedEntry, or_comm]
  exact sole_of_pair (by decide) hm (rfl : session _ _ = .next _) rfl (fun e he => by cases he) rfl

def mixedToken : AuthContext := buildAuthContext [("sub",.str "user")] "Bearer t"

lemma token_accepted : jwt (jwtConfigForEntry (mixedEntry ["jwt","session"]) mixedJWT)
    { req := headerRequest "Bearer t" } =
    .next (withToken { req := headerRequest "Bearer t" } [("sub",.str "user")] "Bearer t") := rfl

lemma token_sole : Sole mixedService mixedExtra (mixedEntry ["jwt","session"]) .jwt
    (headerRequest "Bearer t") mixedToken := by
  have hm : ∀ w, w ∈ validators mixedService mixedExtra (mixedEntry ["jwt","session"]) ↔
      w = (.jwt,jwt (jwtConfigForEntry (mixedEntry ["jwt","session"]) mixedJWT)) ∨
        w = (.session,session mixedSession) := by
    intro w
    rw [mixed_validators]
    simp [hasAuth, mixedEntry, or_comm]
  have hre : readsAuthorization (mixedEntry ["jwt","session"]) := by decide
  have ha : Placed (mixedEntry ["jwt","session"]) .jwt (headerRequest "Bearer t").authorization :=
    ⟨fun _ => by decide,fun hno => by simp [hre] at hno⟩
  have hno : ∀ e, session mixedSession { req := headerRequest "Bearer t" } ≠ .next e := by
    intro e he
    cases he
  exact sole_of_pair (by decide) hm token_accepted rfl hno ha

def mixedGrant : AuthContext := { userID := "user", rawToken := "o" }

lemma oauth_sole : Sole mixedService mixedExtra (mixedEntry ["jwt","oauth"]) .oauth
    (headerRequest "Bearer o") mixedGrant := by
  have hm : ∀ w, w ∈ validators mixedService mixedExtra (mixedEntry ["jwt","oauth"]) ↔
      w = (.oauth,introspect mixedOAuth) ∨
        w = (.jwt,jwt (jwtConfigForEntry (mixedEntry ["jwt","oauth"]) mixedJWT)) := by
    intro w
    rw [mixed_validators]
    simp [hasAuth, mixedEntry]
  exact sole_of_pair (by decide) hm (rfl : introspect _ _ = .next _) rfl
    (fun e he => by cases he) trivial

/-- A session is refused by the basic validator, a token by the session
validator, and an OAuth token by the JWT validator. -/
theorem valid_credentials_refused :
    (Wired mixedService mixedExtra (mixedEntry ["session","basic"]) ∧
      Sole mixedService mixedExtra (mixedEntry ["session","basic"]) .session cookieRequest
        { userID := "user" } ∧
      Satisfied mixedService (mixedEntry ["session","basic"]) { userID := "user" } ∧
      ¬ ∃ d, ReachesEntry (registerAuthMiddleware mixedService mixedExtra
        (mixedEntry ["session","basic"]) "manual") cookieRequest d) ∧
    (Wired mixedService mixedExtra (mixedEntry ["jwt","session"]) ∧
      Sole mixedService mixedExtra (mixedEntry ["jwt","session"]) .jwt (headerRequest "Bearer t")
        mixedToken ∧
      Satisfied mixedService (mixedEntry ["jwt","session"]) mixedToken ∧
      ¬ ∃ d, ReachesEntry (registerAuthMiddleware mixedService mixedExtra
        (mixedEntry ["jwt","session"]) "manual") (headerRequest "Bearer t") d) ∧
    (Wired mixedService mixedExtra (mixedEntry ["jwt","oauth"]) ∧
      Sole mixedService mixedExtra (mixedEntry ["jwt","oauth"]) .oauth (headerRequest "Bearer o")
        mixedGrant ∧
      Satisfied mixedService (mixedEntry ["jwt","oauth"]) mixedGrant ∧
      ¬ ∃ d, ReachesEntry (registerAuthMiddleware mixedService mixedExtra
        (mixedEntry ["jwt","oauth"]) "manual") (headerRequest "Bearer o") d) := by
  refine ⟨⟨mixed_wired _ rfl,session_sole,mixed_satisfied _,?_⟩,
    ⟨mixed_wired _ rfl,token_sole,mixed_satisfied _,?_⟩,
    ⟨mixed_wired _ rfl,oauth_sole,mixed_satisfied _,?_⟩⟩
  · rintro ⟨d,hd⟩
    cases hd
  · rintro ⟨d,hd⟩
    cases hd
  · rintro ⟨d,hd⟩
    cases hd

end SdkApi.CredentialCompleteness
