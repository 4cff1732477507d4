import SdkApi.AuthSoundness

/-!
# The segments of the authentication chain

Behind the router stand, in this order, the API key handlers, the basic,
oauth and session validators, the token validator, the role decision and the
limits. This module takes the chain apart along these lines and says what
each segment does to a request that is routed elsewhere or already has an
identity.
-/

namespace SdkApi.ChainSegments
open GoStrings RequestContext CredentialMiddleware RoleMiddleware AuthChain ChainFrames List Option
open AuthSoundness HandlerChain

section

variable (s : Service) (extra : EntryAuthExtra) (entry : EntryDef) (driver : String)

def keySegment : List (Option Handler) :=
  if hasAuth entry "apikey" then
    some (apiKeyMiddleware entry s.apiKeyValidator s.fgaClient)::
      (apiKeyRoleMiddleware entry s.authValidator).map some else []

def userSegment : List (Option Handler) :=
  (if hasAuth entry "basic" then [basicMiddleware entry extra.basicValidator] else []) ++
  (if hasAuth entry "oauth" && extra.oauth.isSome then [oauthMiddleware entry extra.oauth] else []) ++
  (if hasAuth entry "session" && extra.session.isSome then
    [sessionMiddleware entry extra.session] else []) ++
  (if hasAuth entry "session" && driver = "ory" && s.oryClient.isSome then
    [kratosSessionMiddleware entry s.oryClient] else [])

def tokenSlot : Option Handler :=
  if driver = "openfga-zitadel" then
    if s.zitadelClient.isSome then zitadelJWTMiddleware entry s.jwtCfg s.zitadelClient
    else jwtMiddleware entry s.jwtCfg
  else if driver = "ory" then
    if s.oryClient.isSome then oryJWTMiddleware entry s.jwtCfg s.oryClient
    else jwtMiddleware entry s.jwtCfg
  else jwtMiddleware entry s.jwtCfg

def roleSlot : Option Handler :=
  if driver = "openfga-zitadel" then
    openfgaMiddleware entry s.fgaClient entry.roles entry.permissions
  else if driver = "ory" then oryMiddleware entry s.oryClient entry.roles entry.permissions
  else manualAuthMiddleware entry entry.roles entry.permissions s.authValidator

def roleGate : Bool :=
  if driver = "openfga-zitadel" then s.fgaClient.isSome
  else if driver = "ory" then s.oryClient.isSome
  else s.authValidator.isSome

/-- For the manual driver the decision is appended even when it is nil. -/
def tokenSegment : List (Option Handler) :=
  if hasJWT entry driver then
    tokenSlot s entry driver::
      (if driver = "manual" then [roleSlot s entry driver]
        else unlessNil (roleSlot s entry driver)) ++
      (if entry.requiresMFA then [some mfaRequired] else [])
  else []

def limitSegment : List (Option Handler) :=
  if hasAuth entry "apikey" || hasJWT entry driver || hasAuth entry "basic" ||
      hasAuth entry "oauth" || hasAuth entry "session" then
    unlessNil (buildPostAuthRL s entry) else []

def roleTail : List (Option Handler) :=
  if driver = "manual" then [roleSlot s entry driver]
  else if driver = "openfga-zitadel" ∨ driver = "ory" then unlessNil (roleSlot s entry driver)
  else []

def tokenChain : List (Option Handler) :=
  if hasJWT entry driver then
    tokenSlot s entry driver::(roleTail s entry driver ++
      (if entry.requiresMFA then [some mfaRequired] else []))
  else []

/-- As `jwtConfigForEntry` resolves it. -/
def entryLookup : String := if entry.jwtFrom = "" then "header:Authorization" else entry.jwtFrom

/-- The lookup names a source that `extractToken` knows. -/
def jwtReadable : Bool :=
  match cut (entryLookup entry) ':' with
  | (source,_,found) => found && ["header","cookie","query"].contains source

/-- It passes on requests with an identity, and keeps claims and route. -/
def UserStep (h : Handler) : Prop := ∀ c d, h c = .next d →
  d.claims = c.claims ∧ d.authMode = c.authMode ∧ (c.auth.isSome ∨ c.authMode = "apikey" → d = c)

variable {s extra entry driver}

lemma roleSlot_isSome (hi : hasIdentityAuth entry) :
    (roleSlot s entry driver).isSome = roleGate s driver := by
  simp only [roleSlot, roleGate]
  split_ifs <;> simp [openfgaMiddleware, oryMiddleware, manualAuthMiddleware, hi]

lemma hasIdentityAuth_of_hasJWT (hj : hasJWT entry driver) : hasIdentityAuth entry := by
  simp only [hasJWT, Bool.and_eq_true] at hj
  exact hasIdentityAuth_of hj.1.1

lemma appendJWTMiddleware_split (hj : hasJWT entry driver) :
    appendJWTMiddleware s entry driver = tokenSlot s entry driver::roleTail s entry driver := by
  have he := @roleSlot_isSome s entry driver (hasIdentityAuth_of_hasJWT hj)
  by_cases hm : driver = "manual"
  · subst hm
    simp [appendJWTMiddleware, tokenSlot, roleTail, roleSlot]
  by_cases hz : driver = "openfga-zitadel"
  · subst hz
    simp only [roleGate, if_true] at he
    simp only [roleTail, unlessNil, he]
    simp [appendJWTMiddleware, tokenSlot, roleSlot]
  by_cases ho : driver = "ory"
  · subst ho
    simp only [roleGate, String.reduceEq, if_false, if_true] at he
    simp only [roleTail, unlessNil, he]
    cases hc : s.oryClient <;> simp [appendJWTMiddleware, tokenSlot, roleSlot, hc]
  · simp [appendJWTMiddleware, tokenSlot, roleTail, hm, hz, ho]

lemma behindRouter_split : behindRouter s extra entry driver =
    keySegment s entry ++ (userSegment s extra entry driver ++ (tokenChain s entry driver ++
      (appendNonJWTRoles s entry driver ++ limitSegment s entry driver))) := by
  by_cases hj : hasJWT entry driver
  · simp [behindRouter, appendCredentialMiddlewares, keySegment, userSegment, tokenChain,
      limitSegment, hj, appendJWTMiddleware_split hj]
  · simp [behindRouter, appendCredentialMiddlewares, keySegment, userSegment, tokenChain,
      limitSegment, hj]

lemma tokenChain_eq (hd : driver ∈ ["manual","openfga-zitadel","ory"]) :
    tokenChain s entry driver = tokenSegment s entry driver := by
  simp only [mem_cons, not_mem_nil, or_false] at hd
  by_cases hm : driver = "manual"
  · simp [tokenChain, tokenSegment, roleTail, hm]
  · simp [tokenChain, tokenSegment, roleTail, hm, hd.resolve_left hm]

lemma behindRouter_eq (hd : driver ∈ ["manual","openfga-zitadel","ory"]) :
    behindRouter s extra entry driver =
      keySegment s entry ++ (userSegment s extra entry driver ++ (tokenSegment s entry driver ++
        (appendNonJWTRoles s entry driver ++ limitSegment s entry driver))) := by
  rw [behindRouter_split, tokenChain_eq hd]

lemma appendNonJWTRoles_eq : appendNonJWTRoles s entry driver =
    if hasJWT entry driver || !hasIdentityAuth entry then []
    else unlessNil (roleSlot s entry driver) := by
  simp only [appendNonJWTRoles, roleSlot]
  split_ifs <;> rfl

lemma reaches_behindRouter (hd : driver ∈ ["manual","openfga-zitadel","ory"]) (c d : Ctx) :
    Reaches ((behindRouter s extra entry driver).map slot) c d ↔
      ∃ k u t r, Reaches ((keySegment s entry).map slot) c k ∧
        Reaches ((userSegment s extra entry driver).map slot) k u ∧
        Reaches ((tokenSegment s entry driver).map slot) u t ∧
        Reaches ((appendNonJWTRoles s entry driver).map slot) t r ∧
        Reaches ((limitSegment s entry driver).map slot) r d := by
  simp only [behindRouter_eq hd, map_append, reaches_append]
  constructor
  · rintro ⟨k,hk,u,hu,t,ht,r,hr,hl⟩
    exact ⟨k,u,t,r,hk,hu,ht,hr,hl⟩
  · rintro ⟨k,u,t,r,hk,hu,ht,hr,hl⟩
    exact ⟨k,hk,u,hu,t,ht,r,hr,hl⟩

variable {c d : Ctx}

lemma limitSegment_next (h : Reaches ((limitSegment s entry driver).map slot) c d) : d = c := by
  rw [limitSegment] at h
  split_ifs at h
  · cases hl : buildPostAuthRL s entry with
    | none => simpa [unlessNil, hl] using h
    | some f =>
      simp only [buildPostAuthRL, ite_none_left_eq_some, some.injEq] at hl
      simp only [unlessNil, buildPostAuthRL, if_neg hl.1, isSome_some, if_true,
        map_cons, map_nil, reaches_cons, reaches_nil, slot, getD_some] at h
      obtain ⟨e,he,rfl⟩ := h
      exact rateLimitPost_next he
  · exact (reaches_nil c d).mp h

lemma limitSegment_allowed (h : ∀ scope id, s.allow scope id) (c : Ctx) :
    Reaches ((limitSegment s entry driver).map slot) c c := by
  have ho : ∀ e scope id, checkPostLimit (postLimits s entry) c e scope id = false := by
    intro e scope id
    rw [checkPostLimit]
    split <;> simp [postLimits, h]
  have hl : checkRoleLimits (postLimits s entry) c = false := by
    rw [checkRoleLimits]
    split
    · rfl
    · rw [List.any_eq_false]
      intro role _
      split <;> simp [postLimits, h]
  have hpass : rateLimitPost (postLimits s entry) c = .next c := by
    simp [rateLimitPost, ho, hl, RequestContext.next]
  refine reaches_self c fun g hg => ?_
  obtain ⟨mw,hmw,rfl⟩ := mem_map.mp hg
  simp only [limitSegment, mem_ite_nil_right, mem_unlessNil] at hmw
  obtain ⟨-,hm,rfl⟩ := hmw
  obtain ⟨f,hf⟩ := isSome_iff_exists.mp hm
  rw [hf, slot, getD_some]
  simp only [buildPostAuthRL, ite_none_left_eq_some, some.injEq] at hf
  rw [← hf.2, hpass]

lemma roleSlot_next (h : slot (roleSlot s entry driver) c = .next d) :
    (driver ≠ "openfga-zitadel" ∧ driver ≠ "ory" ∧ c.authMode = "apikey" ∧ d = c) ∨
      ∃ auth who, c.auth = some auth ∧
        d = c.note (.decided who auth entry.roles entry.permissions) := by
  obtain ⟨f,hf,hfc⟩ := slot_next h
  rw [roleSlot] at hf
  split_ifs at hf with hz ho
  · simp only [openfgaMiddleware, ite_none_right_eq_some, map_eq_some_iff] at hf
    obtain ⟨-,o,-,rfl⟩ := hf
    obtain ⟨auth,ha,hd⟩ := openFGA_next hfc
    exact .inr ⟨auth,.openfga,ha,hd⟩
  · simp only [oryMiddleware, ite_none_right_eq_some, map_eq_some_iff] at hf
    obtain ⟨-,o,-,rfl⟩ := hf
    obtain ⟨auth,ha,hd⟩ := ory_next hfc
    exact .inr ⟨auth,.keto,ha,hd⟩
  · simp only [manualAuthMiddleware, ite_none_right_eq_some, map_eq_some_iff] at hf
    obtain ⟨-,w,-,rfl⟩ := hf
    beta_reduce at hfc
    split_ifs at hfc with hm
    · exact .inl ⟨hz,ho,hm,((next_eq c d).mp hfc).symm⟩
    · obtain ⟨auth,ha,hd⟩ := requireDecision_next hfc
      exact .inr ⟨auth,.authValidator,ha,hd⟩

lemma extractToken_unreadable (hr : jwtReadable entry = false) (r : Request) :
    (extractToken r (entryLookup entry)).1 = "" := by
  rcases hu : cut (entryLookup entry) ':' with ⟨source,key,found⟩
  cases found with
  | false => simp only [extractToken, hu]
  | true =>
    simp only [jwtReadable, hu, Bool.true_and, contains_eq_mem, decide_eq_false_iff_not,
      mem_cons, not_mem_nil, or_false, not_or] at hr
    simp [extractToken, hu, hr.1, hr.2.1, hr.2.2]

lemma jwtConfigForEntry_lookup {cfg : JWTConfig} (h : cfg.tokenLookup = "") :
    (jwtConfigForEntry entry cfg).tokenLookup = entryLookup entry := by
  simp only [jwtConfigForEntry, entryLookup, h]
  by_cases hf : entry.jwtFrom = "" <;> simp [hf]

lemma entryLookup_ne : entryLookup entry ≠ "" := by
  rw [entryLookup]
  split_ifs with h
  · decide
  · exact h

/-- The token validator leaves the request to another mode, asks for nothing or accepts it. -/
def Handed (entry : EntryDef) (c d : Ctx) : Prop :=
  (c.authMode ∈ ["apikey","basic","oauth","session"] ∧ d = c) ∨
    (entry.jwtFrom = "" ∧ c.authMode = "" ∧ d = c) ∨
    (jwtReadable entry ∧ c.authMode ∉ ["apikey","basic","oauth","session"] ∧ Admitted "jwt" c d)

lemma jwtSkipWrapper_next {mw : Handler} (had : ∀ c d, mw c = .next d → Admitted "jwt" c d)
    (hk : ∀ c d, mw c = .next d → (extractToken c.req (entryLookup entry)).1 ≠ "") {c d : Ctx}
    (h : jwtSkipWrapper entry mw c = .next d) : Handed entry c d := by
  rw [jwtSkipWrapper] at h
  split_ifs at h with h1 h2
  · exact .inl ⟨h1,((next_eq c d).mp h).symm⟩
  · exact .inr (.inl ⟨h2.1,h2.2.1,((next_eq c d).mp h).symm⟩)
  · refine .inr (.inr ⟨?_,h1,had c d h⟩)
    by_contra hr
    exact hk c d h (extractToken_unreadable (by simpa using hr) c.req)

lemma tokenSlot_next {cfg : JWTConfig} (hg : s.jwtCfg = some cfg) (hl : cfg.tokenLookup = "")
    {c d : Ctx} (h : slot (tokenSlot s entry driver) c = .next d) : Handed entry c d := by
  have ho := @jwtConfigForEntry_lookup entry _ hl
  have ht : ∀ c d, jwt (jwtConfigForEntry entry cfg) c = .next d →
      (extractToken c.req (entryLookup entry)).1 ≠ "" := by
    intro c d hj he
    simp [jwt, JWTConfig.lookup, ho, entryLookup_ne, he] at hj
  have hm : ∀ v c d, jwtRemote (jwtConfigForEntry entry cfg) v c = .next d →
      (extractToken c.req (entryLookup entry)).1 ≠ "" := by
    intro v c d hj he
    simp [jwtRemote, ho, he] at hj
  obtain ⟨f,hf,hfc⟩ := slot_next h
  simp only [tokenSlot, hg, jwtMiddleware, zitadelJWTMiddleware, oryJWTMiddleware] at hf
  split_ifs at hf
  all_goals simp only [map_some, some.injEq, bind_eq_some_iff] at hf
  · obtain ⟨z,-,rfl⟩ := hf
    exact jwtSkipWrapper_next (jwtRemote_next _) (hm _) hfc
  · exact jwtSkipWrapper_next (jwt_next _) ht (hf ▸ hfc)
  · obtain ⟨z,-,rfl⟩ := hf
    exact jwtSkipWrapper_next (jwtRemote_next _) (hm _) hfc
  · exact jwtSkipWrapper_next (jwt_next _) ht (hf ▸ hfc)
  · exact jwtSkipWrapper_next (jwt_next _) ht (hf ▸ hfc)

lemma userStep_skipWhenRouted (m : String) (hm : m ≠ "jwt") {others : List String}
    (ho : "apikey" ∈ others) {mw : Handler} (h : ∀ c d, mw c = .next d → Admitted m c d) :
    UserStep (skipWhenRouted others mw) := by
  intro c d hcd
  rw [skipWhenRouted] at hcd
  split_ifs at hcd with ha hr
  · rw [(next_eq c d).mp hcd]
    exact ⟨rfl,rfl,fun _ => rfl⟩
  · rw [(next_eq c d).mp hcd]
    exact ⟨rfl,rfl,fun _ => rfl⟩
  · obtain ⟨auth,-,-,-,he,hl⟩ := h c d hcd
    refine ⟨hl hm,he,fun hk => ?_⟩
    rcases hk with hk | hk
    · exact absurd hk ha
    · exact absurd (hk ▸ ho) hr

lemma userStep_slot (mw : Option Handler) (h : ∀ f, mw = some f → UserStep f) :
    UserStep (slot mw) := by
  intro c d hcd
  obtain ⟨f,hf,hfc⟩ := slot_next hcd
  exact h f hf c d hfc

lemma userStep_userSegment : ∀ h ∈ (userSegment s extra entry driver).map slot, UserStep h := by
  intro h hh
  obtain ⟨mw,hm,rfl⟩ := mem_map.mp hh
  refine userStep_slot mw fun f hf => ?_
  simp only [userSegment, mem_append, mem_ite_nil_right, mem_singleton] at hm
  rcases hm with ((⟨-,rfl⟩ | ⟨-,rfl⟩) | ⟨-,rfl⟩) | ⟨-,rfl⟩
  · simp only [basicMiddleware, ite_none_right_eq_some, some.injEq] at hf
    exact hf.2 ▸ userStep_skipWhenRouted "basic" (by decide) (by decide) (basic_next _)
  · simp only [oauthMiddleware, ite_none_right_eq_some, map_eq_some_iff] at hf
    obtain ⟨-,o,-,rfl⟩ := hf
    exact userStep_skipWhenRouted "oauth" (by decide) (by decide) (introspect_next o)
  · simp only [sessionMiddleware, ite_none_right_eq_some, map_eq_some_iff] at hf
    obtain ⟨-,o,-,rfl⟩ := hf
    exact userStep_skipWhenRouted "session" (by decide) (by decide) (session_next o)
  · simp only [kratosSessionMiddleware, ite_none_right_eq_some, map_eq_some_iff] at hf
    obtain ⟨-,o,-,rfl⟩ := hf
    exact userStep_skipWhenRouted "session" (by decide) (by decide) (kratosSession_next o)

lemma userSegment_next (h : Reaches ((userSegment s extra entry driver).map slot) c d) :
    d.claims = c.claims ∧ d.authMode = c.authMode ∧
      (c.auth.isSome ∨ c.authMode = "apikey" → d = c) := by
  refine reaches_relation
    (fun c d => d.claims = c.claims ∧ d.authMode = c.authMode ∧
      (c.auth.isSome ∨ c.authMode = "apikey" → d = c))
    (fun _ => ⟨rfl,rfl,fun _ => rfl⟩) _ ?_ c d h
  intro f hf a b e hab he
  obtain ⟨hl,hm,hk⟩ := userStep_userSegment f hf b e he
  refine ⟨hl.trans hab.1,hm.trans hab.2.1,fun ha => ?_⟩
  have hb := hab.2.2 ha
  rw [hk (hb ▸ ha), hb]

lemma apiKeyMiddleware_next {v : Option ApiKeyValidator} {f : Option Checker} {c d : Ctx}
    (h : apiKeyMiddleware entry v f c = .next d) :
    (apiKeySkips entry c ∧ d = c) ∨
      (¬ apiKeySkips entry c ∧
        (∃ key, presentedKey (apiKeyConfigForEntry entry v f) c.req.authorization = .ok key) ∧
        d.req = c.req ∧ d.authMode = c.authMode ∧ d.claims = c.claims ∧
        (v = none → d.auth = c.auth)) := by
  rw [apiKeyMiddleware] at h
  split_ifs at h with hs
  · exact .inl ⟨hs,((next_eq c d).mp h).symm⟩
  · refine .inr ⟨hs,?_,?_⟩
    · cases hp : presentedKey (apiKeyConfigForEntry entry v f) c.req.authorization with
      | ok key => exact ⟨key,rfl⟩
      | error a =>
        have hp' : presentedKey (apiKeyConfigForEntry entry v f) (c.req.get "Authorization") =
            .error a := hp
        simp [apiKey, apiKeyConfigForEntry] at h
        simp [apiKeyConfigForEntry] at hp'
        simp [hp'] at h
    · rcases apiKey_next h with ⟨hv,auth,-,-,he,hm,hl⟩ | ⟨-,-,rfl⟩ | ⟨-,-,rfl⟩
      · refine ⟨he,hm,hl (by decide),fun hn => ?_⟩
        simp [apiKeyConfigForEntry, hn] at hv
      · exact ⟨rfl,rfl,rfl,fun _ => rfl⟩
      · exact ⟨rfl,rfl,rfl,fun _ => rfl⟩

end

end SdkApi.ChainSegments
