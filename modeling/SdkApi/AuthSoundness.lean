import SdkApi.ChainFrames

/-!
# Who has accepted a request that reaches the entry handler

A role middleware behind the validators demands an identity, and only an
accepting validator gives one. An entry without such a middleware has
nothing that notices when every validator has passed the request on: this
happens to API-key entries without roles, and to entries whose modes are all
unknown.
-/

namespace SdkApi.AuthSoundness
open GoStrings RequestContext CredentialMiddleware RoleMiddleware AuthChain ChainFrames HandlerChain
open List

def Authenticated (entry : EntryDef) (d : Ctx) : Prop := ∃ m ∈ entry.authModes, Accepted m d

/-- Everything that the driver of the entry can use is configured. -/
structure Configured (s : Service) (entry : EntryDef) (extra : EntryAuthExtra) : Prop where
  modes : entry.authModes ≠ []
  driver : s.auth.driver ∈ ["manual","openfga-zitadel","ory"]
  valid : validateEntryAuthConfig s entry s.auth.driver = .ok ()
  built : buildAuthExtra s = .ok extra
  jwtCfg : s.jwtCfg.isSome
  authValidator : s.authValidator.isSome
  apiKeyValidator : s.apiKeyValidator.isSome
  basicValidator : s.basicValidator.isSome
  oauth : extra.oauth.isSome
  session : extra.session.isSome
  fgaClient : s.auth.driver = "openfga-zitadel" → s.fgaClient.isSome
  oryClient : s.auth.driver = "ory" → s.oryClient.isSome

section

variable (s : Service) (extra : EntryAuthExtra) (entry : EntryDef) (driver : String)

def routed (req : Request) : Ctx where
  req := req
  authMode :=
    if needsAuthRouter entry (hasJWT entry driver) (hasAuth entry "oauth")
      (hasAuth entry "apikey") (hasAuth entry "basic") s.jwtCfg then
      routedMode entry req.authorization else ""

lemma registerAuthMiddleware_eq : registerAuthMiddleware s extra entry driver =
    (if needsAuthRouter entry (hasJWT entry driver) (hasAuth entry "oauth")
      (hasAuth entry "apikey") (hasAuth entry "basic") s.jwtCfg then
      [some (authRouter entry)] else []) ++ behindRouter s extra entry driver := by
  simp only [registerAuthMiddleware, behindRouter, append_assoc]

variable {s extra entry driver} {req : Request}

lemma reachesEntry_iff (d : Ctx) :
    ReachesEntry (registerAuthMiddleware s extra entry driver) req d ↔
      Reaches ((behindRouter s extra entry driver).map slot) (routed s entry driver req) d := by
  rw [ReachesEntry, registerAuthMiddleware_eq, routed]
  split_ifs with hr
  · have hm : ∀ m : String, (if m = "" then "" else m) = m := by
      intro m
      split_ifs with h <;> simp [h]
    simp [reaches_cons, slot, authRouter, hm]
  · simp

lemma routedMode_apikey {raw : String} (h : routedMode entry raw = "apikey") :
    hasAuth entry "apikey" := by
  simp only [routedMode] at h
  split_ifs at h with h1 h2 h3 h4
  all_goals simp_all

/-- Only identities pass, or requests routed to the API key validator. -/
def Gate (h : Handler) : Prop := ∀ c d, h c = .next d → c.auth.isSome ∨ c.authMode = "apikey"

lemma gate_openfgaMiddleware (client : Option Checker) :
    Gate (slot (openfgaMiddleware entry client entry.roles entry.permissions)) := by
  intro c d h
  obtain ⟨f,hf,hfc⟩ := slot_next h
  simp only [openfgaMiddleware, Option.ite_none_right_eq_some, Option.map_eq_some_iff] at hf
  obtain ⟨-,o,-,rfl⟩ := hf
  obtain ⟨auth,ha,-⟩ := openFGA_next hfc
  exact .inl (by simp [ha])

lemma gate_oryMiddleware (client : Option OryClient) :
    Gate (slot (oryMiddleware entry client entry.roles entry.permissions)) := by
  intro c d h
  obtain ⟨f,hf,hfc⟩ := slot_next h
  simp only [oryMiddleware, Option.ite_none_right_eq_some, Option.map_eq_some_iff] at hf
  obtain ⟨-,o,-,rfl⟩ := hf
  obtain ⟨auth,ha,-⟩ := ory_next hfc
  exact .inl (by simp [ha])

lemma gate_manualAuthMiddleware (v : Option AuthValidator) :
    Gate (slot (manualAuthMiddleware entry entry.roles entry.permissions v)) := by
  intro c d h
  obtain ⟨f,hf,hfc⟩ := slot_next h
  simp only [manualAuthMiddleware, Option.ite_none_right_eq_some, Option.map_eq_some_iff] at hf
  obtain ⟨-,w,-,rfl⟩ := hf
  beta_reduce at hfc
  split_ifs at hfc with hm
  · exact .inr hm
  · obtain ⟨auth,ha,-⟩ := requireDecision_next hfc
    exact .inl (by simp [ha])

lemma role_gate (hi : hasIdentityAuth entry) (hd : driver ∈ ["manual","openfga-zitadel","ory"])
    (hv : s.authValidator.isSome) (hf : driver = "openfga-zitadel" → s.fgaClient.isSome)
    (ho : driver = "ory" → s.oryClient.isSome) :
    ∃ mw ∈ behindRouter s extra entry driver, Gate (slot mw) := by
  simp only [mem_cons, not_mem_nil, or_false] at hd
  have hm : ∀ mw, (hasJWT entry driver ∧ mw ∈ appendJWTMiddleware s entry driver) ∨
      mw ∈ appendNonJWTRoles s entry driver → mw ∈ behindRouter s extra entry driver := by
    intro mw h
    simp only [behindRouter, appendCredentialMiddlewares, mem_append, mem_ite_nil_right]
    rcases h with ⟨hj,h⟩ | h
    · exact .inl (.inl (.inr ⟨hj,.inl h⟩))
    · exact .inl (.inr h)
  rcases hd with rfl | rfl | rfl
  · refine ⟨manualAuthMiddleware entry entry.roles entry.permissions s.authValidator,hm _ ?_,
      gate_manualAuthMiddleware _⟩
    by_cases hj : hasJWT entry "manual"
    · exact .inl ⟨hj,by simp [appendJWTMiddleware]⟩
    · exact .inr (by simp [appendNonJWTRoles, hj, hi, mem_unlessNil, manualAuthMiddleware, hv])
  · refine ⟨openfgaMiddleware entry s.fgaClient entry.roles entry.permissions,hm _ ?_,
      gate_openfgaMiddleware _⟩
    by_cases hj : hasJWT entry "openfga-zitadel"
    · exact .inl ⟨hj,by simp [appendJWTMiddleware, hf rfl]⟩
    · exact .inr (by simp [appendNonJWTRoles, hj, hi, mem_unlessNil, openfgaMiddleware, hf rfl])
  · refine ⟨oryMiddleware entry s.oryClient entry.roles entry.permissions,hm _ ?_,
      gate_oryMiddleware _⟩
    by_cases hj : hasJWT entry "ory"
    · exact .inl ⟨hj,by simp [appendJWTMiddleware, ho rfl]⟩
    · exact .inr (by simp [appendNonJWTRoles, hj, hi, mem_unlessNil, oryMiddleware, ho rfl])

lemma at_handler {d : Ctx} (hr : ReachesEntry (registerAuthMiddleware s extra entry driver) req d)
    {mw : Option Handler} (hm : mw ∈ behindRouter s extra entry driver) :
    ∃ u v, slot mw u = .next v ∧ Extends entry.authModes (routed s entry driver req) u ∧
      u.trace <:+ d.trace ∧ v.trace <:+ d.trace := by
  rw [reachesEntry_iff] at hr
  have hk := @keeps_behindRouter s extra entry driver
  obtain ⟨before,after,u,v,hb,ha,hu,huv,hv⟩ :=
    reaches_mem (slot mw) (mem_map_of_mem hm) hr
  have hvd := keeps_chain (fun h hh => hk h (ha h hh)) hv
  have hstep := hk (slot mw) (mem_map_of_mem hm) u v huv
  exact ⟨u,v,huv,keeps_chain (fun h hh => hk h (hb h hh)) hu,hstep.trace.trans hvd.trace,hvd.trace⟩

lemma authenticated_of_auth {u d : Ctx} (hu : Extends entry.authModes (routed s entry driver req) u)
    (ht : u.trace <:+ d.trace) (ha : u.auth.isSome) : Authenticated entry d := by
  rcases hu.auth with h | ⟨m,hm,hac⟩
  · rw [h] at ha
    simp [routed] at ha
  · exact ⟨m,hm,accepted_mono ht hac⟩

section

variable {d : Ctx} (hr : ReachesEntry (registerAuthMiddleware s extra entry driver) req d)
include hr

lemma authenticated_of_not_skips (hk : hasAuth entry "apikey") (hv : s.apiKeyValidator.isSome)
    (hi : ¬ apiKeySkips entry (routed s entry driver req)) : Authenticated entry d := by
  have hm : some (apiKeyMiddleware entry s.apiKeyValidator s.fgaClient) ∈
      behindRouter s extra entry driver := by
    simp [behindRouter, appendCredentialMiddlewares, (hasAuth_iff entry).mp hk]
  obtain ⟨u,v,huv,hu,-,hvd⟩ := at_handler hr hm
  have hs' : ¬ apiKeySkips entry u := by simpa only [apiKeySkips, hu.authMode, hu.req] using hi
  simp only [slot, Option.getD_some, apiKeyMiddleware, if_neg hs'] at huv
  refine ⟨"apikey",(hasAuth_iff entry).mp hk,accepted_mono hvd ?_⟩
  rcases apiKey_next huv with ⟨-,ha⟩ | ⟨hn,-⟩ | ⟨hn,-⟩
  · exact ha.accepted
  · simp [apiKeyConfigForEntry] at hn
    simp [hn] at hv
  · simp [apiKeyConfigForEntry] at hn
    simp [hn] at hv

lemma identity_authenticated (hi : hasIdentityAuth entry)
    (hd : driver ∈ ["manual","openfga-zitadel","ory"]) (hv : s.authValidator.isSome)
    (hkv : s.apiKeyValidator.isSome) (hf : driver = "openfga-zitadel" → s.fgaClient.isSome)
    (ho : driver = "ory" → s.oryClient.isSome) : Authenticated entry d := by
  obtain ⟨mw,hmw,hg⟩ := role_gate hi hd hv hf ho
  obtain ⟨u,v,huv,hu,hud,-⟩ := at_handler hr hmw
  rcases hg u v huv with ha | hm
  · exact authenticated_of_auth hu hud ha
  · -- the gate has let the request pass because the router chose the API key validator
    rw [hu.authMode] at hm
    have hk : hasAuth entry "apikey" := by
      simp only [routed] at hm
      split_ifs at hm
      · exact routedMode_apikey hm
      · simp at hm
    exact authenticated_of_not_skips hr hk hkv (by simp [apiKeySkips, hm])

end

lemma routed_of_no_identity (hi : hasIdentityAuth entry = false) (req : Request) :
    routed s entry driver req = { req := req } := by
  obtain ⟨hj,hb,ho,-⟩ := hasIdentityAuth_false_iff.mp hi
  have hu : (hasAuth entry "apikey").toNat < 2 := Bool.toNat_lt _
  simp [routed, needsAuthRouter, hasJWT, hj, hb, ho, hu]

lemma behindRouter_of_no_identity (hi : hasIdentityAuth entry = false) :
    behindRouter s extra entry driver =
      if hasAuth entry "apikey" then
        some (apiKeyMiddleware entry s.apiKeyValidator s.fgaClient)::
          (apiKeyRoleMiddleware entry s.authValidator).map some ++
          unlessNil (buildPostAuthRL s entry)
      else [] := by
  obtain ⟨hj,hb,ho,hs⟩ := hasIdentityAuth_false_iff.mp hi
  simp [behindRouter, appendCredentialMiddlewares, appendNonJWTRoles, hasJWT, hj, hb, ho, hs, hi]
  split_ifs <;> simp

lemma limits_pass (c : Ctx) (h : c.auth = none) :
    Reaches ((unlessNil (buildPostAuthRL s entry)).map slot) c c := by
  cases hm : buildPostAuthRL s entry with
  | none => simp [unlessNil]
  | some f =>
    simp only [buildPostAuthRL, Option.ite_none_left_eq_some, Option.some.injEq] at hm
    simp [unlessNil, slot, reaches_cons, ← hm.2, rateLimitPost_anonymous _ c h]

lemma untouched_reaches (hi : hasIdentityAuth entry = false)
    (hk : hasAuth entry "apikey" → entry.roles = [] ∧ hasPrefix req.authorization "Bearer ") :
    ReachesEntry (registerAuthMiddleware s extra entry driver) req { req := req } := by
  rw [reachesEntry_iff, routed_of_no_identity hi,
    behindRouter_of_no_identity hi]
  split_ifs with ha
  · obtain ⟨ho,hb⟩ := hk ha
    have hsk : apiKeySkips entry { req := req } := .inr (.inl ⟨rfl,hb⟩)
    simp only [apiKeyRoleMiddleware, ho, or_true, if_true, map_nil, cons_append,
      nil_append, map_cons, reaches_cons]
    exact ⟨{ req := req },by simp [slot, apiKeyMiddleware, hsk],limits_pass _ rfl⟩
  · simp

lemma roles_authenticated (d : Ctx)
    (hr : ReachesEntry (registerAuthMiddleware s extra entry driver) req d)
    (hi : hasIdentityAuth entry = false) (hk : hasAuth entry "apikey")
    (ho : entry.roles ≠ []) (hv : s.authValidator.isSome) : Authenticated entry d := by
  obtain ⟨v,hv⟩ := Option.isSome_iff_exists.mp hv
  obtain ⟨f,hf⟩ : ∃ f, f ∈ apiKeyRoleMiddleware entry s.authValidator := by
    simp [apiKeyRoleMiddleware, hk, ho, hv]
  have he : some f ∈ behindRouter s extra entry driver := by
    simp [behindRouter_of_no_identity hi, (hasAuth_iff entry).mp hk, hf]
  obtain ⟨u,w,huw,hu,hud,-⟩ := at_handler hr he
  refine authenticated_of_auth hu hud ?_
  have hm : u.authMode = "" := by rw [hu.authMode, routed_of_no_identity hi]
  simp only [apiKeyRoleMiddleware, hk, ho, or_self, if_false, hv, Bool.true_eq_false,
    mem_singleton] at hf
  subst hf
  simp only [slot, Option.getD_some, hm] at huw
  obtain ⟨auth,ha,-⟩ := requireDecision_next (by simpa using huw)
  simp [ha]

end

/-- A fully configured chain reaches the entry handler only for authenticated
requests exactly when the entry has a user-identity mode, or takes API keys
and either has roles or is not sent a Bearer header. -/
theorem registerAuthMiddleware_authenticates_iff (s : Service) (extra : EntryAuthExtra)
    (entry : EntryDef) (req : Request) (h : Configured s entry extra) :
    (∀ d, ReachesEntry (registerAuthMiddleware s extra entry s.auth.driver) req d →
      Authenticated entry d) ↔
    hasIdentityAuth entry = true ∨ hasAuth entry "apikey" = true ∧
      (entry.roles ≠ [] ∨ hasPrefix req.authorization "Bearer " = false) := by
  by_cases hi : hasIdentityAuth entry
  · refine ⟨fun _ => .inl hi,fun _ d hr => ?_⟩
    exact identity_authenticated hr hi h.driver h.authValidator
      h.apiKeyValidator h.fgaClient h.oryClient
  rw [Bool.not_eq_true] at hi
  constructor
  · intro hl
    by_contra hn
    obtain ⟨m,-,auth,ha⟩ := hl _ (untouched_reaches hi fun hk => by
      simpa [hi, (hasAuth_iff entry).mp hk] using hn)
    simp at ha
  · rintro (hi' | ⟨hk,ho | hb⟩) d hr
    · simp [hi] at hi'
    · exact roles_authenticated d hr hi hk ho h.authValidator
    · refine authenticated_of_not_skips hr hk h.apiKeyValidator ?_
      rw [routed_of_no_identity hi req]
      simp [apiKeySkips, hb, hi]

def refusingService : Service where
  auth := ⟨"manual",some ⟨"idp/introspect"⟩,some ⟨"kv",""⟩⟩
  jwtCfg := some { currentParser := fun _ => .error "signature is invalid" }
  authValidator := some fun _ _ _ => .error "forbidden"
  apiKeyValidator := some fun _ => .error "unknown key"
  basicValidator := some fun _ _ => .error "unknown user"
  kvConns := [("kv",fun _ => none)]

def refusingExtra : EntryAuthExtra where
  basicValidator := some fun _ _ => .error "unknown user"
  oauth := some ⟨"idp/introspect",fun _ => .error "unreachable",fun _ => none⟩
  session := some ⟨"sid",some fun _ => none,fun _ => none⟩

def keyEntry : EntryDef where
  type := "rest"
  path := "/orders"
  authModes := ["apikey"]
  apiPrefix := "sk-"

def bearerRequest : Request where
  header key := if key = "authorization" then "Bearer anything" else ""
  cookies := []
  query _ := ""

lemma refusingService_configured : Configured refusingService keyEntry refusingExtra where
  modes := by decide
  driver := by decide
  valid := by rfl
  built := by rfl
  jwtCfg := rfl
  authValidator := rfl
  apiKeyValidator := rfl
  basicValidator := rfl
  oauth := rfl
  session := rfl
  fgaClient h := absurd h (by decide)
  oryClient h := absurd h (by decide)

theorem authenticates_iff_for_bearer_key :
    Configured refusingService keyEntry refusingExtra ∧
    ((∀ d, ReachesEntry (registerAuthMiddleware refusingService refusingExtra keyEntry "manual")
      bearerRequest d → Authenticated keyEntry d) ↔
    hasIdentityAuth keyEntry = true ∨ hasAuth keyEntry "apikey" = true ∧
      (keyEntry.roles ≠ [] ∨ hasPrefix bearerRequest.authorization "Bearer " = false)) :=
  ⟨refusingService_configured,
    registerAuthMiddleware_authenticates_iff refusingService refusingExtra keyEntry bearerRequest
      refusingService_configured⟩

/-- A Bearer header with any value opens an API key entry without roles. -/
theorem bearer_header_unauthenticated :
    Configured refusingService keyEntry refusingExtra ∧
    ∃ d, ReachesEntry (registerAuthMiddleware refusingService refusingExtra keyEntry "manual")
      bearerRequest d ∧ ¬ Authenticated keyEntry d := by
  refine ⟨refusingService_configured,{ req := bearerRequest },?_,?_⟩
  · exact untouched_reaches (by decide) fun _ => ⟨rfl,by decide⟩
  · rintro ⟨m,-,auth,ha⟩
    simp at ha

end SdkApi.AuthSoundness
