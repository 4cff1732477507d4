import SdkApi.ModeValidators

/-!
# The way of one credential through the chain

A request with one valid credential passes three stages: the API key handlers,
the basic, oauth and session validators, and what stands behind them. A
validator of another mode that is asked refuses it. For each kind of credential
this module says in which routed contexts the request arrives at the handler.
-/

namespace SdkApi.CredentialStages
open GoStrings RequestContext CredentialMiddleware RoleMiddleware AuthChain ChainFrames List Option
open AuthSoundness ChainSegments AuthorizationGate AuthorizationGaps MfaEnforcement ModeValidators
open HandlerChain

/-- The entry is valid, and the driver has its validators and clients. -/
structure Wired (s : Service) (extra : EntryAuthExtra) (entry : EntryDef) : Prop where
  driver : s.auth.driver ∈ ["manual","openfga-zitadel","ory"]
  valid : validateEntryAuthConfig s entry s.auth.driver = .ok ()
  built : buildAuthExtra s = .ok extra
  jwtCfg : ∃ cfg, s.jwtCfg = some cfg ∧ cfg.tokenLookup = ""
  apiKeyValidator : s.apiKeyValidator.isSome
  authValidator : s.auth.driver = "manual" → s.authValidator.isSome
  fgaClient : s.auth.driver = "openfga-zitadel" → s.fgaClient.isSome
  oryClient : s.auth.driver = "ory" → s.oryClient.isSome

def Satisfied (s : Service) (entry : EntryDef) (auth : AuthContext) : Prop :=
  (∀ v, s.authValidator = some v → v auth entry.roles entry.permissions = .ok ()) ∧
    (hasIdentityAuth entry = true → ∀ c, c.auth = some auth →
      ∃ d, slot (roleSlot s entry s.auth.driver) c = .next d)

def readsAuthorization (entry : EntryDef) : Bool :=
  match cut (entryLookup entry) ':' with
  | (source,key,found) => found && source = "header" && toLower key = "authorization"

def Placed (entry : EntryDef) (m : Mode) (raw : String) : Prop :=
  match m with
  | .session => raw = ""
  | .jwt => (readsAuthorization entry = true → hasPrefix raw "Bearer " = true) ∧
      (readsAuthorization entry = false → raw = "")
  | _ => True

/-- No validator of another mode of the entry accepts the request. -/
structure Sole (s : Service) (extra : EntryAuthExtra) (entry : EntryDef) (m : Mode)
    (req : Request) (auth : AuthContext) : Prop where
  accepted : ∃ f d, (m,f) ∈ validators s extra entry ∧ f { req := req } = .next d
  identity : ∀ f d, (m,f) ∈ validators s extra entry → f { req := req } = .next d →
    d.auth = some auth
  others : ∀ m' f, (m',f) ∈ validators s extra entry → m' ≠ m → ∀ d, f { req := req } ≠ .next d
  placed : Placed entry m req.authorization

abbrev Arrives (s : Service) (extra : EntryAuthExtra) (entry : EntryDef) (req : Request) : Prop :=
  ∃ d, ReachesEntry (registerAuthMiddleware s extra entry s.auth.driver) req d

def KeyPasses (s : Service) (entry : EntryDef) (c : Ctx) : Prop :=
  hasAuth entry "apikey" = true → apiKeySkips entry c ∧
    (keyRoleGate s entry = false ∨ c.authMode ∈ ["jwt","basic","oauth","session"])

section

variable {s : Service} {extra : EntryAuthExtra} {entry : EntryDef}

lemma reaches_unique {hs : List Handler} {c d e : Ctx} (hd : Reaches hs c d)
    (he : Reaches hs c e) : d = e := Outcome.next.inj (hd.symm.trans he)

lemma key_passed (c : Ctx) (hc : c.auth = none) (hk : hasAuth entry "apikey" → apiKeySkips entry c)
    (k : Ctx) : Reaches ((keySegment s entry).map slot) c k ↔ k = c ∧ KeyPasses s entry c := by
  have hpass : KeyPasses s entry c → Reaches ((keySegment s entry).map slot) c c := by
    intro h
    by_cases ha : hasAuth entry "apikey"
    · exact keySegment_skipped (h ha).1 (h ha).2
    · simp [keySegment, ha]
  constructor
  · intro h
    have he : KeyPasses s entry c := by
      refine fun ha => ⟨hk ha,?_⟩
      by_contra hg
      rw [not_or, Bool.not_eq_false] at hg
      exact ((keySegment_authorized hg.1 hg.2 h).2 hc).1 (hk ha)
    exact ⟨reaches_unique h (hpass he),he⟩
  · rintro ⟨rfl,h⟩
    exact hpass h

lemma key_refused (c : Ctx) (hc : c.auth = none)
    (hr : hasAuth entry "apikey" → ∀ d, keyValidator s entry c ≠ .next d) (k : Ctx) :
    Reaches ((keySegment s entry).map slot) c k ↔ k = c ∧ KeyPasses s entry c := by
  by_cases hk : hasAuth entry "apikey" → apiKeySkips entry c
  · exact key_passed c hc hk k
  · obtain ⟨ha,hs⟩ := Classical.not_imp.mp hk
    refine iff_of_false (fun h => ?_) fun h => hs (h.2 ha).1
    simp only [keySegment, ha, if_true, map_cons, reaches_cons] at h
    obtain ⟨d,hd,-⟩ := h
    simp only [slot, getD_some, apiKeyMiddleware, if_neg hs] at hd
    exact hr ha d hd

lemma keyRole_passes {e : Ctx} {auth : AuthContext} (ha : e.auth = some auth)
    (hv : ∀ v, s.authValidator = some v → v auth entry.roles entry.permissions = .ok ()) :
    ∃ k, Reaches (((apiKeyRoleMiddleware entry s.authValidator).map some).map slot) e k ∧
      k.auth = some auth := by
  unfold apiKeyRoleMiddleware
  split_ifs
  · exact ⟨e,by simp,ha⟩
  · cases hl : s.authValidator with
    | none => exact ⟨e,by simp,ha⟩
    | some v =>
      simp only [map_cons, map_nil, reaches_cons, reaches_nil, slot, getD_some]
      by_cases hm : e.authMode ∈ ["jwt","basic","oauth","session"]
      · exact ⟨e,⟨e,by rw [if_pos hm]; rfl,rfl⟩,ha⟩
      · refine ⟨e.note (.decided .authValidator auth entry.roles entry.permissions),⟨_,?_,rfl⟩,ha⟩
        simp only [if_neg hm, requireDecision, ha, hv v hl, RequestContext.next]

lemma key_admitted (ha : hasAuth entry "apikey") {c e : Ctx} {auth : AuthContext}
    (hs : ¬ apiKeySkips entry c) (he : keyValidator s entry c = .next e) (hu : e.auth = some auth)
    (hv : ∀ v, s.authValidator = some v → v auth entry.roles entry.permissions = .ok ()) :
    ∃ k, Reaches ((keySegment s entry).map slot) c k ∧ k.auth = some auth := by
  have hi : slot (some (apiKeyMiddleware entry s.apiKeyValidator s.fgaClient)) c = .next e := by
    simp only [slot, getD_some, apiKeyMiddleware, if_neg hs]
    exact he
  obtain ⟨k,hk,ha'⟩ := keyRole_passes hu hv
  simp only [keySegment, ha, if_true, map_cons, reaches_cons]
  exact ⟨k,⟨e,hi,hk⟩,ha'⟩

def Tail (s : Service) (entry : EntryDef) (u : Ctx) : Prop :=
  ∃ t r d, Reaches ((tokenSegment s entry s.auth.driver).map slot) u t ∧
    Reaches ((appendNonJWTRoles s entry s.auth.driver).map slot) t r ∧
    Reaches ((limitSegment s entry s.auth.driver).map slot) r d

lemma reach_stages (h : Wired s extra entry) (req : Request) :
    Arrives s extra entry req ↔
      ∃ k u, Reaches ((keySegment s entry).map slot) (arrival s entry req) k ∧
        Reaches ((userValidators s extra entry).map wrapped) k u ∧ Tail s entry u := by
  simp only [Arrives, reachesEntry_iff, reaches_behindRouter h.driver,
    userSegment_validators, Tail]
  constructor
  · rintro ⟨d,k,u,t,r,hk,hu,ht,hr,hd⟩
    exact ⟨k,u,hk,hu,t,r,d,ht,hr,hd⟩
  · rintro ⟨k,u,hk,hu,t,r,d,ht,hr,hd⟩
    exact ⟨d,k,u,t,r,hk,hu,ht,hr,hd⟩

lemma Wired.roleGate (h : Wired s extra entry) : roleGate s s.auth.driver := by
  have hd := h.driver
  simp only [mem_cons, not_mem_nil, or_false] at hd
  unfold ChainSegments.roleGate
  rcases hd with hd | hd | hd
  · simp [hd, h.authValidator hd]
  · simp [hd, h.fgaClient hd]
  · simp [hd, h.oryClient hd]

lemma Wired.hasJWT (h : Wired s extra entry) :
    hasJWT entry s.auth.driver = hasAuth entry "jwt" := hasJWT_eq h.driver

lemma role_step {g e : Ctx} (h : slot (roleSlot s entry s.auth.driver) g = .next e) :
    e.claims = g.claims ∧ (g.auth = none → g.authMode = "apikey") := by
  rcases roleSlot_next h with ⟨-,-,hm,rfl⟩ | ⟨auth,who,ha,rfl⟩
  · exact ⟨rfl,fun _ => hm⟩
  · exact ⟨rfl,fun hn => by simp [hn] at ha⟩

lemma mfa_reaches (c d : Ctx) :
    Reaches ((if entry.requiresMFA then [some mfaRequired] else []).map slot) c d ↔
      d = c ∧ (entry.requiresMFA → ∃ claims, c.claims = some claims ∧ secondFactor claims) := by
  by_cases hm : entry.requiresMFA
  · simp only [hm, if_true, map_cons, map_nil, reaches_cons, reaches_nil, slot,
      getD_some, mfaRequired_iff, true_implies]
    constructor
    · rintro ⟨u,⟨rfl,hc⟩,rfl⟩
      exact ⟨rfl,hc⟩
    · rintro ⟨rfl,hc⟩
      exact ⟨d,⟨rfl,hc⟩,rfl⟩
  · simp [hm]

lemma tail_plain (hl : ∀ scope id, s.allow scope id) (hi : hasIdentityAuth entry = false)
    (u : Ctx) : Tail s entry u := by
  have hj := (hasIdentityAuth_false_iff.mp hi).1
  refine ⟨u,u,u,?_,?_,limitSegment_allowed hl u⟩
  · simp [tokenSegment, hasJWT, hj]
  · simp [appendNonJWTRoles_eq, hi]

section

variable (h : Wired s extra entry) (hl : ∀ scope id, s.allow scope id)
include h hl

lemma tail_iff (hi : hasIdentityAuth entry) (u : Ctx) :
    Tail s entry u ↔ ∃ g e, (hasAuth entry "jwt" →
        slot (tokenSlot s entry s.auth.driver) u = .next g) ∧
      (hasAuth entry "jwt" = false → g = u) ∧ slot (roleSlot s entry s.auth.driver) g = .next e ∧
      (hasAuth entry "jwt" → entry.requiresMFA →
        ∃ claims, g.claims = some claims ∧ secondFactor claims) := by
  have ho : (roleSlot s entry s.auth.driver).isSome :=
    (roleSlot_isSome hi).trans h.roleGate
  unfold Tail
  rw [appendNonJWTRoles_eq, tokenSegment, h.hasJWT]
  by_cases hj : hasAuth entry "jwt"
  · simp only [hj, Bool.true_or, if_true, map_nil, reaches_nil, unlessNil, ho, ite_self,
      map_cons, cons_append, nil_append, reaches_cons, mfa_reaches, true_implies,
      Bool.true_eq_false, false_implies, true_and]
    constructor
    · rintro ⟨t,r,d,⟨g,hg,e,he,-,hm⟩,-,-⟩
      exact ⟨g,e,hg,he,(role_step he).1 ▸ hm⟩
    · rintro ⟨g,e,hg,he,hm⟩
      exact ⟨e,e,e,⟨g,hg,e,he,rfl,(role_step he).1 ▸ hm⟩,rfl,
        limitSegment_allowed hl e⟩
  · rw [Bool.not_eq_true] at hj
    simp only [hj, hi, Bool.not_true, Bool.or_self, Bool.false_eq_true, if_false, map_nil,
      reaches_nil, unlessNil, ho, if_true, map_cons, reaches_cons, false_implies,
      true_implies, true_and, and_true]
    constructor
    · rintro ⟨t,r,d,rfl,⟨e,he,rfl⟩,-⟩
      exact ⟨t,r,rfl,he⟩
    · rintro ⟨g,e,rfl,he⟩
      exact ⟨g,e,e,rfl,⟨e,he,rfl⟩,limitSegment_allowed hl e⟩

lemma tail_identified {u : Ctx} {auth : AuthContext} (ha : u.auth = some auth)
    (ht : Satisfied s entry auth)
    (hca : u.claims = none)
    (hno : hasAuth entry "jwt" → ∀ claims, ¬ Carries s entry s.auth.driver u.req claims) :
    Tail s entry u ↔ (hasAuth entry "jwt" → jwtSkips entry u ∧ entry.requiresMFA = false) := by
  by_cases hi : hasIdentityAuth entry
  · rw [tail_iff h hl hi]
    obtain ⟨e,he⟩ := ht.2 hi u ha
    constructor
    · rintro ⟨g,e',hg,-,-,hmf⟩ hj
      rcases tokenSlot_step hj (hg hj) with ⟨hs,rfl⟩ | ⟨-,claims,raw,hc,-⟩
      · refine ⟨hs,?_⟩
        by_contra hm
        obtain ⟨claims,hcl,-⟩ := hmf hj (by simpa using hm)
        simp [hca] at hcl
      · exact absurd hc (hno hj claims)
    · intro hk
      refine ⟨u,e,fun hj => ?_,fun _ => rfl,he,fun hj hm => ?_⟩
      · obtain ⟨cfg,hcf,-⟩ := h.jwtCfg
        obtain ⟨f,hf⟩ : ∃ f, tokenValidator s entry s.auth.driver = some f := by
          simp [tokenValidator, hcf]
        rw [tokenSlot_eq hj, hf]
        exact (jwtSkipWrapper_eq entry f u).1 (hk hj).1
      · simp [(hk hj).2] at hm
  · rw [Bool.not_eq_true] at hi
    have hj := (hasIdentityAuth_false_iff.mp hi).1
    simp [tail_plain hl hi u, hj]

lemma tail_anonymous (hi : hasIdentityAuth entry) (u : Ctx) (ha : u.auth = none)
    (hm : u.authMode ≠ "apikey")
    (hno : hasAuth entry "jwt" → jwtSkips entry u ∨
      ∀ claims, ¬ Carries s entry s.auth.driver u.req claims) : ¬ Tail s entry u := by
  rw [tail_iff h hl hi]
  rintro ⟨g,e,hg,hg',he,-⟩
  have hu : g = u := by
    by_cases hj : hasAuth entry "jwt"
    · rcases tokenSlot_step hj (hg hj) with ⟨-,rfl⟩ | ⟨hs,claims,raw,hc,-⟩
      · rfl
      · rcases hno hj with hk | hn
        · exact absurd hk hs
        · exact absurd hc (hn claims)
    · exact hg' (Bool.not_eq_true _ ▸ hj)
  subst hu
  exact hm ((role_step he).2 ha)

lemma tail_token {auth : AuthContext} {f : Handler} (hsa : Satisfied s entry auth)
    (hj : hasAuth entry "jwt") {u : Ctx}
    (hu : u.auth = none) (hm : u.authMode ≠ "apikey") {claims : MapClaims}
    {raw : String} (hf : tokenValidator s entry s.auth.driver = some f)
    (hfu : f u = .next (withToken u claims raw)) (hau : buildAuthContext claims raw = auth) :
    Tail s entry u ↔ ¬ jwtSkips entry u ∧ (entry.requiresMFA → secondFactor claims) := by
  have hi := hasIdentityAuth_of hj
  constructor
  · intro ht
    have hk : ¬ jwtSkips entry u :=
      fun hk => tail_anonymous h hl hi u hu hm (fun _ => .inl hk) ht
    refine ⟨hk,fun hma => ?_⟩
    obtain ⟨g,e,hg,-,-,ha⟩ := (tail_iff h hl hi u).mp ht
    obtain ⟨cl,hcl,ho⟩ := ha hj hma
    have hgu := hg hj
    rw [tokenSlot_eq hj, hf] at hgu
    change jwtSkipWrapper entry f u = .next g at hgu
    rw [(jwtSkipWrapper_eq entry f u).2 hk, hfu] at hgu
    obtain rfl := Outcome.next.inj hgu
    obtain rfl : claims = cl := some.inj hcl
    exact ho
  · rintro ⟨hk,hma⟩
    obtain ⟨e,he⟩ := hsa.2 hi (withToken u claims raw) (congrArg some hau)
    refine (tail_iff h hl hi u).mpr ⟨withToken u claims raw,e,fun _ => ?_,fun hn => ?_,he,
      fun _ hmf => ⟨claims,rfl,hma hmf⟩⟩
    · rw [tokenSlot_eq hj, hf]
      exact ((jwtSkipWrapper_eq entry f u).2 hk).trans hfu
    · simp [hn] at hj

end

variable {m : Mode} {req : Request} {auth : AuthContext}

variable {w : Mode × Handler} {c : Ctx} {f : Handler}

lemma mem_validators_user (hw : w ∈ userValidators s extra entry) :
    w ∈ validators s extra entry := by
  simp [validators, hw]

lemma mem_validators_key (ha : hasAuth entry "apikey") :
    (Mode.apikey,keyValidator s entry) ∈ validators s extra entry := by
  simp [validators, (hasAuth_iff entry).mp ha]

lemma mem_validators_token (hj : hasAuth entry "jwt")
    (hf : tokenValidator s entry s.auth.driver = some f) :
    (Mode.jwt,f) ∈ validators s extra entry := by
  simp [validators, (hasAuth_iff entry).mp hj, hf]

lemma Sole.no_token (hs : Sole s extra entry m req auth) (hm : m ≠ .jwt) (hj : hasAuth entry "jwt")
    (claims : MapClaims) : ¬ Carries s entry s.auth.driver req claims := by
  rintro ⟨f,raw,hf,hn⟩
  exact hs.others .jwt f (mem_validators_token hj hf) hm.symm _ hn

lemma KeyPasses.route (h : KeyPasses s entry c) (ha : hasAuth entry "apikey") :
    c.authMode ≠ "apikey" := by
  intro hm
  have hs := (h ha).1
  simp [apiKeySkips, hm] at hs

lemma reaches_refusing {ws : List (Mode × Handler)} (hc : c.auth = none)
    (hr : ∀ w ∈ ws, ∀ d, w.2 c ≠ .next d) (u : Ctx) :
    Reaches (ws.map wrapped) c u ↔ u = c ∧ ∀ w ∈ ws, c.authMode ∈ w.1.others := by
  induction ws with
  | nil => simp
  | cons w ws ih =>
    by_cases hm : c.authMode ∈ w.1.others
    · simp [reaches_cons, wrapped_excluded w hm, ih fun v hv => hr v (by simp [hv]), hm]
    · have hno := hr w (by simp)
      simp [reaches_cons, wrapped_asked w hc hm, hno, hm]

lemma userValidators_mode : ∀ w ∈ userValidators s extra entry, w.1 ≠ .apikey ∧ w.1 ≠ .jwt := by
  intro w hw
  simp only [userValidators, mem_append, mem_ite_nil_right, mem_singleton,
    List.mem_map] at hw
  rcases hw with ((⟨-,rfl⟩ | ⟨-,o,-,rfl⟩) | ⟨-,o,-,rfl⟩) | ⟨-,o,-,rfl⟩ <;> simp

section

variable (hs : Sole s extra entry m req auth) (h : Wired s extra entry)
include hs h

lemma Sole.refuses (hw : w ∈ validators s extra entry) (hm : w.1 ≠ m) (hc : c.req = req) :
    ∀ d, w.2 c ≠ .next d :=
  (decides_validators s extra entry h.apiKeyValidator w hw).refuses hc (hs.others w.1 w.2 hw hm)

lemma Sole.accepts (hf : (m,f) ∈ validators s extra entry) {d : Ctx}
    (hd : f { req := req } = .next d) (hc : c.req = req) :
    ∃ e, f c = .next e ∧ e.auth = some auth ∧ e.req = c.req ∧ e.authMode = c.authMode := by
  obtain ⟨auth',ha,hl⟩ := decides_validators s extra entry h.apiKeyValidator _ hf _ _ hd
  obtain rfl : auth = auth' := some.inj ((hs.identity f d hf hd).symm.trans ha)
  exact hl c hc

lemma Sole.key_stage (hm : m ≠ .apikey) (k : Ctx) :
    Reaches ((keySegment s entry).map slot) (arrival s entry req) k ↔
      k = arrival s entry req ∧ KeyPasses s entry (arrival s entry req) :=
  key_refused _ rfl (fun ha => hs.refuses h (mem_validators_key ha) hm.symm rfl) k

lemma reach_user (hl : ∀ scope id, s.allow scope id) (hsa : Satisfied s entry auth)
    (hk : m ≠ .apikey) (hj : m ≠ .jwt)
    (hi : (userValidators s extra entry).find?
      ((arrival s entry req).authMode ∉ ·.1.others) = some (m,f)) {d : Ctx}
    (hd : f { req := req } = .next d) :
    Arrives s extra entry req ↔ KeyPasses s entry (arrival s entry req) ∧
        (hasAuth entry "jwt" → jwtSkips entry (arrival s entry req) ∧
          entry.requiresMFA = false) := by
  have hme := mem_of_find?_eq_some hi
  have hde := decides_userValidators s extra entry _ hme
  obtain ⟨e,he,hau,hq,hm⟩ := hs.accepts h (mem_validators_user hme) hd
    (c := arrival s entry req) rfl
  have hu : ∀ u, Reaches ((userValidators s extra entry).map wrapped)
      (arrival s entry req) u ↔ e = u := by
    intro u
    rw [reaches_asked hi hde rfl]
    show f _ = .next u ↔ e = u
    rw [he, Outcome.next.injEq]
  have ha : e.claims = none := by
    have hr := (hu e).mpr rfl
    rw [← userSegment_validators] at hr
    exact (userSegment_next hr).1
  have ht := tail_identified h hl hau hsa ha (fun hjw => hq ▸ hs.no_token hj hjw)
  rw [jwtSkips_congr hq hm] at ht
  simp [reach_stages h, hs.key_stage h hk, hu, ht, and_assoc]

lemma reach_refused (hk : m ≠ .apikey) (hi : (userValidators s extra entry).find?
      ((arrival s entry req).authMode ∉ ·.1.others) = some w)
    (hr : ∀ d, w.2 { req := req } ≠ .next d) :
    ¬ Arrives s extra entry req := by
  have he := decides_userValidators s extra entry w (mem_of_find?_eq_some hi)
  rw [reach_stages h]
  rintro ⟨k,u,hy,hu,-⟩
  obtain ⟨rfl,-⟩ := (hs.key_stage h hk k).mp hy
  rw [reaches_asked hi he rfl] at hu
  have hq : (arrival s entry req).req = ({ req := req } : Ctx).req := rfl
  exact he.refuses hq hr u hu

lemma Sole.user_stage (hm : ∀ w ∈ userValidators s extra entry, w.1 ≠ m) (hc : c.auth = none)
    (he : c.req = req) (u : Ctx) :
    Reaches ((userValidators s extra entry).map wrapped) c u ↔
      u = c ∧ ∀ w ∈ userValidators s extra entry, c.authMode ∈ w.1.others :=
  reaches_refusing hc (fun w hw => hs.refuses h (mem_validators_user hw) (hm w hw) he) u

end

/-- The key handlers and the validators of other modes pass the request on to that of tokens. -/
abbrev TokenAsked (s : Service) (extra : EntryAuthExtra) (entry : EntryDef) (c : Ctx) : Prop :=
  KeyPasses s entry c ∧ (∀ w ∈ userValidators s extra entry, c.authMode ∈ w.1.others) ∧
    ¬ jwtSkips entry c

lemma reach_token (hs : Sole s extra entry .jwt req auth) (h : Wired s extra entry)
    (hl : ∀ scope id, s.allow scope id) (hsa : Satisfied s entry auth) :
    hasAuth entry "jwt" ∧ ∃ claims, Carries s entry s.auth.driver req claims ∧
      (Arrives s extra entry req ↔ TokenAsked s extra entry (arrival s entry req) ∧
        (entry.requiresMFA → secondFactor claims)) := by
  obtain ⟨f,d,hme,hd⟩ := hs.accepted
  have hf : hasAuth entry "jwt" ∧ tokenValidator s entry s.auth.driver = some f := by
    simp only [validators, mem_append, mem_ite_nil_right, mem_singleton,
      List.mem_map, mem_toList] at hme
    rcases hme with (⟨-,hw⟩ | hw) | ⟨hj,g,hg,hq⟩
    · cases hw
    · exact absurd rfl (userValidators_mode _ hw).2
    · cases hq
      exact ⟨hj,hg⟩
  obtain ⟨hj,hf⟩ := hf
  obtain ⟨claims,raw,hal⟩ := tokenValidator_admits hf _ _ hd
  have ha : buildAuthContext claims raw = auth := by
    have hi := hs.identity f _ hme (hal { req := req } rfl)
    exact some.inj hi
  refine ⟨hj,claims,⟨f,raw,hf,hal _ rfl⟩,?_⟩
  have he := hs.user_stage h (fun w hw => (userValidators_mode w hw).2)
    (c := arrival s entry req) rfl rfl
  simp only [reach_stages h, hs.key_stage h (by decide)]
  constructor
  · rintro ⟨k,u,⟨rfl,hy⟩,hu,ht⟩
    obtain ⟨rfl,hx⟩ := (he u).mp hu
    have ho : (arrival s entry req).authMode ≠ "apikey" := by
      intro hm
      have hm' := hm
      rw [routed_authMode] at hm'
      split_ifs at hm'
      · exact hy.route (routedMode_apikey hm') hm
      · simp at hm'
    obtain ⟨hk,hmf⟩ := (tail_token h hl hsa hj rfl ho hf (hal _ rfl) ha).mp ht
    exact ⟨⟨hy,hx,hk⟩,hmf⟩
  · rintro ⟨⟨hy,hx,hk⟩,hmf⟩
    have ho : (arrival s entry req).authMode ≠ "apikey" := by
      intro hm
      exact hk (.inl (by simp [hm]))
    exact ⟨_,_,⟨rfl,hy⟩,(he _).mpr ⟨rfl,hx⟩,
      (tail_token h hl hsa hj rfl ho hf (hal _ rfl) ha).mpr ⟨hk,hmf⟩⟩

lemma reach_key (hs : Sole s extra entry .apikey req auth) (h : Wired s extra entry)
    (hl : ∀ scope id, s.allow scope id) (hsa : Satisfied s entry auth) :
    hasAuth entry "apikey" ∧
      (Arrives s extra entry req ↔ (¬ apiKeySkips entry (arrival s entry req) ∧
          (hasAuth entry "jwt" → jwtSkips entry (arrival s entry req) ∧
            entry.requiresMFA = false)) ∨
        (apiKeySkips entry (arrival s entry req) ∧ hasIdentityAuth entry = false ∧
          keyRoleGate s entry = false)) := by
  obtain ⟨f,d,hme,hd⟩ := hs.accepted
  have hf : hasAuth entry "apikey" ∧ f = keyValidator s entry := by
    simp only [validators, mem_append, mem_ite_nil_right, mem_singleton,
      List.mem_map, mem_toList] at hme
    rcases hme with (⟨ha,hw⟩ | hw) | ⟨-,g,-,heq⟩
    · cases hw
      exact ⟨ha,rfl⟩
    · exact absurd rfl (userValidators_mode _ hw).1
    · cases heq
  obtain ⟨ha,rfl⟩ := hf
  refine ⟨ha,?_⟩
  rw [reach_stages h]
  by_cases hsk : apiKeySkips entry (arrival s entry req)
  · simp only [hsk, not_true_eq_false, false_and, true_and, false_or]
    have ho : (arrival s entry req).authMode ≠ "apikey" := by
      intro hm
      simp [apiKeySkips, hm] at hsk
    constructor
    · rintro ⟨k,u,hk,hu,ht⟩
      obtain ⟨rfl,hp⟩ := (key_passed _ rfl (fun _ => hsk) k).mp hk
      obtain ⟨rfl,-⟩ := (hs.user_stage h (fun w hw => (userValidators_mode w hw).1) rfl rfl u).mp hu
      have hi : hasIdentityAuth entry = false := by
        by_contra hi
        exact tail_anonymous h hl (by simpa using hi) _ rfl ho
          (fun hj => .inr (hs.no_token (by decide) hj)) ht
      refine ⟨hi,(hp ha).2.resolve_right ?_⟩
      rw [arrival, routed_of_no_identity hi]
      simp
    · rintro ⟨hi,hg⟩
      have hn : userValidators s extra entry = [] := by
        simp [userValidators, hasIdentityAuth_false_iff.mp hi]
      rw [hn]
      exact ⟨_,_,keySegment_skipped hsk (.inl hg),(reaches_nil _ _).mpr rfl,
        tail_plain hl hi _⟩
  · simp only [hsk, not_false_eq_true, true_and, false_and, or_false]
    obtain ⟨e,he,hau,hre,ho⟩ := hs.accepts h hme hd (c := arrival s entry req) rfl
    obtain ⟨k,hk,hka⟩ := key_admitted ha hsk he hau hsa.1
    obtain ⟨hq,hkm,hkl⟩ := keySegment_frame hk
    have hta := tail_identified h hl hka hsa hkl (fun hj => hq ▸ hs.no_token (by decide) hj)
    rw [jwtSkips_congr hq hkm] at hta
    rw [← hta]
    constructor
    · rintro ⟨k',u,hk',hu,ht⟩
      obtain rfl := reaches_unique hk hk'
      obtain rfl := (reaches_identity _ (by simp [hka]) u).mp hu
      exact ht
    · intro ht
      exact ⟨k,k,hk,(reaches_identity _ (by simp [hka]) k).mpr rfl,ht⟩

end

end SdkApi.CredentialStages
