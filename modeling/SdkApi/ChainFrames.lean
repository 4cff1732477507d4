import SdkApi.AuthChain

/-!
# What the handlers of a chain leave unchanged

Every handler behind the router keeps the request and its route, only adds
to the trace, and gives an identity only when the validator of a mode of the
entry has accepted. The statement about a whole chain follows from the one
about each handler.
-/

namespace SdkApi.ChainFrames
open GoStrings RequestContext CredentialMiddleware RoleMiddleware AuthChain HandlerChain List Option

structure Extends (modes : List String) (c d : Ctx) : Prop where
  req : d.req = c.req
  authMode : d.authMode = c.authMode
  trace : c.trace <:+ d.trace
  auth : d.auth = c.auth ∨ ∃ m ∈ modes, Accepted m d

def Keeps (modes : List String) (h : Handler) : Prop :=
  ∀ c d, h c = .next d → Extends modes c d

lemma extends_refl (modes : List String) (c : Ctx) : Extends modes c c :=
  ⟨rfl,rfl,suffix_rfl,.inl rfl⟩

variable {m : String} {c d : Ctx}

lemma accepted_mono (ht : c.trace <:+ d.trace) (h : Accepted m c) : Accepted m d := by
  obtain ⟨auth,ha⟩ := h
  exact ⟨auth,ht.subset ha⟩

variable {modes : List String}

lemma extends_trans {c d e : Ctx} (h : Extends modes c d)
    (k : Extends modes d e) : Extends modes c e := by
  refine ⟨k.req.trans h.req,k.authMode.trans h.authMode,h.trace.trans k.trace,?_⟩
  rcases k.auth with hk | hk
  · rcases h.auth with hh | ⟨m,hm,ha⟩
    · exact .inl (hk.trans hh)
    · exact .inr ⟨m,hm,accepted_mono k.trace ha⟩
  · exact .inr hk

lemma extends_next (h : next c = .next d) : Extends modes c d :=
  (next_eq c d).mp h ▸ extends_refl modes c

lemma extends_note (modes : List String) (c : Ctx) {e : Event} : Extends modes c (c.note e) :=
  ⟨rfl,rfl,suffix_cons e c.trace,.inl rfl⟩

lemma extends_of_admitted (hm : m ∈ modes) (h : Admitted m c d) : Extends modes c d := by
  have ha := h.accepted
  obtain ⟨auth,-,ht,hr,ho,-⟩ := h
  exact ⟨hr,ho,ht ▸ suffix_cons _ c.trace,.inr ⟨m,hm,ha⟩⟩

lemma keeps_chain {hs : List Handler} (hk : ∀ h ∈ hs, Keeps modes h)
    (hr : Reaches hs c d) : Extends modes c d :=
  reaches_relation (Extends modes) (extends_refl modes) hs
    (fun h hh _ _ _ hrs hst => extends_trans hrs (hk h hh _ _ hst)) c d hr

lemma keeps_skipWhenRouted (hm : m ∈ modes) {others : List String} {mw : Handler}
    (h : ∀ c d, mw c = .next d → Admitted m c d) : Keeps modes (skipWhenRouted others mw) := by
  intro c d hcd
  rw [skipWhenRouted] at hcd
  split_ifs at hcd
  · exact extends_next hcd
  · exact extends_next hcd
  · exact extends_of_admitted hm (h c d hcd)

lemma keeps_jwtSkipWrapper (hm : "jwt" ∈ modes) (entry : EntryDef) {mw : Handler}
    (h : ∀ c d, mw c = .next d → Admitted "jwt" c d) : Keeps modes (jwtSkipWrapper entry mw) := by
  intro c d hcd
  rw [jwtSkipWrapper] at hcd
  split_ifs at hcd
  · exact extends_next hcd
  · exact extends_next hcd
  · exact extends_of_admitted hm (h c d hcd)

lemma requireDecision_next {v : AuthValidator} {roles permissions : List String} {c d : Ctx}
    (h : requireDecision v roles permissions c = .next d) :
    ∃ auth, c.auth = some auth ∧ d = c.note (.decided .authValidator auth roles permissions) := by
  rw [requireDecision] at h
  cases ha : c.auth with
  | none => simp [ha] at h
  | some auth =>
    simp only [ha] at h
    split at h <;> simp at h
    exact ⟨auth,rfl,h.symm⟩

lemma keeps_requireDecision (modes : List String) (v : AuthValidator)
    (roles permissions : List String) : Keeps modes (requireDecision v roles permissions) := by
  intro c d h
  obtain ⟨auth,-,rfl⟩ := requireDecision_next h
  exact extends_note modes c

lemma keeps_apiKeyMiddleware (hm : "apikey" ∈ modes) (entry : EntryDef) {v : Option ApiKeyValidator}
    {f : Option Checker} : Keeps modes (apiKeyMiddleware entry v f) := by
  intro c d h
  rw [apiKeyMiddleware] at h
  split_ifs at h
  · exact extends_next h
  · rcases apiKey_next h with ⟨-,ha⟩ | ⟨-,-,rfl⟩ | ⟨-,-,rfl⟩
    · exact extends_of_admitted hm ha
    · exact extends_note modes c
    · exact extends_refl modes _

@[simp] lemma hasAuth_iff (entry : EntryDef) {m : String} :
    hasAuth entry m ↔ m ∈ entry.authModes := by
  simp [hasAuth]

lemma keeps_slot {mw : Option Handler}
    (h : ∀ f, mw = some f → Keeps modes f) : Keeps modes (slot mw) := by
  intro c d hcd
  obtain ⟨f,hf,hfc⟩ := slot_next hcd
  exact h f hf c d hfc

section

variable (s : Service) (extra : EntryAuthExtra) (entry : EntryDef) (driver : String)

def behindRouter : List (Option Handler) :=
  appendCredentialMiddlewares s extra entry driver ++ appendNonJWTRoles s entry driver ++
  (if hasAuth entry "apikey" || hasJWT entry driver || hasAuth entry "basic" ||
      hasAuth entry "oauth" || hasAuth entry "session" then
    unlessNil (buildPostAuthRL s entry) else [])

variable {s extra entry driver}

lemma keeps_basicMiddleware (v : Option BasicValidator) :
    Keeps entry.authModes (slot (basicMiddleware entry v)) := by
  refine keeps_slot fun f hf => ?_
  simp only [basicMiddleware, ite_none_right_eq_some, hasAuth_iff, some.injEq] at hf
  exact hf.2 ▸ keeps_skipWhenRouted hf.1 (basic_next v)

lemma keeps_oauthMiddleware (cfg : Option OAuthConfig) :
    Keeps entry.authModes (slot (oauthMiddleware entry cfg)) := by
  refine keeps_slot fun f hf => ?_
  simp only [oauthMiddleware, ite_none_right_eq_some, hasAuth_iff, map_eq_some_iff] at hf
  obtain ⟨hm,o,-,rfl⟩ := hf
  exact keeps_skipWhenRouted hm (introspect_next o)

lemma keeps_sessionMiddleware (cfg : Option SessionConfig) :
    Keeps entry.authModes (slot (sessionMiddleware entry cfg)) := by
  refine keeps_slot fun f hf => ?_
  simp only [sessionMiddleware, ite_none_right_eq_some, hasAuth_iff, map_eq_some_iff] at hf
  obtain ⟨hm,o,-,rfl⟩ := hf
  exact keeps_skipWhenRouted hm (session_next o)

lemma keeps_kratosSessionMiddleware (client : Option OryClient) :
    Keeps entry.authModes (slot (kratosSessionMiddleware entry client)) := by
  refine keeps_slot fun f hf => ?_
  simp only [kratosSessionMiddleware, ite_none_right_eq_some, hasAuth_iff,
    map_eq_some_iff] at hf
  obtain ⟨hm,o,-,rfl⟩ := hf
  exact keeps_skipWhenRouted hm (kratosSession_next o)

lemma keeps_jwtMiddleware (cfg : Option JWTConfig) :
    Keeps entry.authModes (slot (jwtMiddleware entry cfg)) := by
  refine keeps_slot fun f hf => ?_
  simp only [jwtMiddleware, ite_none_right_eq_some, hasAuth_iff, map_eq_some_iff] at hf
  obtain ⟨hm,o,-,rfl⟩ := hf
  exact keeps_jwtSkipWrapper hm entry (jwt_next _)

lemma keeps_zitadelJWTMiddleware (cfg : Option JWTConfig) (client : Option ZitadelClient) :
    Keeps entry.authModes (slot (zitadelJWTMiddleware entry cfg client)) := by
  refine keeps_slot fun f hf => ?_
  simp only [zitadelJWTMiddleware, ite_none_right_eq_some, hasAuth_iff,
    bind_eq_some_iff, map_eq_some_iff] at hf
  obtain ⟨hm,z,-,o,-,rfl⟩ := hf
  exact keeps_jwtSkipWrapper hm entry (jwtRemote_next _)

lemma keeps_oryJWTMiddleware (cfg : Option JWTConfig) (client : Option OryClient) :
    Keeps entry.authModes (slot (oryJWTMiddleware entry cfg client)) := by
  refine keeps_slot fun f hf => ?_
  simp only [oryJWTMiddleware, ite_none_right_eq_some, hasAuth_iff,
    bind_eq_some_iff, map_eq_some_iff] at hf
  obtain ⟨hm,z,-,o,-,rfl⟩ := hf
  exact keeps_jwtSkipWrapper hm entry (jwtRemote_next _)

section

variable {modes roles permissions : List String}

lemma keeps_openfgaMiddleware (client : Option Checker) :
    Keeps modes (slot (openfgaMiddleware entry client roles permissions)) := by
  refine keeps_slot fun f hf c d hcd => ?_
  simp only [openfgaMiddleware, ite_none_right_eq_some, map_eq_some_iff] at hf
  obtain ⟨-,o,-,rfl⟩ := hf
  obtain ⟨auth,-,rfl⟩ := openFGA_next hcd
  exact extends_note modes c

lemma keeps_oryMiddleware (client : Option OryClient) :
    Keeps modes (slot (oryMiddleware entry client roles permissions)) := by
  refine keeps_slot fun f hf c d hcd => ?_
  simp only [oryMiddleware, ite_none_right_eq_some, map_eq_some_iff] at hf
  obtain ⟨-,o,-,rfl⟩ := hf
  obtain ⟨auth,-,rfl⟩ := ory_next hcd
  exact extends_note modes c

lemma keeps_manualAuthMiddleware (v : Option AuthValidator) :
    Keeps modes (slot (manualAuthMiddleware entry roles permissions v)) := by
  refine keeps_slot fun f hf c d hcd => ?_
  simp only [manualAuthMiddleware, ite_none_right_eq_some, map_eq_some_iff] at hf
  obtain ⟨-,w,-,rfl⟩ := hf
  beta_reduce at hcd
  split_ifs at hcd
  · exact extends_next hcd
  · exact keeps_requireDecision modes w roles permissions c d hcd

end

lemma keeps_apiKeyRoleMiddleware (modes : List String) (v : Option AuthValidator) :
    ∀ h ∈ apiKeyRoleMiddleware entry v, Keeps modes h := by
  intro h hh c d hcd
  cases v with
  | none => simp [apiKeyRoleMiddleware] at hh
  | some w =>
    simp only [apiKeyRoleMiddleware, mem_ite_nil_left, mem_singleton] at hh
    obtain ⟨-,rfl⟩ := hh
    beta_reduce at hcd
    split_ifs at hcd
    · exact extends_next hcd
    · exact keeps_requireDecision modes w _ _ c d hcd

lemma keeps_mfaRequired (modes : List String) : Keeps modes (slot (some mfaRequired)) :=
  fun c _ h => mfaRequired_next h ▸ extends_refl modes c

lemma keeps_buildPostAuthRL (modes : List String) :
    Keeps modes (slot (buildPostAuthRL s entry)) := by
  refine keeps_slot fun f hf c d hcd => ?_
  simp only [buildPostAuthRL, ite_none_left_eq_some, some.injEq] at hf
  obtain ⟨-,rfl⟩ := hf
  exact rateLimitPost_next hcd ▸ extends_refl modes c

lemma keeps_appendJWTMiddleware :
    ∀ mw ∈ appendJWTMiddleware s entry driver, Keeps entry.authModes (slot mw) := by
  have hj := @keeps_jwtMiddleware entry s.jwtCfg
  have hz := @keeps_zitadelJWTMiddleware entry s.jwtCfg s.zitadelClient
  have ho := @keeps_oryJWTMiddleware entry s.jwtCfg s.oryClient
  have hf :=
    @keeps_openfgaMiddleware entry entry.authModes entry.roles entry.permissions s.fgaClient
  have hk := @keeps_oryMiddleware entry entry.authModes entry.roles entry.permissions s.oryClient
  have hv := @keeps_manualAuthMiddleware entry entry.authModes entry.roles entry.permissions
    s.authValidator
  intro mw hm
  rw [appendJWTMiddleware] at hm
  split_ifs at hm <;> simp only [mem_cons, not_mem_nil, or_false] at hm
  all_goals rcases hm with rfl | rfl <;> assumption

lemma keeps_appendCredentialMiddlewares :
    ∀ mw ∈ appendCredentialMiddlewares s extra entry driver, Keeps entry.authModes (slot mw) := by
  intro mw hmw
  simp only [appendCredentialMiddlewares, mem_append, mem_ite_nil_right, mem_cons,
    not_mem_nil, or_false, hasAuth_iff, List.mem_map] at hmw
  rcases hmw with ((((⟨hm,rfl | ⟨f,hf,rfl⟩⟩ | ⟨-,rfl⟩) | ⟨-,rfl⟩) | ⟨-,rfl⟩) | ⟨-,rfl⟩) |
    ⟨-,hmw | ⟨-,rfl⟩⟩
  · exact keeps_apiKeyMiddleware hm entry
  · exact keeps_apiKeyRoleMiddleware _ _ f hf
  · exact keeps_basicMiddleware _
  · exact keeps_oauthMiddleware _
  · exact keeps_sessionMiddleware _
  · exact keeps_kratosSessionMiddleware _
  · exact keeps_appendJWTMiddleware mw hmw
  · exact keeps_mfaRequired _

lemma mem_unlessNil (mw f : Option Handler) : f ∈ unlessNil mw ↔ mw.isSome ∧ f = mw := by
  simp [unlessNil]

lemma keeps_appendNonJWTRoles :
    ∀ mw ∈ appendNonJWTRoles s entry driver, Keeps entry.authModes (slot mw) := by
  intro mw hm
  rw [appendNonJWTRoles] at hm
  split_ifs at hm
  · simp at hm
  · exact ((mem_unlessNil _ _).mp hm).2 ▸ keeps_openfgaMiddleware _
  · exact ((mem_unlessNil _ _).mp hm).2 ▸ keeps_oryMiddleware _
  · exact ((mem_unlessNil _ _).mp hm).2 ▸ keeps_manualAuthMiddleware _

lemma keeps_behindRouter :
    ∀ h ∈ (behindRouter s extra entry driver).map slot, Keeps entry.authModes h := by
  intro h hh
  obtain ⟨mw,hm,rfl⟩ := List.mem_map.mp hh
  simp only [behindRouter, mem_append, mem_ite_nil_right, mem_unlessNil] at hm
  rcases hm with (hm | hm) | ⟨-,-,rfl⟩
  · exact keeps_appendCredentialMiddlewares mw hm
  · exact keeps_appendNonJWTRoles mw hm
  · exact keeps_buildPostAuthRL _

end

end SdkApi.ChainFrames
