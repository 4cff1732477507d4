import SdkApi.ChainSegments

/-!
# When a role decision stands before the entry handler

Three factories add role decisions: the API key one only for entries with
roles, the other two only for entries with a user-identity mode and with the
client of the driver configured, and the manual one passes on what the router
has given to the API key validator.
-/

namespace SdkApi.AuthorizationGate
open GoStrings RequestContext CredentialMiddleware RoleMiddleware AuthChain ChainFrames List
open AuthSoundness ChainSegments HandlerChain

def Authorized (entry : EntryDef) (d : Ctx) : Prop :=
  ∃ auth, d.auth = some auth ∧ Decided auth entry.roles entry.permissions d

/-- A valid entry that restricts access. -/
structure Deployed (s : Service) (entry : EntryDef) (extra : EntryAuthExtra) : Prop where
  modes : entry.authModes ≠ []
  restricted : entry.roles ≠ [] ∨ entry.permissions ≠ []
  driver : s.auth.driver ∈ ["manual","openfga-zitadel","ory"]
  valid : validateEntryAuthConfig s entry s.auth.driver = .ok ()
  built : buildAuthExtra s = .ok extra
  jwtCfg : ∃ cfg, s.jwtCfg = some cfg ∧ cfg.tokenLookup = ""

/-- Behind the router of the service's driver. -/
abbrev arrival (s : Service) (entry : EntryDef) (req : Request) : Ctx :=
  routed s entry s.auth.driver req

/-- `apiKeyRoleMiddleware` contributes a handler. -/
def keyRoleGate (s : Service) (entry : EntryDef) : Bool :=
  hasAuth entry "apikey" && !entry.roles.isEmpty && s.authValidator.isSome

def routes (s : Service) (entry : EntryDef) : Bool :=
  needsAuthRouter entry (hasJWT entry s.auth.driver) (hasAuth entry "oauth")
    (hasAuth entry "apikey") (hasAuth entry "basic") s.jwtCfg

def KeyForm (entry : EntryDef) (raw : String) : Prop :=
  ∃ key, presentedKey (apiKeyConfigForEntry entry none none) raw = .ok key

def KeyRouted (s : Service) (entry : EntryDef) : Prop :=
  routes s entry = true ∧ ∃ raw, routedMode entry raw = "apikey" ∧ KeyForm entry raw

/-- Some header value has the form of an API key without being a Bearer one. -/
def PlainKey (entry : EntryDef) : Prop :=
  ∃ raw, hasPrefix raw "Bearer " = false ∧ KeyForm entry raw

def Covered (s : Service) (entry : EntryDef) : Prop :=
  if hasIdentityAuth entry = false then keyRoleGate s entry = true
  else if roleGate s s.auth.driver = true then
    s.auth.driver ≠ "manual" ∨ keyRoleGate s entry = true ∨ ¬ KeyRouted s entry ∨
      (hasAuth entry "jwt" = true ∧ entry.requiresMFA = true)
  else if hasAuth entry "jwt" = false then
    hasAuth entry "basic" = false ∧ hasAuth entry "oauth" = false ∧ keyRoleGate s entry = true
  -- without `authValidator` the manual chain holds a nil handler
  else if s.auth.driver = "manual" then True
  else if jwtReadable entry = true then
    routes s entry = false ∧ keyRoleGate s entry = true ∧
      ¬ (s.apiKeyValidator.isSome ∧ PlainKey entry)
  else
    entry.requiresMFA = true ∨
      (hasAuth entry "basic" = false ∧ (keyRoleGate s entry = true ∨ ¬ KeyRouted s entry))

lemma authorized_note (entry : EntryDef) {c : Ctx} {auth : AuthContext} (who : Decider)
    (h : c.auth = some auth) :
    Authorized entry (c.note (.decided who auth entry.roles entry.permissions)) :=
  ⟨auth,h,who,by simp [Ctx.note]⟩

section

variable {s : Service} {entry : EntryDef}

lemma keyRole_next (hg : keyRoleGate s entry) {m k : Ctx}
    (hm : m.authMode ∉ ["jwt","basic","oauth","session"])
    (h : Reaches (((apiKeyRoleMiddleware entry s.authValidator).map some).map slot) m k) :
    m.auth.isSome ∧ Authorized entry k := by
  simp only [keyRoleGate, Bool.and_eq_true, Bool.not_eq_true', isEmpty_eq_false_iff,
    Option.isSome_iff_exists] at hg
  obtain ⟨⟨ha,hr⟩,v,hv⟩ := hg
  simp only [apiKeyRoleMiddleware, ha, hr, hv, Bool.true_eq_false, or_self, if_false,
    map_cons, map_nil, reaches_cons, reaches_nil, slot, Option.getD_some,
    if_neg hm] at h
  obtain ⟨e,he,rfl⟩ := h
  obtain ⟨auth,hu,rfl⟩ := requireDecision_next he
  exact ⟨by simp [hu],authorized_note entry _ hu⟩

lemma keySegment_frame {c k : Ctx} (h : Reaches ((keySegment s entry).map slot) c k) :
    k.req = c.req ∧ k.authMode = c.authMode ∧ k.claims = c.claims := by
  have ho : ∀ m, Reaches (((apiKeyRoleMiddleware entry s.authValidator).map some).map slot) m k →
      k.req = m.req ∧ k.authMode = m.authMode ∧ k.claims = m.claims := by
    intro m hm
    simp only [apiKeyRoleMiddleware] at hm
    split_ifs at hm
    · simp only [map_nil, reaches_nil] at hm
      simp [hm]
    · cases hv : s.authValidator with
      | none => simp_all
      | some v =>
        simp only [hv, map_cons, map_nil, reaches_cons, reaches_nil, slot,
          Option.getD_some] at hm
        obtain ⟨e,he,rfl⟩ := hm
        split_ifs at he
        · simp [(next_eq m _).mp he]
        · obtain ⟨auth,-,rfl⟩ := requireDecision_next he
          exact ⟨rfl,rfl,rfl⟩
  rw [keySegment] at h
  split_ifs at h
  · obtain ⟨m,hm,hk⟩ := (reaches_cons _ _ _ _).mp h
    obtain ⟨h1,h2,h3⟩ := ho m hk
    rcases apiKeyMiddleware_next hm with ⟨-,rfl⟩ | ⟨-,-,g1,g2,g3,-⟩
    · exact ⟨h1,h2,h3⟩
    · exact ⟨h1.trans g1,h2.trans g2,h3.trans g3⟩
  · simp only [map_nil, reaches_nil] at h
    simp [h]

lemma keySegment_skipped {c : Ctx} (hs : apiKeySkips entry c)
    (hg : keyRoleGate s entry = false ∨ c.authMode ∈ ["jwt","basic","oauth","session"]) :
    Reaches ((keySegment s entry).map slot) c c := by
  refine reaches_self c fun g he => ?_
  obtain ⟨mw,hmw,rfl⟩ := mem_map.mp he
  simp only [keySegment, mem_ite_nil_right, mem_cons, mem_map] at hmw
  obtain ⟨ha,rfl | ⟨f,hf,rfl⟩⟩ := hmw
  · simp [slot, apiKeyMiddleware, hs, RequestContext.next]
  · cases hv : s.authValidator with
    | none => simp [apiKeyRoleMiddleware, hv] at hf
    | some v =>
      simp only [apiKeyRoleMiddleware, hv, mem_ite_nil_left, mem_singleton, not_or] at hf
      obtain ⟨⟨-,ho⟩,rfl⟩ := hf
      have hm : c.authMode ∈ ["jwt","basic","oauth","session"] :=
        hg.resolve_left (by simp [keyRoleGate, (hasAuth_iff entry).mp ha, ho, hv])
      simp only [slot, Option.getD_some, if_pos hm, RequestContext.next]

lemma keySegment_form (ha : hasAuth entry "apikey") {c k : Ctx} (hs : ¬ apiKeySkips entry c)
    (h : Reaches ((keySegment s entry).map slot) c k) : KeyForm entry c.req.authorization := by
  simp only [keySegment, ha, if_true] at h
  obtain ⟨m,hm,-⟩ := (reaches_cons _ _ _ _).mp h
  rcases apiKeyMiddleware_next hm with ⟨hk,-⟩ | ⟨-,he,-⟩
  · exact absurd hk hs
  · exact he

lemma keySegment_authorized (hg : keyRoleGate s entry) {c k : Ctx}
    (he : c.authMode ∉ ["jwt","basic","oauth","session"])
    (h : Reaches ((keySegment s entry).map slot) c k) :
    Authorized entry k ∧
      (c.auth = none → ¬ apiKeySkips entry c ∧ s.apiKeyValidator.isSome) := by
  have ha : hasAuth entry "apikey" := by
    simp only [keyRoleGate, Bool.and_eq_true] at hg
    exact hg.1.1
  simp only [keySegment, ha, if_true] at h
  obtain ⟨m,hm,hk⟩ := (reaches_cons _ _ _ _).mp h
  rcases apiKeyMiddleware_next hm with ⟨-,rfl⟩ | ⟨hs,-,-,hmm,-,hv⟩
  · obtain ⟨ho,hu⟩ := keyRole_next hg he hk
    exact ⟨hu,fun hn => by simp [hn] at ho⟩
  · obtain ⟨ho,hu⟩ := keyRole_next hg (hmm ▸ he) hk
    refine ⟨hu,fun hn => ⟨hs,?_⟩⟩
    by_contra hne
    rw [hv (by simpa using hne), hn] at ho
    simp at ho

variable {driver : String}

lemma mfa_next {c d : Ctx}
    (h : Reaches ((if entry.requiresMFA then [some mfaRequired] else []).map slot) c d) :
    d = c ∧ (entry.requiresMFA → c.claims.isSome) := by
  split_ifs at h with hm
  · simp only [map_cons, map_nil, reaches_cons, reaches_nil, slot, Option.getD_some] at h
    obtain ⟨e,he,rfl⟩ := h
    refine ⟨mfaRequired_next he,fun _ => ?_⟩
    cases hc : c.claims with
    | none => simp [mfaRequired, hc] at he
    | some _ => rfl
  · exact ⟨(reaches_nil c d).mp h,fun hm' => absurd hm' hm⟩

lemma tail_gated (hi : hasIdentityAuth entry) (hg : roleGate s driver)
    {u t r d : Ctx} (ht : Reaches ((tokenSegment s entry driver).map slot) u t)
    (hr : Reaches ((appendNonJWTRoles s entry driver).map slot) t r)
    (hl : Reaches ((limitSegment s entry driver).map slot) r d) :
    ∃ g, (hasJWT entry driver → slot (tokenSlot s entry driver) u = .next g) ∧
      (hasJWT entry driver = false → g = u) ∧ slot (roleSlot s entry driver) g = .next d ∧
      (hasJWT entry driver → entry.requiresMFA → d.claims.isSome) := by
  have ho : (roleSlot s entry driver).isSome := (roleSlot_isSome hi).trans hg
  have hd := limitSegment_next hl
  rw [appendNonJWTRoles_eq] at hr
  by_cases hj : hasJWT entry driver
  · simp only [hj, Bool.true_or, if_true, map_nil, reaches_nil] at hr
    simp only [tokenSegment, hj, unlessNil, ho, if_true, ite_self,
      map_cons, cons_append, nil_append, reaches_cons] at ht
    obtain ⟨g,hg1,e,he,hm⟩ := ht
    obtain ⟨rfl,ha⟩ := mfa_next hm
    subst hd hr
    exact ⟨g,fun _ => hg1,fun hn => by simp [hj] at hn,he,fun _ => ha⟩
  · have hj' : hasJWT entry driver = false := by simpa using hj
    simp only [tokenSegment, hj', Bool.false_eq_true, if_false, map_nil, reaches_nil] at ht
    simp only [hj', hi, Bool.not_true, Bool.or_self, Bool.false_eq_true, if_false, unlessNil, ho,
      if_true, map_cons, map_nil, reaches_cons, reaches_nil] at hr
    obtain ⟨e,he,rfl⟩ := hr
    subst hd ht
    exact ⟨t,fun hn => absurd hn hj,fun _ => rfl,he,fun hn => absurd hn hj⟩

lemma tail_ungated (hi : hasIdentityAuth entry) (hg : roleGate s driver = false)
    {u t r d : Ctx} (ht : Reaches ((tokenSegment s entry driver).map slot) u t)
    (hr : Reaches ((appendNonJWTRoles s entry driver).map slot) t r)
    (hl : Reaches ((limitSegment s entry driver).map slot) r d) :
    (hasJWT entry driver → driver ≠ "manual" ∧
        slot (tokenSlot s entry driver) u = .next d ∧
        (entry.requiresMFA → d.claims.isSome)) ∧
      (hasJWT entry driver = false → d = u) := by
  have hn : roleSlot s entry driver = none := by
    have h := (roleSlot_isSome hi).trans hg
    simpa using h
  have hd := limitSegment_next hl
  have hr' : r = t := by
    rw [appendNonJWTRoles_eq, hn] at hr
    simpa [unlessNil] using hr
  subst hd hr'
  refine ⟨fun hj => ?_,fun hj => by simpa [tokenSegment, hj] using ht⟩
  simp only [tokenSegment, hj, hn, if_true] at ht
  by_cases hm : driver = "manual"
  · -- the nil handler of the manual driver passes nothing on
    simp [hm, reaches_cons, slot] at ht
  · simp only [hm, unlessNil, Option.isSome_none, Bool.false_eq_true, if_false,
      map_cons, nil_append, cons_append, reaches_cons] at ht
    obtain ⟨e,he,hmf⟩ := ht
    obtain ⟨rfl,ha⟩ := mfa_next hmf
    exact ⟨hm,he,ha⟩

end

section

variable {s : Service} {extra : EntryAuthExtra} {entry : EntryDef}

section

variable (hd : s.auth.driver ∈ ["manual","openfga-zitadel","ory"])
include hd

lemma hasJWT_eq : hasJWT entry s.auth.driver = hasAuth entry "jwt" := by
  simp only [mem_cons, not_mem_nil, or_false] at hd
  rcases hd with h | h | h <;> simp [hasJWT, h]

lemma routes_eq : routes s entry =
    if (hasAuth entry "jwt").toNat+(hasAuth entry "oauth").toNat+(hasAuth entry "apikey").toNat+
        (hasAuth entry "basic").toNat < 2 then false
    else jwtReadsHeader entry s.jwtCfg || hasAuth entry "basic" || hasAuth entry "oauth" := by
  rw [routes, needsAuthRouter, hasJWT_eq hd]

lemma routes_of_basic (hb : hasAuth entry "basic")
    (ho : hasAuth entry "jwt" ∨ hasAuth entry "oauth" ∨ hasAuth entry "apikey") :
    routes s entry := by
  have hn : ∀ j o a : Bool, j ∨ o ∨ a → ¬ (j.toNat+o.toNat+a.toNat+true.toNat < 2) := by decide
  rw [routes_eq hd, hb, if_neg (hn _ _ _ ho)]
  simp

lemma routes_of_oauth (ho : hasAuth entry "oauth")
    (ht : hasAuth entry "jwt" ∨ hasAuth entry "basic" ∨ hasAuth entry "apikey") :
    routes s entry := by
  have hn : ∀ j b a : Bool, j ∨ b ∨ a → ¬ (j.toNat+true.toNat+a.toNat+b.toNat < 2) := by decide
  rw [routes_eq hd, ho, if_neg (hn _ _ _ ht)]
  simp

end

lemma routed_authMode (req : Request) :
    (arrival s entry req).authMode =
      if routes s entry then routedMode entry req.authorization else "" := rfl

lemma keyRouted_of_reaches {req : Request} {k : Ctx}
    (hm : (arrival s entry req).authMode = "apikey")
    (hk : Reaches ((keySegment s entry).map slot) (arrival s entry req) k) :
    KeyRouted s entry := by
  have hm' := hm
  rw [routed_authMode] at hm'
  split_ifs at hm' with hr
  · exact ⟨hr,req.authorization,hm',keySegment_form (routedMode_apikey hm')
      (by simp [apiKeySkips, hm]) hk⟩
  · simp at hm'

lemma authorized_of_keyRoleGate (hg : keyRoleGate s entry) {c k u : Ctx}
    (hm : c.authMode ∉ ["jwt","basic","oauth","session"])
    (hk : Reaches ((keySegment s entry).map slot) c k)
    (hu : Reaches ((userSegment s extra entry s.auth.driver).map slot) k u) :
    Authorized entry u := by
  have ha := (keySegment_authorized hg hm hk).1
  have ho : k.auth.isSome := by
    obtain ⟨auth,h,-⟩ := ha
    simp [h]
  rw [(userSegment_next hu).2.2 (.inl ho)]
  exact ha

lemma routes_of_key_session (hj : hasAuth entry "jwt" = false) (hb : hasAuth entry "basic" = false)
    (ho : hasAuth entry "oauth" = false) : routes s entry = false := by
  have hu : (hasAuth entry "apikey").toNat < 2 := Bool.toNat_lt _
  simp [routes, needsAuthRouter, hasJWT, hj, hb, ho, hu]

lemma gated_authorizes (h : Deployed s entry extra) (hi : hasIdentityAuth entry)
    (hg : roleGate s s.auth.driver)
    (hc : s.auth.driver ≠ "manual" ∨ keyRoleGate s entry ∨ ¬ KeyRouted s entry ∨
      (hasAuth entry "jwt" ∧ entry.requiresMFA))
    {req : Request} {k u t r d : Ctx}
    (hk : Reaches ((keySegment s entry).map slot) (arrival s entry req) k)
    (hu : Reaches ((userSegment s extra entry s.auth.driver).map slot) k u)
    (ht : Reaches ((tokenSegment s entry s.auth.driver).map slot) u t)
    (hr : Reaches ((appendNonJWTRoles s entry s.auth.driver).map slot) t r)
    (hl : Reaches ((limitSegment s entry s.auth.driver).map slot) r d) : Authorized entry d := by
  obtain ⟨g,hgj,hn,hro,hmf⟩ := tail_gated hi hg ht hr hl
  rcases roleSlot_next hro with ⟨hz,ho,hmo,rfl⟩ | ⟨auth,who,ha,rfl⟩
  · obtain ⟨cfg,hcf,hlo⟩ := h.jwtCfg
    obtain ⟨-,hkm,hkc⟩ := keySegment_frame hk
    obtain ⟨huc,huo,hus⟩ := userSegment_next hu
    have hm' : d.authMode = u.authMode ∧ (u.authMode = "apikey" → d = u) := by
      by_cases hj : hasJWT entry s.auth.driver
      · rcases tokenSlot_next hcf hlo (hgj hj) with
          ⟨-,rfl⟩ | ⟨-,-,rfl⟩ | ⟨-,hsk,auth,-,-,-,hm,-⟩
        · exact ⟨rfl,fun _ => rfl⟩
        · exact ⟨rfl,fun _ => rfl⟩
        · exact ⟨hm,fun hk => absurd (by simp [hk]) hsk⟩
      · rw [hn (by simpa using hj)]
        exact ⟨rfl,fun _ => rfl⟩
    have hum : u.authMode = "apikey" := hm'.1 ▸ hmo
    have hcm : (arrival s entry req).authMode = "apikey" := by rw [← hkm, ← huo, hum]
    have hdu := hm'.2 hum
    rcases hc with hc | hc | hc | hc
    · have he := h.driver
      simp [hc, hz, ho] at he
    · rw [hdu]
      exact authorized_of_keyRoleGate hc (by simp [hcm]) hk hu
    · exact absurd (keyRouted_of_reaches hcm hk) hc
    · -- the skipped token validator has left no claims for the second factor
      have hcl := hmf ((hasJWT_eq h.driver).trans hc.1) hc.2
      rw [hdu, huc, hkc] at hcl
      simp [routed] at hcl
  · exact authorized_note entry who ha

lemma jwtReadable_default (hf : entry.jwtFrom = "") : jwtReadable entry := by
  have hu : cut "header:Authorization" ':' = ("header","Authorization",true) := by decide
  simp [jwtReadable, entryLookup, hf, hu]

lemma unreadable_authorizes (h : Deployed s entry extra) (hj : hasAuth entry "jwt")
    (he : jwtReadable entry = false)
    (hc : entry.requiresMFA ∨
      (hasAuth entry "basic" = false ∧ (keyRoleGate s entry ∨ ¬ KeyRouted s entry)))
    {req : Request} {k u d : Ctx}
    (hk : Reaches ((keySegment s entry).map slot) (arrival s entry req) k)
    (hu : Reaches ((userSegment s extra entry s.auth.driver).map slot) k u)
    (ht : slot (tokenSlot s entry s.auth.driver) u = .next d)
    (hmf : entry.requiresMFA → d.claims.isSome) : Authorized entry d := by
  obtain ⟨cfg,hcf,ho⟩ := h.jwtCfg
  obtain ⟨-,hkm,ha⟩ := keySegment_frame hk
  obtain ⟨hi,hum,-⟩ := userSegment_next hu
  rcases tokenSlot_next hcf ho ht with
    ⟨hm,rfl⟩ | ⟨hfr,-⟩ | ⟨hr',-⟩
  · rcases hc with hc | ⟨hb,hc⟩
    · have hl := hmf hc
      rw [hi, ha] at hl
      simp [routed] at hl
    · rw [hum, hkm, routed_authMode] at hm
      have hcm : (arrival s entry req).authMode = "apikey" := by
        rw [routed_authMode]
        split_ifs at hm ⊢ with hr
        · simp only [routedMode, hj, hb, Bool.and_true, Bool.and_false] at hm ⊢
          split_ifs at hm ⊢ <;> simp_all
        · simp at hm
      have hg : keyRoleGate s entry :=
        hc.resolve_right (fun hn => hn (keyRouted_of_reaches hcm hk))
      exact authorized_of_keyRoleGate hg (by simp [hcm]) hk hu
  · simp [jwtReadable_default hfr] at he
  · simp [hr'] at he

lemma keyless_unreachable (ho : routes s entry = false) (hg : keyRoleGate s entry)
    (hc : ¬ (s.apiKeyValidator.isSome ∧ PlainKey entry)) (req : Request) (k : Ctx) :
    ¬ Reaches ((keySegment s entry).map slot) (arrival s entry req) k := by
  intro hk
  have hm : (arrival s entry req).authMode = "" := by simp [routed_authMode, ho]
  have ha : hasAuth entry "apikey" := by
    simp only [keyRoleGate, Bool.and_eq_true] at hg
    exact hg.1.1
  obtain ⟨hi,hv⟩ := (keySegment_authorized hg (by simp [hm]) hk).2 rfl
  have hl : hasPrefix req.authorization "Bearer " = false := by
    by_contra hb
    exact hi (.inr (.inl ⟨hm,(Bool.not_eq_false _).mp hb⟩))
  exact hc ⟨hv,req.authorization,hl,keySegment_form ha hi hk⟩

lemma covered_authorizes (h : Deployed s entry extra) (hc : Covered s entry) {req : Request}
    {d : Ctx} (hr : ReachesEntry (registerAuthMiddleware s extra entry s.auth.driver) req d) :
    Authorized entry d := by
  obtain ⟨k,u,t,r,hk,hu,ht,ho,hl⟩ := (reaches_behindRouter h.driver _ d).mp
    ((reachesEntry_iff d).mp hr)
  have hjw : hasJWT entry s.auth.driver = hasAuth entry "jwt" := hasJWT_eq h.driver
  rw [Covered] at hc
  by_cases hi : hasIdentityAuth entry
  · rw [if_neg (by simp [hi])] at hc
    by_cases hg : roleGate s s.auth.driver
    · rw [if_pos hg] at hc
      exact gated_authorizes h hi hg hc hk hu ht ho hl
    · rw [if_neg hg] at hc
      obtain ⟨hto,ha⟩ := tail_ungated hi (by simpa using hg) ht ho hl
      by_cases hj : hasAuth entry "jwt"
      · rw [if_neg (by simp [hj])] at hc
        obtain ⟨hm,hto,hmf⟩ := hto (hjw.trans hj)
        rw [if_neg hm] at hc
        by_cases he : jwtReadable entry
        · rw [if_pos he] at hc
          exact absurd hk (keyless_unreachable hc.1 hc.2.1 hc.2.2 req k)
        · rw [if_neg he] at hc
          exact unreadable_authorizes h hj (by simpa using he) hc hk hu hto hmf
      · have hj' : hasAuth entry "jwt" = false := (Bool.not_eq_true _).mp hj
        rw [if_pos hj'] at hc
        rw [ha (hjw.trans hj')]
        have hmo : (arrival s entry req).authMode = "" := by
          simp [routed_authMode, routes_of_key_session hj' hc.1 hc.2.1]
        exact authorized_of_keyRoleGate hc.2.2 (by simp [hmo]) hk hu
  · have hi' : hasIdentityAuth entry = false := by simpa using hi
    rw [if_pos hi'] at hc
    have hj : hasJWT entry s.auth.driver = false := by
      by_contra hj
      exact hi (hasIdentityAuth_of_hasJWT (by simpa using hj))
    have htu : t = u := by simpa [tokenSegment, hj] using ht
    have hrt : r = t := by simpa [appendNonJWTRoles_eq, hi'] using ho
    rw [limitSegment_next hl, hrt, htu]
    exact authorized_of_keyRoleGate hc
      (by simp [routed_of_no_identity hi' req]) hk hu

end

end SdkApi.AuthorizationGate
