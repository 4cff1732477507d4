import SdkApi.MfaEnforcement

/-!
# When authorization is never skipped

The segments of the accepting service are put together into one way through
the chain for each gap. With the opposite direction this gives the exact
condition on an entry and the wiring of its service.
-/

namespace SdkApi.AuthorizationCoverage
open GoStrings RequestContext CredentialMiddleware RoleMiddleware AuthChain ChainFrames List Option
open AuthSoundness ChainSegments AuthorizationGate AuthorizationGaps MfaEnforcement HandlerChain

section

variable {s : Service} {extra : EntryAuthExtra} {entry : EntryDef}

lemma validateClaims_open (cfg : JWTConfig) :
    validateClaims (openClaims cfg.issuer cfg.audience) cfg = .ok () := by
  simp [validateClaims, openClaims, getIssuer, audienceListed, getAudience, expired, lookup_cons]

lemma visitor_token (hread : jwtReadable entry) (raw : String)
    (ha : (cutPrefix raw "Bearer ").1 ≠ "") :
    (extractToken (visitor (openExtra s extra) entry raw) (entryLookup entry)).1 ≠ "" := by
  have ht : (cutPrefix "t" "Bearer ").1 ≠ "" := by decide
  rcases hu : cut (entryLookup entry) ':' with ⟨source,key,found⟩
  simp only [jwtReadable, hu, Bool.and_eq_true, contains_eq_mem, decide_eq_true_eq] at hread
  obtain ⟨rfl,ho⟩ := hread
  have hk : (visitor (openExtra s extra) entry raw).cookie key = "t" := by
    simp only [Request.cookie, visitor, hu, lookup_cons, lookup_nil]
    split <;> simp
  simp only [mem_cons, not_mem_nil, or_false] at ho
  simp only [extractToken, hu]
  rcases ho with rfl | rfl | rfl
  · simp only [if_true, Request.get, visitor]
    split_ifs
    · exact ha
    · exact ht
  · simpa [hk] using ht
  · simpa [visitor] using ht

def tokenCtx (c : Ctx) (issuer audience raw : String) : Ctx :=
  { c with claims := some (openClaims issuer audience) }.inject "jwt"
    (buildAuthContext (openClaims issuer audience) raw)

lemma mfaRequired_tokenCtx {c : Ctx} {issuer audience raw : String} :
    mfaRequired (tokenCtx c issuer audience raw) = .next (tokenCtx c issuer audience raw) := by
  simp [mfaRequired, tokenCtx, Ctx.inject, openClaims, lookup_cons, RequestContext.next]

lemma undecided_tokenCtx {c : Ctx} (h : Undecided c) {issuer audience raw : String} :
    Undecided (tokenCtx c issuer audience raw) :=
  Undecided.inject (c := { c with claims := some (openClaims issuer audience) }) h _ _

section

variable (cfg : JWTConfig) (hl : cfg.tokenLookup = "") (c : Ctx)
  (htok : (extractToken c.req (entryLookup entry)).1 ≠ "")
include hl htok

lemma jwt_open :
    ∃ raw, jwt (jwtConfigForEntry entry (openConfig cfg)) c =
      .next (tokenCtx c cfg.issuer cfg.audience raw) := by
  have ho : (jwtConfigForEntry entry (openConfig cfg)).lookup = entryLookup entry := by
    rw [JWTConfig.lookup, @jwtConfigForEntry_lookup entry (openConfig cfg) hl,
      if_neg entryLookup_ne]
  have ha : validateClaims (openClaims cfg.issuer cfg.audience)
      (jwtConfigForEntry entry (openConfig cfg)) = .ok () :=
    validateClaims_open (jwtConfigForEntry entry (openConfig cfg))
  have he : ∀ token, (jwtConfigForEntry entry (openConfig cfg)).parse token =
      .ok (openClaims cfg.issuer cfg.audience) := fun _ => rfl
  rcases hx : extractToken c.req (entryLookup entry) with ⟨token,raw⟩
  rw [hx] at htok
  refine ⟨raw,?_⟩
  simp only [jwt, ho, hx, if_neg htok, he, ha, admitToken]
  rfl

lemma jwtRemote_open :
    ∃ raw, jwtRemote (jwtConfigForEntry entry (openConfig cfg))
      (fun _ => .ok (openClaims "" "")) c = .next (tokenCtx c "" "" raw) := by
  have ho := @jwtConfigForEntry_lookup entry (openConfig cfg) hl
  rcases he : extractToken c.req (entryLookup entry) with ⟨token,raw⟩
  rw [he] at htok
  refine ⟨raw,?_⟩
  simp only [jwtRemote, ho, he, if_neg htok, admitToken]
  rfl

end

section

variable (h : Deployed s entry extra) (hg : roleGate s s.auth.driver = false)
include h hg

lemma tokenValidator_open : ∃ f, tokenValidator (permissive s) entry s.auth.driver = some f ∧
    ∀ c : Ctx, (extractToken c.req (entryLookup entry)).1 ≠ "" →
      ∃ issuer audience raw, f c = .next (tokenCtx c issuer audience raw) := by
  obtain ⟨cfg,hcf,hl⟩ := h.jwtCfg
  have hc : (permissive s).jwtCfg = some (openConfig cfg) := by simp [permissive, hcf]
  rw [tokenValidator, hc, map_some]
  refine ⟨_,rfl,fun c ht => ?_⟩
  have ha := jwt_open cfg hl c ht
  split_ifs with hz ho
  · cases hi : s.zitadelClient with
    | none =>
      simp only [permissive, hi, map_none, elim_none]
      exact ⟨_,_,ha⟩
    | some z =>
      simp only [permissive, hi, map_some, elim_some]
      exact ⟨_,_,jwtRemote_open cfg hl c ht⟩
  · simp only [roleGate, if_neg hz, if_pos ho, isSome_eq_false_iff, isNone_iff_eq_none] at hg
    simp only [permissive, hg, elim_none]
    exact ⟨_,_,ha⟩
  · exact ⟨_,_,ha⟩

variable (hj : hasAuth entry "jwt") (c : Ctx)
include hj

lemma token_accepted (hk : ¬ jwtSkips entry c)
    (htok : (extractToken c.req (entryLookup entry)).1 ≠ "") :
    ∃ issuer audience raw, slot (tokenSlot (permissive s) entry s.auth.driver) c =
      .next (tokenCtx c issuer audience raw) := by
  obtain ⟨f,hf,ho⟩ := tokenValidator_open h hg
  rw [tokenSlot_eq hj, hf]
  obtain ⟨issuer,audience,raw,he⟩ := ho c htok
  exact ⟨issuer,audience,raw,((jwtSkipWrapper_eq entry f c).2 hk).trans he⟩

lemma token_skipped (hm : c.authMode ∈ ["apikey","basic","oauth","session"]) :
    slot (tokenSlot (permissive s) entry s.auth.driver) c = .next c := by
  obtain ⟨f,hf,-⟩ := tokenValidator_open h hg
  rw [tokenSlot_eq hj, hf]
  exact (jwtSkipWrapper_eq entry f c).1 (.inl hm)

end

/-- The accepting service reaches the entry handler in `d`. -/
def Through (s : Service) (extra : EntryAuthExtra) (entry : EntryDef) (raw : String) (d : Ctx) :
    Prop :=
  ReachesEntry (registerAuthMiddleware (permissive s) (openExtra s extra) entry s.auth.driver)
    (visitor (openExtra s extra) entry raw) d

variable (raw : String)

lemma roleGate_permissive (driver : String) : roleGate (permissive s) driver = roleGate s driver := by
  simp [roleGate, permissive]

lemma roleSlot_permissive (hi : hasIdentityAuth entry) (hg : roleGate s s.auth.driver = false) :
    roleSlot (permissive s) entry s.auth.driver = none := by
  have h := @roleSlot_isSome (permissive s) entry s.auth.driver hi
  rw [roleGate_permissive, hg] at h
  simpa using h

lemma entered_of_keyRouted (hr : KeyRouted s entry) (hg : keyRoleGate s entry = false)
    (hv : s.apiKeyValidator.isSome ∨ s.fgaClient = none) :
    ∃ raw k, Entered s extra entry raw k ∧ k.authMode = "apikey" ∧ Undecided k := by
  obtain ⟨ho,raw,hm,hfo⟩ := hr
  have ht : (start s extra entry raw).authMode = "apikey" := by rw [start_authMode, if_pos ho, hm]
  obtain ⟨k,hk,-,hkm,hkd⟩ := key_entered (routedMode_apikey hm) hg (by simp [apiKeySkips, ht])
    (by rw [start_req, visitor_authorization]; exact hfo) hv (@undecided_start s extra entry raw)
  have hka := hkm.trans ht
  exact ⟨raw,k,⟨k,hk,reaches_self k (userHandler_skips k (.inr (.inl hka)))⟩,hka,hkd⟩

section

variable (h : Deployed s entry extra) {raw : String} {u : Ctx} (hu : Entered s extra entry raw u)
include h hu

lemma through_of_entered {t d : Ctx}
    (ht : Reaches ((tokenSegment (permissive s) entry s.auth.driver).map slot) u t)
    (hr : Reaches ((appendNonJWTRoles (permissive s) entry s.auth.driver).map slot) t d) :
    Through s extra entry raw d := by
  obtain ⟨k,hk,hu⟩ := hu
  refine (reachesEntry_iff _).mpr ?_
  exact (reaches_behindRouter h.driver _ _).mpr ⟨k,u,t,d,hk,hu,ht,hr,limits_open _ d⟩

lemma through_plain (hj : hasAuth entry "jwt" = false)
    (hg : hasIdentityAuth entry = false ∨ roleGate s s.auth.driver = false) :
    Through s extra entry raw u := by
  have ht : hasJWT entry s.auth.driver = false := (hasJWT_eq h.driver).trans hj
  refine through_of_entered h hu (t := u) (by simp [tokenSegment, ht]) ?_
  rw [appendNonJWTRoles_eq]
  by_cases hi : hasIdentityAuth entry
  · have hg' := hg.resolve_left (by simp [hi])
    simp [roleSlot_permissive hi hg', unlessNil]
  · simp [hi]

lemma through_token (hj : hasAuth entry "jwt")
    (hd : s.auth.driver ≠ "manual") (hg : roleGate s s.auth.driver = false) {d : Ctx}
    (ht : slot (tokenSlot (permissive s) entry s.auth.driver) u = .next d)
    (hm : entry.requiresMFA → mfaRequired d = .next d) :
    Through s extra entry raw d := by
  have hjw : hasJWT entry s.auth.driver := (hasJWT_eq h.driver).trans hj
  have hn := roleSlot_permissive (hasIdentityAuth_of_hasJWT hjw) hg
  refine through_of_entered h hu (t := d) ?_ (by simp [appendNonJWTRoles_eq, hjw])
  simp only [tokenSegment, hjw, if_true, hn, if_neg hd, unlessNil, isSome_none,
    Bool.false_eq_true, if_false, cons_append, nil_append, map_cons, reaches_cons]
  refine ⟨d,ht,reaches_self d fun g he => ?_⟩
  obtain ⟨mw,hmw,rfl⟩ := mem_map.mp he
  simp only [mem_ite_nil_right, mem_singleton] at hmw
  obtain ⟨ha,rfl⟩ := hmw
  exact hm ha

lemma through_manual_key (hi : hasIdentityAuth entry)
    (hd : s.auth.driver = "manual") (hg : roleGate s s.auth.driver)
    (hm : ¬ (hasAuth entry "jwt" ∧ entry.requiresMFA))
    (ho : u.authMode = "apikey") : Through s extra entry raw u := by
  obtain ⟨cfg,hcf,-⟩ := h.jwtCfg
  have ht : hasJWT entry s.auth.driver = hasAuth entry "jwt" := hasJWT_eq h.driver
  have he : slot (roleSlot (permissive s) entry s.auth.driver) u = .next u := by
    obtain ⟨v,hv⟩ : ∃ v, s.authValidator = some v := by
      simpa [roleGate, hd, isSome_iff_exists] using hg
    simp [roleSlot, hd, manualAuthMiddleware, hi, permissive, hv, slot, ho, RequestContext.next]
  refine through_of_entered h hu (t := u) ?_ ?_
  · refine reaches_self u fun g hme => ?_
    obtain ⟨mw,hmw,rfl⟩ := mem_map.mp hme
    simp only [tokenSegment, mem_ite_nil_right, ht, if_pos hd, mem_append,
      mem_cons, not_mem_nil, or_false] at hmw
    obtain ⟨hj,(rfl | rfl) | ⟨ha,-⟩⟩ := hmw
    · simp [tokenSlot, hd, jwtMiddleware, (hasAuth_iff entry).mp hj, permissive, hcf, slot,
        jwtSkipWrapper, ho, RequestContext.next]
    · exact he
    · exact absurd ⟨hj,ha⟩ hm
  · rw [appendNonJWTRoles_eq]
    refine reaches_self u fun g hme => ?_
    obtain ⟨mw,hmw,rfl⟩ := mem_map.mp hme
    simp only [mem_ite_nil_left, mem_unlessNil] at hmw
    rw [hmw.2.2]
    exact he

end

section

variable (h : Deployed s entry extra)
include h

lemma gap_no_identity (hi : hasIdentityAuth entry = false) (hg : keyRoleGate s entry = false) :
    ∃ raw d, Through s extra entry raw d ∧ Undecided d := by
  obtain ⟨hj,hb,ho,hs⟩ := hasIdentityAuth_false_iff.mp hi
  obtain ⟨raw,u,hu,hp⟩ := @entered_plain s extra entry hj (by simp [hb]) (by simp [ho]) (by simp [hs])
    (.inr (.inr hg))
  exact ⟨raw,u,through_plain h hu hj (.inl hi),hp.undecided⟩

lemma gap_plain (hg : roleGate s s.auth.driver = false) (hj : hasAuth entry "jwt" = false)
    (hc : ¬ (hasAuth entry "basic" = false ∧ hasAuth entry "oauth" = false ∧
      keyRoleGate s entry)) :
    ∃ raw d, Through s extra entry raw d ∧ Undecided d := by
  obtain ⟨-,hv,hl⟩ := valid_parts s h.valid
  have ho : hasAuth entry "oauth" → ∃ o, extra.oauth = some o ∧ o.introspectionURL ≠ "" := by
    intro ho
    obtain ⟨o,hoc,hur⟩ := hl ho
    obtain ⟨cfg,hcf,hcu⟩ : ∃ cfg, extra.oauth = some cfg ∧
        cfg.introspectionURL = o.introspectionURL := by
      simpa [hoc] using built_oauth s extra h.built
    refine ⟨cfg,hcf,fun he => ?_⟩
    rw [← hcu, he] at hur
    exact hur (by decide)
  have hy : s.auth.driver = "ory" → s.oryClient = none := by
    intro hd
    simpa [roleGate, hd] using hg
  obtain ⟨raw,u,hu,hp⟩ := @entered_plain s extra entry hj hv ho (fun _ => hy) <| by
    by_contra hn
    simp only [not_or, Bool.not_eq_true, Bool.not_eq_false] at hn
    exact hc hn
  exact ⟨raw,u,through_plain h hu hj (.inr hg),hp.undecided⟩

lemma routes_false_parts (hj : hasAuth entry "jwt") (hr : routes s entry = false) :
    hasAuth entry "basic" = false ∧ hasAuth entry "oauth" = false ∧
      (hasAuth entry "apikey" → entry.jwtFrom ≠ "") := by
  obtain ⟨cfg,hcf,hl⟩ := h.jwtCfg
  refine ⟨?_,?_,fun ha hf => ?_⟩
  · rw [← Bool.not_eq_true]
    exact fun hb => by simp [routes_of_basic h.driver hb (.inl hj)] at hr
  · rw [← Bool.not_eq_true]
    exact fun ho => by simp [routes_of_oauth h.driver ho (.inl hj)] at hr
  · rw [routes_eq h.driver, hj, ha, if_neg (by simp only [Bool.toNat_true]; omega)] at hr
    simp [jwtReadsHeader, hf, hcf, hl] at hr

section

variable (hj : hasAuth entry "jwt") (hd : s.auth.driver ≠ "manual")
  (hg : roleGate s s.auth.driver = false)
include hj hd hg

lemma gap_token_undecided (hread : jwtReadable entry)
    (hc : routes s entry ∨ keyRoleGate s entry = false) :
    ∃ d, Through s extra entry "Bearer x" d ∧ Undecided d := by
  have ha : hasPrefix "Bearer x" "Bearer " := by decide
  have htok : (extractToken (start s extra entry "Bearer x").req (entryLookup entry)).1 ≠ "" :=
    visitor_token hread _ (by decide)
  by_cases he : routes s entry
  · have hm : (start s extra entry "Bearer x").authMode = "jwt" := by
      rw [start_authMode, if_pos he]
      simp [routedMode, ha, (hasAuth_iff entry).mp hj]
    obtain ⟨issuer,audience,raw,ht⟩ := token_accepted h hg hj (start s extra entry "Bearer x")
      (by simp [jwtSkips, hm]) htok
    have hu : Entered s extra entry "Bearer x" (start s extra entry "Bearer x") :=
      ⟨_,key_skipped (.inl (by simp [hm])) (.inr (by simp [hm])),
        reaches_self _ (userHandler_skips _ (.inr (.inr hm)))⟩
    exact ⟨_,through_token h hu hj hd hg ht fun _ => mfaRequired_tokenCtx,
      undecided_tokenCtx (undecided_start _)⟩
  · have hk := hc.resolve_left he
    rw [Bool.not_eq_true] at he
    obtain ⟨hb,ho,-⟩ := routes_false_parts h hj he
    have hm : (start s extra entry "Bearer x").authMode = "" := by simp [start_authMode, he]
    have hz : (start s extra entry "Bearer x").req.authorization = "Bearer x" :=
      visitor_authorization
    have hy : s.auth.driver = "ory" → s.oryClient = none := by
      intro ho
      simpa [roleGate, ho] using hg
    obtain ⟨u,hu,hq,hum,hud⟩ := user_session hb ho (fun _ => hy) (start s extra entry "Bearer x") rfl
      hm _ rfl (undecided_start _)
    obtain ⟨issuer,audience,raw,ht⟩ := token_accepted h hg hj u
      (by simp [jwtSkips, hum, hm, hq, ha]) (by rw [hq]; exact htok)
    have hk := key_skipped (.inr (.inl ⟨hm,by rw [hz, ha]⟩)) (.inl hk)
    exact ⟨_,through_token h ⟨_,hk,hu⟩ hj hd hg ht fun _ => mfaRequired_tokenCtx,
      undecided_tokenCtx hud⟩

lemma gap_token_after_key (hread : jwtReadable entry) (ho : routes s entry = false)
    (hy : keyRoleGate s entry) (hv : s.apiKeyValidator.isSome) (hp : PlainKey entry) :
    ∃ raw d, Through s extra entry raw d ∧ ¬ Authorized entry d := by
  obtain ⟨raw,hi,hfo⟩ := hp
  have hra : raw ≠ "" := by
    rintro rfl
    obtain ⟨key,hk⟩ := hfo
    simp [presentedKey] at hk
  have ha : hasAuth entry "apikey" := by
    simp only [keyRoleGate, Bool.and_eq_true] at hy
    exact hy.1.1
  have hfr := (routes_false_parts h hj ho).2.2 ha
  have hm : (start s extra entry raw).authMode = "" := by simp [start_authMode, ho]
  have hz : (start s extra entry raw).req.authorization = raw := visitor_authorization
  have hsk : ¬ apiKeySkips entry (start s extra entry raw) := by simp [apiKeySkips, hm, hi, hra]
  have hk := key_decided hy hsk hm (by rw [hz]; exact hfo) hv
  obtain ⟨issuer,audience,tok,ht⟩ := token_accepted h hg hj
    (((start s extra entry raw).inject "apikey" keyIdentity).note
      (.decided .authValidator keyIdentity entry.roles entry.permissions))
    (by simp [jwtSkips, hm, hfr])
    (visitor_token hread raw (by simpa [cutPrefix, hi] using hra))
  have hu : Entered s extra entry raw _ := ⟨_,hk,reaches_self _ (userHandler_skips _ (.inl rfl))⟩
  refine ⟨raw,_,through_token h hu hj hd hg ht fun _ => mfaRequired_tokenCtx,?_⟩
  rintro ⟨auth,hu,who,hme⟩
  have hid : auth = keyIdentity := by
    simp [tokenCtx, Ctx.inject, Ctx.note, start, routed] at hme
    exact hme.2
  have he : auth.userID = "user" := by
    simp only [tokenCtx, inject_auth, some.injEq] at hu
    rw [← hu]
    rfl
  rw [hid] at he
  exact absurd he (by decide)

lemma gap_unreadable (hc : ¬ (entry.requiresMFA ∨
    (hasAuth entry "basic" = false ∧ (keyRoleGate s entry ∨ ¬ KeyRouted s entry)))) :
    ∃ raw d, Through s extra entry raw d ∧ Undecided d := by
  obtain ⟨ha,hc⟩ := not_or.mp hc
  by_cases hb : hasAuth entry "basic"
  · obtain ⟨u,hu,hum,hp⟩ := @entered_basic s extra entry hb ((valid_parts s h.valid).2.1 hb)
    have he := token_skipped h hg hj u (by simp [hum (routes_of_basic h.driver hb (.inl hj))])
    exact ⟨_,u,through_token h hu hj hd hg he fun hm => absurd hm ha,hp.undecided⟩
  · rw [Bool.not_eq_true] at hb
    have hy : keyRoleGate s entry = false := by
      rw [← Bool.not_eq_true]
      exact fun hk => hc ⟨hb,.inl hk⟩
    have ht : KeyRouted s entry := by
      by_contra hr
      exact hc ⟨hb,.inr hr⟩
    have hv : s.apiKeyValidator.isSome ∨ s.fgaClient = none := by
      have hi := h.driver
      simp only [mem_cons, not_mem_nil, or_false] at hi
      rcases hi with hm | hz | ho
      · exact absurd hm hd
      · exact .inr (by simpa [roleGate, hz] using hg)
      · obtain ⟨-,raw,hra,-⟩ := ht
        exact .inl ((valid_parts s h.valid).1 (routedMode_apikey hra) (.inr ho))
    obtain ⟨raw,k,hk,hkm,hkd⟩ := @entered_of_keyRouted s extra entry ht hy hv
    have he := token_skipped h hg hj k (by simp [hkm])
    exact ⟨raw,k,through_token h hk hj hd hg he fun hm => absurd hm ha,hkd⟩

end

lemma gap_of_not_covered (hc : ¬ Covered s entry) :
    ∃ raw d, Through s extra entry raw d ∧ ¬ Authorized entry d := by
  have hli : (∃ raw d, Through s extra entry raw d ∧ Undecided d) →
      ∃ raw d, Through s extra entry raw d ∧ ¬ Authorized entry d := by
    rintro ⟨raw,d,ht,hd⟩
    exact ⟨raw,d,ht,hd.not_authorized⟩
  rw [Covered] at hc
  split_ifs at hc with hi hg hj hd hread
  · exact hli (gap_no_identity h hi (by simpa using hc))
  · simp only [not_or, not_not] at hc
    obtain ⟨hd,hy,ho,hm⟩ := hc
    have hv : s.apiKeyValidator.isSome := by
      obtain ⟨-,raw,ha,-⟩ := ho
      exact (valid_parts s h.valid).1 (routedMode_apikey ha) (.inl hd)
    obtain ⟨raw,k,hk,hkm,hkd⟩ := @entered_of_keyRouted s extra entry ho (by simpa using hy)
      (.inl hv)
    exact hli ⟨raw,k,through_manual_key h hk (by simpa using hi) hd hg hm hkm,hkd⟩
  · exact hli (gap_plain h (by simpa using hg) hj hc)
  · exact absurd trivial hc
  · by_cases he : routes s entry ∨ keyRoleGate s entry = false
    · exact hli ⟨_,gap_token_undecided h (by simpa using hj) hd (by simpa using hg) hread he⟩
    · simp only [not_or, Bool.not_eq_true, Bool.not_eq_false] at he
      simp only [he.1, he.2, true_and, not_not] at hc
      exact gap_token_after_key h (by simpa using hj) hd (by simpa using hg) hread he.1 he.2
        hc.1 hc.2
  · exact hli (gap_unreadable h (by simpa using hj) hd (by simpa using hg) hc)

end

end

lemma valid_congr {s t : Service} (h : SameWiring s t) (entry : EntryDef) (driver : String) :
    validateEntryAuthConfig t entry driver = validateEntryAuthConfig s entry driver := by
  have hn : ∀ {α : Type} (a b : Option α), a.isSome = b.isSome → a.isNone = b.isNone := by
    intro α a b ha
    cases a <;> cases b <;> simp_all
  simp only [validateEntryAuthConfig, validateAPIKeyEntry, validateJWTEntry, h.auth,
    hn _ _ h.apiKeyValidator, hn _ _ h.authValidator, hn _ _ h.basicValidator]

lemma deployed_congr {s t : Service} (h : SameWiring s t) {entry : EntryDef}
    {extra extra' : EntryAuthExtra} (hd : Deployed s entry extra)
    (hb : buildAuthExtra t = .ok extra') : Deployed t entry extra' where
  modes := hd.modes
  restricted := hd.restricted
  driver := by rw [h.auth]; exact hd.driver
  valid := by rw [valid_congr h, h.auth]; exact hd.valid
  built := hb
  jwtCfg := by
    obtain ⟨cfg,hcf,hl⟩ := hd.jwtCfg
    have ha := h.jwtCfg
    rw [hcf, map_some, map_eq_some_iff] at ha
    obtain ⟨cfg',hc',he⟩ := ha
    simp only [Prod.mk.injEq] at he
    exact ⟨cfg',hc',he.1.trans hl⟩

/-- Whatever the validators and clients answer, every request that reaches
the handler of a restricted entry has been decided about, exactly when the
entry is covered. -/
theorem registerAuthMiddleware_authorizes_iff (s : Service) (extra : EntryAuthExtra)
    (entry : EntryDef) (h : Deployed s entry extra) :
    (∀ t extra', SameWiring s t → buildAuthExtra t = .ok extra' → ∀ req d,
      ReachesEntry (registerAuthMiddleware t extra' entry t.auth.driver) req d →
      Authorized entry d) ↔ Covered s entry := by
  constructor
  · intro ha
    by_contra hc
    obtain ⟨raw,d,he,hd⟩ := gap_of_not_covered h hc
    exact hd (ha (permissive s) (openExtra s extra) (sameWiring_permissive s)
      (built_permissive s extra h.built) _ d he)
  · intro hc t extra' hw hb req d hr
    exact covered_authorizes (deployed_congr hw h hb) ((covered_congr hw entry).mpr hc) hr

def permissionEntry : EntryDef where
  type := "rest"
  path := "/orders"
  authModes := ["apikey","jwt"]
  permissions := ["orders:read"]
  apiPrefix := "sk-"

def keyService : Service where
  auth := ⟨"manual",none,none⟩
  jwtCfg := some { currentParser := fun _ => .error "signature is invalid" }
  authValidator := some fun _ _ _ => .error "forbidden"
  apiKeyValidator := some fun key => .ok (some { userID := key })

def keyRequest : Request where
  header key := if key = "authorization" then "sk-1" else ""
  cookies := []
  query _ := ""

lemma keyService_deployed : Deployed keyService permissionEntry ⟨none,none,none⟩ where
  modes := by decide
  restricted := by decide
  driver := by decide
  valid := by rfl
  built := by rfl
  jwtCfg := ⟨_,rfl,rfl⟩

theorem authorizes_iff_for_permission_entry :
    Deployed keyService permissionEntry ⟨none,none,none⟩ ∧
    ((∀ t extra', SameWiring keyService t → buildAuthExtra t = .ok extra' → ∀ req d,
      ReachesEntry (registerAuthMiddleware t extra' permissionEntry t.auth.driver) req d →
      Authorized permissionEntry d) ↔ Covered keyService permissionEntry) :=
  ⟨keyService_deployed,
    registerAuthMiddleware_authorizes_iff keyService ⟨none,none,none⟩ permissionEntry
      keyService_deployed⟩

/-- An API key enters the entry although its permissions are never asked for. -/
theorem api_key_without_permission :
    Deployed keyService permissionEntry ⟨none,none,none⟩ ∧
    ∃ d, ReachesEntry (registerAuthMiddleware keyService ⟨none,none,none⟩ permissionEntry "manual")
      keyRequest d ∧ ¬ Authorized permissionEntry d := by
  refine ⟨keyService_deployed,
    { req := keyRequest, authMode := "apikey", auth := some { userID := "sk-1" },
      trace := [.accepted "apikey" (some { userID := "sk-1" })] },by rfl,?_⟩
  rintro ⟨auth,-,who,hm⟩
  simp at hm

end SdkApi.AuthorizationCoverage
