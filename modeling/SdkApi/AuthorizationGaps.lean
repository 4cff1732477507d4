import SdkApi.AssocLists
import SdkApi.AuthorizationGate

/-!
# The ways past a role decision

An entry that is not covered can be entered without a decision as soon as
its validators accept. This module wires a service whose validators accept
everything, builds for each gap the request that goes through it, and with
the opposite direction obtains when exactly authorization is never skipped.
-/

namespace SdkApi.AuthorizationGaps
open GoStrings RequestContext CredentialMiddleware RoleMiddleware AuthChain ChainFrames
open AuthSoundness ChainSegments AuthorizationGate HandlerChain AssocLists

/-- Only the answers of validators and clients may differ. -/
structure SameWiring (s t : Service) : Prop where
  auth : t.auth = s.auth
  jwtCfg : t.jwtCfg.map (fun c => (c.tokenLookup,c.issuer,c.audience)) =
    s.jwtCfg.map (fun c => (c.tokenLookup,c.issuer,c.audience))
  authValidator : t.authValidator.isSome = s.authValidator.isSome
  apiKeyValidator : t.apiKeyValidator.isSome = s.apiKeyValidator.isSome
  basicValidator : t.basicValidator.isSome = s.basicValidator.isSome
  fgaClient : t.fgaClient.isSome = s.fgaClient.isSome
  oryClient : t.oryClient.isSome = s.oryClient.isSome
  zitadelClient : t.zitadelClient.isSome = s.zitadelClient.isSome
  kvConns : t.kvConns.map Prod.fst = s.kvConns.map Prod.fst
  serverPerUser : t.serverPerUser = s.serverPerUser
  serverPerKey : t.serverPerKey = s.serverPerKey

def keyIdentity : AuthContext := { userID := "key" }

def userIdentity : AuthContext := { userID := "user" }

def openClaims (issuer audience : String) : MapClaims :=
  [("sub",.str "user"),("iss",.str issuer),("aud",.str audience),("mfa",.flag true)]

def openConfig (cfg : JWTConfig) : JWTConfig :=
  { cfg with currentParser := fun _ => .ok (openClaims cfg.issuer cfg.audience),
             tokenBlacklist := none }

def permissive (s : Service) : Service :=
  { s with
    jwtCfg := s.jwtCfg.map openConfig
    authValidator := s.authValidator.map fun _ _ _ _ => .ok ()
    apiKeyValidator := s.apiKeyValidator.map fun _ _ => .ok (some keyIdentity)
    basicValidator := s.basicValidator.map fun _ _ _ => .ok (some userIdentity)
    zitadelClient := s.zitadelClient.map fun _ => ⟨fun _ => .ok (openClaims "" "")⟩
    kvConns := s.kvConns.map fun kv => (kv.1,fun _ => some "session")
    endpoint := fun _ _ => .ok ⟨true,"user","",""⟩
    cached := fun _ => none
    unmarshal := fun _ => some ⟨"user",[]⟩
    allow := fun _ _ => true }

variable (s : Service)

lemma sameWiring_permissive : SameWiring s (permissive s) where
  auth := rfl
  jwtCfg := by cases h : s.jwtCfg <;> simp [permissive, openConfig, h]
  authValidator := by simp [permissive]
  apiKeyValidator := by simp [permissive]
  basicValidator := by simp [permissive]
  fgaClient := rfl
  oryClient := rfl
  zitadelClient := by simp [permissive]
  kvConns := by simp [permissive, Function.comp_def]
  serverPerUser := rfl
  serverPerKey := rfl

lemma routes_congr {s t : Service} (h : SameWiring s t) (entry : EntryDef) :
    routes t entry = routes s entry := by
  have hg : t.jwtCfg.map JWTConfig.tokenLookup = s.jwtCfg.map JWTConfig.tokenLookup := by
    have hfs := congrArg (Option.map Prod.fst) h.jwtCfg
    simpa only [Option.map_map, Function.comp_def] using hfs
  have he : jwtReadsHeader entry t.jwtCfg = jwtReadsHeader entry s.jwtCfg := by
    cases ht : t.jwtCfg <;> cases hs : s.jwtCfg <;> simp_all [jwtReadsHeader]
  simp only [routes, needsAuthRouter, h.auth, he]

lemma covered_congr {s t : Service} (h : SameWiring s t) (entry : EntryDef) :
    Covered t entry ↔ Covered s entry := by
  have hu := routes_congr h entry
  have he : keyRoleGate t entry = keyRoleGate s entry := by simp only [keyRoleGate, h.authValidator]
  have hg : ∀ driver, roleGate t driver = roleGate s driver := by
    simp only [roleGate, h.fgaClient, h.oryClient, h.authValidator, implies_true]
  have ht : KeyRouted t entry ↔ KeyRouted s entry := by simp only [KeyRouted, hu]
  simp only [Covered, he, hg, ht, hu, h.auth, h.apiKeyValidator]

def openExtra (s : Service) (extra : EntryAuthExtra) : EntryAuthExtra where
  basicValidator := (permissive s).basicValidator
  oauth := extra.oauth.map fun o =>
    ⟨o.introspectionURL,fun _ => .ok ⟨true,"user","",""⟩,fun _ => none⟩
  session := extra.session.map fun c =>
    ⟨c.cookie,some fun _ => some "session",fun _ => some ⟨"user",[]⟩⟩

section

variable (extra : EntryAuthExtra) (h : buildAuthExtra s = .ok extra)
include h

lemma built_permissive : buildAuthExtra (permissive s) = .ok (openExtra s extra) := by
  simp only [buildAuthExtra] at h ⊢
  cases hs : s.auth.session with
  | none =>
    simp only [hs, Except.ok.injEq] at h
    subst h
    simp [hs, openExtra, permissive, Function.comp_def]
  | some sess =>
    simp only [hs] at h
    have ht : trimSpace sess.store ≠ "" := fun he => by simp [he] at h
    rw [if_neg ht] at h
    have hu := lookup_map_values
      (fun _ (_ : String → Option String) (_ : String) => some "session") s.kvConns sess.store
    cases hl : s.kvConns.lookup sess.store with
    | none => simp [hl] at h
    | some store =>
      simp only [hl, Except.ok.injEq] at h
      subst h
      simp only [hl] at hu
      simp [hs, ht, permissive, hu, openExtra, Function.comp_def]

lemma built_oauth :
    extra.oauth.map OAuthConfig.introspectionURL =
      s.auth.oauth.map OAuthSection.introspectionURL := by
  simp only [buildAuthExtra] at h
  split at h
  · simp only [Except.ok.injEq] at h
    simp [← h, Function.comp_def]
  · split at h
    · simp at h
    · split at h
      · simp at h
      · simp only [Except.ok.injEq] at h
        simp [← h, Function.comp_def]

end

lemma valid_parts {entry : EntryDef} {driver : String}
    (h : validateEntryAuthConfig s entry driver = .ok ()) :
    (hasAuth entry "apikey" → driver = "manual" ∨ driver = "ory" → s.apiKeyValidator.isSome) ∧
      (hasAuth entry "basic" → s.basicValidator.isSome) ∧
      (hasAuth entry "oauth" → ∃ o, s.auth.oauth = some o ∧ trimSpace o.introspectionURL ≠ "") := by
  simp only [validateEntryAuthConfig, bind, Except.bind] at h
  split at h
  · simp at h
  rename_i hy
  split at h
  · simp at h
  split_ifs at h with hb ho hs
  refine ⟨fun ha hm => ?_,fun hi => ?_,fun hu => ?_⟩
  · by_contra hn
    simp only [validateAPIKeyEntry, ha, Bool.true_eq_false, if_false] at hy
    rcases hm with rfl | rfl <;> simp [Option.not_isSome_iff_eq_none.mp hn] at hy
  · by_contra hn
    exact hb ⟨hi,by simpa using hn⟩
  · cases hc : s.auth.oauth with
    | none => exact absurd ⟨hu,by simp [hc]⟩ ho
    | some o =>
      refine ⟨o,rfl,fun he => ho ⟨hu,?_⟩⟩
      simp [hc, he]

def visitor (extra : EntryAuthExtra) (entry : EntryDef) (raw : String) : Request where
  header key := if key = "authorization" then raw else "t"
  cookies := [((extra.session.map SessionConfig.cookieName).getD "","t"),
    ((cut (entryLookup entry) ':').2.1,"t")]
  query _ := "t"

@[simp] lemma visitor_authorization {extra : EntryAuthExtra} {entry : EntryDef} {raw : String} :
    (visitor extra entry raw).authorization = raw := by
  have h : toLower "Authorization" = "authorization" := by decide
  simp [Request.authorization, Request.get, visitor, h]

def Undecided (d : Ctx) : Prop :=
  ∀ who auth roles permissions, Event.decided who auth roles permissions ∉ d.trace

lemma Undecided.not_authorized {entry : EntryDef} {d : Ctx} (h : Undecided d) :
    ¬ Authorized entry d := by
  rintro ⟨auth,-,who,he⟩
  exact h who auth _ _ he

lemma Undecided.inject {c : Ctx} (h : Undecided c) (mode : String) (auth : AuthContext) :
    Undecided (c.inject mode auth) := by
  intro who a r p he
  simp only [Ctx.inject, List.mem_cons, reduceCtorEq, false_or] at he
  exact h who a r p he

lemma undecided_routed {entry : EntryDef} {driver : String} {req : Request} :
    Undecided (routed s entry driver req) := by
  intro who a r p he
  simp [routed] at he

section

variable {s : Service} {extra : EntryAuthExtra} {entry : EntryDef}

lemma limits_open (driver : String) (c : Ctx) :
    Reaches ((limitSegment (permissive s) entry driver).map slot) c c :=
  limitSegment_allowed (fun _ _ => rfl) c

lemma key_skipped {c : Ctx} (hs : apiKeySkips entry c)
    (hg : keyRoleGate s entry = false ∨ c.authMode ∈ ["jwt","basic","oauth","session"]) :
    Reaches ((keySegment (permissive s) entry).map slot) c c := by
  apply keySegment_skipped hs
  have ht : keyRoleGate (permissive s) entry = keyRoleGate s entry := by
    simp [keyRoleGate, permissive]
  rwa [ht]

lemma key_accepted (c : Ctx) (hs : ¬ apiKeySkips entry c) (hfo : KeyForm entry c.req.authorization)
    (hv : s.apiKeyValidator.isSome ∨ s.fgaClient = none) :
    apiKeyMiddleware entry (permissive s).apiKeyValidator (permissive s).fgaClient c =
      .next (if s.apiKeyValidator.isSome then c.inject "apikey" keyIdentity else c) := by
  obtain ⟨key,he⟩ := hfo
  have hk' : presentedKey (apiKeyConfigForEntry entry (permissive s).apiKeyValidator
      (permissive s).fgaClient) (c.req.get "Authorization") = .ok key := he
  simp only [apiKeyMiddleware, if_neg hs, apiKey]
  simp only [apiKeyConfigForEntry] at hk' ⊢
  simp only [if_true, hk']
  cases hkv : s.apiKeyValidator with
  | some v => simp [permissive, hkv, next]
  | none =>
    have hf : s.fgaClient = none := by simpa [hkv] using hv
    simp [permissive, hkv, hf, next]

lemma key_entered (ha : hasAuth entry "apikey") (hg : keyRoleGate s entry = false)
    {c : Ctx} (hs : ¬ apiKeySkips entry c) (hfo : KeyForm entry c.req.authorization)
    (hv : s.apiKeyValidator.isSome ∨ s.fgaClient = none) (hc : Undecided c) :
    ∃ k, Reaches ((keySegment (permissive s) entry).map slot) c k ∧ k.req = c.req ∧
      k.authMode = c.authMode ∧ Undecided k := by
  have hl : apiKeyRoleMiddleware entry (permissive s).authValidator = [] := by
    simp only [keyRoleGate, ha, Bool.true_and, Bool.and_eq_false_iff, Bool.not_eq_false',
      List.isEmpty_iff] at hg
    rcases hg with hg | hg
    · simp [apiKeyRoleMiddleware, hg]
    · have hn : s.authValidator = none := by simpa using hg
      simp [apiKeyRoleMiddleware, permissive, hn]
  refine ⟨if s.apiKeyValidator.isSome then c.inject "apikey" keyIdentity else c,?_,?_,?_,?_⟩
  · simp only [keySegment, ha, if_true, hl, List.map_nil, List.map_cons, reaches_cons]
    exact ⟨_,key_accepted c hs hfo hv,(reaches_nil _ _).mpr rfl⟩
  · split_ifs <;> rfl
  · split_ifs <;> rfl
  · split_ifs
    · exact hc.inject _ _
    · exact hc

lemma key_decided (hg : keyRoleGate s entry) {c : Ctx} (hs : ¬ apiKeySkips entry c)
    (he : c.authMode = "") (hfo : KeyForm entry c.req.authorization)
    (hv : s.apiKeyValidator.isSome) :
    Reaches ((keySegment (permissive s) entry).map slot) c
      ((c.inject "apikey" keyIdentity).note
        (.decided .authValidator keyIdentity entry.roles entry.permissions)) := by
  simp only [keyRoleGate, Bool.and_eq_true, Bool.not_eq_true', List.isEmpty_eq_false_iff,
    Option.isSome_iff_exists] at hg
  obtain ⟨⟨ha,hr⟩,v,hl⟩ := hg
  have hac := key_accepted c hs hfo (.inl hv)
  rw [if_pos hv] at hac
  simp only [keySegment, ha, if_true, List.map_cons, reaches_cons]
  refine ⟨_,hac,?_⟩
  simp [apiKeyRoleMiddleware, ha, hr, permissive, hl, reaches_cons, slot, requireDecision, next, he]

abbrev openUsers (s : Service) (extra : EntryAuthExtra) (entry : EntryDef) : List Handler :=
  (userSegment (permissive s) (openExtra s extra) entry s.auth.driver).map slot

lemma userHandler_skips (c : Ctx)
    (hc : c.auth.isSome ∨ c.authMode = "apikey" ∨ c.authMode = "jwt") :
    ∀ g ∈ openUsers s extra entry,
      g c = .next c := by
  have hi : ∀ others (mw : Handler), "apikey" ∈ others → "jwt" ∈ others →
      skipWhenRouted others mw c = .next c := by
    intro others mw h1 h2
    rw [skipWhenRouted]
    rcases hc with hc | hc | hc
    · simp [hc, next]
    · simp [hc, h1, next]
    · simp [hc, h2, next]
  intro g hg
  obtain ⟨mw,hmw,rfl⟩ := List.mem_map.mp hg
  simp only [userSegment, List.mem_append, List.mem_ite_nil_right, List.mem_singleton,
    Bool.and_eq_true, Option.isSome_iff_exists] at hmw
  rcases hmw with ((⟨hm,rfl⟩ | ⟨⟨hm,o,ho⟩,rfl⟩) | ⟨⟨hm,o,ho⟩,rfl⟩) | ⟨⟨⟨hm,-⟩,o,ho⟩,rfl⟩
  · simp [basicMiddleware, hm, slot, hi]
  · simp [oauthMiddleware, hm, ho, slot, hi]
  · simp [sessionMiddleware, hm, ho, slot, hi]
  · simp [kratosSessionMiddleware, hm, ho, slot, hi]

lemma user_first (mw : Option Handler)
    (hl : ∃ rest, userSegment (permissive s) (openExtra s extra) entry s.auth.driver = mw::rest)
    (c d : Ctx) (h : slot mw c = .next d) (hd : d.auth.isSome) :
    Reaches (openUsers s extra entry) c d := by
  have hi := @userHandler_skips s extra entry d (.inl hd)
  obtain ⟨rest,hl⟩ := hl
  rw [openUsers, hl, List.map_cons] at hi ⊢
  exact (reaches_cons _ _ _ _).mpr ⟨d,h,reaches_self d fun g hg => hi g (by simp [hg])⟩

lemma user_basic (hb : hasAuth entry "basic") (hv : s.basicValidator.isSome) (c : Ctx)
    (ha : c.auth = none) (hm : c.authMode = "basic" ∨ c.authMode = "")
    (hra : c.req.authorization = "Basic dTpw") :
    Reaches (openUsers s extra entry) c
      (c.inject "basic" userIdentity) := by
  obtain ⟨v,hv⟩ := Option.isSome_iff_exists.mp hv
  have he : parseBasicAuth "Basic dTpw" = some ("u","p") := by decide
  refine user_first (basicMiddleware entry (openExtra s extra).basicValidator)
    ⟨_,by simp only [userSegment, hb, if_true, List.cons_append]; rfl⟩ c _ ?_ rfl
  have hu : c.authMode ∉ ["jwt","apikey","oauth","session"] := by
    rcases hm with hm | hm <;> simp [hm]
  simp only [basicMiddleware, hb, if_true, slot, Option.getD_some, skipWhenRouted, ha,
    Option.isSome_none, Bool.false_eq_true, if_false, if_neg hu, basic, hra, he]
  simp [openExtra, permissive, hv, next]

lemma user_oauth (hb : hasAuth entry "basic" = false) (ho : hasAuth entry "oauth") (o : OAuthConfig)
    (hg : extra.oauth = some o) (hl : o.introspectionURL ≠ "") (c : Ctx) (ha : c.auth = none)
    (hm : c.authMode = "oauth" ∨ c.authMode = "") (hra : c.req.authorization = "Bearer x") :
    ∃ auth, Reaches
      (openUsers s extra entry) c
      (c.inject "oauth" auth) ∧ auth.claims = none := by
  have hcu : cutPrefix "Bearer x" "Bearer " = ("x",true) := by decide
  have ht : trimSpace "x" ≠ "" := by decide
  refine ⟨{ userID := "user", rawToken := "x", roles := fields "" },
    user_first (oauthMiddleware entry (openExtra s extra).oauth) ?_ c _ ?_ rfl,rfl⟩
  · have he : (openExtra s extra).oauth.isSome := by simp [openExtra, hg]
    simp only [userSegment, hb, ho, he, Bool.false_eq_true, if_false, Bool.and_self, if_true,
      List.cons_append, List.nil_append]
    exact ⟨_,rfl⟩
  · have hu : c.authMode ∉ ["jwt","apikey","basic","session"] := by
      rcases hm with hm | hm <;> simp [hm]
    simp only [oauthMiddleware, ho, if_true, openExtra, hg, Option.map_some, slot,
      Option.getD_some, skipWhenRouted, ha, Option.isSome_none, Bool.false_eq_true, if_false,
      if_neg hu, introspect, hra, hcu]
    simp [ht, hl, introspectToken, next]

section

variable (hb : hasAuth entry "basic" = false) (ho : hasAuth entry "oauth" = false)
  (hk : hasAuth entry "session" → s.auth.driver = "ory" → s.oryClient = none) (c : Ctx)
  (ha : c.auth = none)
  (hm : c.authMode = "") (raw : String) (hreq : c.req = visitor (openExtra s extra) entry raw)
include hb ho hk ha hm hreq

lemma user_session_eq :
    ∃ u, Reaches (openUsers s extra entry) c u ∧
      (u = c ∨ u = c.inject "session" userIdentity) := by
  have ht : (hasAuth entry "session" && decide (s.auth.driver = "ory") &&
      (permissive s).oryClient.isSome) = false := by
    by_cases hs : hasAuth entry "session" ∧ s.auth.driver = "ory"
    · simp [permissive, hk hs.1 hs.2]
    · rw [not_and] at hs
      cases hi : hasAuth entry "session" <;> simp_all
  simp only [openUsers, userSegment, hb, ho, ht, Bool.false_eq_true, if_false, Bool.false_and,
    List.nil_append, List.append_nil]
  split_ifs with hs
  · simp only [Bool.and_eq_true] at hs
    obtain ⟨cfg,hg⟩ : ∃ cfg, extra.session = some cfg := by
      simpa [openExtra, Option.isSome_iff_exists] using hs.2
    refine ⟨c.inject "session" userIdentity,?_,.inr rfl⟩
    have hi : c.req.cookie (if cfg.cookie = "" then "sid" else cfg.cookie) = "t" := by
      simp [hreq, Request.cookie, visitor, openExtra, hg, SessionConfig.cookieName]
    simp [reaches_cons, sessionMiddleware, hs.1, openExtra, hg, slot, skipWhenRouted, ha, hm,
      session, SessionConfig.cookieName, hi, next, userIdentity]
  · exact ⟨c,by simp,.inl rfl⟩

lemma user_session (hc : Undecided c) :
    ∃ u, Reaches
      (openUsers s extra entry) c u ∧
      u.req = c.req ∧ u.authMode = c.authMode ∧ Undecided u := by
  obtain ⟨u,hu,rfl | rfl⟩ := user_session_eq hb ho hk c ha hm raw hreq
  · exact ⟨u,hu,rfl,rfl,hc⟩
  · exact ⟨_,hu,rfl,rfl,hc.inject _ _⟩

end

end

def start (s : Service) (extra : EntryAuthExtra) (entry : EntryDef) (raw : String) : Ctx :=
  routed (permissive s) entry s.auth.driver (visitor (openExtra s extra) entry raw)

/-- The accepting service lets the request through to the token handlers in `u`. -/
def Entered (s : Service) (extra : EntryAuthExtra) (entry : EntryDef) (raw : String) (u : Ctx) :
    Prop :=
  ∃ k, Reaches ((keySegment (permissive s) entry).map slot) (start s extra entry raw) k ∧
    Reaches ((userSegment (permissive s) (openExtra s extra) entry s.auth.driver).map slot) k u

/-- The context of a request that has been identified without claims, if at all. -/
def Plain (c u : Ctx) : Prop := u = c ∨ ∃ mode auth, auth.claims = none ∧ u = c.inject mode auth

section

variable {s : Service} {extra : EntryAuthExtra} {entry : EntryDef} (raw : String)

@[simp] lemma start_req :
    (start s extra entry raw).req = visitor (openExtra s extra) entry raw := rfl

lemma start_authMode : (start s extra entry raw).authMode =
    if routes s entry then routedMode entry raw else "" := by
  have h := @routed_authMode (permissive s) entry (visitor (openExtra s extra) entry raw)
  rw [routes_congr (sameWiring_permissive s) entry, visitor_authorization] at h
  exact h

lemma undecided_start : Undecided (start s extra entry raw) :=
  undecided_routed _

lemma Plain.undecided {u : Ctx} (h : Plain (start s extra entry raw) u) : Undecided u := by
  rcases h with rfl | ⟨mode,auth,-,rfl⟩
  · exact undecided_start raw
  · exact (undecided_start raw).inject _ _

lemma key_unasked (hm : routedMode entry raw ∈ ["jwt","basic","oauth","session"])
    (hr : hasAuth entry "apikey" → routes s entry) :
    Reaches ((keySegment (permissive s) entry).map slot) (start s extra entry raw)
      (start s extra entry raw) := by
  by_cases ha : hasAuth entry "apikey"
  · have hi : (start s extra entry raw).authMode ∈ ["jwt","basic","oauth","session"] := by
      rwa [start_authMode, if_pos (hr ha)]
    exact key_skipped (.inl hi) (.inr hi)
  · simp [keySegment, ha]

lemma entered_basic (hb : hasAuth entry "basic") (hv : s.basicValidator.isSome) :
    ∃ u, Entered s extra entry "Basic dTpw" u ∧ (routes s entry → u.authMode = "basic") ∧
      Plain (start s extra entry "Basic dTpw") u := by
  have ho : routedMode entry "Basic dTpw" = "basic" := by
    have h1 : hasPrefix "Basic dTpw" "Bearer " = false := by decide
    have h2 : hasPrefix "Basic dTpw" "Basic " := by decide
    simp [routedMode, h1, h2, hb]
  have hm := @start_authMode s extra entry "Basic dTpw"
  rw [ho] at hm
  have he : (start s extra entry "Basic dTpw").authMode = "basic" ∨
      (start s extra entry "Basic dTpw").authMode = "" := by
    rw [hm]
    split_ifs <;> simp
  have hk := @key_unasked s extra entry "Basic dTpw" (by simp [ho]) fun ha => by
    simp [routes, needsAuthRouter, ha, hb]
  exact ⟨_,⟨_,hk,user_basic hb hv _ rfl he visitor_authorization⟩,
    fun hr => hm.trans (if_pos hr),.inr ⟨"basic",userIdentity,rfl,rfl⟩⟩

section

variable (hj : hasAuth entry "jwt" = false)
include hj

lemma entered_oauth (hb : hasAuth entry "basic" = false) (ho : hasAuth entry "oauth")
    {o : OAuthConfig} (hg : extra.oauth = some o) (hl : o.introspectionURL ≠ "") :
    ∃ u, Entered s extra entry "Bearer x" u ∧ Plain (start s extra entry "Bearer x") u := by
  have ht : routedMode entry "Bearer x" = "oauth" := by
    have h1 : hasPrefix "Bearer x" "Bearer " := by decide
    simp [routedMode, h1, hj, ho]
  have hm : (start s extra entry "Bearer x").authMode = "oauth" ∨
      (start s extra entry "Bearer x").authMode = "" := by
    rw [start_authMode, ht]
    split_ifs <;> simp
  obtain ⟨auth,hu,hn⟩ := @user_oauth s extra entry hb ho o hg hl (start s extra entry "Bearer x")
    rfl hm visitor_authorization
  have hk := @key_unasked s extra entry "Bearer x" (by simp [ht]) fun ha => by
    simp [routes, needsAuthRouter, ha, ho, hb]
  exact ⟨_,⟨_,hk,hu⟩,.inr ⟨"oauth",auth,hn,rfl⟩⟩

lemma entered_plain (hv : hasAuth entry "basic" → s.basicValidator.isSome)
    (hl : hasAuth entry "oauth" → ∃ o, extra.oauth = some o ∧ o.introspectionURL ≠ "")
    (hy : hasAuth entry "session" → s.auth.driver = "ory" → s.oryClient = none)
    (hg : hasAuth entry "basic" ∨ hasAuth entry "oauth" ∨ keyRoleGate s entry = false) :
    ∃ raw u, Entered s extra entry raw u ∧ Plain (start s extra entry raw) u := by
  by_cases hb : hasAuth entry "basic"
  · obtain ⟨u,hu,-,hp⟩ := @entered_basic s extra entry hb (hv hb)
    exact ⟨_,u,hu,hp⟩
  by_cases ho : hasAuth entry "oauth"
  · obtain ⟨o,hg,hl⟩ := hl ho
    exact ⟨_,entered_oauth hj (Bool.eq_false_iff.mpr hb) ho hg hl⟩
  -- a session is left, and the API key handlers have no role handler
  have hg := (hg.resolve_left hb).resolve_left ho
  rw [Bool.not_eq_true] at hb ho
  have hm : (start s extra entry "Bearer x").authMode = "" := by
    simp [start_authMode, routes_of_key_session hj hb ho]
  have hk : apiKeySkips entry (start s extra entry "Bearer x") := by
    refine .inr (.inl ⟨hm,?_⟩)
    rw [start_req, visitor_authorization]
    decide
  obtain ⟨u,hu,hp⟩ := user_session_eq hb ho hy _ rfl hm _ rfl
  refine ⟨_,u,⟨_,key_skipped hk (.inl hg),hu⟩,hp.imp_right fun he => ?_⟩
  exact ⟨"session",userIdentity,rfl,he⟩

end

end

end SdkApi.AuthorizationGaps
