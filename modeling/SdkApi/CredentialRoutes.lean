import SdkApi.CredentialStages

/-!
# Where the router sends a credential

The router reads the Authorization header and nothing else. The forms of the
header that the validators accept are compared here with the routes, and the
validators that an accepted entry has in its chain with its modes.
-/

namespace SdkApi.CredentialRoutes
open GoStrings RequestContext CredentialMiddleware RoleMiddleware AuthChain ChainFrames
open AuthSoundness ChainSegments AuthorizationGate AuthorizationGaps MfaEnforcement ModeValidators
open CredentialStages HandlerChain

section

variable {s : Service} {extra : EntryAuthExtra} {entry : EntryDef} {raw : String}

lemma hasPrefix_empty (p : String) : hasPrefix "" p ↔ p = "" := by
  constructor
  · intro h
    have hp : p.toList = [] := by simpa [hasPrefix, List.isPrefixOf_iff_prefix] using h
    exact String.toList_injective (by simpa using hp)
  · rintro rfl
    rfl

lemma routedMode_basic (hb : hasAuth entry "basic")
    (ha : hasPrefix raw "Basic ") : routedMode entry raw = "basic" := by
  have he : hasPrefix raw "Bearer " = false := by
    by_contra hn
    have := bearer_not_basic raw (by simpa using hn)
    simp [ha] at this
  simp only [routedMode, he, ha, hb, Bool.false_and, Bool.and_self, Bool.false_eq_true, if_false,
    if_true]

lemma routedMode_bearer (ha : hasPrefix raw "Bearer ") :
    routedMode entry raw = if hasAuth entry "jwt" then "jwt"
      else if hasAuth entry "oauth" then "oauth"
      else if hasAuth entry "apikey" ∧
        (entry.apiPrefix = "" ∨ hasPrefix raw entry.apiPrefix) then "apikey" else "" := by
  simp only [routedMode, ha, bearer_not_basic raw ha, Bool.true_and, Bool.false_and,
    Bool.false_eq_true, if_false, Bool.and_eq_true, Bool.or_eq_true, decide_eq_true_eq]
  split_ifs <;> simp_all

lemma routedMode_empty : routedMode entry "" =
    if hasAuth entry "apikey" ∧ entry.apiPrefix = "" then "apikey" else "" := by
  have h1 : hasPrefix "" "Bearer " = false := by decide
  have h2 : hasPrefix "" "Basic " = false := by decide
  simp only [routedMode, h1, h2, Bool.false_and, Bool.false_eq_true, if_false, Bool.and_eq_true,
    Bool.or_eq_true, decide_eq_true_eq, hasPrefix_empty, or_self]
  split_ifs <;> simp_all

variable {req : Request} {auth : AuthContext}

variable {f : Handler} {c d : Ctx}

lemma mem_basic : (Mode.basic,f) ∈ validators s extra entry ↔
    hasAuth entry "basic" ∧ f = basic extra.basicValidator := by
  simp [validators, userValidators]

lemma mem_oauth : (Mode.oauth,f) ∈ validators s extra entry ↔
    hasAuth entry "oauth" ∧ ∃ o, extra.oauth = some o ∧ introspect o = f := by
  simp [validators, userValidators]

lemma mem_session : (Mode.session,f) ∈ validators s extra entry ↔
    hasAuth entry "session" ∧ ((∃ c, extra.session = some c ∧ session c = f) ∨
      (s.auth.driver = "ory" ∧ ∃ o, s.oryClient = some o ∧ kratosSession o = f)) := by
  simp [validators, userValidators, and_or_left, and_assoc]

lemma basic_header {v : Option BasicValidator} (h : basic v c = .next d) :
    hasPrefix c.req.authorization "Basic " := by
  by_contra hn
  rw [Bool.not_eq_true] at hn
  simp [basic, parseBasicAuth, hn] at h

lemma introspect_header {o : OAuthConfig} (h : introspect o c = .next d) :
    hasPrefix c.req.authorization "Bearer " := by
  by_contra hn
  simp [introspect, cutPrefix, hn] at h

section

variable (h : Wired s extra entry)
include h

lemma readsHeader_default (hf : entry.jwtFrom = "") : jwtReadsHeader entry s.jwtCfg := by
  obtain ⟨cfg,hg,hl⟩ := h.jwtCfg
  simp [jwtReadsHeader, hf, hg, hl]

lemma oauth_configured (ho : hasAuth entry "oauth") : ∃ o, extra.oauth = some o := by
  obtain ⟨o,hg,-⟩ := (valid_parts s h.valid).2.2 ho
  have hm := built_oauth s extra h.built
  rw [hg, Option.map_some, Option.map_eq_some_iff] at hm
  obtain ⟨o',ho',-⟩ := hm
  exact ⟨o',ho'⟩

lemma session_configured (hs : hasAuth entry "session")
    (hd : s.auth.driver ≠ "ory") : extra.session.isSome := by
  have hv := h.valid
  have hb := h.built
  simp only [validateEntryAuthConfig, bind, Except.bind] at hv
  split at hv
  · simp at hv
  split at hv
  · simp at hv
  split_ifs at hv with h1 h2 h3
  cases he : s.auth.session with
  | none => exact absurd ⟨hs,hd,by simp [he]⟩ h3
  | some sess =>
    simp only [buildAuthExtra, he] at hb
    split at hb
    · simp at hb
    · split at hb
      · simp at hb
      · cases hb
        rfl

lemma userValidators_nil : userValidators s extra entry = [] ↔
    hasAuth entry "basic" = false ∧ hasAuth entry "oauth" = false ∧
      hasAuth entry "session" = false := by
  constructor
  · intro hi
    simp only [userValidators, List.append_eq_nil_iff] at hi
    obtain ⟨⟨⟨hb,ho⟩,hs⟩,hk⟩ := hi
    refine ⟨?_,?_,?_⟩
    · by_contra hn
      simp [Bool.not_eq_false _ ▸ hn] at hb
    · by_contra hn
      rw [Bool.not_eq_false] at hn
      obtain ⟨o,hg⟩ := oauth_configured h hn
      simp [(hasAuth_iff entry).mp hn, hg] at ho
    · by_contra hn
      rw [Bool.not_eq_false] at hn
      by_cases hd : s.auth.driver = "ory"
      · obtain ⟨o,hg⟩ := Option.isSome_iff_exists.mp (h.oryClient hd)
        simp [(hasAuth_iff entry).mp hn, hd, hg] at hk
      · obtain ⟨c,hg⟩ := Option.isSome_iff_exists.mp (session_configured h hn hd)
        simp [(hasAuth_iff entry).mp hn, hg] at hs
  · rintro ⟨hb,ho,hs⟩
    simp only [userValidators, hb, ho, hs, Bool.false_eq_true, if_false, Bool.false_and,
      List.append_nil]

end

lemma excluded_nil {ws : List (Mode × Handler)} (hn : ∀ w ∈ ws, w.1 ≠ .apikey ∧ w.1 ≠ .jwt) :
    (∀ w ∈ ws, "" ∈ w.1.others) ↔ ws = [] := by
  constructor
  · intro ha
    cases ws with
    | nil => rfl
    | cons w ws =>
      have hw := ha w (by simp)
      rcases w with ⟨m,f⟩
      cases m <;> simp [Mode.others] at hw
  · rintro rfl
    simp

lemma excluded_jwt (w : Mode × Handler) (hn : w.1 ≠ .apikey ∧ w.1 ≠ .jwt) : "jwt" ∈ w.1.others := by
  rcases w with ⟨m,f⟩
  cases m <;> simp_all [Mode.others]

lemma keyPasses_headerless (hi : hasIdentityAuth entry) {c : Ctx} (hm : c.authMode = "")
    (hra : c.req.authorization = "") : KeyPasses s entry c ↔ keyRoleGate s entry = false := by
  have hk : apiKeySkips entry c := .inr (.inr ⟨hm,hi,hra⟩)
  unfold KeyPasses
  rw [hm]
  constructor
  · intro h
    by_cases ha : hasAuth entry "apikey"
    · simpa using (h ha).2
    · simp [keyRoleGate, ha]
  · intro hg ha
    exact ⟨hk,.inl hg⟩

lemma routed_headerless (hra : req.authorization = "") :
    (arrival s entry req).authMode = "" ∨
      ((arrival s entry req).authMode = "apikey" ∧ routes s entry ∧
        hasAuth entry "apikey" ∧ entry.apiPrefix = "") := by
  rw [routed_authMode, hra, routedMode_empty]
  by_cases hr : routes s entry
  · by_cases ha : hasAuth entry "apikey" ∧ entry.apiPrefix = ""
    · exact .inr ⟨by rw [if_pos hr, if_pos ha],hr,ha⟩
    · exact .inl (by rw [if_pos hr, if_neg ha])
  · exact .inl (if_neg hr)

lemma headerless_prefix (hra : req.authorization = "")
    (hm : (arrival s entry req).authMode = "") (hr : routes s entry)
    (ha : hasAuth entry "apikey") : entry.apiPrefix ≠ "" := by
  intro hp
  rw [routed_authMode, hra, routedMode_empty, if_pos hr, if_pos ⟨ha,hp⟩] at hm
  simp at hm

lemma readsHeader_of_authorization (h : Wired s extra entry)
    (ha : readsAuthorization entry) : jwtReadsHeader entry s.jwtCfg := by
  by_cases hf : entry.jwtFrom = ""
  · exact readsHeader_default h hf
  · rcases hu : cut entry.jwtFrom ':' with ⟨source,key,found⟩
    simp only [readsAuthorization, entryLookup, if_neg hf, hu, Bool.and_eq_true,
      decide_eq_true_eq] at ha
    obtain ⟨⟨rfl,rfl⟩,-⟩ := ha
    simpa [jwtReadsHeader, hf] using cut_prefix hu

lemma jwtFrom_of_elsewhere (ha : readsAuthorization entry = false) : entry.jwtFrom ≠ "" := by
  intro hf
  simp only [readsAuthorization, entryLookup, hf] at ha
  exact absurd ha (by decide)

lemma key_header (h : keyValidator s entry c = .next d) :
    c.req.authorization ≠ "" ∧ (hasPrefix c.req.authorization "Bearer " = false →
      entry.apiPrefix = "" ∨ hasPrefix c.req.authorization entry.apiPrefix) := by
  have hg : c.req.get "Authorization" = c.req.authorization := rfl
  simp only [keyValidator, apiKey, apiKeyConfigForEntry, if_true, hg] at h
  split at h
  · simp at h
  · rename_i key hk
    simp only [presentedKey] at hk
    split at hk
    · cases hk
    · rename_i he
      split at hk
      · cases hk
      · rename_i ho
        refine ⟨he,fun hb => ?_⟩
        rw [trimPrefix, hb, if_neg (by decide)] at ho
        by_contra hn
        simp only [not_or, Bool.not_eq_true] at hn
        exact ho hn

lemma session_conditions (h : Wired s extra entry) (hse : hasAuth entry "session")
    (hra : req.authorization = "") (hm : (arrival s entry req).authMode = "")
    (hb : hasAuth entry "basic" = false) (ho : hasAuth entry "oauth" = false) :
    (KeyPasses s entry (arrival s entry req) ∧
      (hasAuth entry "jwt" → jwtSkips entry (arrival s entry req) ∧
        entry.requiresMFA = false)) ↔
    keyRoleGate s entry = false ∧
      (hasAuth entry "jwt" → entry.jwtFrom = "" ∧ entry.requiresMFA = false ∧
        (hasAuth entry "apikey" → entry.apiPrefix ≠ "")) := by
  have hi := hasIdentityAuth_of hse
  have hk : jwtSkips entry (arrival s entry req) ↔ entry.jwtFrom = "" := by
    have he : hasPrefix "" "Bearer " = false := by decide
    have hq : (arrival s entry req).req.authorization = "" := hra
    simp [jwtSkips, hm, hq, he]
  rw [keyPasses_headerless hi hm hra, hk]
  refine and_congr_right fun _ => forall_congr' fun hj => ?_
  constructor
  · rintro ⟨hf,hmf⟩
    refine ⟨hf,hmf,fun ha => headerless_prefix hra hm ?_ ha⟩
    rw [routes_eq h.driver, hj, ha, hb, ho, readsHeader_default h hf]
    simp
  · rintro ⟨hf,hmf,-⟩
    exact ⟨hf,hmf⟩

lemma token_in_header (h : Wired s extra entry) (hj : hasAuth entry "jwt")
    (hra : readsAuthorization entry) (hrw : hasPrefix req.authorization "Bearer ") :
    TokenAsked s extra entry (arrival s entry req) ↔
    (hasAuth entry "session" → hasAuth entry "apikey" ∨
      hasAuth entry "basic" ∨ hasAuth entry "oauth") := by
  have hm := @routed_authMode s entry req
  rw [routedMode_bearer hrw, if_pos hj] at hm
  have hu := @routes_eq s entry h.driver
  rw [hj, readsHeader_of_authorization h hra] at hu
  have hi : ¬ jwtSkips entry (arrival s entry req) := by
    have hq : hasPrefix (arrival s entry req).req.authorization "Bearer " :=
      hrw
    have hnt : (arrival s entry req).authMode ∉ ["apikey","basic","oauth","session"] := by
      rw [hm]
      split_ifs <;> decide
    rintro (hin | ⟨-,-,hno⟩)
    · exact hnt hin
    · simp [hq] at hno
  by_cases hr : routes s entry
  · rw [if_pos hr] at hm
    have hy : KeyPasses s entry (arrival s entry req) :=
      fun _ => ⟨.inl (by simp [hm]),.inr (by simp [hm])⟩
    have he : ∀ w ∈ userValidators s extra entry,
        (arrival s entry req).authMode ∈ w.1.others :=
      fun w hw => hm ▸ excluded_jwt w (userValidators_mode w hw)
    refine iff_of_true ⟨hy,he,hi⟩ fun _ => ?_
    rw [hr] at hu
    by_contra hn
    simp only [not_or, Bool.not_eq_true] at hn
    simp [hn] at hu
  · rw [if_neg hr] at hm
    rw [Bool.not_eq_true] at hr
    rw [hr] at hu
    have ht : hasAuth entry "apikey" = false ∧ hasAuth entry "basic" = false ∧
        hasAuth entry "oauth" = false := by
      cases hk : hasAuth entry "apikey" <;> cases hb : hasAuth entry "basic" <;>
        cases ho : hasAuth entry "oauth" <;> simp [hk, hb, ho] at hu ⊢
    obtain ⟨hk,hb,ho⟩ := ht
    have hy : KeyPasses s entry (arrival s entry req) := by
      intro ha
      simp [hk] at ha
    rw [TokenAsked, hm, excluded_nil userValidators_mode, userValidators_nil h]
    simp only [hy, hi, hb, ho, hk, true_and, not_false_eq_true, and_true, Bool.false_eq_true,
      or_self, imp_false, Bool.not_eq_true]

lemma token_elsewhere (h : Wired s extra entry) (hj : hasAuth entry "jwt")
    (hra : readsAuthorization entry = false) (hrw : req.authorization = "") :
    TokenAsked s extra entry (arrival s entry req) ↔
    hasAuth entry "basic" = false ∧ hasAuth entry "oauth" = false ∧
      hasAuth entry "session" = false ∧ keyRoleGate s entry = false ∧
      (hasAuth entry "apikey" → hasPrefix entry.jwtFrom "header:" → entry.apiPrefix ≠ "") := by
  have hfr := jwtFrom_of_elsewhere hra
  have he : jwtReadsHeader entry s.jwtCfg = hasPrefix entry.jwtFrom "header:" := by
    simp [jwtReadsHeader, hfr]
  have hi := hasIdentityAuth_of hj
  rcases @routed_headerless s entry req hrw with hm | ⟨hm,hr,ha,hp⟩
  · have hk : ¬ jwtSkips entry (arrival s entry req) := by simp [jwtSkips, hm, hfr]
    rw [TokenAsked, keyPasses_headerless hi hm hrw, hm, excluded_nil userValidators_mode,
      userValidators_nil h]
    constructor
    · rintro ⟨hg,⟨hb,ho,hs⟩,-⟩
      refine ⟨hb,ho,hs,hg,fun ha hhe => headerless_prefix hrw hm ?_ ha⟩
      rw [routes_eq h.driver, hj, ha, hb, ho, he, hhe]
      simp
    · rintro ⟨hb,ho,hs,hg,-⟩
      exact ⟨hg,⟨hb,ho,hs⟩,hk⟩
  · have hk : jwtSkips entry (arrival s entry req) := .inl (by simp [hm])
    refine iff_of_false (fun hn => hn.2.2 hk) ?_
    rintro ⟨hb,ho,-,-,hpr⟩
    rw [routes_eq h.driver, hj, ha, hb, ho, he] at hr
    exact hpr ha (by simpa using hr) hp

end

end SdkApi.CredentialRoutes
