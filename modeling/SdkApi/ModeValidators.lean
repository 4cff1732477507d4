import SdkApi.MfaEnforcement

/-!
# The validators behind their wrappers

Around each validator stands a wrapper that leaves a request to another mode.
This module separates the two: a validator answers for a request alone, and
of the wrapped basic, oauth and session validators at most one is asked, the
first that the route of the request does not exclude.
-/

namespace SdkApi.ModeValidators
open GoStrings RequestContext CredentialMiddleware RoleMiddleware AuthChain ChainFrames
open AuthSoundness ChainSegments MfaEnforcement HandlerChain

inductive Mode where
  | apikey
  | basic
  | oauth
  | session
  | jwt
  deriving DecidableEq

def Mode.others : Mode → List String
  | .apikey => ["jwt","basic","oauth","session"]
  | .basic => ["jwt","apikey","oauth","session"]
  | .oauth => ["jwt","apikey","basic","session"]
  | .session => ["jwt","apikey","basic","oauth"]
  | .jwt => ["apikey","basic","oauth","session"]

/-- The answer depends on the request alone. -/
def Decides (f : Handler) : Prop :=
  ∀ c d, f c = .next d → ∃ auth, d.auth = some auth ∧ ∀ e : Ctx, e.req = c.req →
    ∃ e', f e = .next e' ∧ e'.auth = some auth ∧ e'.req = e.req ∧ e'.authMode = e.authMode

lemma decides_of_inject (mode : String) (f : Handler)
    (h : ∀ c d, f c = .next d → ∃ auth, ∀ e : Ctx, e.req = c.req →
      f e = .next (e.inject mode auth)) : Decides f := by
  intro c d hcd
  obtain ⟨auth,ha⟩ := h c d hcd
  have hd : d = c.inject mode auth := Outcome.next.inj (hcd.symm.trans (ha c rfl))
  exact ⟨auth,by rw [hd, inject_auth],fun e he => ⟨_,ha e he,rfl,rfl,rfl⟩⟩

lemma Decides.refuses {f : Handler} (h : Decides f) {c e : Ctx} (he : e.req = c.req)
    (hr : ∀ d, f c ≠ .next d) : ∀ d, f e ≠ .next d := by
  intro d hd
  obtain ⟨auth,-,ha⟩ := h e d hd
  obtain ⟨c',hc,-⟩ := ha c he.symm
  exact hr c' hc

lemma decides_basic (validator : Option BasicValidator) : Decides (basic validator) := by
  apply decides_of_inject "basic"
  intro c d h
  simp only [basic] at h
  split at h
  · simp at h
  · rename_i user pass hp
    split at h
    · simp at h
    · split at h
      · simp at h
      · simp at h
      · rename_i auth hv
        exact ⟨auth,fun e he => by simp [basic, he, hp, hv, next]⟩

lemma decides_introspect (cfg : OAuthConfig) : Decides (introspect cfg) := by
  apply decides_of_inject "oauth"
  intro c d h
  simp only [introspect] at h
  split_ifs at h with ht hu
  · simp at h
  · simp at h
  · split at h
    · rename_i auth hc
      exact ⟨auth,fun e he => by simp only [introspect, he, if_neg ht, if_neg hu, hc, next]⟩
    · rename_i hc
      split at h
      · simp at h
      · rename_i auth hi
        exact ⟨auth,fun e he => by simp only [introspect, he, if_neg ht, if_neg hu, hc, hi, next]⟩

lemma decides_session (cfg : SessionConfig) : Decides (session cfg) := by
  apply decides_of_inject "session"
  intro c d h
  simp only [session] at h
  split at h
  · simp at h
  · rename_i get hg
    split_ifs at h with hi
    · simp at h
    · split at h
      · simp at h
      · rename_i raw hr
        split at h
        · simp at h
        · rename_i data hd
          split_ifs at h with hu
          · simp at h
          · refine ⟨{ userID := data.userID, roles := data.roles },fun e he => ?_⟩
            simp only [session, hg, he, if_neg hi, hr, hd, if_neg hu, next]

lemma decides_kratosSession (client : OryClient) : Decides (kratosSession client) := by
  apply decides_of_inject "session"
  intro c d h
  simp only [kratosSession] at h
  split_ifs at h with ht
  · simp at h
  · split at h
    · simp at h
    · rename_i k hk
      refine ⟨{ userID := k.identityID, orgID := k.orgID, roles := k.roles,
                rawToken := kratosToken c.req },fun e he => ?_⟩
      simp only [kratosSession, he, if_neg ht, hk, next]

lemma decides_apiKey (cfg : APIKeyConfig) (hv : cfg.authResolver.isSome) :
    Decides (apiKey cfg) := by
  obtain ⟨resolve,hv⟩ := Option.isSome_iff_exists.mp hv
  apply decides_of_inject "apikey"
  intro c d h
  simp only [apiKey, hv] at h
  split at h
  · simp at h
  · rename_i key hk
    split at h
    · simp at h
    · simp at h
    · rename_i auth ha
      exact ⟨auth,fun e he => by simp only [apiKey, hv, he, hk, ha, next]⟩

lemma decides_of_admitsToken {f : Handler} (h : AdmitsToken f) : Decides f := by
  intro c d hcd
  obtain ⟨claims,raw,ha⟩ := h c d hcd
  have hd : d = withToken c claims raw := Outcome.next.inj (hcd.symm.trans (ha c rfl))
  exact ⟨_,by rw [hd]; rfl,fun e he => ⟨_,ha e he,rfl,rfl,rfl⟩⟩

def wrapped (w : Mode × Handler) : Handler := skipWhenRouted w.1.others w.2

section

variable (w : Mode × Handler) {c : Ctx}

lemma wrapped_identity (hc : c.auth.isSome) : wrapped w c = .next c := by
  simp [wrapped, skipWhenRouted, hc, next]

lemma wrapped_excluded (hm : c.authMode ∈ w.1.others) : wrapped w c = .next c := by
  unfold wrapped skipWhenRouted
  split_ifs <;> rfl

lemma wrapped_asked (hc : c.auth = none) (hm : c.authMode ∉ w.1.others) : wrapped w c = w.2 c := by
  simp [wrapped, skipWhenRouted, hc, hm]

end

lemma reaches_identity (ws : List (Mode × Handler)) {c : Ctx} (hc : c.auth.isSome) (d : Ctx) :
    Reaches (ws.map wrapped) c d ↔ d = c := by
  induction ws with
  | nil => simp
  | cons w ws ih => simp [reaches_cons, wrapped_identity w hc, ih]

lemma reaches_excluded (ws : List (Mode × Handler)) {c : Ctx}
    (hm : ∀ w ∈ ws, c.authMode ∈ w.1.others) (d : Ctx) : Reaches (ws.map wrapped) c d ↔ d = c := by
  induction ws with
  | nil => simp
  | cons w ws ih =>
    simp [reaches_cons, wrapped_excluded w (hm w (by simp)), ih fun v hv => hm v (by simp [hv])]

lemma reaches_asked {ws : List (Mode × Handler)} {w : Mode × Handler} {c : Ctx}
    (h : ws.find? (c.authMode ∉ ·.1.others) = some w) (hw : Decides w.2) (hc : c.auth = none)
    (d : Ctx) : Reaches (ws.map wrapped) c d ↔ w.2 c = .next d := by
  obtain ⟨hk,before,after,rfl,hm⟩ := List.find?_eq_some_iff_append.mp h
  simp only [decide_eq_true_eq, Bool.not_eq_true', decide_eq_false_iff_not, not_not] at hk hm
  rw [List.map_append, List.map_cons, reaches_append]
  simp only [reaches_excluded before hm, exists_eq_left, reaches_cons, wrapped_asked w hc hk]
  constructor
  · rintro ⟨u,hu,hd⟩
    obtain ⟨auth,ha,-⟩ := hw c u hu
    rw [(reaches_identity after (by simp [ha]) d).mp hd]
    exact hu
  · intro hd
    obtain ⟨auth,ha,-⟩ := hw c d hd
    exact ⟨d,hd,(reaches_identity after (by simp [ha]) d).mpr rfl⟩

section

variable (s : Service) (extra : EntryAuthExtra) (entry : EntryDef)

def userValidators : List (Mode × Handler) :=
  (if hasAuth entry "basic" then [(.basic,basic extra.basicValidator)] else []) ++
  (if hasAuth entry "oauth" then extra.oauth.toList.map fun o => (.oauth,introspect o) else []) ++
  (if hasAuth entry "session" then extra.session.toList.map fun c => (.session,session c)
    else []) ++
  (if hasAuth entry "session" && s.auth.driver = "ory" then
    s.oryClient.toList.map fun o => (.session,kratosSession o) else [])

lemma userSegment_validators : (userSegment s extra entry s.auth.driver).map slot =
    (userValidators s extra entry).map wrapped := by
  have hb : ((if hasAuth entry "basic" then [basicMiddleware entry extra.basicValidator]
      else []).map slot) = (if hasAuth entry "basic" then [(Mode.basic,basic extra.basicValidator)]
      else []).map wrapped := by
    split_ifs with h <;> simp [basicMiddleware, h, slot, wrapped, Mode.others]
  have ha : ((if hasAuth entry "oauth" && extra.oauth.isSome then
      [oauthMiddleware entry extra.oauth] else []).map slot) =
      (if hasAuth entry "oauth" then extra.oauth.toList.map fun o => (Mode.oauth,introspect o)
        else []).map wrapped := by
    cases ho : extra.oauth <;> by_cases h : hasAuth entry "oauth" <;>
      simp [oauthMiddleware, h, slot, wrapped, Mode.others]
  have he : ((if hasAuth entry "session" && extra.session.isSome then
      [sessionMiddleware entry extra.session] else []).map slot) =
      (if hasAuth entry "session" then extra.session.toList.map fun c => (Mode.session,session c)
        else []).map wrapped := by
    cases ho : extra.session <;> by_cases h : hasAuth entry "session" <;>
      simp [sessionMiddleware, h, slot, wrapped, Mode.others]
  have hk : ((if hasAuth entry "session" && s.auth.driver = "ory" && s.oryClient.isSome then
      [kratosSessionMiddleware entry s.oryClient] else []).map slot) =
      (if hasAuth entry "session" && s.auth.driver = "ory" then
        s.oryClient.toList.map fun o => (Mode.session,kratosSession o) else []).map wrapped := by
    cases ho : s.oryClient <;> by_cases h : hasAuth entry "session" <;>
      by_cases hd : s.auth.driver = "ory" <;>
      simp [kratosSessionMiddleware, h, hd, slot, wrapped, Mode.others]
  simp only [userSegment, userValidators, List.map_append, hb, ha, he, hk]

def keyValidator : Handler := apiKey (apiKeyConfigForEntry entry s.apiKeyValidator s.fgaClient)

def validators : List (Mode × Handler) :=
  (if hasAuth entry "apikey" then [(.apikey,keyValidator s entry)] else []) ++
  userValidators s extra entry ++
  (if hasAuth entry "jwt" then
    (tokenValidator s entry s.auth.driver).toList.map fun f => (.jwt,f) else [])

lemma decides_userValidators : ∀ w ∈ userValidators s extra entry, Decides w.2 := by
  intro w hw
  simp only [userValidators, List.mem_append, List.mem_ite_nil_right, List.mem_singleton,
    List.mem_map] at hw
  rcases hw with ((⟨-,rfl⟩ | ⟨-,o,-,rfl⟩) | ⟨-,o,-,rfl⟩) | ⟨-,o,-,rfl⟩
  · exact decides_basic _
  · exact decides_introspect o
  · exact decides_session o
  · exact decides_kratosSession o

lemma decides_validators (hv : s.apiKeyValidator.isSome) :
    ∀ w ∈ validators s extra entry, Decides w.2 := by
  intro w hw
  simp only [validators, List.mem_append, List.mem_ite_nil_right, List.mem_singleton,
    List.mem_map, Option.mem_toList] at hw
  rcases hw with (⟨-,rfl⟩ | hw) | ⟨-,f,hf,rfl⟩
  · exact decides_apiKey _ hv
  · exact decides_userValidators s extra entry w hw
  · exact decides_of_admitsToken (tokenValidator_admits hf)

end

end SdkApi.ModeValidators
