import SdkApi.ChainSegments

/-!
# Slots that hold a handler

The factories of the chain return nil when what they wrap is missing. For most
of them the builder looks before it appends; the token validator and the manual
role decision are appended as they are. What the startup validation demands is
compared here with what these two need.
-/

namespace SdkApi.HandlerPresence
open RequestContext CredentialMiddleware RoleMiddleware AuthChain ChainFrames AuthSoundness List
open ChainSegments

/-- The loop of `validateAuthDisabled`. -/
def validateAuthDisabled : List EntryDef → Except String Unit
  | [] => .ok ()
  | entry::rest =>
    if entry.authModes ≠ [] then .error (entryError entry "auth requires auth.enabled: true")
    else validateAuthDisabled rest

def validateAuthEnabled (s : Service) : List EntryDef → Except String Unit
  | [] => .ok ()
  | entry::rest =>
    match validateEntryAuthConfig s entry s.auth.driver with
    | .error e => .error e
    | .ok () => validateAuthEnabled s rest

/-- Without an auth section the switch is off and the driver is empty. -/
def validateAuthConfig (s : Service) (enabled : Bool) (entries : List EntryDef) :
    Except String Unit :=
  if enabled then validateAuthEnabled s entries else validateAuthDisabled entries

variable {entry : EntryDef} {entries : List EntryDef} {s : Service}

lemma validateAuthDisabled_ok (h : validateAuthDisabled entries = .ok ())
    (hm : entry ∈ entries) : entry.authModes = [] := by
  induction entries with
  | nil => cases hm
  | cons e rest ih =>
    by_cases he : e.authModes = []
    · rcases mem_cons.mp hm with rfl | hm
      · exact he
      · exact ih (by simpa [validateAuthDisabled, he] using h) hm
    · simp [validateAuthDisabled, he] at h

lemma validateAuthEnabled_ok (h : validateAuthEnabled s entries = .ok ()) (hm : entry ∈ entries) :
    validateEntryAuthConfig s entry s.auth.driver = .ok () := by
  induction entries with
  | nil => cases hm
  | cons e rest ih =>
    unfold validateAuthEnabled at h
    split at h
    · cases h
    · rename_i he
      rcases mem_cons.mp hm with rfl | hm
      · exact he
      · exact ih h hm

lemma driver_of_valid {driver : String} (h : validateEntryAuthConfig s entry driver = .ok ())
    (hj : hasAuth entry "jwt") : hasJWT entry driver := by
  have hi : ¬ (driver = "none" ∨ driver = "") := by
    intro hd
    simp only [validateEntryAuthConfig, bind, Except.bind] at h
    split at h
    · cases h
    · simp [validateJWTEntry, hj, hd] at h
  simp only [not_or] at hi
  simp [hasJWT, hj, hi.1, hi.2]

lemma hasJWT_of_accepted {enabled : Bool} (h : validateAuthConfig s enabled entries = .ok ())
    (hm : entry ∈ entries) : hasJWT entry s.auth.driver = hasAuth entry "jwt" := by
  by_cases hj : hasAuth entry "jwt"
  · rw [hj]
    unfold validateAuthConfig at h
    split at h
    · exact driver_of_valid (validateAuthEnabled_ok h hm) hj
    · simp [validateAuthDisabled_ok h hm, hasAuth] at hj
  · simp [hasJWT, hj]

section

variable (s : Service) (extra : EntryAuthExtra) (entry : EntryDef) (driver : String)

def tokenWired : Prop := s.jwtCfg.isSome ∧ (driver = "manual" → s.authValidator.isSome)

lemma tokenSlot_present (hj : hasAuth entry "jwt") :
    (tokenSlot s entry driver).isSome = s.jwtCfg.isSome := by
  unfold tokenSlot zitadelJWTMiddleware oryJWTMiddleware jwtMiddleware
  cases hz : s.zitadelClient <;> cases ho : s.oryClient <;> simp [hj] <;> split_ifs <;> simp

lemma unlessNil_present (mw : Option Handler) : ∀ f ∈ unlessNil mw, f.isSome := by
  intro f hf
  obtain ⟨hs,rfl⟩ := (mem_unlessNil mw f).mp hf
  exact hs

lemma roleTail_present (hi : hasIdentityAuth entry) :
    (∀ mw ∈ roleTail s entry driver, mw.isSome) ↔
      (driver = "manual" → s.authValidator.isSome) := by
  by_cases hm : driver = "manual"
  · subst hm
    have ho := @roleSlot_isSome s entry "manual" hi
    simp only [roleGate, String.reduceEq, if_false] at ho
    simp [roleTail, ho]
  · simp only [roleTail, hm, if_false, false_implies, iff_true]
    split_ifs
    · exact unlessNil_present _
    · simp

lemma tokenChain_present : (∀ mw ∈ tokenChain s entry driver, mw.isSome) ↔
    (hasJWT entry driver → tokenWired s driver) := by
  by_cases hj : hasJWT entry driver
  · have hi := hasIdentityAuth_of_hasJWT hj
    have ha : hasAuth entry "jwt" := by
      simp only [hasJWT, Bool.and_eq_true] at hj
      exact hj.1.1
    have hm : ∀ mw ∈ (if entry.requiresMFA then [some mfaRequired] else []), mw.isSome := by
      split_ifs <;> simp
    rw [tokenChain, if_pos hj, forall_mem_cons, forall_mem_append,
      tokenSlot_present s entry driver ha, roleTail_present s entry driver hi]
    simp only [hj, forall_const]
    exact ⟨fun h => ⟨h.1,h.2.1⟩,fun h => ⟨h.1,h.2,hm⟩⟩
  · simp [tokenChain, hj]

lemma userSegment_present : ∀ mw ∈ userSegment s extra entry driver, mw.isSome := by
  intro mw hmw
  simp only [userSegment, mem_append, mem_ite_nil_right, mem_singleton,
    Bool.and_eq_true, Option.isSome_iff_exists] at hmw
  rcases hmw with ((⟨hm,rfl⟩ | ⟨⟨hm,o,ho⟩,rfl⟩) | ⟨⟨hm,o,ho⟩,rfl⟩) | ⟨⟨⟨hm,-⟩,o,ho⟩,rfl⟩
  · simp [basicMiddleware, hm]
  · simp [oauthMiddleware, hm, ho]
  · simp [sessionMiddleware, hm, ho]
  · simp [kratosSessionMiddleware, hm, ho]

lemma keySegment_present : ∀ mw ∈ keySegment s entry, mw.isSome := by
  intro mw hm
  simp only [keySegment, mem_ite_nil_right, mem_cons, mem_map] at hm
  rcases hm with ⟨-,rfl | ⟨f,-,rfl⟩⟩ <;> rfl

lemma appendNonJWTRoles_present : ∀ mw ∈ appendNonJWTRoles s entry driver, mw.isSome := by
  rw [appendNonJWTRoles_eq]
  split_ifs
  · simp
  · exact unlessNil_present _

lemma limitSegment_present : ∀ mw ∈ limitSegment s entry driver, mw.isSome := by
  rw [limitSegment]
  split_ifs
  · exact unlessNil_present _
  · simp

lemma registerAuthMiddleware_present :
    (∀ mw ∈ registerAuthMiddleware s extra entry driver, mw.isSome) ↔
      (hasJWT entry driver → tokenWired s driver) := by
  have ho : ∀ mw ∈ (if needsAuthRouter entry (hasJWT entry driver) (hasAuth entry "oauth")
      (hasAuth entry "apikey") (hasAuth entry "basic") s.jwtCfg then
      [some (authRouter entry)] else []), mw.isSome := by split_ifs <;> simp
  rw [registerAuthMiddleware_eq, behindRouter_split]
  simp only [forall_mem_append, tokenChain_present]
  constructor
  · rintro ⟨-,-,-,ht,-⟩
    exact ht
  · intro ht
    exact ⟨ho,keySegment_present s entry,userSegment_present s extra entry driver,ht,
      appendNonJWTRoles_present s entry driver,limitSegment_present s entry driver⟩

end

/-- The list that an accepted entry is registered with has no nil handler
exactly when a token entry has a token configuration and, for the manual
driver, an authorization validator. -/
theorem no_nil_handler_iff (s : Service) (enabled : Bool) (entries : List EntryDef)
    (h : validateAuthConfig s enabled entries = .ok ()) (entry : EntryDef) (hm : entry ∈ entries)
    (extra : EntryAuthExtra) :
    (∀ mw ∈ registerAuthMiddleware s extra entry s.auth.driver, mw.isSome = true) ↔
      (hasAuth entry "jwt" = true →
        s.jwtCfg.isSome = true ∧ (s.auth.driver = "manual" → s.authValidator.isSome = true)) := by
  rw [registerAuthMiddleware_present, hasJWT_of_accepted h hm]
  rfl

def keyOrToken : EntryDef where
  type := "rest"
  path := "/orders"
  authModes := ["apikey","jwt"]

def keysOnly : Service where
  auth := ⟨"manual",none,none⟩
  jwtCfg := some { currentParser := fun _ => .error "signature is invalid" }
  apiKeyValidator := some fun _ => .error "unknown key"

def decided : Service := { keysOnly with authValidator := some fun _ _ _ => .error "forbidden" }

theorem decided_service_has_no_nil_handler :
    validateAuthConfig decided true [keyOrToken] = .ok () ∧
    ∀ mw ∈ registerAuthMiddleware decided ⟨none,none,none⟩ keyOrToken "manual", mw.isSome = true :=
  ⟨rfl,(no_nil_handler_iff decided true [keyOrToken] rfl keyOrToken (mem_singleton_self _)
    ⟨none,none,none⟩).mpr fun _ => ⟨rfl,fun _ => rfl⟩⟩

/-- The API key mode exempts the entry from the check for a validator, and the
token mode appends the decision without it. -/
theorem manual_token_entry_has_nil_handler :
    validateAuthConfig keysOnly true [keyOrToken] = .ok () ∧
    none ∈ registerAuthMiddleware keysOnly ⟨none,none,none⟩ keyOrToken "manual" := by
  have hl : (registerAuthMiddleware keysOnly ⟨none,none,none⟩ keyOrToken "manual")[3]? =
      some none := rfl
  exact ⟨rfl,mem_of_getElem? hl⟩

end SdkApi.HandlerPresence
