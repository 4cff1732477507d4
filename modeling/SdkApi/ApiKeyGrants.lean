import SdkApi.CredentialMiddleware

/-!
# Whose grant an API key uses

With an OpenFGA client an API key is authorized as the subject that is made of
its first bytes. The client is asked about that subject only, so keys with the
same subject share their grants.
-/

namespace SdkApi.ApiKeyGrants
open GoStrings RequestContext CredentialMiddleware

def leading (key : String) : List Char := (key.toList.take 12).filter alphanumeric

def subject (key : String) : String := "apikey:"++deriveKeyID key

/-- The check of a store whose tuples mention one subject only. -/
def OnlySubject (s : String) (check : Checker) : Prop :=
  ∀ req, check req = .ok true → req.user = s

def checking (cfg : APIKeyConfig) (check : Checker) : APIKeyConfig :=
  { cfg with client := some check, authResolver := none }

def PassesPrefix (cfg : APIKeyConfig) (key : String) : Prop :=
  cfg.keyPrefix = "" ∨ hasPrefix key cfg.keyPrefix = true

def headerValue (cfg : APIKeyConfig) (c : Ctx) : String :=
  c.req.get (if cfg.header = "" then "Authorization" else cfg.header)

def PresentsKey (cfg : APIKeyConfig) (c : Ctx) (key : String) : Prop :=
  headerValue cfg c ≠ "" ∧ trimPrefix (headerValue cfg c) "Bearer " = key

/-- Grants of the first key let no request with the second one through. -/
def Separate (cfg : APIKeyConfig) (k₁ k₂ : String) : Prop :=
  ∀ check, OnlySubject (subject k₁) check → ∀ c, PresentsKey cfg c k₂ →
    ∀ d, apiKey (checking cfg check) c ≠ .next d

lemma subject_eq_iff (k₁ k₂ : String) : subject k₁ = subject k₂ ↔ leading k₁ = leading k₂ := by
  unfold subject deriveKeyID leading
  constructor
  · intro h
    have hl := congrArg String.toList h
    simpa only [String.toList_append, String.toList_ofList, List.append_cancel_left_eq] using hl
  · intro h
    rw [h]

lemma presentedKey_ok (cfg : APIKeyConfig) {c : Ctx} {key : String} (hp : PassesPrefix cfg key)
    (hc : PresentsKey cfg c key) : presentedKey cfg (headerValue cfg c) = .ok key := by
  obtain ⟨hn,hk⟩ := hc
  unfold presentedKey
  rw [if_neg hn, hk, if_neg]
  rintro ⟨ht,ho⟩
  rcases hp with he | ha
  · exact ht he
  · rw [ha] at ho
    cases ho

lemma checking_next_iff {cfg : APIKeyConfig} (check : Checker) {c : Ctx} {key : String}
    (hp : PassesPrefix cfg key) (hc : PresentsKey cfg c key) :
    (∃ d, apiKey (checking cfg check) c = .next d) ↔
      check ⟨subject key,if cfg.relation = "" then "can_access" else cfg.relation,cfg.object⟩ =
        .ok true := by
  have hk : presentedKey (checking cfg check)
      (c.req.get (if (checking cfg check).header = "" then "Authorization"
        else (checking cfg check).header)) = .ok key := presentedKey_ok cfg hp hc
  simp only [apiKey, hk]
  -- with the key read, the handler is its question to the client
  simp only [checking]
  split
  · rename_i e he
    exact iff_of_false (by simp) (fun hok => by cases he.symm.trans hok)
  · rename_i he
    exact iff_of_false (by simp) (fun hok => by cases he.symm.trans hok)
  · rename_i he
    exact iff_of_true ⟨_,rfl⟩ he

lemma same_subject_passes {cfg : APIKeyConfig} {k₁ k₂ : String} (hp : PassesPrefix cfg k₂)
    (h : subject k₁ = subject k₂) : ¬Separate cfg k₁ k₂ := by
  intro hse
  let check : Checker := fun req => .ok (req.user == subject k₁)
  let c : Ctx := { req := ⟨fun _ => "Bearer "++k₂,[],fun _ => ""⟩ }
  have hc : PresentsKey cfg c k₂ := by
    have ha : headerValue cfg c = "Bearer "++k₂ := rfl
    have ht : trimPrefix ("Bearer "++k₂) "Bearer " = k₂ := by
      have hu := congrArg Prod.fst (cutPrefix_append "Bearer " k₂)
      simpa only [cutPrefix, trimPrefix, hasPrefix_append, if_true] using hu
    refine ⟨?_,by rw [ha, ht]⟩
    rw [ha]
    intro he
    have hl := congrArg String.toList he
    simp at hl
  have ho : OnlySubject (subject k₁) check := by
    intro req hq
    simpa [check] using hq
  obtain ⟨d,hd⟩ := (checking_next_iff check hp hc).mpr (by simp [check, h])
  exact hse check ho c hc d hd

/-- A grant of one key is closed to another exactly when their subjects differ:
in the letters and digits of their first twelve bytes. -/
theorem separate_iff (cfg : APIKeyConfig) (k₁ k₂ : String) (hp : PassesPrefix cfg k₂) :
    Separate cfg k₁ k₂ ↔ leading k₁ ≠ leading k₂ := by
  constructor
  · intro he hl
    exact same_subject_passes hp ((subject_eq_iff k₁ k₂).mpr hl) he
  · intro hn check ho c hc d hd
    have ha := (checking_next_iff check hp hc).mp ⟨d,hd⟩
    have hm : subject k₂ = subject k₁ := ho _ ha
    exact hn ((subject_eq_iff k₁ k₂).mp hm.symm)

/-- Keys of a service that begin with `sk_live_`. -/
def liveKeys : APIKeyConfig where
  keyPrefix := "sk_live_"
  client := none
  relation := ""
  object := "api:orders"
  authResolver := none

theorem early_difference_separates : Separate liveKeys "sk_live_a1" "sk_live_b1" :=
  (separate_iff liveKeys "sk_live_a1" "sk_live_b1" (.inr rfl)).mpr (by decide)

/-- Two keys that differ after their twelfth byte are one subject, and so are
two that differ in a character that is dropped. -/
theorem later_difference_shares :
    "sk_live_a1b2-first" ≠ "sk_live_a1b2-second" ∧
      PassesPrefix liveKeys "sk_live_a1b2-first" ∧ PassesPrefix liveKeys "sk_live_a1b2-second" ∧
      subject "sk_live_a1b2-first" = subject "sk_live_a1b2-second" ∧
      ¬Separate liveKeys "sk_live_a1b2-first" "sk_live_a1b2-second" ∧
      ¬Separate liveKeys "sk_live_a-b" "sk_live_a.b" :=
  ⟨by decide,.inr rfl,.inr rfl,by decide,same_subject_passes (.inr rfl) (by decide),
    same_subject_passes (.inr rfl) (by decide)⟩

end SdkApi.ApiKeyGrants
