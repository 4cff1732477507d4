import SdkApi.LimiterStore

/-!
# What a limiter has left at an instant

Asked again and again at one instant, a limiter grants a finite number of
requests: a window what is missing to its maximum, a bucket its whole tokens.
A limiter in Redis has the tokens of its bucket there and those of the bucket
in the process. Each granted request lowers what is left.
-/

namespace SdkApi.LimiterBudgets
open Admission Limiters LimiterStore

section

variable {capacity rate cost now : ℤ} {b : Bucket}

def whole (capacity rate cost now : ℤ) (b : Bucket) : ℕ :=
  (b.levelAt capacity rate now/cost).toNat

lemma levelAt_granted (ho : 0 < cost) (h : (b.take capacity rate cost now).1) :
    cost ≤ b.levelAt capacity rate now ∧
      (b.take capacity rate cost now).2.levelAt capacity rate now =
        b.levelAt capacity rate now-cost := by
  unfold Bucket.take at h ⊢
  split_ifs at h ⊢ with hl
  have ha : b.levelAt capacity rate now ≤ capacity := min_le_left _ _
  refine ⟨hl,?_⟩
  simp only [Bucket.levelAt, sub_self, max_self, mul_zero, add_zero] at ha ⊢
  exact min_eq_right (by linarith)

lemma whole_granted (ho : 0 < cost) (h : (b.take capacity rate cost now).1) :
    whole capacity rate cost now (b.take capacity rate cost now).2 <
      whole capacity rate cost now b := by
  obtain ⟨hle,hl⟩ := levelAt_granted ho h
  have hn : 1 ≤ b.levelAt capacity rate now/cost := by
    rw [Int.le_ediv_iff_mul_le ho]
    linarith
  have he : (b.levelAt capacity rate now-cost)/cost = b.levelAt capacity rate now/cost-1 := by
    rw [Int.sub_ediv_of_dvd _ (dvd_refl cost), Int.ediv_self ho.ne']
  unfold whole
  rw [hl, he]
  omega

end

section

variable {l : SlidingWindow} {now : ℤ}

/-- A window in use: the hits of the window before are never kept. -/
structure Usable (l : SlidingWindow) : Prop where
  prevHits : l.prevHits = 0
  windowExp : 0 ≤ l.windowExp
  max : 0 < l.max
  expiration : 0 < l.expiration

def missing (now : ℤ) (l : SlidingWindow) : ℕ :=
  if now < l.windowExp then (l.max-l.currHits).toNat else l.max.toNat

lemma Usable.started (h : Usable l) (hn : l.windowExp ≠ 0) : Started l :=
  ⟨h.prevHits,lt_of_le_of_ne h.windowExp hn.symm⟩

lemma allow_opens (h : Usable l) (ho : ¬now < l.windowExp) :
    l.allow now =
      (true,{ l with prevHits := 0, currHits := 1, windowExp := now+l.expiration }) := by
  by_cases hz : l.windowExp = 0
  · rw [allow_first hz, ← h.prevHits]
  · exact allow_outside (h.started hz) h.max (not_lt.mp ho)

lemma Usable.allow (h : Usable l) (hn : 0 ≤ now) : Usable (l.allow now).2 := by
  by_cases hi : now < l.windowExp
  · rw [allow_inside (h.started (by omega)) hi]
    split_ifs
    · exact h
    · exact { h with }
  · rw [allow_opens h hi]
    have := h.expiration
    exact ⟨rfl,by dsimp only; omega,h.max,h.expiration⟩

lemma Usable.cancel (h : Usable l) : Usable l.cancel := by
  unfold SlidingWindow.cancel
  split_ifs
  · exact { h with }
  · exact h

lemma missing_granted (h : Usable l) (hn : 0 ≤ now) (hg : (l.allow now).1) :
    missing now (l.allow now).2 < missing now l := by
  have hm := h.max
  have he := h.expiration
  by_cases hi : now < l.windowExp
  · rw [allow_inside (h.started (by omega)) hi] at hg ⊢
    split_ifs at hg ⊢
    unfold missing
    rw [if_pos hi, if_pos hi]
    dsimp only
    omega
  · rw [allow_opens h hi]
    unfold missing
    rw [if_neg hi, if_pos (by dsimp only; omega)]
    dsimp only
    omega

end

section

variable {db : Redis} {key : String} {rate capacity now : ℤ}

def filledTokens (db : Redis) (key : String) (rate capacity now : ℤ) : ℤ :=
  min capacity ((db.get now (tokenKey key)).getD capacity+
    max 0 (unix now-(db.get now (timestampKey key)).getD 0)*rate)

lemma tokenScript_eq : tokenScript db key rate capacity now =
    if 2*capacity/rate ≤ 0 then none
    else some (decide (1 ≤ filledTokens db key rate capacity now),
      (db.setex now (tokenKey key) (2*capacity/rate)
        (if 1 ≤ filledTokens db key rate capacity now then
          filledTokens db key rate capacity now-1
        else filledTokens db key rate capacity now)).setex now (timestampKey key)
          (2*capacity/rate) (unix now)) := by
  unfold tokenScript
  by_cases ho : 1 ≤ filledTokens db key rate capacity now
  · have ho' := ho
    unfold filledTokens at ho'
    simp [ho', filledTokens]
  · have ho' := ho
    unfold filledTokens at ho'
    simp [ho', filledTokens]

lemma get_setex_self {ttl value : ℤ} (ht : 0 < ttl) :
    (db.setex now key ttl value).get now key = some value := by
  have he : 0 < second := by decide
  have hl : now < now+ttl*second := by
    have := Int.mul_pos ht he
    omega
  simp [Redis.get, Redis.setex, hl]

lemma filledTokens_granted {after : Redis}
    (h : tokenScript db key rate capacity now = some (true,after)) :
    1 ≤ filledTokens db key rate capacity now ∧
      filledTokens after key rate capacity now = filledTokens db key rate capacity now-1 := by
  rw [tokenScript_eq] at h
  split_ifs at h with hl ho
  · simp only [Option.some.injEq, Prod.mk.injEq] at h
    obtain ⟨-,rfl⟩ := h
    have ha : filledTokens db key rate capacity now ≤ capacity := min_le_left _ _
    have hpo : 0 < 2*capacity/rate := not_le.mp hl
    have ht : ∀ v : ℤ, ((db.setex now (tokenKey key) (2*capacity/rate) v).setex now
        (timestampKey key) (2*capacity/rate) (unix now)).get now (tokenKey key) = some v := by
      intro v
      rw [get_congr (setex_of_ne (tokenKey_ne_timestampKey key key)), get_setex_self hpo]
    refine ⟨ho,?_⟩
    rw [filledTokens, ht, get_setex_self hpo]
    simp only [Option.getD_some, sub_self, max_self, zero_mul, add_zero]
    exact min_eq_right (by omega)
  · have hg : 1 ≤ filledTokens db key rate capacity now := by
      simp only [Option.some.injEq, Prod.mk.injEq, decide_eq_true_eq] at h
      exact h.1
    exact absurd hg ho

def budget (db : Redis) (now : ℤ) : AnyLimiter → ℕ
  | .memory (.sliding l) => missing (unix now) l
  | .memory (.xrate l) => l.owed+whole (l.burst*second) l.limit second now l.bucket
  | .redis l => (filledTokens db l.key l.rate l.burst now).toNat+
      whole (l.burst*l.interval) 1 l.interval now l.rescueLimiter

def Sound : AnyLimiter → Prop
  | .memory (.sliding l) => Usable l
  | .memory (.xrate _) => True
  | .redis l => 0 < l.interval

lemma newLimiter_sound {key : String} {entry : RateLimitEntry} {s : Settings}
    (ha : 0 < entry.requestsPerSecond) (he : s.rdb → entry.requestsPerSecond ≤ second) :
    Sound (newLimiter key entry s) := by
  unfold newLimiter newMemoryLimiter
  split_ifs with hb hl
  · have h := he hb
    change 0 < second/entry.requestsPerSecond
    rw [← Int.add_one_le_iff, zero_add, Int.le_ediv_iff_mul_le ha]
    linarith
  · refine ⟨rfl,le_rfl,ha,?_⟩
    dsimp only [newSlidingWindowLimiter]
    split_ifs <;> omega
  · trivial

variable {db : Redis} {m : Moment} {l : AnyLimiter} {now : ℤ}

lemma cancel_sound (h : Sound l) : Sound l.cancel := by
  cases l with
  | memory l =>
    cases l with
    | sliding l => exact Usable.cancel h
    | xrate l => trivial
  | redis l => exact h

lemma unix_nonneg (h : 0 ≤ now) : 0 ≤ unix now := Int.ediv_nonneg h (by decide)

lemma allow_sound (h : Sound l) (hn : 0 ≤ m.now) : Sound (l.allow db m).2.1 := by
  cases l with
  | memory l =>
    cases l with
    | sliding l => exact Usable.allow h (unix_nonneg hn)
    | xrate l => trivial
  | redis l =>
    have ha := (tokenLimiter_allow_fixed l db m).1
    change 0 < second/(l.allow db m).2.1.rate
    rw [ha]
    exact h

lemma rescue_granted {l : TokenLimiter} (h : 0 < l.interval) (hg : (l.rescue db now).1) :
    budget db now (.redis (l.rescue db now).2.1) < budget db now (.redis l) :=
  Nat.add_lt_add_left (whole_granted h hg) _

lemma tokenLimiter_cases {l : TokenLimiter} (hg : (l.allow db m).1) :
    l.allow db m = l.rescue db m.now ∨
      ∃ after, tokenScript db l.key l.rate l.burst m.now = some (true,after) ∧
        l.allow db m = (true,{ l with redisAlive := true },after) := by
  unfold TokenLimiter.allow at hg ⊢
  by_cases ha : l.redisAlive = false ∧ m.pinged = false
  · exact .inl (if_pos ha)
  · rw [if_neg ha] at hg ⊢
    cases he : m.reply with
    | cancelled =>
      rw [he] at hg
      cases hg
    | failed => exact .inl rfl
    | ran =>
      rw [he] at hg
      cases hi : tokenScript db l.key l.rate l.burst m.now with
      | none => exact .inl rfl
      | some r =>
        rw [hi] at hg
        obtain ⟨allowed,after⟩ := r
        obtain rfl : allowed := hg
        exact .inr ⟨after,rfl,rfl⟩

lemma tokenLimiter_granted {l : TokenLimiter} (h : 0 < l.interval) (hg : (l.allow db m).1) :
    budget (l.allow db m).2.2 m.now (.redis (l.allow db m).2.1) < budget db m.now (.redis l) := by
  rcases tokenLimiter_cases hg with he | ⟨after,hi,ha⟩
  · rw [he] at hg ⊢
    exact rescue_granted h hg
  · obtain ⟨ho,hl⟩ := filledTokens_granted hi
    rw [ha]
    simp only [budget, TokenLimiter.interval, hl]
    omega

lemma xrate_granted {l : XrateLimiter} (hg : (l.allow now).1) :
    budget db now (.memory (.xrate (l.allow now).2)) < budget db now (.memory (.xrate l)) := by
  unfold XrateLimiter.allow at hg ⊢
  by_cases ho : 0 < l.owed
  · rw [if_pos ho]
    simp only [budget]
    omega
  · rw [if_neg ho] at hg ⊢
    exact Nat.add_lt_add_left (whole_granted (by decide) hg) _

lemma budget_granted (h : Sound l) (hn : 0 ≤ m.now) (hg : (l.allow db m).1) :
    budget (l.allow db m).2.2 m.now (l.allow db m).2.1 < budget db m.now l := by
  cases l with
  | memory l =>
    cases l with
    | sliding l => exact missing_granted h (unix_nonneg hn) hg
    | xrate l => exact xrate_granted hg
  | redis l => exact tokenLimiter_granted h hg

end

end SdkApi.LimiterBudgets
