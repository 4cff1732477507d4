import SdkApi.Limiters

/-!
# What the limiters admit over time

A sliding window limiter counts in windows that begin at an admitted request,
so an interval of the window's length can meet two of them. Its window is as
many seconds long as the burst of its entry, while the token bucket refills at
the rate of the entry and grants what was refunded besides.
-/

namespace SdkApi.RateWindows
open Admission Limiters List

def bound (l : SlidingWindow) (a : ℤ) : ℤ :=
  if a+l.expiration ≤ l.windowExp-l.expiration then 0
  else if a ≤ l.windowExp-l.expiration then l.max-l.currHits
  else if a < l.windowExp then 2*l.max-l.currHits
  else if l.expiration = 1 then l.max
  else 2*l.max-1

section

variable {l : SlidingWindow} {t : ℤ}

lemma bound_nonneg (ho : 1 ≤ l.currHits) (hm : l.currHits ≤ l.max) (a : ℤ) : 0 ≤ bound l a := by
  unfold bound
  split_ifs <;> omega

lemma bound_hit (a : ℤ) (ho : l.windowExp-l.expiration ≤ t) (hi : t < l.windowExp) :
    bound { l with currHits := l.currHits+1 } a+(if a ≤ t ∧ t < a+l.expiration then 1 else 0) ≤
      bound l a := by
  simp only [bound]
  split_ifs <;> omega

lemma bound_next (a : ℤ) (he : 0 < l.expiration)
    (ho : 1 ≤ l.currHits) (hm : l.currHits ≤ l.max) (hu : l.windowExp ≤ t) :
    bound { l with prevHits := 0, currHits := 1, windowExp := t+l.expiration } a+
      (if a ≤ t ∧ t < a+l.expiration then 1 else 0) ≤ bound l a := by
  simp only [bound]
  split_ifs <;> omega

lemma within_admitted_le {ts : List ℤ} (a : ℤ) (h : Started l)
    (hx : 0 < l.expiration) (hon : 1 ≤ l.currHits) (hma : l.currHits ≤ l.max)
    (ho : ts.Pairwise (· ≤ ·)) (hm : ∀ t ∈ ts, l.windowExp-l.expiration ≤ t) :
    (within a l.expiration (admitted SlidingWindow.allow l ts) : ℤ) ≤ bound l a := by
  induction ts generalizing l with
  | nil => exact bound_nonneg hon hma a
  | cons t ts ih =>
    rw [pairwise_cons] at ho
    have ht : ∀ u ∈ ts, l.windowExp-l.expiration ≤ u :=
      fun u hu => hm u (.tail t hu)
    by_cases hi : t < l.windowExp
    · have ha := allow_inside h hi
      by_cases hl : l.max ≤ l.currHits
      · rw [if_pos hl] at ha
        simp only [admitted, ha, Bool.false_eq_true, if_false]
        exact ih h hx hon hma ho.2 ht
      · rw [if_neg hl] at ha
        have hn := @ih { l with currHits := l.currHits+1 } ⟨h.prevHits,h.windowExp⟩ hx
          (by simp only; omega) (by simp only; omega) ho.2 ht
        simp only [admitted, ha, if_true, within_cons]
        push_cast
        exact (add_le_add_left hn _).trans (bound_hit a (hm t (.head _)) hi)
    · have hou := not_lt.mp hi
      have he : Started { l with prevHits := 0, currHits := 1, windowExp := t+l.expiration } :=
        ⟨rfl,by have := h.windowExp; simp only; omega⟩
      have hn := @ih { l with prevHits := 0, currHits := 1, windowExp := t+l.expiration } he
        hx le_rfl (by simp only; omega) ho.2 (by simpa using ho.1)
      simp only [admitted, allow_outside h (by omega) hou, if_true, within_cons]
      push_cast
      exact (add_le_add_left hn _).trans (bound_next a hx hon hma hou)

lemma admitted_replicate (n : ℕ) (ts : List ℤ) (h : Started l)
    (hi : t < l.windowExp) (hn : l.currHits+n ≤ l.max) :
    admitted SlidingWindow.allow l (replicate n t++ts) =
      replicate n t++admitted SlidingWindow.allow { l with currHits := l.currHits+n } ts := by
  induction n generalizing l with
  | zero => simp
  | succ n ih =>
    push_cast at hn
    have ha := allow_inside h hi
    rw [if_neg (by omega)] at ha
    have he := @ih { l with currHits := l.currHits+1 } ⟨h.prevHits,h.windowExp⟩ hi
      (by simp only; omega)
    simp only [replicate_succ, cons_append, admitted, ha, if_true, he]
    push_cast
    rw [add_assoc l.currHits 1, add_comm (1:ℤ)]

variable (max w : ℤ)

/-- In every interval of one window length at most `max` requests are admitted. -/
def WindowBound : Prop :=
  ∀ ts : List ℤ, ts.Pairwise (· ≤ ·) → (∀ t ∈ ts, 0 ≤ t) →
    ∀ a, (within a w (admitted SlidingWindow.allow (newSlidingWindowLimiter max w) ts) : ℤ) ≤ max

variable {max w} {m n : ℕ}

lemma newSlidingWindow_eq (hw : 1 ≤ w) :
    newSlidingWindowLimiter max w = { max := max, expiration := w } := by
  simp [newSlidingWindowLimiter, show ¬w ≤ 0 by omega]

lemma within_new_le {ts : List ℤ} (hm : 1 ≤ max) (hw : 1 ≤ w)
    (ho : ts.Pairwise (· ≤ ·)) (hpo : ∀ t ∈ ts, 0 ≤ t) (a : ℤ) :
    (within a w (admitted SlidingWindow.allow (newSlidingWindowLimiter max w) ts) : ℤ) ≤
      if w = 1 then max else 2*max-1 := by
  rw [newSlidingWindow_eq hw]
  cases ts with
  | nil =>
    simp only [admitted, within_nil]
    split_ifs <;> push_cast <;> omega
  | cons t ts =>
    rw [pairwise_cons] at ho
    have ht := hpo t (.head _)
    have ha : Started { max := max, expiration := w, windowExp := t+w, currHits := 1 } :=
      ⟨rfl,by simp only; omega⟩
    have he := within_admitted_le a ha (by simp only; omega) le_rfl hm ho.2 (by simpa using ho.1)
    simp only [admitted, @allow_first _ t (rfl : SlidingWindow.windowExp ⟨0,0,0,max,w⟩ = 0),
      if_true, within_cons]
    simp only [bound] at he
    push_cast
    split_ifs at he ⊢ <;> omega

def boundaryBurst (max w : ℕ) : List ℤ :=
  0::(List.replicate (max-1) ((w:ℤ)-1)++((w:ℤ)::List.replicate (max-1) (w:ℤ)))

lemma admitted_boundaryBurst (hm : 1 ≤ m) (hn : 1 ≤ n) :
    admitted SlidingWindow.allow (newSlidingWindowLimiter m n) (boundaryBurst m n) =
      boundaryBurst m n := by
  have hi : Started { max := m, expiration := n, windowExp := 0+n, currHits := 1 } :=
    ⟨rfl,by simp only; omega⟩
  have hu : (1:ℤ)+((m-1:ℕ):ℤ) ≤ m := by omega
  rw [newSlidingWindow_eq (by exact_mod_cast hn), boundaryBurst]
  simp only [admitted, @allow_first _ 0 (rfl : SlidingWindow.windowExp ⟨0,0,0,m,n⟩ = 0), if_true]
  rw [admitted_replicate (m-1) _ hi (by simp only; omega) hu]
  -- the window is full when its last second is over
  have hl : Started { max := m, expiration := n, windowExp := 0+n, currHits := 1+((m-1:ℕ):ℤ) } :=
    ⟨rfl,by simp only; omega⟩
  have ho := @allow_outside _ n hl (by simp only; omega) (by simp only; omega)
  have hx : Started { max := m, expiration := n, windowExp := n+n, currHits := 1 } :=
    ⟨rfl,by simp only; omega⟩
  have he := @admitted_replicate _ n (m-1) [] hx (by simp only; omega) hu
  simp only [append_nil] at he
  simp only [admitted, ho, if_true, he, append_nil]

lemma boundaryBurst_sorted (hn : 1 ≤ n) : (boundaryBurst m n).Pairwise (· ≤ ·) := by
  unfold boundaryBurst
  simp only [pairwise_cons, pairwise_append, mem_append, mem_cons,
    mem_replicate, pairwise_replicate]
  refine ⟨?_,by simp,⟨?_,by simp⟩,?_⟩
  · rintro t (⟨-,rfl⟩ | rfl | ⟨-,rfl⟩) <;> omega
  · rintro t ⟨-,rfl⟩
    exact le_rfl
  · rintro t ⟨-,rfl⟩ u (rfl | ⟨-,rfl⟩) <;> omega

lemma boundaryBurst_within (hm : 1 ≤ m) (hn : 2 ≤ n) :
    within ((n:ℤ)-1) n (boundaryBurst m n) = 2*m-1 := by
  unfold boundaryBurst
  rw [within_cons, within_append, within_cons, within_replicate, within_replicate, if_pos, if_pos,
    if_pos, if_neg]
  all_goals omega

lemma not_windowBound (hm : 2 ≤ m) (hn : 2 ≤ n) : ¬WindowBound m n := by
  intro h
  have ho := h (boundaryBurst m n) (boundaryBurst_sorted (by omega)) (by
    intro t ht
    simp only [boundaryBurst, mem_cons, mem_append, mem_replicate] at ht
    omega) ((n:ℤ)-1)
  rw [admitted_boundaryBurst (by omega) (by omega), boundaryBurst_within (by omega) hn] at ho
  omega

end

/-- The bound of a sliding window holds only where an interval of its length
cannot meet two windows with more than one request; what always holds is one
less than twice the maximum. -/
theorem window_bound_iff (max w : ℤ) (hmax : 1 ≤ max) (hw : 1 ≤ w) :
    (WindowBound max w ↔ max = 1 ∨ w = 1) ∧
      ∀ ts : List ℤ, ts.Pairwise (· ≤ ·) → (∀ t ∈ ts, 0 ≤ t) → ∀ a,
        (within a w (admitted SlidingWindow.allow (newSlidingWindowLimiter max w) ts) : ℤ) ≤
          2*max-1 := by
  constructor
  · constructor
    · intro h
      by_contra hn
      obtain ⟨m,rfl⟩ := Int.eq_ofNat_of_zero_le (show 0 ≤ max by omega)
      obtain ⟨n,rfl⟩ := Int.eq_ofNat_of_zero_le (show 0 ≤ w by omega)
      exact not_windowBound (by omega) (by omega) h
    · intro hn ts ho hpo a
      have hl := within_new_le hmax hw ho hpo a
      split_ifs at hl <;> omega
  · intro ts ho hpo a
    have hl := within_new_le hmax hw ho hpo a
    split_ifs at hl <;> omega

theorem single_second_bound : WindowBound 100 1 :=
  ((window_bound_iff 100 1 (by decide) (by decide)).1).mpr (.inr rfl)

/-- Two requests in ten seconds are allowed; three are admitted within two. -/
theorem boundary_lets_three_through :
    admitted SlidingWindow.allow (newSlidingWindowLimiter 2 10) [0,9,10,10] = [0,9,10,10] ∧
      within 9 10 [0,9,10,10] = 3 ∧ ¬WindowBound 2 10 :=
  ⟨@admitted_boundaryBurst 2 10 (by decide) (by decide),by decide,
    @not_windowBound 2 10 (by decide) (by decide)⟩

def NeverLimited (entry : RateLimitEntry) (alg : String) : Prop :=
  ∀ ts : List ℤ, ts.Pairwise (· ≤ ·) → (∀ t ∈ ts, 0 ≤ t) →
    KeepsRate second entry.requestsPerSecond.toNat ts →
      admitted Limiter.allow (newMemoryLimiter entry alg) ts = ts

variable {entry : RateLimitEntry}

lemma bucket_never_limited {alg : String}
    (hr : 1 ≤ entry.requestsPerSecond) (hb : entry.requestsPerSecond ≤ entry.burst)
    (hl : alg ≠ algorithmSlidingWindow) : NeverLimited entry alg := by
  intro ts ho hpo ha
  obtain ⟨r,hr'⟩ := Int.eq_ofNat_of_zero_le (show 0 ≤ entry.requestsPerSecond by omega)
  obtain ⟨b,hb'⟩ := Int.eq_ofNat_of_zero_le (show 0 ≤ entry.burst by omega)
  have hn : newMemoryLimiter entry alg = .xrate ⟨⟨b*second,0⟩,r,b,0⟩ := by
    simp [newMemoryLimiter, hl, newXrateLimiter, hr', hb']
  rw [hr'] at ha
  rw [hn, admitted_of_simulation (Bucket.take (b*second) r second)
    (fun bucket => Limiter.xrate ⟨bucket,r,b,0⟩) (fun _ _ => rfl)]
  exact admitted_of_keepsRate (by decide) (by omega) (by omega) ho hpo ha

lemma admitted_sliding (l : SlidingWindow) (ts : List ℤ) :
    (admitted Limiter.allow (.sliding l) ts).map unix =
      admitted SlidingWindow.allow l (ts.map unix) := by
  induction ts generalizing l with
  | nil => rfl
  | cons t ts ih =>
    have ha : Limiter.allow (.sliding l) t =
      ((l.allow (unix t)).1,.sliding (l.allow (unix t)).2) := rfl
    simp only [map_cons, admitted, ha]
    cases hok : (l.allow (unix t)).1 with
    | true => simp only [if_true, map_cons, ih]
    | false => simp only [Bool.false_eq_true, if_false, ih]

lemma admitted_apart {l : SlidingWindow} {ts : List ℤ} (h : Started l) (hm : l.max = 1)
    (hx : l.expiration = 1) (ha : ts.Pairwise fun t u => t+second ≤ u)
    (ho : ∀ t ∈ ts, l.windowExp ≤ unix t) : admitted Limiter.allow (.sliding l) ts = ts := by
  induction ts generalizing l with
  | nil => rfl
  | cons t ts ih =>
    rw [pairwise_cons] at ha
    have he := ho t (.head _)
    have hi := h.windowExp
    have hn :
        Started { l with prevHits := 0, currHits := 1, windowExp := unix t+l.expiration } :=
      ⟨rfl,by simp only; omega⟩
    simp only [admitted, Limiter.allow, allow_outside h (by omega) he, if_true]
    rw [ih hn hm hx ha.2]
    intro u hu
    have hl := ha.1 u hu
    simp only [hx, unix, second] at hl ⊢
    omega

lemma window_never_limited (hr : 1 ≤ entry.requestsPerSecond)
    (hb : entry.requestsPerSecond ≤ entry.burst) (hn : entry.burst = 1) :
    NeverLimited entry algorithmSlidingWindow := by
  intro ts ho hpo he
  have hr1 : entry.requestsPerSecond = 1 := by omega
  have hne : newMemoryLimiter entry algorithmSlidingWindow =
      .sliding { max := 1, expiration := 1 } := by
    simp [newMemoryLimiter, newSlidingWindowLimiter, hr1, hn]
  rw [hr1] at he
  have ha := he.apart ho
  rw [hne]
  cases ts with
  | nil => rfl
  | cons t ts =>
    rw [pairwise_cons] at ha
    have ht := hpo t (.head _)
    simp only [admitted, Limiter.allow,
      @allow_first _ (unix t) (rfl : SlidingWindow.windowExp ⟨0,0,0,1,1⟩ = 0), if_true]
    rw [admitted_apart ⟨rfl,by simp only [unix, second]; omega⟩ rfl rfl ha.2]
    intro u hu
    have hl := ha.1 u hu
    simp only [unix, second] at hl ⊢
    omega

def sustained (r : ℕ) : List ℤ := List.replicate r 0++[second]

lemma sustained_keepsRate {r : ℕ} (hr : 1 ≤ r) : KeepsRate second r (sustained r) := by
  intro a
  rw [sustained, within_append, within_replicate, within_cons, within_nil]
  split_ifs <;> omega

lemma window_limits {r b : ℕ} (hr : entry.requestsPerSecond = r) (hb : entry.burst = b)
    (hpo : 1 ≤ r) (htw : 2 ≤ b) : ¬NeverLimited entry algorithmSlidingWindow := by
  intro h
  have ho : (sustained r).Pairwise (· ≤ ·) := by
    simp [sustained, pairwise_append, pairwise_replicate, second]
  have hn : ∀ t ∈ sustained r, 0 ≤ t := by
    intro t ht
    simp only [sustained, mem_append, mem_replicate, mem_singleton, second] at ht
    omega
  have he : KeepsRate second entry.requestsPerSecond.toNat (sustained r) := by
    rw [hr]
    exact sustained_keepsRate hpo
  have hal := h (sustained r) ho hn he
  have hne : newMemoryLimiter entry algorithmSlidingWindow =
      .sliding { max := r, expiration := b } := by
    simp [newMemoryLimiter, newSlidingWindowLimiter, hr, hb, show ¬b = 0 by omega]
  have hu := admitted_sliding { max := r, expiration := b } (sustained r)
  rw [← hne, hal] at hu
  obtain ⟨n,rfl⟩ : ∃ n, r = n+1 := ⟨r-1,by omega⟩
  have hm : (sustained (n+1)).map unix = 0::(replicate n 0++[1]) := by
    simp [sustained, unix, second, replicate_succ]
  have ha : Started ⟨0,1,0+b,((n+1:ℕ):ℤ),b⟩ := ⟨rfl,by simp only; omega⟩
  have hfu : Started ⟨0,1+(n:ℤ),0+b,((n+1:ℕ):ℤ),b⟩ := ⟨rfl,by simp only; omega⟩
  have hla := @allow_inside _ 1 hfu (by simp only; omega)
  rw [if_pos (by push_cast; omega)] at hla
  rw [hm] at hu
  simp only [admitted, @allow_first _ 0 (rfl : SlidingWindow.windowExp ⟨0,0,0,_,b⟩ = 0),
    if_true] at hu
  rw [admitted_replicate n [1] ha (by simp only; omega) (by push_cast; omega)] at hu
  simp only [admitted, hla, Bool.false_eq_true, if_false, append_nil] at hu
  have hl := congrArg length hu
  simp at hl

/-- A client within the rate of its entry is never limited by a token bucket, and
by a sliding window only when its length, which is the burst, is one second. -/
theorem never_limited_iff (entry : RateLimitEntry) (alg : String)
    (hr : 1 ≤ entry.requestsPerSecond) (hb : entry.requestsPerSecond ≤ entry.burst) :
    NeverLimited entry alg ↔ alg ≠ algorithmSlidingWindow ∨ entry.burst = 1 := by
  constructor
  · intro h
    by_contra ho
    obtain ⟨ha,hn⟩ := not_or.mp ho
    rw [not_not] at ha
    subst ha
    obtain ⟨r,hr'⟩ := Int.eq_ofNat_of_zero_le (show 0 ≤ entry.requestsPerSecond by omega)
    obtain ⟨b,hb'⟩ := Int.eq_ofNat_of_zero_le (show 0 ≤ entry.burst by omega)
    exact window_limits hr' hb' (by omega) (by omega) h
  · intro ho
    by_cases ha : alg = algorithmSlidingWindow
    · subst ha
      exact window_never_limited hr hb (ho.resolve_left (not_not.mpr rfl))
    · exact bucket_never_limited hr hb ha

theorem token_bucket_never_limits : NeverLimited ⟨10,20,0⟩ "token_bucket" :=
  (never_limited_iff ⟨10,20,0⟩ "token_bucket" (by decide) (by decide)).mpr (.inl (by decide))

/-- Two requests in each second, at a rate of two: the third is refused. -/
theorem sliding_window_limits :
    [0,0,second].Pairwise (· ≤ ·) ∧ KeepsRate second 2 [0,0,second] ∧
      ¬NeverLimited ⟨2,4,0⟩ "sliding_window" ∧
      admitted SlidingWindow.allow (newSlidingWindowLimiter 2 4) [0,0,1] = [0,0] :=
  ⟨by decide,sustained_keepsRate (r := 2) (by decide),
    @window_limits ⟨2,4,0⟩ 2 4 rfl rfl (by decide) (by decide),by decide +kernel⟩

end SdkApi.RateWindows
