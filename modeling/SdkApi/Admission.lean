import Mathlib.Tactic.Linarith
import Mathlib.Tactic.Positivity
import Mathlib.Tactic.Ring

/-!
# Admission of requests over time

A limiter is a step function: asked at an instant, it answers and moves on.
Instants are integers of any resolution. Requests are counted in half-open
intervals, and a token bucket admits every sequence of requests that keeps to
its rate within each interval of one period.
-/

namespace SdkApi.Admission
open List

section

variable {σ : Type} (allow : σ → ℤ → Bool × σ)

def admitted : σ → List ℤ → List ℤ
  | _, [] => []
  | s, t::ts => if (allow s t).1 then t::admitted (allow s t).2 ts else admitted (allow s t).2 ts

lemma admitted_of_simulation {τ : Type} {allow' : τ → ℤ → Bool × τ} (f : σ → τ)
    (h : ∀ s t, allow' (f s) t = ((allow s t).1,f (allow s t).2)) (s : σ) (ts : List ℤ) :
    admitted allow' (f s) ts = admitted allow s ts := by
  induction ts generalizing s with
  | nil => rfl
  | cons t ts ih => simp only [admitted, h, ih]

/-- The number of instants in the interval of length `d` that begins at `a`. -/
def within (a d : ℤ) (ts : List ℤ) : ℕ := ts.countP fun t => a ≤ t ∧ t < a+d

@[simp] lemma within_nil (a d : ℤ) : within a d [] = 0 := rfl

lemma within_cons (a d t : ℤ) (ts : List ℤ) :
    within a d (t::ts) = within a d ts+if a ≤ t ∧ t < a+d then 1 else 0 := by
  simp [within, countP_cons]

lemma within_append (a d : ℤ) (ts us : List ℤ) :
    within a d (ts++us) = within a d ts+within a d us := countP_append ..

lemma within_replicate (a d t : ℤ) (n : ℕ) :
    within a d (List.replicate n t) = if a ≤ t ∧ t < a+d then n else 0 := by
  simp [within, countP_replicate]

variable {ts : List ℤ} {period : ℤ} {r : ℕ} {a d : ℤ}

lemma within_eq_zero (h : ∀ t ∈ ts, ¬(a ≤ t ∧ t < a+d)) : within a d ts = 0 := by
  rw [within, countP_eq_zero]
  intro t ht
  simpa using h t ht

lemma within_eq_length (h : ∀ t ∈ ts, a ≤ t ∧ t < a+d) : within a d ts = ts.length := by
  rw [within, countP_eq_length]
  intro t ht
  simpa using h t ht

lemma within_add (a : ℤ) {d e : ℤ} (hd : 0 ≤ d) (he : 0 ≤ e) (ts : List ℤ) :
    within a (d+e) ts = within a d ts+within (a+d) e ts := by
  induction ts with
  | nil => rfl
  | cons t ts ih =>
    simp only [within_cons, ih]
    split_ifs <;> omega

/-- At most `r` requests in each interval of one period. -/
def KeepsRate (period : ℤ) (r : ℕ) (ts : List ℤ) : Prop := ∀ a, within a period ts ≤ r

lemma KeepsRate.tail {t : ℤ} (h : KeepsRate period r (t::ts)) : KeepsRate period r ts := by
  intro a
  have ha := h a
  rw [within_cons] at ha
  omega

lemma KeepsRate.periods (hp : 0 < period)
    (h : KeepsRate period r ts) (a : ℤ) (q : ℕ) : within a (q*period) ts ≤ q*r := by
  induction q generalizing a with
  | zero =>
    rw [within_eq_zero]
    · simp
    · intro t _
      push_cast
      omega
  | succ q ih =>
    have hl : ((q+1:ℕ):ℤ)*period = period+q*period := by
      push_cast
      ring
    have hq : (0:ℤ) ≤ q*period := by positivity
    rw [hl, within_add a hp.le hq]
    have hi := h a
    have he := ih (a+period)
    rw [Nat.succ_mul]
    omega

lemma KeepsRate.sublist {ts us : List ℤ} (h : KeepsRate period r ts)
    (hu : us.Sublist ts) : KeepsRate period r us := by
  intro a
  exact (hu.countP_le).trans (h a)

lemma KeepsRate.apart (h : KeepsRate period 1 ts) (ho : ts.Pairwise (· ≤ ·)) :
    ts.Pairwise fun t u => t+period ≤ u := by
  induction ts with
  | nil => exact List.Pairwise.nil
  | cons t ts ih =>
    rw [pairwise_cons] at ho ⊢
    refine ⟨?_,ih h.tail ho.2⟩
    intro u hu
    by_contra hl
    have he := ho.1 u hu
    -- otherwise both are in the interval that begins with the first
    have hpo : 0 < within t period ts := by
      rw [within, countP_pos_iff]
      exact ⟨u,hu,by simp; omega⟩
    have hn := h t
    rw [within_cons, if_pos (by omega)] at hn
    omega

lemma head_le {t : ℤ} (h : (t::ts).Pairwise (· ≤ ·)) {x : ℤ} (hx : x ∈ t::ts) : t ≤ x := by
  rcases mem_cons.mp hx with rfl | hx
  · exact le_rfl
  · exact rel_of_pairwise_cons h hx

lemma le_last (ts : List ℤ) {u : ℤ} (h : (ts++[u]).Pairwise (· ≤ ·)) {x : ℤ}
    (hx : x ∈ ts++[u]) : x ≤ u := by
  rw [pairwise_append] at h
  rcases mem_append.mp hx with hx | hx
  · exact h.2.2 x hx u (.head _)
  · exact (mem_singleton.mp hx).le

lemma KeepsRate.length_le (hp : 0 < period) (h : KeepsRate period r ts) {t u : ℤ} (ht : t ≤ u)
    (hm : ∀ x ∈ ts, t ≤ x ∧ x ≤ u) : ts.length*period ≤ r*period+r*(u-t) := by
  -- the interval is covered by `q` periods, the last of which it may not fill
  obtain ⟨n,hn⟩ := Int.eq_ofNat_of_zero_le (Int.ediv_nonneg (sub_nonneg.mpr ht) hp.le)
  have hlo : n*period ≤ u-t := by
    rw [← hn]
    exact Int.ediv_mul_le _ hp.ne'
  have hi : u-t < (n+1)*period := by
    rw [← hn]
    exact Int.lt_ediv_add_one_mul_self _ hp
  have ho : ts.length ≤ (n+1)*r := by
    have hl : ∀ x ∈ ts, t ≤ x ∧ x < t+((n+1:ℕ):ℤ)*period := by
      intro x hx
      obtain ⟨hx₁,hx₂⟩ := hm x hx
      push_cast
      omega
    rw [← within_eq_length hl]
    exact h.periods hp t (n+1)
  have ha : (ts.length:ℤ) ≤ (n+1)*r := by exact_mod_cast ho
  nlinarith

/-- The level of a bucket at the instant of its last use. -/
structure Bucket where
  level : ℤ
  last : ℤ
  deriving DecidableEq

variable (capacity rate cost : ℤ)

/-- A bucket fills at `rate` up to `capacity`, and a request takes `cost`. -/
def Bucket.levelAt (b : Bucket) (now : ℤ) : ℤ :=
  min capacity (b.level+rate*max 0 (now-b.last))

def Bucket.take (b : Bucket) (now : ℤ) : Bool × Bucket :=
  if cost ≤ b.levelAt capacity rate now then
    (true,⟨b.levelAt capacity rate now-cost,now⟩)
  else (false,⟨b.levelAt capacity rate now,now⟩)

/-- Without the bound on the level, each request would find its cost. -/
def Covered (b : Bucket) (ts : List ℤ) : Prop :=
  ∀ pre u post, ts = pre++u::post → (pre.length+1)*cost ≤ b.level+rate*(u-b.last)

def Bounded (ts : List ℤ) : Prop :=
  ∀ before t pre u post, ts = before++t::(pre++u::post) → (pre.length+2)*cost ≤ capacity+rate*(u-t)

variable {capacity rate cost}
variable {ts : List ℤ} {b : Bucket}

lemma Bounded.tail {t : ℤ} (h : Bounded capacity rate cost (t::ts)) :
    Bounded capacity rate cost ts := by
  intro before t' pre u post ht
  exact h (t::before) t' pre u post (by rw [ht, cons_append])

lemma take_covered {t : ℤ} (ha : b.last ≤ t) (hca : cost ≤ capacity)
    (hb : Bounded capacity rate cost (t::ts)) (h : Covered rate cost b (t::ts)) :
    (b.take capacity rate cost t).1 ∧
      Covered rate cost (b.take capacity rate cost t).2 ts ∧
        (b.take capacity rate cost t).2.last = t := by
  have hx : max 0 (t-b.last) = t-b.last := max_eq_right (by omega)
  have hi := h [] t ts rfl
  have ho : cost ≤ b.levelAt capacity rate t := by
    unfold Bucket.levelAt
    rw [hx]
    apply le_min hca
    simpa using hi
  have ht : b.take capacity rate cost t = (true,⟨b.levelAt capacity rate t-cost,t⟩) :=
    if_pos ho
  rw [ht]
  refine ⟨rfl,?_,rfl⟩
  intro pre u post hts
  have hl := h (t::pre) u post (by rw [hts, cons_append])
  have hu := hb [] t pre u post (by rw [hts, nil_append])
  simp only [length_cons] at hl
  push_cast at hl
  change (pre.length+1)*cost ≤ b.levelAt capacity rate t-cost+rate*(u-t)
  unfold Bucket.levelAt
  rw [hx]
  -- the bucket was full at `t`, or it still holds what it had
  rcases min_cases capacity (b.level+rate*(t-b.last)) with ⟨hm,-⟩ | ⟨hm,-⟩
  · rw [hm]
    linarith
  · rw [hm]
    linarith

lemma admitted_of_covered (ho : ts.Pairwise (· ≤ ·)) (hl : ∀ t ∈ ts, b.last ≤ t)
    (ha : cost ≤ capacity) (hb : Bounded capacity rate cost ts) (h : Covered rate cost b ts) :
    admitted (Bucket.take capacity rate cost) b ts = ts := by
  induction ts generalizing b with
  | nil => rfl
  | cons t ts ih =>
    rw [pairwise_cons] at ho
    obtain ⟨hok,he,hn⟩ := take_covered (hl t (.head _)) ha hb h
    simp only [admitted, hok, if_true]
    rw [ih ho.2 _ hb.tail he]
    intro u hu
    rw [hn]
    exact ho.1 u hu

lemma admitted_of_keepsRate {period : ℤ} {r c : ℕ} {start : ℤ} (hp : 0 < period) (hr : 0 < r)
    (hc : r ≤ c) (ht : ts.Pairwise (· ≤ ·)) (ha : ∀ t ∈ ts, start ≤ t) (h : KeepsRate period r ts) :
    admitted (Bucket.take (c*period) r period) ⟨c*period,start⟩ ts = ts := by
  have hca : (r:ℤ)*period ≤ c*period := by
    apply mul_le_mul_of_nonneg_right _ hp.le
    exact_mod_cast hc
  have hn : period ≤ r*period := by
    have hr1 : (1:ℤ) ≤ r := by exact_mod_cast hr
    nlinarith
  apply admitted_of_covered ht ha (hn.trans hca)
  · intro before t pre u post hts
    have hu : (t::(pre++[u])).Sublist ts := by
      apply List.IsInfix.sublist
      exact ⟨before,post,by simp [hts]⟩
    have ho := ht.sublist hu
    have htu : t ≤ u := rel_of_pairwise_cons ho (by simp)
    have hl := (h.sublist hu).length_le hp htu (fun x hx =>
      ⟨head_le ho hx,le_last (t::pre) ho hx⟩)
    simp only [length_cons, length_append, length_nil] at hl
    push_cast at hl
    linarith
  · intro pre u post hts
    have hu : (pre++[u]).Sublist ts := by
      apply List.IsInfix.sublist
      exact ⟨[],post,by simp [hts]⟩
    have hl := (h.sublist hu).length_le hp (ha u (hu.subset (by simp))) (fun x hx =>
      ⟨ha x (hu.subset hx),le_last pre (ht.sublist hu) hx⟩)
    simp only [length_append, length_cons, length_nil] at hl
    push_cast at hl
    linarith

end

end SdkApi.Admission
