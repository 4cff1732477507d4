import Mathlib.Data.List.Perm.Basic
import Mathlib.Data.List.TakeDrop
import Mathlib.Data.List.Count
import Mathlib.Tactic.Ring

/-!
# Pages of lists that are sorted up to ties

The same elements can be arranged in several ways when some of them tie. Each
page may be cut from another arrangement. Together the pages are the elements
exactly when no page ends within a group of tied elements that are not all the
same.
-/

namespace SdkApi.SortedPages
open List

variable {α : Type*}

structure TotalPreorder (le : α → α → Bool) : Prop where
  total : ∀ a b, le a b = true ∨ le b a = true
  trans : ∀ a b c, le a b = true → le b c = true → le a c = true

section

variable (le : α → α → Bool)

def before (x y : α) : Bool := le y x && !le x y

def tied (x y : α) : Bool := le y x && le x y

def after (x y : α) : Bool := !le y x

def Uniform (M : List α) (m : ℕ) : Prop :=
  ∀ x ∈ M, M.countP (before le x) < m → m < M.countP (before le x)+M.countP (tied le x) →
    ∀ y ∈ M, tied le x y = true → y = x

/-- An arrangement of the elements of `M`. -/
structure Arranged (M S : List α) : Prop where
  perm : S.Perm M
  sorted : S.Pairwise fun a b => le a b = true

variable {le} (h : TotalPreorder le) {M S : List α} {m : ℕ}

include h

lemma tied_self (x : α) : tied le x x := by
  have he := (h.total x x).elim id id
  simp [tied, he]

/-- Around `x` a sorted list has what comes before it, what ties with it and
what comes after it. -/
lemma split_sorted {S : List α} (hs : S.Pairwise fun a b => le a b) (x : α) :
    S = S.filter (before le x)++(S.filter (tied le x)++S.filter (after le x)) := by
  induction S with
  | nil => rfl
  | cons y S ih =>
    rw [pairwise_cons] at hs
    have he := ih hs.2
    by_cases hy : le y x
    · by_cases hx : le x y
      · -- nothing that follows a tied element comes before `x`
        have hn : S.filter (before le x) = [] := by
          rw [filter_eq_nil_iff]
          intro z hz
          have hxz := h.trans x y z hx (hs.1 z hz)
          simp [before, hxz]
        rw [hn, nil_append] at he
        simp only [filter_cons, before, tied, after, hy, hx, Bool.not_true, Bool.and_false,
          Bool.and_true, Bool.false_eq_true, if_false, if_true]
        rw [hn, nil_append, cons_append]
        exact congrArg (y :: ·) he
      · simp only [filter_cons, before, tied, after, hy, hx, Bool.not_true, Bool.not_false,
          Bool.and_true, Bool.and_false, Bool.false_eq_true, if_false, if_true]
        rw [cons_append]
        exact congrArg (y :: ·) he
    · have hl : ∀ z ∈ S, le z x = false := by
        intro z hz
        rw [Bool.eq_false_iff]
        intro hzx
        exact hy (h.trans y z x (hs.1 z hz) hzx)
      have hb : S.filter (before le x) = [] := by
        rw [filter_eq_nil_iff]
        intro z hz
        simp [before, hl z hz]
      have ht : S.filter (tied le x) = [] := by
        rw [filter_eq_nil_iff]
        intro z hz
        simp [tied, hl z hz]
      rw [hb, ht, nil_append, nil_append] at he
      simp only [filter_cons, before, tied, after, hy, Bool.false_and, Bool.false_eq_true,
        if_false, Bool.not_false, if_true]
      rw [hb, ht, nil_append, nil_append]
      exact congrArg (y :: ·) he

omit h in
lemma count_take_group [DecidableEq α] {B G A : List α} {x : α} (hB : x ∉ B) (hA : x ∉ A) (m : ℕ) :
    ((B++(G++A)).take m).count x = (G.take (m-B.length)).count x := by
  have hB' : (B.take m).count x = 0 := by
    rw [count_eq_zero]
    exact fun hm => hB (mem_of_mem_take hm)
  have hA' : (A.take (m-B.length-G.length)).count x = 0 := by
    rw [count_eq_zero]
    exact fun hm => hA (mem_of_mem_take hm)
  rw [take_append, take_append, count_append, count_append, hB', hA',
    Nat.zero_add, Nat.add_zero]

lemma not_mem_before (S : List α) (x : α) : x ∉ S.filter (before le x) := by
  have hx := (h.total x x).elim id id
  simp [before, hx]

lemma not_mem_after (S : List α) (x : α) : x ∉ S.filter (after le x) := by
  have hx := (h.total x x).elim id id
  simp [after, hx]

/-- How often an element stands in the first `m` places does not depend on the
arrangement. -/
lemma count_take [DecidableEq α] (hS : Arranged le M S) (hm : Uniform le M m) {x : α} (hx : x ∈ M) :
    (S.take m).count x =
      if m ≤ M.countP (before le x) then 0
      else if M.countP (before le x)+M.countP (tied le x) ≤ m then M.count x
      else m-M.countP (before le x) := by
  have hb : (S.filter (before le x)).length = M.countP (before le x) := by
    rw [← countP_eq_length_filter, hS.perm.countP_eq]
  have ht : (S.filter (tied le x)).length = M.countP (tied le x) := by
    rw [← countP_eq_length_filter, hS.perm.countP_eq]
  have hl : (S.take m).count x =
      ((S.filter (tied le x)).take (m-M.countP (before le x))).count x := by
    conv_lhs => rw [split_sorted h hS.sorted x]
    rw [count_take_group (not_mem_before h S x) (not_mem_after h S x), hb]
  rw [hl]
  split_ifs with he hg
  · rw [show m-M.countP (before le x) = 0 by omega]
    simp
  · have hal : (S.filter (tied le x)).length ≤ m-M.countP (before le x) := by omega
    rw [take_of_length_le hal, count_filter (tied_self h x), hS.perm.count_eq]
  · have ha : S.filter (tied le x) = replicate (M.countP (tied le x)) x := by
      rw [← ht, eq_replicate_length]
      intro y hy
      obtain ⟨hyS,hyx⟩ := mem_filter.mp hy
      exact hm x hx (by omega) (by omega) y (hS.perm.mem_iff.mp hyS) hyx
    rw [ha, take_replicate, count_replicate_self]
    omega

lemma take_perm {M S T : List α} (hS : Arranged le M S) (hT : Arranged le M T)
    (hm : Uniform le M m) : (S.take m).Perm (T.take m) := by
  classical
  rw [perm_iff_count]
  intro x
  by_cases hx : x ∈ M
  · rw [count_take h hS hm hx, count_take h hT hm hx]
  · have ho : ∀ S : List α, Arranged le M S → (S.take m).count x = 0 := by
      intro S hS
      rw [count_eq_zero]
      intro he
      exact hx (hS.perm.mem_iff.mp (mem_of_mem_take he))
    rw [ho S hS, ho T hT]

lemma arranged_regroup {M S G : List α} (hS : Arranged le M S) (x : α)
    (hG : G.Perm (S.filter (tied le x))) :
    Arranged le M (S.filter (before le x)++(G++S.filter (after le x))) where
  perm := by
    refine Perm.trans ?_ hS.perm
    conv_rhs => rw [split_sorted h hS.sorted x]
    exact (hG.append_right _).append_left _
  sorted := by
    have ht : ∀ y ∈ G, le y x ∧ le x y := by
      intro y hy
      have hy' := (mem_filter.mp (hG.mem_iff.mp hy)).2
      simpa [tied] using hy'
    have hb : ∀ y ∈ S.filter (before le x), le y x := by
      intro y hy
      have hy' := (mem_filter.mp hy).2
      simp only [before, Bool.and_eq_true] at hy'
      exact hy'.1
    have ha : ∀ y ∈ S.filter (after le x), le x y := by
      intro y hy
      have hy' := (mem_filter.mp hy).2
      simp only [after, Bool.not_eq_true'] at hy'
      exact (h.total x y).resolve_right (by simp [hy'])
    rw [pairwise_append, pairwise_append]
    refine ⟨hS.sorted.filter _,⟨?_,hS.sorted.filter _,?_⟩,?_⟩
    · exact pairwise_of_forall_mem_list fun y hy z hz =>
        h.trans y x z (ht y hy).1 (ht z hz).2
    · intro y hy z hz
      exact h.trans y x z (ht y hy).1 (ha z hz)
    · intro y hy z hz
      rcases mem_append.mp hz with hz | hz
      · exact h.trans y x z (hb y hy) (ht z hz).2
      · exact h.trans y x z (hb y hy) (ha z hz)

/-- Where a group is split, two arrangements differ in their first `m` places: one has the
copies of an element at the front of its group, the other at its end. -/
lemma uniform_of_take_perm (hS : Arranged le M S)
    (hal : ∀ T U, Arranged le M T → Arranged le M U → (T.take m).Perm (U.take m)) :
    Uniform le M m := by
  classical
  intro x hx hlo hhi y hy hyx
  by_contra hne
  have hb : (S.filter (before le x)).length = M.countP (before le x) := by
    rw [← countP_eq_length_filter, hS.perm.countP_eq]
  have hi : (S.filter (tied le x)).length = M.countP (tied le x) := by
    rw [← countP_eq_length_filter, hS.perm.countP_eq]
  obtain ⟨copies,ho⟩ : ∃ l, (S.filter (tied le x)).filter (fun z => decide (z = x)) = l :=
    ⟨_,rfl⟩
  obtain ⟨others,ht⟩ : ∃ l, (S.filter (tied le x)).filter (fun z => !decide (z = x)) = l :=
    ⟨_,rfl⟩
  have ha : (copies++others).Perm (S.filter (tied le x)) := by
    rw [← ho, ← ht]
    exact filter_append_perm _ _
  have hg : copies.length+others.length = M.countP (tied le x) := by
    rw [← length_append, ha.length_eq, hi]
  have hx' : x ∈ copies := by
    rw [← ho, mem_filter, mem_filter]
    exact ⟨⟨hS.perm.mem_iff.mpr hx,tied_self h x⟩,by simp⟩
  have hy' : y ∈ others := by
    rw [← ht, mem_filter, mem_filter]
    exact ⟨⟨hS.perm.mem_iff.mpr hy,hyx⟩,by simp [hne]⟩
  have hu : copies = replicate copies.length x := by
    rw [eq_replicate_length]
    intro z hz
    rw [← ho, mem_filter] at hz
    simpa using hz.2
  have he : ∀ l : List α, l.Sublist others → l.count x = 0 := by
    intro l hl
    rw [count_eq_zero]
    intro hme
    have := hl.subset hme
    rw [← ht, mem_filter] at this
    simpa using this.2
  have hn := arranged_regroup h hS x ha
  have hk := arranged_regroup h hS x (perm_append_comm.trans ha)
  have hm := (hal _ _ hn hk).count_eq x
  rw [count_take_group (not_mem_before h S x) (not_mem_after h S x),
    count_take_group (not_mem_before h S x) (not_mem_after h S x), take_append,
    take_append,
    count_append, count_append, he _ (take_sublist _ _),
    he _ (take_sublist _ _), hu, take_replicate, take_replicate,
    count_replicate_self, count_replicate_self, hb] at hm
  have hcx := length_pos_of_mem hx'
  have hcy := length_pos_of_mem hy'
  omega

end

section

/-- Page `i` of a list, counted from 0. -/
def pageAt (n i : ℕ) (S : List α) : List α := (S.drop (i*n)).take n

lemma take_succ_pages (n i : ℕ) (S : List α) : S.take ((i+1)*n) = S.take (i*n)++pageAt n i S := by
  rw [pageAt, Nat.succ_mul, take_add]

lemma flatMap_pages (n k : ℕ) (S : List α) :
    (range k).flatMap (fun i => pageAt n i S) = S.take (k*n) := by
  induction k with
  | zero => simp
  | succ k ih =>
    rw [range_succ, flatMap_append, ih, take_succ_pages]
    simp

lemma pageAt_add (n j i : ℕ) (S : List α) : pageAt n (j+i) S = pageAt n i (S.drop (j*n)) := by
  rw [pageAt, pageAt, drop_drop]
  congr 2
  ring

variable {le : α → α → Bool} (h : TotalPreorder le) {M T : List α}

include h

lemma flatMap_pages_perm {n : ℕ} (hM : ∀ j, Uniform le M (j*n))
    (hT : Arranged le M T) {S : ℕ → List α} (hS : ∀ i, Arranged le M (S i)) (k : ℕ) :
    ((range k).flatMap fun i => pageAt n i (S i)).Perm (T.take (k*n)) := by
  induction k with
  | zero => simp
  | succ k ih =>
    rw [range_succ, flatMap_append]
    have ht := ih.trans (take_perm h hT (hS k) (hM k))
    have hn := take_perm h (hS k) hT (hM (k+1))
    rw [take_succ_pages] at hn
    simp only [flatMap_cons, flatMap_nil, append_nil]
    exact (ht.append_right _).trans hn

lemma pages_partition_iff (hT : Arranged le M T) {n : ℕ} (hn : 1 ≤ n) :
    (∀ S : ℕ → List α, (∀ i, Arranged le M (S i)) → ∀ k, M.length ≤ k*n →
        ((range k).flatMap fun i => pageAt n i (S i)).Perm M) ↔
      ∀ j, Uniform le M (j*n) := by
  constructor
  · intro hl j
    apply uniform_of_take_perm h hT
    intro U W hU hW
    -- the first `j` pages are cut from `U`, the others from `W`
    have ha : ∀ i, Arranged le M (if i < j then U else W) := by
      intro i
      split_ifs
      · exact hU
      · exact hW
    have he := hl _ ha (j+M.length) ((Nat.le_add_left _ j).trans (Nat.le_mul_of_pos_right _ hn))
    have ht : (range j).flatMap (fun i => pageAt n i (if i < j then U else W)) =
        U.take (j*n) := by
      rw [← flatMap_pages]
      apply flatMap_congr
      intro i hi
      rw [if_pos (mem_range.mp hi)]
    have hre : ((range M.length).map (j+·)).flatMap
        (fun i => pageAt n i (if i < j then U else W)) = W.drop (j*n) := by
      have hle : (W.drop (j*n)).length ≤ M.length*n := by
        rw [length_drop, hW.perm.length_eq]
        exact (Nat.sub_le _ _).trans (Nat.le_mul_of_pos_right _ hn)
      rw [flatMap_map, ← take_of_length_le hle, ← flatMap_pages]
      apply flatMap_congr
      intro i hi
      rw [if_neg (by omega), pageAt_add]
    rw [range_add, flatMap_append, ht, hre] at he
    have hW' := hW.perm.symm
    rw [← take_append_drop (j*n) W] at hW'
    exact (perm_append_right_iff _).mp (he.trans hW')
  · intro hM S hS k hk
    have he := flatMap_pages_perm h hM (hS 0) hS k
    rw [take_of_length_le ((hS 0).perm.length_eq.trans_le hk)] at he
    exact he.trans (hS 0).perm

end

end SdkApi.SortedPages
