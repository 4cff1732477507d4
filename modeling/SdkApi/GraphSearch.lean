import Mathlib.Data.Finset.Card

/-!
# Depth-first search with one set of seen nodes

The search visits the successors of a node one after the other and shares the
set of seen nodes between them, so a branch is cut at a node that another one
has seen, finished or not. It is run with fuel; without enough of it there is
no result. Nodes are arbitrary, and only finitely many have successors.
-/

namespace SdkApi.GraphSearch
open List

variable {α : Type}

abbrev Result (α : Type) := Option (Bool × List α)

def explore (visit : α → List α → Result α) : List α → List α → Result α
  | [], seen => some (false,seen)
  | x::xs, seen =>
    match visit x seen with
    | none => none
    | some (true,seen') => some (true,seen')
    | some (false,seen') => explore visit xs seen'

def search [DecidableEq α] (next : α → List α) (goal : α) : ℕ → α → List α → Result α
  | 0, _, _ => none
  | n+1, x, seen =>
    if x = goal then some (true,seen)
    else if x ∈ seen then some (false,seen)
    else explore (search next goal n) (next x) (x::seen)

def Reaches (next : α → List α) : α → α → Prop := Relation.ReflTransGen fun x y => y ∈ next x

section

variable {visit : α → List α → Result α} {xs seen seen' : List α}

lemma explore_true (h : explore visit xs seen = some (true,seen')) :
    ∃ x ∈ xs, ∃ s, visit x s = some (true,seen') := by
  induction xs generalizing seen with
  | nil => cases h
  | cons x xs ih =>
    simp only [explore] at h
    split at h
    · cases h
    · rename_i s hx
      cases h
      exact ⟨x,.head _,seen,hx⟩
    · obtain ⟨y,hy,hs⟩ := ih h
      exact ⟨y,.tail x hy,hs⟩

lemma explore_false {R : List α → List α → Prop} {Q : α → List α → Prop} (hl : ∀ s, R s s)
    (ht : ∀ s s' s'', R s s' → R s' s'' → R s s'') (hk : ∀ x s s', Q x s → R s s' → Q x s')
    (hi : ∀ x s s', visit x s = some (false,s') → R s s' ∧ Q x s')
    (h : explore visit xs seen = some (false,seen')) : R seen seen' ∧ ∀ x ∈ xs, Q x seen' := by
  induction xs generalizing seen with
  | nil =>
    cases h
    exact ⟨hl _,by simp⟩
  | cons x xs ih =>
    simp only [explore] at h
    split at h
    · cases h
    · cases h
    · rename_i s hx
      obtain ⟨hs,hq⟩ := hi x seen s hx
      obtain ⟨he,ha⟩ := ih h
      refine ⟨ht _ _ _ hs he,?_⟩
      intro y hy
      rcases mem_cons.mp hy with rfl | hy
      · exact hk y s seen' hq he
      · exact ha y hy

lemma explore_some {seen : List α} (hi : ∀ x s, seen ⊆ s → ∃ r, visit x s = some r ∧ s ⊆ r.2)
    (xs : List α) {s : List α} (hs : seen ⊆ s) : ∃ r, explore visit xs s = some r ∧ s ⊆ r.2 := by
  induction xs generalizing s with
  | nil => exact ⟨(false,s),rfl,List.Subset.refl s⟩
  | cons x xs ih =>
    obtain ⟨⟨found,s'⟩,hx,hu⟩ := hi x s hs
    cases found with
    | true => exact ⟨(true,s'),by simp [explore, hx],hu⟩
    | false =>
      obtain ⟨r,hr,he⟩ := ih (List.Subset.trans hs hu)
      exact ⟨r,by simp [explore, hx, hr],List.Subset.trans hu he⟩

variable {next : α → List α} {goal : α}

def Done (next : α → List α) (goal x : α) (seen : List α) : Prop :=
  x ≠ goal ∧ ∀ y ∈ next x, y ∈ seen

def Grown (next : α → List α) (goal : α) (seen seen' : List α) : Prop :=
  seen ⊆ seen' ∧ ∀ x ∈ seen', x ∈ seen ∨ Done next goal x seen'

lemma grown_refl (seen : List α) : Grown next goal seen seen :=
  ⟨List.Subset.refl seen,fun _ hx => .inl hx⟩

lemma grown_trans (s s' s'' : List α) (h : Grown next goal s s') (h' : Grown next goal s' s'') :
    Grown next goal s s'' := by
  refine ⟨List.Subset.trans h.1 h'.1,?_⟩
  intro x hx
  rcases h'.2 x hx with hl | ho
  · rcases h.2 x hl with hi | ⟨he,hn⟩
    · exact .inl hi
    · exact .inr ⟨he,fun y hy => h'.1 (hn y hy)⟩
  · exact .inr ho

end

section

variable [DecidableEq α] {next : α → List α} {goal : α} {seen seen' : List α} {n : ℕ} {x : α}

lemma search_true (h : search next goal n x seen = some (true,seen')) : Reaches next x goal := by
  induction n generalizing x seen seen' with
  | zero => cases h
  | succ n ih =>
    simp only [search] at h
    split_ifs at h with hg he
    · rw [hg]
      exact Relation.ReflTransGen.refl
    · cases h
    · obtain ⟨y,hy,s,hs⟩ := explore_true h
      exact Relation.ReflTransGen.head hy (ih hs)

/-- A node where a search ends without the goal has been seen, and every node
that the search has added is done, also where it was cut. -/
lemma search_false (h : search next goal n x seen = some (false,seen')) :
    Grown next goal seen seen' ∧ x ∈ seen' := by
  induction n generalizing x seen seen' with
  | zero => cases h
  | succ n ih =>
    simp only [search] at h
    split_ifs at h with ho he
    · cases h
    · cases h
      exact ⟨grown_refl seen,he⟩
    · have hk : ∀ y s s', y ∈ s → Grown next goal s s' → y ∈ s' := fun _ _ _ hy hs => hs.1 hy
      obtain ⟨⟨hu,hg⟩,hn⟩ := explore_false grown_refl grown_trans hk (fun _ _ _ hy => ih hy) h
      have hx : x ∈ seen' := hu (.head _)
      refine ⟨⟨fun y hy => hu (.tail x hy),?_⟩,hx⟩
      intro y hy
      rcases hg y hy with hl | hdo
      · rcases mem_cons.mp hl with rfl | hl
        · exact .inr ⟨ho,hn⟩
        · exact .inl hl
      · exact .inr hdo

/-- From nothing seen, the nodes that a fruitless search has seen are closed
under edges and do not contain the goal. -/
lemma not_reaches_of_false {seen' : List α}
    (h : search next goal n x [] = some (false,seen')) : ¬Reaches next x goal := by
  obtain ⟨hg,hx⟩ := search_false h
  have ho : ∀ y ∈ seen', Done next goal y seen' := by
    intro y hy
    rcases hg.2 y hy with hn | ho
    · cases hn
    · exact ho
  have hl : ∀ y, Reaches next x y → y ∈ seen' := by
    intro y hy
    induction hy with
    | refl => exact hx
    | tail _ hed ih => exact (ho _ ih).2 _ hed
  intro he
  exact (ho goal (hl goal he)).1 rfl

section

variable (keys : Finset α) (hkeys : ∀ x, next x ≠ [] → x ∈ keys) {n : ℕ}
include hkeys

/-- The fuel bounds the depth, and the depth is bounded by the nodes with
successors that have not been seen. -/
lemma search_some (x : α) {seen : List α} (hn : (keys \ seen.toFinset).card < n) :
    ∃ r, search next goal n x seen = some r ∧ seen ⊆ r.2 := by
  induction n generalizing x seen with
  | zero => omega
  | succ n ih =>
    by_cases hg : x = goal
    · exact ⟨(true,seen),by simp [search, hg],List.Subset.refl seen⟩
    by_cases he : x ∈ seen
    · exact ⟨(false,seen),by simp [search, hg, he],List.Subset.refl seen⟩
    have ho : seen ⊆ x::seen := fun y hy => .tail x hy
    by_cases hl : next x = []
    · exact ⟨(false,x::seen),by simp [search, hg, he, hl, explore],ho⟩
    -- `x` is a key that was not seen: one key less is left for the successors
    have ht : (keys \ (x::seen).toFinset).card < (keys \ seen.toFinset).card := by
      apply Finset.card_lt_card
      rw [Finset.ssubset_iff_of_subset]
      · exact ⟨x,by simp [hkeys x hl, he],by simp⟩
      · intro y hy
        simp only [Finset.mem_sdiff, mem_toFinset, mem_cons, not_or] at hy ⊢
        exact ⟨hy.1,hy.2.2⟩
    have hi : ∀ y s, x::seen ⊆ s → ∃ r, search next goal n y s = some r ∧ s ⊆ r.2 := by
      intro y s hs
      apply ih y
      have hle : (keys \ s.toFinset).card ≤ (keys \ (x::seen).toFinset).card := by
        apply Finset.card_le_card
        intro z hz
        simp only [Finset.mem_sdiff, mem_toFinset] at hz ⊢
        exact ⟨hz.1,fun hm => hz.2 (hs hm)⟩
      omega
    obtain ⟨r,hr,hu⟩ := explore_some hi (next x) (List.Subset.refl _)
    exact ⟨r,by simp [search, hg, he, hr],List.Subset.trans ho hu⟩

lemma search_iff (hn : keys.card < n) (x : α) :
    ∃ found seen, search next goal n x [] = some (found,seen) ∧
      (found ↔ Reaches next x goal) := by
  obtain ⟨⟨found,seen⟩,hr,-⟩ :=
    @search_some α _ next goal keys hkeys n x [] (by simpa using hn)
  refine ⟨found,seen,hr,?_⟩
  cases found with
  | true => exact iff_of_true rfl (search_true hr)
  | false => exact iff_of_false Bool.false_ne_true (not_reaches_of_false hr)

end

end

end SdkApi.GraphSearch
