import SdkApi.GraphSearch
import Mathlib.Data.List.TakeWhile

/-!
# Role hierarchies and permission strings

Inheritance of roles is a search of the hierarchy with one set of seen roles
for each role of the user. A granted permission is compared up to its first
`*`.
-/

namespace SdkApi.RoleGrants
open GraphSearch List

abbrev RoleHierarchy := List (String × List String)

/-- The entry of a role; a role without one inherits from none. -/
def RoleHierarchy.parents (h : RoleHierarchy) (role : String) : List String :=
  (h.lookup role).getD []

/-- The recursion of the source, with its depth bounded by the fuel. -/
def RoleHierarchy.inherits (h : RoleHierarchy) (fuel : ℕ) (userRole requiredRole : String)
    (seen : List String) : Option (Bool × List String) :=
  search h.parents requiredRole fuel userRole seen

def RoleHierarchy.Inherits (h : RoleHierarchy) (fuel : ℕ) (userRole requiredRole : String) :
    Option Bool :=
  (h.inherits fuel userRole requiredRole []).map Prod.fst

def RoleHierarchy.Satisfies (h : RoleHierarchy) (fuel : ℕ) : List String → String → Option Bool
  | [], _ => some false
  | r::userRoles, requiredRole =>
    match h.Inherits fuel r requiredRole with
    | none => none
    | some true => some true
    | some false => h.Satisfies fuel userRoles requiredRole

lemma parents_key (h : RoleHierarchy) (role : String) (he : h.parents role ≠ []) :
    role ∈ (h.map Prod.fst).toFinset := by
  by_contra hm
  apply he
  have hn : h.lookup role = none := by
    rw [lookup_eq_none_iff]
    intro p hp
    simp only [mem_toFinset, mem_map, not_exists, not_and] at hm
    simpa using Ne.symm (hm p hp)
  simp [RoleHierarchy.parents, hn]

lemma inherits_iff (h : RoleHierarchy) {fuel : ℕ} (hu : h.length < fuel)
    (userRole requiredRole : String) :
    ∃ found, h.Inherits fuel userRole requiredRole = some found ∧
      (found ↔ Reaches h.parents userRole requiredRole) := by
  have ha : (h.map Prod.fst).toFinset.card < fuel := by
    have hl := toFinset_card_le (h.map Prod.fst)
    rw [length_map] at hl
    omega
  obtain ⟨found,seen,he,hi⟩ :=
    @search_iff _ _ h.parents requiredRole _ (parents_key h) fuel ha userRole
  exact ⟨found,by simp [RoleHierarchy.Inherits, RoleHierarchy.inherits, he],hi⟩

lemma satisfies_step (h : RoleHierarchy) {fuel : ℕ} (hu : h.length < fuel)
    (userRoles : List String) (requiredRole : String) :
    ∃ found, h.Satisfies fuel userRoles requiredRole = some found ∧
      (found ↔ ∃ r ∈ userRoles, Reaches h.parents r requiredRole) := by
  induction userRoles with
  | nil => exact ⟨false,rfl,by simp⟩
  | cons r userRoles ih =>
    obtain ⟨found,hr,he⟩ := inherits_iff h hu r requiredRole
    cases found with
    | true =>
      refine ⟨true,by simp [RoleHierarchy.Satisfies, hr],?_⟩
      exact iff_of_true rfl ⟨r,.head _,he.mp rfl⟩
    | false =>
      have hn : ¬Reaches h.parents r requiredRole := fun hp => by simpa using he.mpr hp
      obtain ⟨rest,ht,hi⟩ := ih
      refine ⟨rest,by simp [RoleHierarchy.Satisfies, hr, ht],?_⟩
      rw [hi]
      simp [hn]

/-- `Satisfies` ends on every hierarchy, at a depth that its entries bound, and
its answer is reachability. -/
theorem satisfies_iff_reaches (h : RoleHierarchy) (userRoles : List String)
    (requiredRole : String) :
    ∃ found, (∀ fuel, h.length < fuel → h.Satisfies fuel userRoles requiredRole = some found) ∧
      (found = true ↔ ∃ r ∈ userRoles, Reaches h.parents r requiredRole) := by
  obtain ⟨found,-,hi⟩ := satisfies_step h (Nat.lt_succ_self h.length) userRoles requiredRole
  refine ⟨found,?_,hi⟩
  intro fuel hu
  obtain ⟨found',hf',hi'⟩ := satisfies_step h hu userRoles requiredRole
  rw [hf', Bool.eq_iff_iff.mpr (hi'.trans hi.symm)]

section

/-- The index of the first byte `b`, if there is one. -/
def indexByte (s : List Char) (b : Char) : Option ℕ := s.findIdx? (· == b)

def MatchPermission (granted required : String) : Bool :=
  if granted = required then true
  else
    match indexByte granted.toList '*' with
    | some i =>
      let pre := granted.toList.take i
      pre.length ≤ required.toList.length && required.toList.take pre.length == pre
    | none => false

def MatchAnyPermission : List String → String → Bool
  | [], _ => false
  | g::granted, required => MatchPermission g required || MatchAnyPermission granted required

/-- The law of trailing wildcards: `*` is the last character and the only one. -/
def Covers (granted required : String) : Prop :=
  granted = required ∨
    ∃ p, granted.toList = p++['*'] ∧ '*' ∉ p ∧ p <+: required.toList

/-- The part of a permission before its first `*`. -/
def beforeWildcard (granted : String) : List Char := granted.toList.takeWhile (· ≠ '*')

variable {s : List Char}

lemma indexByte_some {b : Char} (h : b ∈ s) :
    ∃ i, indexByte s b = some i ∧ s.take i = s.takeWhile (· ≠ b) := by
  induction s with
  | nil => cases h
  | cons c s ih =>
    by_cases hc : c = b
    · exact ⟨0,by simp [indexByte, findIdx?_cons, hc],by simp [hc]⟩
    · obtain ⟨i,hi,ht⟩ := ih ((mem_cons.mp h).resolve_left (Ne.symm hc))
      refine ⟨i+1,?_,by simp [hc, ht]⟩
      unfold indexByte at hi ⊢
      simp [findIdx?_cons, hc, hi]

lemma indexByte_none {b : Char} (h : b ∉ s) : indexByte s b = none := by
  unfold indexByte
  rw [findIdx?_eq_none_iff]
  intro c hc
  simpa using fun he : c = b => h (he ▸ hc)

lemma split_wildcard (h : '*' ∈ s) : ∃ q, s = s.takeWhile (· ≠ '*')++ '*'::q := by
  induction s with
  | nil => cases h
  | cons c s ih =>
    by_cases hc : c = '*'
    · exact ⟨s,by simp [hc]⟩
    · obtain ⟨q,hq⟩ := ih ((mem_cons.mp h).resolve_left (Ne.symm hc))
      refine ⟨q,?_⟩
      rw [takeWhile_cons_of_pos (by simpa using hc), cons_append, ← hq]

lemma not_mem_beforeWildcard (granted : String) : '*' ∉ beforeWildcard granted := by
  intro h
  simpa using mem_takeWhile_imp h

variable (g r : String)

lemma matchPermission_iff :
    MatchPermission g r ↔ g = r ∨ ('*' ∈ g.toList ∧ beforeWildcard g <+: r.toList) := by
  unfold MatchPermission
  by_cases he : g = r
  · simp [he]
  by_cases ht : '*' ∈ g.toList
  · obtain ⟨i,hi,ha⟩ := indexByte_some ht
    rw [if_neg he, hi]
    simp only [ha, Bool.and_eq_true, decide_eq_true_eq, beq_iff_eq, he, ht, true_and, false_or]
    change _ ∧ r.toList.take (beforeWildcard g).length = beforeWildcard g ↔ _
    rw [prefix_iff_eq_take]
    constructor
    · intro h
      exact h.2.symm
    · intro h
      refine ⟨?_,h.symm⟩
      exact (prefix_iff_eq_take.mpr h).length_le
  · rw [if_neg he, indexByte_none ht]
    simp [he, ht]

lemma matchAnyPermission_iff (granted : List String) (r : String) :
    MatchAnyPermission granted r ↔ ∃ g ∈ granted, MatchPermission g r := by
  induction granted with
  | nil => simp [MatchAnyPermission]
  | cons g granted ih => simp [MatchAnyPermission, ih]

lemma covers_iff :
    Covers g r ↔ g = r ∨ ('*' ∈ g.toList ∧ '*' ∉ g.toList.dropLast ∧
      beforeWildcard g <+: r.toList) := by
  unfold Covers
  apply or_congr_right
  constructor
  · rintro ⟨p,hg,hp,hr⟩
    have hb : beforeWildcard g = p := by
      have hk : ∀ c ∈ p, decide (c ≠ '*') := by
        intro c hc
        simpa using fun h : c = '*' => hp (h ▸ hc)
      unfold beforeWildcard
      rw [hg, takeWhile_append_of_pos hk]
      simp
    rw [hb, hg]
    exact ⟨by simp,by simpa using hp,hr⟩
  · rintro ⟨ht,hl,hr⟩
    obtain ⟨q,hq⟩ := split_wildcard ht
    cases q with
    | nil => exact ⟨beforeWildcard g,hq,not_mem_beforeWildcard g,hr⟩
    | cons c q =>
      rw [hq] at hl
      simp [dropLast_append_of_ne_nil] at hl

lemma widened_iff :
    (MatchPermission g r ∧ ¬Covers g r) ↔
      g ≠ r ∧ '*' ∈ g.toList.dropLast ∧ beforeWildcard g <+: r.toList := by
  rw [matchPermission_iff, covers_iff]
  constructor
  · rintro ⟨hm,hn⟩
    have he : g ≠ r := fun hq => hn (.inl hq)
    obtain ⟨ht,hr⟩ := hm.resolve_left he
    refine ⟨he,?_,hr⟩
    by_contra hl
    exact hn (.inr ⟨ht,hl,hr⟩)
  · rintro ⟨he,hl,hr⟩
    refine ⟨.inr ⟨dropLast_subset _ hl,hr⟩,?_⟩
    rintro (hq | ⟨-,ho,-⟩)
    · exact he hq
    · exact ho hl

lemma matchPermission_of_covers {g r : String} (h : Covers g r) : MatchPermission g r := by
  rw [matchPermission_iff]
  rcases (covers_iff g r).mp h with he | ⟨ht,-,hr⟩
  · exact .inl he
  · exact .inr ⟨ht,hr⟩

lemma covers_suffix {g r : String} (h : Covers g r) {p q : List Char}
    (hg : g.toList = p++ '*'::q) (hq : q ≠ []) : q <:+ r.toList := by
  rcases (covers_iff g r).mp h with rfl | ⟨-,hl,-⟩
  · rw [hg]
    exact ⟨p++['*'],by simp⟩
  · rw [hg, dropLast_append_of_ne_nil (by simp)] at hl
    cases q with
    | nil => exact absurd rfl hq
    | cons c q => simp at hl

/-- Matching follows the law of trailing wildcards, keeps the text after a `*`
and is a union over the granted list, exactly when the grant is the permission,
or has no `*` before its last character, or is not met up to its first `*`. -/
theorem permission_law_iff (g r : String) :
    ((MatchPermission g r = true ↔ Covers g r) ∧
        (∀ p q, g.toList = p++ '*'::q → q ≠ [] → MatchPermission g r = true → q <:+ r.toList) ∧
        ∀ granted, (MatchAnyPermission granted r = true ↔
            ∃ g ∈ granted, MatchPermission g r = true) ∧
          ∀ more, granted ⊆ more → MatchAnyPermission granted r = true →
            MatchAnyPermission more r = true) ↔
      g = r ∨ '*' ∉ g.toList.dropLast ∨ ¬beforeWildcard g <+: r.toList := by
  constructor
  · rintro ⟨ha,-,-⟩
    by_contra hn
    simp only [not_or, not_not] at hn
    obtain ⟨hm,ht⟩ := (widened_iff g r).mpr hn
    exact ht (ha.mp hm)
  · intro hn
    have ha : MatchPermission g r → Covers g r := by
      intro hm
      by_contra ht
      obtain ⟨he,hl,hr⟩ := (widened_iff g r).mp ⟨hm,ht⟩
      rcases hn with heq | ho | ho
      · exact he heq
      · exact ho hl
      · exact ho hr
    refine ⟨⟨ha,matchPermission_of_covers⟩,?_,?_⟩
    · intro p q hg hq hm
      exact covers_suffix (ha hm) hg hq
    · intro granted
      refine ⟨matchAnyPermission_iff granted r,?_⟩
      intro more hu hy
      obtain ⟨g',hg',hm⟩ := (matchAnyPermission_iff granted r).mp hy
      exact (matchAnyPermission_iff more r).mpr ⟨g',hu hg',hm⟩

/-- A grant to read one kind of thing covers its deletion. -/
theorem inner_wildcard_widens :
    MatchPermission "products:*:read" "products:7:delete" = true ∧
      ¬Covers "products:*:read" "products:7:delete" ∧
      ¬":read".toList <:+ "products:7:delete".toList :=
  ⟨by decide,((widened_iff _ _).mpr ⟨by decide,by decide,by decide⟩).2,by decide⟩

end

end SdkApi.RoleGrants
