import Mathlib.Data.List.Nodup
import Mathlib.Data.List.TakeDrop
import Mathlib.Tactic.Ring

/-!
# Walking a list page by page

A reader fetches one element more than fits on a page and resumes after the
last element of the page. How it resumes is a parameter: it may stop, fail,
or fetch any sublist. The walk returns the list exactly when each resumption
fetches the right page and notices whether something follows.
-/

namespace SdkApi.OrderedPages
open List Option

variable {α : Type*}

/-- `resume b` is `none` when the walk ends at `b`, `some none` when it fails. -/
def walk (n : ℕ) (resume : α → Option (Option (List α))) : ℕ → List α → Option (List (List α))
  | 0, _ => none
  | fuel+1, rows =>
    if rows.length ≤ n then some [rows]
    else
      match (rows[n-1]?).bind resume with
      | none => some [rows.take n]
      | some none => none
      | some (some rest) => (walk n resume fuel rest).map (rows.take n :: ·)

/-- `rows` shows the page of `L` at position `m` and whether more follows. -/
def Head (n : ℕ) (L : List α) (m : ℕ) (rows : List α) : Prop :=
  rows.take n = (L.drop m).take n ∧ (n < rows.length ↔ n < (L.drop m).length)

variable (n : ℕ)

lemma head_take (L : List α) : Head n L 0 (L.take (n+1)) := by
  refine ⟨by simp [take_take],?_⟩
  simp only [length_take, drop_zero]
  omega

section

variable (resume : α → Option (Option (List α))) (fuel : ℕ) (rows : List α)
  (pages : List (List α))

lemma walk_long (hl : n < rows.length)
    (h : walk n resume fuel rows = some pages) : ∃ rest, pages.flatten = rows.take n++rest := by
  cases fuel with
  | zero => simp [walk] at h
  | succ fuel =>
    rw [walk, if_neg (by omega)] at h
    split at h
    · cases h
      exact ⟨[],by simp⟩
    · simp at h
    · simp only [map_eq_some_iff] at h
      obtain ⟨tail,-,rfl⟩ := h
      exact ⟨tail.flatten,by simp⟩

lemma walk_short (ho : rows.length ≤ n)
    (h : walk n resume fuel rows = some pages) : pages.flatten = rows := by
  cases fuel with
  | zero => simp [walk] at h
  | succ fuel =>
    rw [walk, if_pos ho] at h
    cases h
    simp

end

lemma sublist_suffix {A T : List α} (X : List α) (hnd : (A++T).Nodup) (hT : T ≠ [])
    (hsub : (T++X).Sublist (A++T)) : X = [] := by
  by_contra hX
  obtain ⟨r1,r2,he,h1,h2⟩ := sublist_append_iff.mp hsub
  obtain ⟨y,ys,rfl⟩ := exists_cons_of_ne_nil hT
  obtain ⟨-,ht,hi⟩ := nodup_append.mp hnd
  have ho : (y::ys++X).Nodup := hnd.sublist hsub
  cases r1 with
  | nil =>
    -- the whole of `T++X` fits into `T`
    rw [nil_append] at he
    have hl := h2.length_le
    rw [← he, length_append] at hl
    have : 0 < X.length := length_pos_of_ne_nil hX
    omega
  | cons z zs =>
    have hz : y = z := by simpa using congrArg head? he
    have hy : y ∈ A := h1.subset (by simp [hz])
    exact hi y hy y (by simp) rfl

lemma head_of_walk (hn : 1 ≤ n) {L : List α} (hnd : L.Nodup) {m : ℕ}
    (resume : α → Option (Option (List α))) {fuel : ℕ} {rows : List α} {pages : List (List α)}
    (hsub : rows.Sublist L) (h : walk n resume fuel rows = some pages)
    (hp : pages.flatten = L.drop m) : Head n L m rows := by
  by_cases hln : rows.length ≤ n
  · rw [walk_short n resume fuel rows pages hln h] at hp
    rw [Head, ← hp]
    exact ⟨rfl,Iff.rfl⟩
  obtain ⟨rest,he⟩ := walk_long n resume fuel rows pages (by omega) h
  have ht : (rows.take n).length = n := by
    rw [length_take]
    omega
  rw [he] at hp
  refine ⟨by rw [← hp, take_left' ht],fun _ => ?_,fun _ => by omega⟩
  by_contra hle
  have hl := congrArg length hp
  rw [length_append, ht] at hl
  have hni : rest = [] := eq_nil_of_length_eq_zero (by omega)
  rw [hni, append_nil] at hp
  have hi : L = L.take m++rows.take n := by rw [hp, take_append_drop]
  have ho := sublist_suffix (rows.drop n) (hi ▸ hnd)
    (ne_nil_of_length_pos (by omega)) (by
      rw [take_append_drop, ← hi]
      exact hsub)
  have := congrArg length ho
  simp only [length_drop, length_nil] at this
  omega

lemma head_last (hn : 1 ≤ n) {L : List α} {m : ℕ} {rows : List α}
    (hh : Head n L m rows) : rows[n-1]? = L[m+n-1]? := by
  have h := congrArg (fun l => l[n-1]?) hh.1
  simp only [getElem?_take, if_pos (show n-1 < n by omega), getElem?_drop] at h
  rw [h]
  congr 1
  omega

lemma page_append_iff {n : ℕ} {L : List α} {m : ℕ} {rows : List α} (hh : Head n L m rows)
    (xs : List α) : rows.take n++xs = L.drop m ↔ xs = L.drop (m+n) := by
  have hl : (L.drop m).take n++L.drop (m+n) = L.drop m := by
    rw [← drop_drop, take_append_drop]
  rw [hh.1]
  constructor
  · intro h
    exact append_cancel_left (h.trans hl.symm)
  · rintro rfl
    exact hl

section

variable (hn : 1 ≤ n) (L : List α) (hnd : L.Nodup) (resume : α → Option (Option (List α)))
  (hsub : ∀ b rows, resume b = some (some rows) → rows.Sublist L)
include hn hnd hsub

lemma walk_next_iff {m : ℕ} {rows : List α} (hh : Head n L m rows) (ho : n < rows.length) :
    (∃ fuel pages, walk n resume fuel rows = some pages ∧ pages.flatten = L.drop m) ↔
      ∃ rest, (L[m+n-1]?).bind resume = some (some rest) ∧ Head n L (m+n) rest ∧
        ∃ fuel pages, walk n resume fuel rest = some pages ∧ pages.flatten = L.drop (m+n) := by
  have hm : n < (L.drop m).length := hh.2.mp ho
  have ha := head_last n hn hh
  constructor
  · rintro ⟨fuel,pages,hw,hp⟩
    cases fuel with
    | zero => simp [walk] at hw
    | succ fuel =>
      rw [walk, if_neg (by omega), ha] at hw
      split at hw
      · cases hw
        have hi := (page_append_iff hh []).mp (by simpa using hp)
        have hle := congrArg length hi
        simp only [length_nil, length_drop] at hle hm
        omega
      · simp at hw
      · rename_i rest hre
        simp only [map_eq_some_iff] at hw
        obtain ⟨tail,ht,rfl⟩ := hw
        have hl := (page_append_iff hh tail.flatten).mp (by simpa using hp)
        obtain ⟨b,-,hb⟩ := bind_eq_some_iff.mp hre
        exact ⟨rest,hre,head_of_walk n hn hnd resume (hsub b rest hb)
          ht hl,fuel,tail,ht,hl⟩
  · rintro ⟨rest,hre,he,fuel,tail,ht,hl⟩
    refine ⟨fuel+1,rows.take n::tail,?_,?_⟩
    · rw [walk, if_neg (by omega), ha, hre]
      simp [ht]
    · rw [flatten_cons]
      exact (page_append_iff hh _).mpr hl

lemma walk_from_iff (m : ℕ) (rows : List α) (hh : Head n L m rows) :
    (∃ fuel pages, walk n resume fuel rows = some pages ∧ pages.flatten = L.drop m) ↔
      ∀ j, 1 ≤ j → m+j*n < L.length → ∃ rest, (L[m+j*n-1]?).bind resume = some (some rest) ∧
        Head n L (m+j*n) rest := by
  induction hd : L.length-m using Nat.strong_induction_on generalizing m rows with
  | _ d ih =>
    have hle : (L.drop m).length = L.length-m := length_drop
    by_cases hl : n < rows.length
    · have hm : n < (L.drop m).length := hh.2.mp hl
      rw [walk_next_iff n hn L hnd resume hsub hh hl]
      constructor
      · rintro ⟨rest,hre,he,hk⟩ j hj hjl
        have ho := (ih (L.length-(m+n)) (by omega) (m+n) rest he rfl).mp hk
        rcases Nat.eq_or_lt_of_le hj with rfl | hj2
        · exact ⟨rest,by simpa using hre,by simpa using he⟩
        · have ha : m+j*n = m+n+(j-1)*n := by
            obtain ⟨i,rfl⟩ : ∃ i, j = i+1 := ⟨j-1,by omega⟩
            simp only [Nat.add_sub_cancel]
            ring
          rw [ha] at hjl ⊢
          exact ho (j-1) (by omega) hjl
      · intro hal
        obtain ⟨rest,hre,he⟩ := hal 1 le_rfl (by omega)
        rw [one_mul] at hre he
        refine ⟨rest,hre,he,(ih (L.length-(m+n)) (by omega) (m+n) rest he rfl).mpr ?_⟩
        intro j hj hjl
        have ha : m+n+j*n = m+(j+1)*n := by ring
        rw [ha] at hjl ⊢
        exact hal (j+1) (by omega) hjl
    · have hm : (L.drop m).length ≤ n := Nat.le_of_not_lt fun h => hl (hh.2.mpr h)
      have hro : rows = L.drop m := by
        have h := hh.1
        rwa [take_of_length_le (by omega), take_of_length_le hm] at h
      constructor
      · intro _ j hj hjl
        have : n ≤ j*n := Nat.le_mul_of_pos_left n hj
        omega
      · intro _
        exact ⟨1,[rows],by simp [walk, Nat.le_of_not_lt hl],by simp [hro]⟩

lemma walk_iff :
    (∃ fuel pages, walk n resume fuel (L.take (n+1)) = some pages ∧ pages.flatten = L) ↔
      ∀ k, 1 ≤ k → k*n < L.length → ∃ rest, (L[k*n-1]?).bind resume = some (some rest) ∧
        Head n L (k*n) rest := by
  have h := walk_from_iff n hn L hnd resume hsub 0 _ (head_take n L)
  simpa only [drop_zero, Nat.zero_add] using h

end

lemma head_filter_iff (hn : 1 ≤ n) (L : List α) (hnd : L.Nodup) (m : ℕ) (q : α → Bool) :
    Head n L m ((L.filter q).take (n+1)) ↔
      (∀ x ∈ L.take m, q x = false) ∧ (∀ x ∈ (L.drop m).take n, q x) ∧
        (n < (L.drop m).length → ∃ x ∈ L.drop (m+n), q x) := by
  have hi : L.filter q = (L.take m).filter q++(L.drop m).filter q := by
    rw [← filter_append, take_append_drop]
  have ha : (L.drop m).filter q = ((L.drop m).take n).filter q++(L.drop (m+n)).filter q := by
    rw [← filter_append, ← drop_drop, take_append_drop]
  have he : Head n L m ((L.filter q).take (n+1)) ↔
      (L.filter q).take n = (L.drop m).take n ∧
        (n < (L.filter q).length ↔ n < (L.drop m).length) := by
    rw [Head, take_take, min_eq_left (Nat.le_succ n), length_take]
    have : n < min (n+1) (L.filter q).length ↔ n < (L.filter q).length := by omega
    rw [this]
  rw [he]
  constructor
  · rintro ⟨ht,hle⟩
    -- the first element that passes is the first one of the page
    have hb : (L.take m).filter q = [] := by
      cases hf : (L.take m).filter q with
      | nil => rfl
      | cons x xs =>
        have hx : x ∈ L.take m := (mem_filter.mp (hf ▸ mem_cons_self)).1
        have hx' : x ∈ (L.drop m).take n := by
          rw [← ht, hi, hf]
          cases n with
          | zero => omega
          | succ n => simp
        have hj := nodup_append.mp ((take_append_drop m L).symm ▸ hnd)
        exact absurd rfl (hj.2.2 x hx x (mem_of_mem_take hx'))
    rw [hi, hb, nil_append] at ht hle
    refine ⟨fun x hx => ?_,fun x hx => ?_,fun ho => ?_⟩
    · have := filter_eq_nil_iff.mp hb x hx
      simpa using this
    · rw [← ht] at hx
      exact (mem_filter.mp (mem_of_mem_take hx)).2
    · have hl := hle.mpr ho
      rw [ha, length_append] at hl
      have h1 : (((L.drop m).take n).filter q).length ≤ n :=
        (length_filter_le _ _).trans (length_take_le _ _)
      obtain ⟨x,hx⟩ := exists_mem_of_length_pos (l := (L.drop (m+n)).filter q) (by omega)
      exact ⟨x,mem_filter.mp hx⟩
  · rintro ⟨hb,hg,hm⟩
    have h1 : (L.take m).filter q = [] := filter_eq_nil_iff.mpr fun x hx => by
      simp [hb x hx]
    have h2 : ((L.drop m).take n).filter q = (L.drop m).take n :=
      filter_eq_self.mpr hg
    rw [hi, h1, nil_append, ha, h2]
    by_cases ho : n < (L.drop m).length
    · have hn' : ((L.drop m).take n).length = n := by
        rw [length_take]
        omega
      refine ⟨take_left' hn',fun _ => ho,fun _ => ?_⟩
      obtain ⟨x,hx,hq⟩ := hm ho
      have := length_pos_of_mem (mem_filter.mpr ⟨hx,hq⟩)
      rw [length_append, hn']
      omega
    · have hni : L.drop (m+n) = [] := by
        rw [← drop_drop]
        exact drop_eq_nil_of_le (by omega)
      have hal : (L.drop m).take n = L.drop m := take_of_length_le (by omega)
      rw [hni, filter_nil, append_nil, hal, hal]
      exact ⟨rfl,Iff.rfl⟩

end SdkApi.OrderedPages
