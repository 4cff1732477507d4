import Mathlib.Data.List.Nodup

/-!
# Lists that are checked element by element

A loop checks the elements of a list with their indices, may change them, and
stops at the first error. In the second loop the elements have names and an
element whose name was seen before is an error too.
-/

namespace SdkApi.CheckedLists
open List

variable {ε α β κ : Type*}

def checkAll (check : ℕ → α → Except ε β) : ℕ → List α → Except ε (List β)
  | _, [] => .ok []
  | i, x::xs =>
    match check i x with
    | .error e => .error e
    | .ok y =>
      match checkAll check (i+1) xs with
      | .error e => .error e
      | .ok ys => .ok (y::ys)

def checkDistinct [DecidableEq κ] (name : α → κ) (duplicate : ℕ → κ → ε)
    (first last : ℕ → α → Except ε α) : ℕ → List κ → List α → Except ε (List α)
  | _, _, [] => .ok []
  | i, seen, x::xs =>
    match first i x with
    | .error e => .error e
    | .ok y =>
      if name y ∈ seen then .error (duplicate i (name y))
      else
        match last i y with
        | .error e => .error e
        | .ok z =>
          match checkDistinct name duplicate first last (i+1) (name y::seen) xs with
          | .error e => .error e
          | .ok zs => .ok (z::zs)

lemma checkAll_ok {check : ℕ → α → Except ε β} {i : ℕ} {xs : List α} {ys : List β}
    (h : checkAll check i xs = .ok ys) :
    (∀ x ∈ xs, ∃ j y, check j x = .ok y) ∧ ∀ y ∈ ys, ∃ j, ∃ x ∈ xs, check j x = .ok y := by
  induction xs generalizing i ys with
  | nil =>
    cases h
    exact ⟨nofun,nofun⟩
  | cons x xs ih =>
    rw [checkAll] at h
    split at h
    · cases h
    · rename_i y hy
      split at h
      · cases h
      · rename_i ys' hys
        cases h
        obtain ⟨ha,hm⟩ := ih hys
        refine ⟨forall_mem_cons.mpr ⟨⟨i,y,hy⟩,ha⟩,
          forall_mem_cons.mpr ⟨⟨i,x,.head _,hy⟩,fun z hz => ?_⟩⟩
        obtain ⟨j,w,hw,hj⟩ := hm z hz
        exact ⟨j,w,.tail _ hw,hj⟩

section

variable [DecidableEq κ] {name : α → κ} {duplicate : ℕ → κ → ε} {first last : ℕ → α → Except ε α}
  {xs zs : List α} {seen : List κ}

lemma checkDistinct_ok (hname : ∀ i x y, last i x = .ok y → name y = name x) {P : κ → Prop}
    (hP : ∀ i x y, first i x = .ok y → P (name y)) {i : ℕ}
    (h : checkDistinct name duplicate first last i seen xs = .ok zs) :
    (zs.map name).Nodup ∧ ∀ k ∈ zs.map name, P k ∧ k ∉ seen := by
  induction xs generalizing i seen zs with
  | nil =>
    cases h
    exact ⟨nodup_nil,nofun⟩
  | cons x xs ih =>
    rw [checkDistinct] at h
    split at h
    · cases h
    · rename_i y hy
      split_ifs at h with he
      · split at h
        · cases h
        · rename_i z hz
          split at h
          · cases h
          · rename_i zs' hzs
            cases h
            obtain ⟨hn,ha⟩ := ih hzs
            rw [map_cons, hname i y z hz]
            refine ⟨nodup_cons.mpr ⟨fun hm => ?_,hn⟩,?_⟩
            · exact (ha _ hm).2 (.head _)
            · refine forall_mem_cons.mpr ⟨⟨hP i x y hy,he⟩,fun k hk => ?_⟩
              exact ⟨(ha k hk).1,fun hs => (ha k hk).2 (.tail _ hs)⟩

lemma checkDistinct_same (hi : ∀ i x y, first i x = .ok y → y = x)
    (hl : ∀ i x y, last i x = .ok y → y = x) {i : ℕ}
    (h : checkDistinct name duplicate first last i seen xs = .ok zs) : zs = xs := by
  induction xs generalizing i seen zs with
  | nil =>
    cases h
    rfl
  | cons x xs ih =>
    rw [checkDistinct] at h
    split at h
    · cases h
    · rename_i y hy
      split_ifs at h with he
      · split at h
        · cases h
        · rename_i z hz
          split at h
          · cases h
          · rename_i zs' hzs
            cases h
            rw [hl i y z hz, hi i x y hy, ih hzs]

end

end SdkApi.CheckedLists
