import Mathlib.Data.Option.Basic
import Mathlib.Order.Lattice

/-!
# Computations with a bound on the depth of calls

A recursive function is given a bound on the depth of its calls and has no
result when the bound is too small. It returns if it has one and the same
result from some bound on. What is put together from such computations returns
when its parts do, with the largest of their bounds.
-/

namespace SdkApi.BoundedCalls

variable {α β γ : Type*}

/-- The function with `n` levels of calls left; `step` makes one level. -/
def bounded (step : (α → Option β) → α → Option β) : ℕ → α → Option β
  | 0 => fun _ => none
  | n+1 => step (bounded step n)

def Settles (run : ℕ → Option β) (b : β) : Prop := ∃ n, ∀ m, n ≤ m → run m = some b

section

variable {run : ℕ → Option β} {b : β}

lemma settles_some {b : β} : Settles (fun _ => some b) b := ⟨0,fun _ _ => rfl⟩

lemma Settles.bind {next : ℕ → β → Option γ} {c : γ} (h : Settles run b)
    (he : Settles (fun n => next n b) c) : Settles (fun n => (run n).bind (next n)) c := by
  obtain ⟨n,hn⟩ := h
  obtain ⟨k,hk⟩ := he
  refine ⟨max n k,fun m hm => Option.bind_eq_some_iff.mpr ⟨b,?_,?_⟩⟩
  · exact hn m (le_trans (le_max_left n k) hm)
  · exact hk m (le_trans (le_max_right n k) hm)

lemma Settles.map (h : Settles run b) (f : β → γ) : Settles (fun n => (run n).map f) (f b) := by
  obtain ⟨n,hn⟩ := h
  exact ⟨n,fun m hm => Option.map_eq_some_iff.mpr ⟨b,hn m hm,rfl⟩⟩

lemma settles_bounded {step : (α → Option β) → α → Option β} {a : α}
    (h : Settles (fun n => step (bounded step n) a) b) : Settles (fun n => bounded step n a) b := by
  obtain ⟨n,hn⟩ := h
  refine ⟨n+1,fun m hm => ?_⟩
  obtain ⟨k,rfl⟩ := Nat.exists_eq_add_of_le' hm
  exact hn (k+n) (Nat.le_add_left n k)

end

end SdkApi.BoundedCalls
