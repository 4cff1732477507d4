import Mathlib.Logic.Function.Basic

/-!
# Read-through caches

A cache in front of an arbitrary source of answers. It is coherent when
whatever it holds for a key is what the source answers for that key. A write
to the source keeps it coherent if the entries of the keys whose answer it
changes are dropped.
-/

namespace SdkApi.ReadThrough

variable {κ ρ : Type*} {answer answer' : κ → ρ} {cache : κ → Option ρ} {cache' : κ → Option ρ}

def Coherent (answer : κ → ρ) (cache : κ → Option ρ) : Prop :=
  ∀ k r, cache k = some r → answer k = r

lemma coherent_subset (h : Coherent answer cache)
    (hu : ∀ k r, cache' k = some r → cache k = some r) : Coherent answer cache' :=
  fun k r hk => h k r (hu k r hk)

lemma coherent_store (h : Coherent answer cache) (k : κ)
    (hk : ∀ r, cache' k = some r → answer k = r)
    (ho : ∀ k' ≠ k, cache' k' = cache k') : Coherent answer cache' := by
  intro k' r hr
  by_cases hk' : k' = k
  · subst hk'
    exact hk r hr
  · rw [ho k' hk'] at hr
    exact h k' r hr

lemma coherent_change (h : Coherent answer cache)
    (ha : ∀ k, cache k ≠ none → answer' k = answer k) : Coherent answer' cache := by
  intro k r hr
  rw [ha k (by simp [hr])]
  exact h k r hr

end SdkApi.ReadThrough
