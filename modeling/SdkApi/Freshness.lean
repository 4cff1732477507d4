import Mathlib.Data.List.Infix

/-!
# Copies of a value that changes

A value goes through a list of versions. Copies of it are taken, kept in two
places and dropped from each of them after a write. The ledger records up to
which version the drops and the writers have come; a copy is fresh from a
version on when it equals that version or a later one.
-/

namespace SdkApi.Freshness
open List

variable {ρ : Type*}

/-- The value is one of the versions from the `n`-th on. -/
def FreshFrom (versions : List ρ) (n : ℕ) (r : ρ) : Prop := ∃ k, n ≤ k ∧ versions[k]? = some r

structure Ledger (ρ : Type*) where
  versions : List ρ
  returned : ℕ
  dropped1 : ℕ
  dropped2 : ℕ

structure Later (a b : Ledger ρ) : Prop where
  versions : a.versions <+: b.versions
  returned : a.returned ≤ b.returned
  dropped1 : a.dropped1 ≤ b.dropped1
  dropped2 : a.dropped2 ≤ b.dropped2

structure Ordered (a : Ledger ρ) : Prop where
  returned1 : a.returned ≤ a.dropped1
  returned2 : a.returned ≤ a.dropped2
  exists1 : a.dropped1 < a.versions.length
  exists2 : a.dropped2 < a.versions.length

variable {versions : List ρ} {n m : ℕ} {r : ρ} {a b : Ledger ρ}

lemma later_refl {a : Ledger ρ} : Later a a :=
  ⟨prefix_refl _,le_refl _,le_refl _,le_refl _⟩

lemma later_length (h : Later a b) : a.versions.length ≤ b.versions.length :=
  h.versions.length_le

lemma freshFrom_weaken (h : FreshFrom versions n r) (hm : m ≤ n) : FreshFrom versions m r := by
  obtain ⟨k,hk,hr⟩ := h
  exact ⟨k,hm.trans hk,hr⟩

lemma freshFrom_later (h : FreshFrom a.versions n r) (ha : Later a b) :
    FreshFrom b.versions n r := by
  obtain ⟨k,hk,hr⟩ := h
  obtain ⟨rest,he⟩ := ha.versions
  refine ⟨k,hk,?_⟩
  rw [← he, getElem?_append_left (List.getElem?_eq_some_iff.mp hr).1, hr]

lemma freshFrom_last (h : versions.getLast? = some r) (hn : n < versions.length) :
    FreshFrom versions n r := by
  refine ⟨versions.length-1,by omega,?_⟩
  rw [← getLast?_eq_getElem?, h]

lemma freshFrom_mem (h : FreshFrom versions n r) : r ∈ versions := by
  obtain ⟨k,-,hr⟩ := h
  exact mem_of_getElem? hr

end SdkApi.Freshness
