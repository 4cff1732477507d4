import Mathlib.Data.List.Perm.Basic
import Mathlib.Data.List.Nodup
import Mathlib.Data.List.Basic

/-!
# Lookups in association lists

What `List.lookup` finds after the values have been mapped or a key has been
dropped, over arbitrary keys and values. A list without repeated keys is
determined by its lookups up to the order.
-/

namespace SdkApi.AssocLists
open List Option

variable {κ β γ : Type*} [DecidableEq κ]

lemma mem_of_lookup {l : List (κ × β)} {k : κ} {b : β} (h : l.lookup k = some b) : (k,b) ∈ l := by
  obtain ⟨before,after,rfl,-⟩ := lookup_eq_some_iff.mp h
  simp

lemma lookup_single (k j : κ) (b : β) : lookup k [(j,b)] = if k = j then some b else none := by
  by_cases h : k = j
  · simp [h]
  · simp only [lookup_cons, beq_eq_false_iff_ne.mpr h, lookup_nil, if_neg h]

lemma lookup_map_values (f : κ → β → γ) (l : List (κ × β)) (k : κ) :
    (l.map fun e => (e.1,f e.1 e.2)).lookup k = (l.lookup k).map (f k) := by
  induction l with
  | nil => rfl
  | cons e l ih =>
    obtain ⟨j,b⟩ := e
    by_cases h : k = j
    · subst h
      simp
    · simp only [map_cons, lookup_cons, beq_eq_false_iff_ne.mpr h]
      exact ih

lemma lookup_drop_key_ne {k j : κ} (h : k ≠ j) (l : List (κ × β)) :
    (l.filter fun e => decide (e.1 ≠ j)).lookup k = l.lookup k := by
  induction l with
  | nil => rfl
  | cons e l ih =>
    obtain ⟨i,b⟩ := e
    by_cases hi : i = j
    · subst hi
      rw [filter_cons_of_neg (by simp), lookup_cons, beq_eq_false_iff_ne.mpr h]
      exact ih
    · rw [filter_cons_of_pos (by simpa using hi), lookup_cons, lookup_cons, ih]

lemma lookup_drop_key_self (k : κ) (l : List (κ × β)) :
    (l.filter fun e => decide (e.1 ≠ k)).lookup k = none := by
  rw [lookup_eq_none_iff]
  intro e he
  simpa [bne_iff_ne, ne_comm] using (mem_filter.mp he).2

section

variable {l m : List (κ × β)}

section

variable (hl : (l.map Prod.fst).Nodup)
include hl

lemma lookup_eq_some_iff {k : κ} {b : β} : l.lookup k = some b ↔ (k,b) ∈ l := by
  induction l with
  | nil => simp
  | cons e l ih =>
    obtain ⟨j,c⟩ := e
    rw [map_cons, nodup_cons] at hl
    by_cases h : k = j
    · subst h
      have ha : (k,b) ∉ l := fun hm => hl.1 (mem_map.mpr ⟨(k,b),hm,rfl⟩)
      simp [ha, eq_comm]
    · simp only [lookup_cons, beq_eq_false_iff_ne.mpr h, ih hl.2, mem_cons, Prod.mk.injEq,
        h, false_and, false_or]

lemma lookup_perm (h : l.Perm m) (k : κ) : m.lookup k = l.lookup k := by
  have hm : (m.map Prod.fst).Nodup := (h.map Prod.fst).nodup_iff.mp hl
  apply ext
  intro b
  rw [lookup_eq_some_iff hm, lookup_eq_some_iff hl]
  exact h.mem_iff.symm

lemma perm_of_lookup (hm : (m.map Prod.fst).Nodup)
    (h : ∀ k, l.lookup k = m.lookup k) : l.Perm m := by
  apply (perm_ext_iff_of_nodup hl.of_map hm.of_map).mpr
  rintro ⟨k,b⟩
  rw [← lookup_eq_some_iff hl, ← lookup_eq_some_iff hm, h k]

lemma lookup_filter (p : κ → β → Bool) (k : κ) :
    (l.filter fun e => p e.1 e.2).lookup k = (l.lookup k).filter (p k) := by
  have hu : ((l.filter fun e => p e.1 e.2).map Prod.fst).Nodup :=
    hl.sublist (filter_sublist.map _)
  apply ext
  intro b
  rw [lookup_eq_some_iff hu, mem_filter, ← lookup_eq_some_iff hl, filter_eq_some_iff]

lemma nodup_drop_key (k : κ) : ((l.filter fun e => decide (e.1 ≠ k)).map Prod.fst).Nodup :=
  hl.sublist (filter_sublist.map _)

end

end

end SdkApi.AssocLists
