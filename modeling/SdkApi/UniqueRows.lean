import Mathlib.Data.List.Nodup

/-!
# Tables with a unique key

A table is the list of its rows, and `key` gives the columns of its unique
constraint. An insert either adds a row or overwrites the one with its key; an
update is refused when it would leave two rows with one key. Rows, keys and
overwriting are arbitrary.
-/

namespace SdkApi.UniqueRows
open List

variable {ρ κ : Type*} [DecidableEq κ] (key : ρ → κ)

def KeysUnique (t : List ρ) : Prop := (t.map key).Nodup

instance (t : List ρ) : Decidable (KeysUnique key t) := inferInstanceAs (Decidable (List.Nodup _))

def find (k : κ) (t : List ρ) : Option ρ := t.find? fun r => key r = k

/-- `overwrite old new` is the row that a conflict leaves. -/
def upsert (overwrite : ρ → ρ → ρ) (r : ρ) (t : List ρ) : List ρ :=
  if (find key (key r) t).isSome then
    t.map fun old => if key old = key r then overwrite old r else old
  else t++[r]

def update (p : ρ → Bool) (f : ρ → ρ) (t : List ρ) : Option (List ρ) :=
  let t' := t.map fun r => if p r then f r else r
  if KeysUnique key t' then some t' else none

variable {key}

lemma find_none_iff {k : κ} {t : List ρ} : find key k t = none ↔ ∀ r ∈ t, key r ≠ k := by
  simp [find, find?_eq_none]

variable {t : List ρ} {r : ρ}

lemma find_some {k : κ} (h : find key k t = some r) : r ∈ t ∧ key r = k := by
  refine ⟨mem_of_find?_eq_some h,?_⟩
  have hr := find?_some h
  simpa using hr

lemma find_of_mem (ht : KeysUnique key t) (hr : r ∈ t) : find key (key r) t = some r := by
  induction t with
  | nil => cases hr
  | cons r' t ih =>
    obtain ⟨hn,he⟩ := nodup_cons.mp ht
    rcases mem_cons.mp hr with rfl | hr
    · simp [find]
    · have hne : key r' ≠ key r := fun hq => hn (hq ▸ mem_map_of_mem hr)
      simpa [find, hne] using ih he hr

lemma any_of_key (q : ρ → Bool) (k : κ) (ht : KeysUnique key t) :
    (t.any fun r => key r = k && q r) = (find key k t).any q := by
  rw [Bool.eq_iff_iff, any_eq_true]
  constructor
  · rintro ⟨r,hr,hq⟩
    rw [Bool.and_eq_true, decide_eq_true_eq] at hq
    obtain ⟨rfl,hq⟩ := hq
    rw [find_of_mem ht hr]
    exact hq
  · intro h
    cases hf : find key k t with
    | none =>
      rw [hf] at h
      cases h
    | some r =>
      obtain ⟨hr,hk⟩ := find_some hf
      rw [hf] at h
      exact ⟨r,hr,by simpa [hk] using h⟩

lemma find_map {f : ρ → ρ} (hf : ∀ r, key (f r) = key r) (k : κ) (t : List ρ) :
    find key k (t.map f) = (find key k t).map f := by
  induction t with
  | nil => rfl
  | cons r t ih =>
    by_cases hr : key r = k
    · simp [find, hf, hr]
    · have hn : key (f r) ≠ k := by rwa [hf]
      simpa [find, hr, hn] using ih

omit [DecidableEq κ] in
lemma unique_map {f : ρ → ρ} (hf : ∀ r, key (f r) = key r) (t : List ρ) :
    KeysUnique key (t.map f) ↔ KeysUnique key t := by
  have hk : (t.map f).map key = t.map key := by simp [Function.comp_def, hf]
  rw [KeysUnique, KeysUnique, hk]

lemma unique_update {p : ρ → Bool} {f : ρ → ρ} {t t' : List ρ} (h : update key p f t = some t') :
    KeysUnique key t' := by
  simp only [update] at h
  split_ifs at h with hu
  exact Option.some.inj h ▸ hu

lemma find_append (k : κ) (t u : List ρ) :
    find key k (t++u) = (find key k t).or (find key k u) := by
  simp [find, find?_append]

lemma unique_append_singleton (ht : KeysUnique key t)
    (hr : find key (key r) t = none) : KeysUnique key (t++[r]) := by
  rw [find_none_iff] at hr
  rw [KeysUnique, map_append, nodup_append]
  refine ⟨ht,by simp,?_⟩
  intro a ha b hb
  obtain ⟨x,hx,rfl⟩ := mem_map.mp ha
  rw [map_singleton, mem_singleton] at hb
  rw [hb]
  exact hr x hx

section

variable {overwrite : ρ → ρ → ρ} (hkey : ∀ old new, key (overwrite old new) = key old)

include hkey

variable (r : ρ)

lemma overwriting_key :
    ∀ old, key (if key old = key r then overwrite old r else old) = key old := by
  intro old
  split_ifs
  · exact hkey old r
  · rfl

lemma unique_upsert {t : List ρ} (ht : KeysUnique key t) :
    KeysUnique key (upsert key overwrite r t) := by
  by_cases hf : (find key (key r) t).isSome
  · rw [upsert, if_pos hf]
    exact (unique_map (overwriting_key hkey r) t).mpr ht
  · rw [upsert, if_neg hf]
    exact unique_append_singleton ht (Option.not_isSome_iff_eq_none.mp hf)

lemma find_upsert_self (t : List ρ) :
    find key (key r) (upsert key overwrite r t) =
      some ((find key (key r) t).elim r fun old => overwrite old r) := by
  cases hf : find key (key r) t with
  | none =>
    rw [upsert, if_neg (by simp [hf]), find_append, hf]
    simp [find]
  | some old =>
    rw [upsert, if_pos (by simp [hf]), find_map (overwriting_key hkey r), hf]
    simp [(find_some hf).2]

lemma find_upsert_other (t : List ρ) {k : κ} (hk : k ≠ key r) :
    find key k (upsert key overwrite r t) = find key k t := by
  by_cases hf : (find key (key r) t).isSome
  · rw [upsert, if_pos hf, find_map (overwriting_key hkey r)]
    cases ho : find key k t with
    | none => rfl
    | some old =>
      have hn : key old ≠ key r := (find_some ho).2 ▸ hk
      simp [hn]
  · rw [upsert, if_neg hf, find_append]
    simp [find, hk.symm]

end

end SdkApi.UniqueRows
