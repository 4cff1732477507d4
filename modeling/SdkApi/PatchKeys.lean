import SdkApi.Tables

/-!
# Keys of a patch

The keys of a patch are JSON names or columns, and both are resolved to columns
in one pass over a map, whose order is not fixed. A provider resolves the keys
before it hands the patch to `Table.Update`, which resolves them again.
-/

namespace SdkApi.PatchKeys
open AssocLists SqlEngine Tables List Option

variable {α : Type} {info : TableInfo} {p : GoMap α}

def Same (m m' : GoMap α) : Prop := ∀ k, m.lookup k = m'.lookup k

/-- A column that a key is resolved to is not resolved to another one. -/
def Stable (info : TableInfo) : Prop :=
  ∀ k, resolveColumn info (resolveColumn info k) = resolveColumn info k

def Agree (info : TableInfo) (p : GoMap α) : Prop :=
  ∀ e ∈ p, ∀ e' ∈ p, resolveColumn info e.1 = resolveColumn info e'.1 → e.2 = e'.2

lemma lookup_fold (p m : GoMap α) (c : String) :
    (p.foldl (fun m e => Tables.set m (resolveColumn info e.1) e.2) m).lookup c =
      ((p.filter fun e => resolveColumn info e.1 = c).getLast?.map Prod.snd).or (m.lookup c) := by
  induction p using reverseRecOn with
  | nil => rfl
  | append_singleton p e ih =>
    rw [foldl_append, foldl_cons, foldl_nil, lookup_set, ih, filter_append]
    by_cases hc : resolveColumn info e.1 = c
    · rw [if_pos hc.symm, filter_cons_of_pos (by simpa using hc)]
      simp
    · rw [if_neg (Ne.symm hc), filter_cons_of_neg (by simpa using hc)]
      simp

lemma lookup_resolve (p : GoMap α) (c : String) : (resolvePatchColumns info p).lookup c =
    (p.filter fun e => resolveColumn info e.1 = c).getLast?.map Prod.snd := by
  rw [resolvePatchColumns, lookup_fold]
  simp

lemma lookup_of_agree (h : Agree info p) {e : String × α} (he : e ∈ p) :
    (resolvePatchColumns info p).lookup (resolveColumn info e.1) = some e.2 := by
  rw [lookup_resolve]
  have hm : e ∈ p.filter fun x => resolveColumn info x.1 = resolveColumn info e.1 :=
    mem_filter.mpr ⟨he,by simp⟩
  obtain ⟨x,hx⟩ := getLast?_isSome.mpr (ne_nil_of_mem hm) |> isSome_iff_exists.mp
  obtain ⟨hi,ho⟩ := mem_filter.mp (mem_of_getLast? hx)
  rw [hx, map_some, h x hi e he (by simpa using ho)]

lemma lookup_none {c : String} (h : ∀ e ∈ p, resolveColumn info e.1 ≠ c) :
    (resolvePatchColumns info p).lookup c = none := by
  rw [lookup_resolve, filter_eq_nil_iff.mpr (by simpa using h)]
  rfl

lemma nodup_resolve (p : GoMap α) : ((resolvePatchColumns info p).map Prod.fst).Nodup := by
  have ho : ∀ m : GoMap α, (m.map Prod.fst).Nodup →
      ((p.foldl (fun m e => Tables.set m (resolveColumn info e.1) e.2) m).map Prod.fst).Nodup := by
    induction p with
    | nil => exact fun m hm => hm
    | cons e p ih =>
      refine fun m hm => ih _ ?_
      change ((_::m.filter _).map Prod.fst).Nodup
      rw [map_cons, nodup_cons]
      exact ⟨by simp,hm.sublist (filter_sublist.map _)⟩
  exact ho [] nodup_nil

lemma agree_resolve (hs : Stable info) (p : GoMap α) :
    Agree info (resolvePatchColumns info p) ∧
      ∀ e ∈ resolvePatchColumns info p, resolveColumn info e.1 = e.1 := by
  have hi : ∀ e ∈ resolvePatchColumns info p, resolveColumn info e.1 = e.1 := by
    intro e he
    obtain ⟨e0,-,rfl⟩ := mem_resolvePatchColumns info he
    exact hs e0.1
  refine ⟨fun e he e' he' ho => ?_,hi⟩
  rw [hi e he, hi e' he'] at ho
  rw [inj_on_of_nodup_map (nodup_resolve p) he he' ho]

lemma resolve_resolve (hs : Stable info) (p : GoMap α) :
    Same (resolvePatchColumns info (resolvePatchColumns info p)) (resolvePatchColumns info p) := by
  obtain ⟨ha,hi⟩ := agree_resolve hs p
  intro c
  cases hc : (resolvePatchColumns info p).lookup c with
  | some v =>
    have hm := mem_of_lookup hc
    have hl := lookup_of_agree ha hm
    rwa [hi _ hm] at hl
  | none =>
    refine lookup_none fun e he ho => ?_
    have hno := lookup_eq_none_iff.mp hc e he
    rw [hi e he] at ho
    simp [ho] at hno

lemma stable_of_resolve (v : α) (h : ∀ p : GoMap α,
    Same (resolvePatchColumns info (resolvePatchColumns info p)) (resolvePatchColumns info p)) :
    Stable info := by
  intro k
  have hk := h [(k,v)] (resolveColumn info k)
  by_contra hn
  change lookup _ [(resolveColumn info (resolveColumn info k),v)] =
    lookup _ [(resolveColumn info k,v)] at hk
  rw [lookup_cons, lookup_cons, beq_eq_false_iff_ne.mpr (Ne.symm hn)] at hk
  simp at hk

lemma lookup_last (p : GoMap α) (e : String × α) :
    (resolvePatchColumns info (p++[e])).lookup (resolveColumn info e.1) = some e.2 := by
  rw [lookup_resolve, filter_append, filter_cons_of_pos (by simp)]
  simp

lemma order_independent_iff (p : GoMap α) :
    (∀ p' : GoMap α, p'.Perm p → Same (resolvePatchColumns info p') (resolvePatchColumns info p)) ↔
      Agree info p := by
  constructor
  · intro h
    have ha : ∀ e ∈ p, (resolvePatchColumns info p).lookup (resolveColumn info e.1) = some e.2 := by
      intro e he
      obtain ⟨l,r,rfl⟩ := append_of_mem he
      have hm : (l++r++[e]).Perm (l++e::r) := by
        rw [append_assoc]
        exact (perm_append_singleton e r).append_left l
      rw [← h _ hm]
      exact lookup_last (l++r) e
    intro e he e' he' ho
    have hsa := ha e he
    rw [ho, ha e' he'] at hsa
    exact (some.inj hsa).symm
  · intro h p' hm c
    have h' : Agree info p' := fun e he e' he' =>
      h e (hm.mem_iff.mp he) e' (hm.mem_iff.mp he')
    by_cases hc : ∃ e ∈ p, resolveColumn info e.1 = c
    · obtain ⟨e,he,rfl⟩ := hc
      rw [lookup_of_agree h' (hm.mem_iff.mpr he), lookup_of_agree h he]
    · push Not at hc
      rw [lookup_none hc, lookup_none fun e he => hc e (hm.mem_iff.mp he)]

lemma mem_patchSets_resolved {V A : Type} (b : Backend V A) (d : Driver) (hs : Stable info)
    {p : GoMap A} (hp : Agree info p) {sets : List (String × A)}
    (h : patchSets b info d (resolvePatchColumns info (b.iterate p)) = .ok sets) (x : String × A) :
    x ∈ sets ↔ ∃ e ∈ p, x = (resolveColumn info e.1,e.2) := by
  have hi : ∀ {q : GoMap A}, Agree info q → Agree info (b.iterate q) := fun hq e he e' he' =>
    hq e ((b.iterate_perm _).mem_iff.mp he) e' ((b.iterate_perm _).mem_iff.mp he')
  constructor
  · intro hx
    obtain ⟨⟨e',he',rfl⟩,-⟩ := mem_patchSets h hx
    obtain ⟨e,he,rfl⟩ := mem_resolvePatchColumns info he'
    exact ⟨e,(b.iterate_perm p).mem_iff.mp he,by rw [hs]⟩
  · rintro ⟨e,he,rfl⟩
    have hse : sets = b.iterate (resolvePatchColumns info
        (b.iterate (resolvePatchColumns info (b.iterate p)))) := by
      cases d with
      | postgres =>
        simp only [patchSets] at h
        split at h <;> cases h
        rfl
      | mysql | turso =>
        cases h
        rfl
    have ht := mem_of_lookup (lookup_of_agree (hi hp) ((b.iterate_perm p).mem_iff.mpr he))
    have ha := mem_of_lookup (lookup_of_agree (hi (agree_resolve hs (b.iterate p)).1)
      ((b.iterate_perm _).mem_iff.mpr ht))
    rw [hse, (b.iterate_perm _).mem_iff, ← hs e.1]
    exact ha

/-- Resolving is idempotent exactly if no column that a key is resolved to is
the key of another one. The order of a patch does not matter exactly if keys for
one column have one value; with both, an update assigns what the client named.
-/
theorem patch_resolution {V A : Type} [Inhabited A] (info : TableInfo) :
    ((∀ p : GoMap A, Same (resolvePatchColumns info (resolvePatchColumns info p))
      (resolvePatchColumns info p)) ↔ Stable info) ∧
    ∀ p : GoMap A,
      ((∀ p' : GoMap A, p'.Perm p →
        Same (resolvePatchColumns info p') (resolvePatchColumns info p)) ↔ Agree info p) ∧
      (Agree info p →
        (∀ e ∈ p, (resolvePatchColumns info p).lookup (resolveColumn info e.1) = some e.2) ∧
        (Stable info → ∀ (b : Backend V A) (d : Driver) (sets : List (String × A)),
          patchSets b info d (resolvePatchColumns info (b.iterate p)) = .ok sets →
            ∀ x, x ∈ sets ↔ ∃ e ∈ p, x = (resolveColumn info e.1,e.2))) :=
  ⟨⟨stable_of_resolve default,fun hs p => resolve_resolve hs p⟩,fun p =>
    ⟨order_independent_iff p,fun hp => ⟨fun _ he => lookup_of_agree hp he,
      fun hs b d _ h => mem_patchSets_resolved b d hs hp h⟩⟩⟩

def crossed : TableInfo where
  fields := [{ column := "b", goName := "A", jsonTag := "a" },
    { column := "c", goName := "B", jsonTag := "b" }]
  primaryKey := "b"

def renamed : TableInfo where
  fields := [{ column := "full_name", goName := "Name", jsonTag := "name" }]
  primaryKey := "full_name"

/-- A second resolution moves a value to another column; and of a column's JSON name and the
column itself the later key wins. -/
theorem patch_keys_collide :
    (resolvePatchColumns crossed [("a",1)] = [("b",1)] ∧
      resolvePatchColumns crossed (resolvePatchColumns crossed [("a",1)]) = [("c",1)]) ∧
    resolvePatchColumns renamed [("name",1),("full_name",2)] = [("full_name",2)] ∧
    resolvePatchColumns renamed [("full_name",2),("name",1)] = [("full_name",1)] := by
  decide

end SdkApi.PatchKeys
