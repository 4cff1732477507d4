import SdkApi.JobOperations

/-!
# Job stores and the ledger

A store refines the ledger when its records show what the ledger has and
their results can be written and read again. Changes of records keep this on
every store, whether they are made in one statement, by writing a record back
or by visiting the keys one after the other.
-/

namespace SdkApi.LedgerRefinement
open AssocLists JobStores AsyncManager JobOperations List Option
open Tables (GoMap)

variable {R J : Type}

section

variable (codec : Codec R J)

/-- A result keeps its text when it is read back. -/
def Stable (r : R) : Prop :=
  ∃ j r', codec.encode r = some j ∧ codec.decode j = some r' ∧ codec.encode r' = some j ∧
    codec.jsonb j = true

structure Recordable (c : Change R) : Prop where
  stable : ∀ r, c.result = some r → Stable codec r
  text : '\x00' ∉ c.errMsg.toList

/-- The records show what the ledger has. -/
structure Refines (jobs : GoMap (JobState R)) (ledger : GoMap (JobState (Option J))) : Prop where
  keys : (jobs.map Prod.fst).Nodup
  ledgerKeys : (ledger.map Prod.fst).Nodup
  lookup : ∀ id, ledger.lookup id = (jobs.lookup id).map (view codec)
  stable : ∀ id js, jobs.lookup id = some js → ∀ r, js.result = some r → Stable codec r

lemma view_reap (now maxRetries : ℤ) (js : JobState R) :
    view codec (reap now maxRetries js) = reap now maxRetries (view codec js) := by
  rw [reap, reap]
  split_ifs with h h' h'
  · rfl
  · exact absurd h h'
  · exact absurd h' h
  · rfl

lemma reap_result (now maxRetries : ℤ) (js : JobState R) :
    (reap now maxRetries js).result = js.result := by
  rw [reap]
  split_ifs <;> rfl

lemma stable_readBack {r : R} (h : Stable codec r) :
    ∃ r', codec.marshal r = some (some r') ∧ codec.encode r' = codec.encode r ∧
      Stable codec r' := by
  obtain ⟨j,r',hj,hr',hj',ho⟩ := h
  refine ⟨r',?_,hj'.trans hj.symm,j,r',hj',hr',hj',ho⟩
  rw [Codec.marshal, hj, map_some, hr']

lemma storable_of_recordable {c : Change R} (h : Recordable codec c) : storable codec c := by
  have ht : c.errMsg.toList.contains '\x00' = false := by simpa using h.text
  rw [storable, ht]
  cases hr : c.result with
  | none => rfl
  | some r =>
    obtain ⟨j,r',hj,-,-,ho⟩ := h.stable r hr
    simp [hj, ho]

end

section

variable {codec : Codec R J} {jobs : GoMap (JobState R)} {ledger : GoMap (JobState (Option J))}
  {jobs' : GoMap (JobState R)}

lemma nodup_set (h : (jobs.map Prod.fst).Nodup) (id : String) (js : JobState R) :
    ((Tables.set jobs id js).map Prod.fst).Nodup := by
  rw [Tables.set, map_cons, nodup_cons]
  refine ⟨?_,nodup_drop_key h id⟩
  intro hm
  obtain ⟨e,he,hi⟩ := mem_map.mp hm
  exact (of_decide_eq_true (mem_filter.mp he).2) hi

lemma nodup_updateRows (f : JobState R → JobState R) (ids : List String)
    (h : (jobs.map Prod.fst).Nodup) : ((updateRows f ids jobs).map Prod.fst).Nodup := by
  rw [updateRows, List.map_map]
  exact h

section

variable (h : Refines codec jobs ledger)
include h

lemma refines_perm (he : jobs'.Perm jobs) : Refines codec jobs' ledger where
  keys := (he.map Prod.fst).nodup_iff.mpr h.keys
  ledgerKeys := h.ledgerKeys
  lookup id := by
    rw [h.lookup, lookup_perm h.keys he.symm]
  stable id js hj := by
    rw [lookup_perm h.keys he.symm] at hj
    exact h.stable id js hj

lemma refines_records : (jobs.map fun e => (e.1,view codec e.2)).Perm ledger := by
  apply perm_of_lookup
  · rw [List.map_map]
    exact h.keys
  · exact h.ledgerKeys
  · intro id
    rw [lookup_map_values (fun _ js => view codec js), h.lookup]

lemma refines_countP (p : JobState (Option J) → Bool) :
    jobs.countP (fun e => p (view codec e.2)) = ledger.countP fun e => p e.2 := by
  rw [← (refines_records h).countP_eq, countP_map]
  rfl

lemma refines_set (id : String) (js : JobState R)
    (hj : ∀ r, js.result = some r → Stable codec r) :
    Refines codec (Tables.set jobs id js) (Tables.set ledger id (view codec js)) where
  keys := nodup_set h.keys id js
  ledgerKeys := nodup_set h.ledgerKeys id _
  lookup id' := by
    by_cases hi : id' = id
    · subst hi
      rw [lookup_set_self, lookup_set_self, map_some]
    · rw [lookup_set_ne hi, lookup_set_ne hi, h.lookup]
  stable id' js' hj' := by
    by_cases hi : id' = id
    · subst hi
      rw [lookup_set_self, some.injEq] at hj'
      exact hj' ▸ hj
    · rw [lookup_set_ne hi] at hj'
      exact h.stable id' js' hj'

lemma refines_rewrite (hk : (jobs'.map Prod.fst).Nodup)
    (f : String → JobState (Option J) → JobState (Option J))
    (hl : ∀ id, (jobs.lookup id = none → jobs'.lookup id = none) ∧
      ∀ js, jobs.lookup id = some js → ∃ js', jobs'.lookup id = some js' ∧
        view codec js' = f id (view codec js) ∧ ∀ r, js'.result = some r → Stable codec r) :
    Refines codec jobs' (ledger.map fun e => (e.1,f e.1 e.2)) where
  keys := hk
  ledgerKeys := by
    rw [List.map_map]
    exact h.ledgerKeys
  lookup id := by
    rw [lookup_map_values f, h.lookup]
    cases hj : jobs.lookup id with
    | none =>
      rw [(hl id).1 hj]
      rfl
    | some js =>
      obtain ⟨js',hs',hi,-⟩ := (hl id).2 js hj
      rw [hs', map_some, map_some, map_some, hi]
  stable id js' hs' := by
    cases hj : jobs.lookup id with
    | none =>
      rw [(hl id).1 hj] at hs'
      cases hs'
    | some js =>
      obtain ⟨js'',hj',-,ht⟩ := (hl id).2 js hj
      rw [hj', some.injEq] at hs'
      exact hs' ▸ ht

end

variable {S : JobStore R} {id : String} {c : Change R} {js : JobState R}

lemma nodup_save (h : (jobs.map Prod.fst).Nodup) (js : JobState R) :
    ((save S jobs id js).map Prod.fst).Nodup := by
  rw [save]
  split
  · exact nodup_set h id js
  · split
    · exact nodup_set h id _
    · exact nodup_drop_key h id

section

variable (hS : S.marshal = codec.marshal)
include hS

lemma lookup_save_stable (jobs : GoMap (JobState R)) (id : String)
    (hj : ∀ r, js.result = some r → Stable codec r) :
    ∃ js', (save S jobs id js).lookup id = some js' ∧ view codec js' = view codec js ∧
      ∀ r, js'.result = some r → Stable codec r := by
  cases hr : js.result with
  | none => exact ⟨js,lookup_save_plain hr,rfl,hj⟩
  | some r =>
    obtain ⟨r',hm,he,ht⟩ := stable_readBack codec (hj r hr)
    refine ⟨{ js with result := some r' },?_,?_,?_⟩
    · rw [save, hr]
      simp only [hS, hm]
      exact lookup_set_self _
    · simp [view, hr, he]
    · rintro r'' hq
      cases hq
      exact ht

lemma written_stable (hc : Recordable codec c) :
    viewChange codec (written S c) = viewChange codec c ∧
      ∀ r, (written S c).result = some r → Stable codec r := by
  rw [written]
  split
  · cases hr : c.result with
    | none =>
      refine ⟨by simp [viewChange, hr],?_⟩
      rintro r hq
      cases hq
    | some r =>
      obtain ⟨r',hm,he,ht⟩ := stable_readBack codec (hc.stable r hr)
      refine ⟨by simp [viewChange, hr, hS, hm, he],?_⟩
      intro r'' hq
      simp only [bind_some, hS, hm, getD_some, some.injEq] at hq
      exact hq ▸ ht
  · exact ⟨rfl,hc.stable⟩

lemma refines_updateAtOnce (h : Refines codec jobs ledger)
    (hc : Recordable codec c) (id : String) (now : ℤ) :
    Refines codec (updateAtOnce S c now id jobs)
      (updateRows ((viewChange codec c).apply S.processingTimeout now) [id] ledger) := by
  obtain ⟨hi,ht⟩ := written_stable hS hc
  refine refines_rewrite h (nodup_updateRows _ _ h.keys) (fun key js =>
    if key ∈ [id] then (viewChange codec c).apply S.processingTimeout now js else js) ?_
  intro id'
  rw [lookup_updateRows]
  constructor
  · intro hn
    rw [hn, map_none]
  · intro js hj
    rw [hj, map_some]
    refine ⟨_,rfl,?_,?_⟩
    · split_ifs
      · rw [← hi]
        rfl
      · rfl
    · split_ifs
      · exact ht
      · exact h.stable id' js hj

lemma refines_save (h : Refines codec jobs ledger) (hjs : jobs.lookup id = some js)
    (js' : JobState R) (ht : ∀ r, js'.result = some r → Stable codec r)
    (f : JobState (Option J) → JobState (Option J)) (hf : view codec js' = f (view codec js)) :
    Refines codec (save S jobs id js') (updateRows f [id] ledger) := by
  refine refines_rewrite h (nodup_save h.keys js')
    (fun key js => if key ∈ [id] then f js else js) ?_
  intro id'
  by_cases hid : id' = id
  · subst hid
    constructor
    · intro hn
      rw [hn] at hjs
      cases hjs
    · intro js0 hj
      rw [hjs, some.injEq] at hj
      subst hj
      obtain ⟨js'',hl,hi,hs⟩ := lookup_save_stable hS jobs id' ht
      exact ⟨js'',hl,by simp [hi, hf],hs⟩
  · rw [lookup_save_ne hid]
    refine ⟨fun hn => hn,?_⟩
    intro js0 hj
    exact ⟨js0,hj,by simp [hid],h.stable id' js0 hj⟩

end

lemma refines_updateJob (mgr : Manager) (h : Refines codec jobs ledger) (hc : Recordable codec c)
    (id : String) (now : ℤ) :
    Refines codec (updateJob mgr codec jobs id now c)
      (updateRows ((viewChange codec c).apply mgr.timeout now) [id] ledger) := by
  have hS : (storeOf mgr codec.marshal).marshal = codec.marshal := rfl
  have ho : (decide (mgr.kind ≠ .postgres) || storable codec c) := by
    rw [storable_of_recordable codec hc, Bool.or_true]
  rw [updateJob, ho]
  unfold update
  split
  · exact refines_updateAtOnce hS h hc id now
  · exact refines_updateAtOnce hS h hc id now
  · split
    · rename_i js _ hj
      exact refines_save hS h hj (c.apply mgr.timeout now js) hc.stable _ rfl
    · rename_i hn
      refine refines_rewrite h h.keys (fun key js =>
        if key ∈ [id] then (viewChange codec c).apply mgr.timeout now js else js) ?_
      intro id'
      refine ⟨fun hn => hn,?_⟩
      intro js hj
      have hi : id' ≠ id := by
        rintro rfl
        exact hn js rfl hj
      exact ⟨js,hj,by simp [hi],h.stable id' js hj⟩

end

section

variable {p : JobState R → Bool}
  {act : GoMap (JobState R) → String → JobState R → GoMap (JobState R)}

lemma walk_cons (id : String) (rest : List String) (s : GoMap (JobState R) × ℕ) :
    walk p act (id::rest) s = walk p act rest
      (if (s.1.lookup id).any p then ((s.1.lookup id).elim s.1 (act s.1 id),s.2+1) else s) := by
  rw [walk]
  cases s.1.lookup id with
  | none => rfl
  | some js => rfl

section

variable (hact : ∀ jobs id js id', id' ≠ id → (act jobs id js).lookup id' = jobs.lookup id')
  {keys : List String} {id : String}
include hact

lemma lookup_walk_ne (hi : id ∉ keys) (s : GoMap (JobState R) × ℕ) :
    (walk p act keys s).1.lookup id = s.1.lookup id := by
  induction keys generalizing s with
  | nil => rfl
  | cons key rest ih =>
    rw [mem_cons, not_or] at hi
    rw [walk_cons, ih hi.2]
    split_ifs
    · cases s.1.lookup key with
      | none => rfl
      | some js => exact hact s.1 key js id hi.1
    · rfl

lemma lookup_walk (hk : keys.Nodup) (hi : id ∈ keys) (s : GoMap (JobState R) × ℕ) :
    (s.1.lookup id = none → (walk p act keys s).1.lookup id = none) ∧
      ∀ js, s.1.lookup id = some js → ∃ jobs, (walk p act keys s).1.lookup id =
        if p js then (act jobs id js).lookup id else some js := by
  induction keys generalizing s with
  | nil => cases hi
  | cons key rest ih =>
    rw [nodup_cons] at hk
    rw [walk_cons]
    by_cases hy : id = key
    · subst hy
      rw [lookup_walk_ne hact hk.1]
      constructor
      · intro hn
        simp [hn]
      · intro js hj
        refine ⟨s.1,?_⟩
        rw [hj]
        cases hp : p js with
        | true => simp [hp]
        | false => simp [hp, hj]
    · have he : id ∈ rest := (mem_cons.mp hi).resolve_left hy
      have ha : (if (s.1.lookup key).any p then
          ((s.1.lookup key).elim s.1 (act s.1 key),s.2+1) else s).1.lookup id = s.1.lookup id := by
        split_ifs
        · cases s.1.lookup key with
          | none => rfl
          | some js => exact hact s.1 key js id hy
        · rfl
      have hih := ih hk.2 he (if (s.1.lookup key).any p then
          ((s.1.lookup key).elim s.1 (act s.1 key),s.2+1) else s)
      rw [ha] at hih
      exact hih

lemma walk_count (hk : keys.Nodup) (s : GoMap (JobState R) × ℕ) :
    (walk p act keys s).2 = s.2+keys.countP fun id => (s.1.lookup id).any p := by
  induction keys generalizing s with
  | nil => rfl
  | cons key rest ih =>
    rw [nodup_cons] at hk
    rw [walk_cons, ih hk.2, countP_cons]
    cases ha : (s.1.lookup key).any p with
    | false => simp
    | true =>
      -- the visit changes the record of its own key only, which does not come again
      have ho : rest.countP
          (fun id => (((s.1.lookup key).elim s.1 (act s.1 key)).lookup id).any p)
          = rest.countP fun id => (s.1.lookup id).any p := by
        apply countP_congr
        intro id hi
        have hn : id ≠ key := by
          rintro rfl
          exact hk.1 hi
        cases hj : s.1.lookup key with
        | none => rfl
        | some js =>
          rw [elim_some, hact s.1 key js id hn]
      simp only [if_true, ho]
      omega

end

lemma nodup_walk
    (hact : ∀ jobs id js, (jobs.map Prod.fst).Nodup → ((act jobs id js).map Prod.fst).Nodup)
    {keys : List String} {s : GoMap (JobState R) × ℕ} (hs : (s.1.map Prod.fst).Nodup) :
    ((walk p act keys s).1.map Prod.fst).Nodup := by
  induction keys generalizing s with
  | nil => exact hs
  | cons key rest ih =>
    rw [walk_cons]
    apply ih
    split_ifs
    · cases s.1.lookup key with
      | none => exact hs
      | some js => exact hact s.1 key js hs
    · exact hs

lemma countP_keys {jobs : GoMap (JobState R)} (h : (jobs.map Prod.fst).Nodup)
    (p : JobState R → Bool) :
    (jobs.map Prod.fst).countP (fun id => (jobs.lookup id).any p) = jobs.countP fun e => p e.2 := by
  rw [countP_map]
  apply countP_congr
  rintro ⟨id,js⟩ he
  rw [Function.comp_apply, (lookup_eq_some_iff h).mpr he, any_some]

end

end SdkApi.LedgerRefinement
