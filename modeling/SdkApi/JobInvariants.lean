import SdkApi.JobOperations

/-!
# Histories of the memory job store

`Create`, `Update`, `Delete`, `ReapStale` and `Cleanup` hold the lock of the
store, and each reads the clock once.
-/

namespace SdkApi.JobInvariants
open AssocLists GuardedRuns JobStores JobOperations List Option Function
open Tables (GoMap)

variable {R : Type}

inductive StoreCall (R : Type) where
  | create (id : String)
  | update (id : String) (c : Change R)
  | delete (id : String)
  | reapStale
  | cleanup (ttl : ℤ)

/-- The map of the store, and the ids that have been used. -/
structure Memory (R : Type) where
  jobs : GoMap (JobState R) := []
  created : List String := []

variable (timeout m : ℤ)

/-- The store after a call at a time, and the number that the call returns. -/
def call (s : Memory R) (e : ℤ × StoreCall R) : Memory R × ℕ :=
  match e.2 with
  | .create id => (⟨Tables.set s.jobs id (newJob id e.1),id::s.created⟩,0)
  | .update id c => ({ s with jobs := updateRows (c.apply timeout e.1) [id] s.jobs },0)
  | .delete id => ({ s with jobs := delete s.jobs id },0)
  | .reapStale => ({ s with jobs := (reapAll e.1 m s.jobs).1 },(reapAll e.1 m s.jobs).2)
  | .cleanup ttl =>
    ({ s with jobs := (cleanAll (e.1-ttl) 0 s.jobs).1 },(cleanAll (e.1-ttl) 0 s.jobs).2)

/-- In processing, at or past the deadline. -/
def stale (now : ℤ) (js : JobState R) : Bool :=
  js.status = .processing && js.processingDeadline.any fun dl => dl ≤ now

/-- What a call is to make of the record of a job, field by field. -/
def changed (e : ℤ × StoreCall R) (id : String) (rec : Option (JobState R)) :
    Option (JobState R) :=
  match e.2 with
  | .create id' =>
    if id = id' then some { id, status := .pending, createdAt := e.1, updatedAt := e.1 } else rec
  | .update id' c =>
    if id = id' then rec.map fun js =>
      { js with
        status := c.status
        result := c.result
        error := c.errMsg
        updatedAt := e.1
        processingDeadline := if c.status = .processing then some (e.1+timeout) else none }
    else rec
  | .delete id' => if id = id' then none else rec
  | .reapStale => rec.map fun js =>
      if stale e.1 js then
        if js.retryCount < m then
          { js with
            status := .pending
            retryCount := js.retryCount+1
            processingDeadline := none
            updatedAt := e.1 }
        else
          { js with
            status := .failed
            error := "max retries exceeded"
            processingDeadline := none
            updatedAt := e.1 }
      else js
  | .cleanup ttl => rec.filter fun js =>
      !((js.status = .completed ∨ js.status = .failed) && js.updatedAt < e.1-ttl)

def Fresh (s : Memory R) (e : ℤ × StoreCall R) : Prop := ∀ id, e.2 = .create id → id ∉ s.created

structure Regular (js : JobState R) : Prop where
  deadline : js.processingDeadline.isSome ↔ js.status = .processing
  retries : js.retryCount ≤ m

structure Kept (s : Memory R) : Prop where
  keys : (s.jobs.map Prod.fst).Nodup
  created : ∀ id js, s.jobs.lookup id = some js → id ∈ s.created
  regular : ∀ id js, s.jobs.lookup id = some js → Regular m js

/-- The jobs that are still there have at least as many retries. -/
def Grows (s t : Memory R) : Prop :=
  ∀ id ∈ s.created, id ∈ t.created ∧ ∀ js', t.jobs.lookup id = some js' →
    ∃ js, s.jobs.lookup id = some js ∧ js.retryCount ≤ js'.retryCount

variable {timeout m} {s : Memory R} {e : ℤ × StoreCall R} {id : String}

lemma due_eq_stale (now : ℤ) (js : JobState R) : due now js = stale now js := by
  rw [due, stale]
  cases js.processingDeadline with
  | none => rfl
  | some dl => simp only [map_some, getD_some, any_some, ← decide_not, not_lt]

lemma lookup_call (hs : (s.jobs.map Prod.fst).Nodup) (id : String) :
    (call timeout m s e).1.jobs.lookup id = changed timeout m e id (s.jobs.lookup id) := by
  obtain ⟨now,op⟩ := e
  cases op with
  | create id' =>
    by_cases hi : id = id'
    · subst hi
      simp [call, changed, lookup_set_self, newJob]
    · simp [call, changed, lookup_set_ne hi, hi]
  | update id' c =>
    simp only [call, changed, lookup_updateRows, mem_singleton]
    by_cases hi : id = id'
    · simp only [hi, if_true]
      rfl
    · simp [hi]
  | delete id' =>
    by_cases hi : id = id'
    · subst hi
      simp only [call, changed, delete, lookup_drop_key_self, if_true]
    · simp only [call, changed, delete, lookup_drop_key_ne hi, if_neg hi]
  | reapStale =>
    simp only [call, changed, lookup_reapAll, due_eq_stale, reap]
    congr 1
    funext js
    by_cases he : js.retryCount < m
    · simp [he, not_le.mpr he, requeue]
    · simp [he, not_lt.mp he, giveUp]
  | cleanup ttl =>
    refine (lookup_filter hs (fun _ js => !expired (now-ttl) 0 js) id).trans ?_
    simp only [changed]
    congr 1
    funext js
    cases hst : js.status <;> simp [expired, JobStatus.terminal, hst]

lemma call_keys (hs : (s.jobs.map Prod.fst).Nodup) :
    ((call timeout m s e).1.jobs.map Prod.fst).Nodup := by
  obtain ⟨now,op⟩ := e
  cases op with
  | create id =>
    refine nodup_cons.mpr ⟨?_,nodup_drop_key hs id⟩
    simp
  | update id c => simpa [call, updateRows, comp_def] using hs
  | delete id => exact nodup_drop_key hs id
  | reapStale => simpa [call, reapAll, comp_def] using hs
  | cleanup ttl => exact hs.sublist (filter_sublist.map _)

lemma changed_cases {rec : Option (JobState R)} {js' : JobState R}
    (h : changed timeout m e id rec = some js') :
    (e.2 = .create id ∧ js' = { id, status := .pending, createdAt := e.1, updatedAt := e.1 }) ∨
      ∃ js, rec = some js ∧
      js.retryCount ≤ js'.retryCount ∧ (Regular m js → Regular m js') := by
  obtain ⟨now,op⟩ := e
  cases op with
  | create id' =>
    simp only [changed] at h
    split_ifs at h with hi
    · cases h
      exact .inl ⟨by rw [hi],rfl⟩
    · exact .inr ⟨js',h,le_rfl,fun hr => hr⟩
  | update id' c =>
    by_cases hi : id = id'
    · simp only [changed, if_pos hi] at h
      obtain ⟨js, hj, rfl⟩ := map_eq_some_iff.mp h
      refine .inr ⟨js, hj, le_rfl, fun hr => ⟨?_, hr.retries⟩⟩
      by_cases hst : c.status = .processing <;> simp [hst]
    · simp only [changed, if_neg hi] at h
      exact .inr ⟨js', h, le_rfl, fun hr => hr⟩
  | delete id' =>
    simp only [changed] at h
    split_ifs at h
    exact .inr ⟨js',h,le_rfl,fun hr => hr⟩
  | reapStale =>
    obtain ⟨js,hj,rfl⟩ := map_eq_some_iff.mp h
    refine .inr ⟨js,hj,?_⟩
    split_ifs with ht he
    · exact ⟨Int.le_add_one le_rfl, fun _ => ⟨by simp, Int.add_one_le_of_lt he⟩⟩
    · exact ⟨le_rfl, fun hr => ⟨by simp, hr.retries⟩⟩
    · exact ⟨le_rfl, fun hr => hr⟩
  | cleanup ttl => exact .inr ⟨js',(filter_eq_some_iff.mp h).1,le_rfl,fun hr => hr⟩

lemma mem_created (h : id ∈ s.created) : id ∈ (call timeout m s e).1.created := by
  obtain ⟨now,op⟩ := e
  cases op <;> simp [call, h]

lemma call_kept (hm : 0 ≤ m) (hs : Kept m s) (he : Fresh s e) :
    Kept m (call timeout m s e).1 ∧ Grows s (call timeout m s e).1 := by
  refine ⟨⟨call_keys hs.keys,?_,?_⟩,fun id hi => ⟨mem_created hi,fun js' hj' => ?_⟩⟩
  · intro id js' hj'
    rw [lookup_call hs.keys] at hj'
    rcases changed_cases hj' with ⟨ha,-⟩ | ⟨js,hj,-⟩
    · simp [call, ha]
    · exact mem_created (hs.created id js hj)
  · intro id js' hj'
    rw [lookup_call hs.keys] at hj'
    rcases changed_cases hj' with ⟨-,rfl⟩ | ⟨js,hj,-,hg⟩
    · exact ⟨by simp, hm⟩
    · exact hg (hs.regular id js hj)
  · rw [lookup_call hs.keys] at hj'
    rcases changed_cases hj' with ⟨ha,-⟩ | ⟨js,hj,hl,-⟩
    · exact absurd hi (he id ha)
    · exact ⟨js,hj,hl⟩

lemma grows_trans (s t u : Memory R) (h : Grows s t) (k : Grows t u) : Grows s u := by
  intro id hi
  obtain ⟨ht,hst⟩ := h id hi
  obtain ⟨hu,htu⟩ := k id ht
  refine ⟨hu,fun js'' hj' => ?_⟩
  obtain ⟨js',hs',hl'⟩ := htu js'' hj'
  obtain ⟨js,hj,hl⟩ := hst js' hs'
  exact ⟨js,hj,hl.trans hl'⟩

/-- After every history the records are regular; the next call changes each of
them as it should, and no later one takes a retry back. -/
theorem memory_histories (timeout : ℤ) {m : ℤ} (hm : 0 ≤ m) {es : List (ℤ × StoreCall R)}
    (h : Run (fun s e t => (call timeout m s e).1 = t) Fresh {} es s) :
    Kept m s ∧
      (∀ e id, (call timeout m s e).1.jobs.lookup id = changed timeout m e id (s.jobs.lookup id)) ∧
      (∀ now, (call timeout m s (now,.reapStale)).2 =
        (s.jobs.filter fun j => stale now j.2).length) ∧
      ∀ fs t, Run (fun s e t => (call timeout m s e).1 = t) Fresh s fs t → Grows s t := by
  have hstep : ∀ (s : Memory R) e t, Kept m s → Fresh s e → (call timeout m s e).1 = t →
      Kept m t ∧ Grows s t := by
    rintro s e t hs he rfl
    exact call_kept hm hs he
  have hs : Kept m s := by
    refine run_invariant (Kept m) (fun s e t hs he ht => (hstep s e t hs he ht).1) h ?_
    exact ⟨nodup_nil,by simp,by simp⟩
  refine ⟨hs,fun e id => lookup_call hs.keys id,fun now => ?_,fun fs t ht => ?_⟩
  · simp only [call, reapAll, due_eq_stale]
  · exact run_relation Grows (fun s id hi => ⟨hi,fun js hj => ⟨js,hj,le_rfl⟩⟩) grows_trans
      (Kept m) hstep ht hs

/-- The store after a job was created and started. -/
def started : Memory ℕ :=
  (call 300 1 (call 300 1 {} (0, .create "j")).1 (0, .update "j" ⟨.processing, none, ""⟩)).1

theorem started_job_reaped :
    Kept 1 started ∧ (call 300 1 started (300, .reapStale)).2 = 1 ∧
      (call 300 1 started (300, .reapStale)).1.jobs.lookup "j" =
        some { id := "j", status := .pending, createdAt := 0, updatedAt := 300
               retryCount := 1 } := by
  have h : Run (fun s e t => (call 300 1 s e).1 = t) Fresh {}
      [(0, .create "j"), (0, .update "j" ⟨.processing, none, ""⟩)] started :=
    .cons (fun _ _ => not_mem_nil) rfl (.cons nofun rfl (.nil _))
  obtain ⟨hk, hc, hr, -⟩ := memory_histories 300 (by decide) h
  exact ⟨hk, (hr 300).trans (by decide), (hc _ _).trans (by decide)⟩

end SdkApi.JobInvariants
