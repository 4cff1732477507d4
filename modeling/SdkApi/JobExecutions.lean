import SdkApi.JobRecords

/-!
# Executions of a job's processor

Only the goroutine that `HandleSubmit` starts calls the processor. A
`ReapStale` pass counts a retry and starts nothing, so the two numbers go apart
where a pass meets the job at or past its deadline with a retry left.
-/

namespace SdkApi.JobExecutions
open GuardedRuns JobStores JobSchedules Option Function
open JobRecords (status_of_due status_of_overdue)

variable {R : Type} (S : JobStore R) (id : String)

def running : Worker R → Bool
  | .working => true
  | _ => false

/-- One start more when the worker goes to work. -/
def tally (n : ℕ) (w w' : Worker R) : ℕ := if running w' && !running w then n+1 else n

/-- A step, with the number of times the job's processor has been started. -/
def counted (p : System R × ℕ) (l : Label R) : Option (System R × ℕ) :=
  (step S p.1 l).map fun t => (t, tally p.2 (p.1.workers id) (t.workers id))

/-- The clock and the limit of a pass that looks at records in its next round trip. -/
def Pass.look (now : ℤ) : Pass R → Option (ℤ × ℤ)
  | .listing maxRetries _ => if S.kind ∈ [.memory, .postgres] then some (now, maxRetries) else none
  | .walking w => some (w.now, w.maxRetries)
  | _ => none

/-- No pass meets the job in processing, at or past its deadline and with a retry left. -/
def Spared (p : System R × ℕ) (l : Label R) : Prop :=
  ∀ i now keys more answered, l = .sweep i now keys more answered →
    ∀ c ∈ Pass.look S now (p.1.passes i), ∀ js, p.1.jobs.lookup id = some js →
      due c.1 js = true → c.2 ≤ js.retryCount

/-- A record that fits to `n` starts. -/
structure Fits (n : ℕ) (js : JobState R) : Prop where
  retries : js.retryCount = 0
  started : js.status ≠ .pending → n = 1

def WorkerFits (n : ℕ) (rec : Option (JobState R)) : Worker R → Prop
  | .idle => n = 0 ∧ rec = none
  | .starting => n = 0
  | .marking held => n = 0 ∧ held.retryCount = 0
  | .working | .finishing _ => n = 1
  | .recording held => n = 1 ∧ held.retryCount = 0
  | .ended => n ≤ 1

/-- A pass is not about to write a copy of the job that does not fit. -/
def PassFits (n : ℕ) (p : Pass R) : Prop :=
  ∀ w read js, p = .writing w id read js → Fits n js ∧ js.status ≠ .pending

structure Consistent (p : System R × ℕ) : Prop where
  record : ∀ js, p.1.jobs.lookup id = some js → Fits p.2 js
  worker : WorkerFits p.2 (p.1.jobs.lookup id) (p.1.workers id)
  passes : ∀ i, PassFits id p.2 (p.1.passes i)

variable {S id} {s t : System R} {n : ℕ} {js : JobState R}

lemma fits_one (h : js.retryCount = 0) : Fits 1 js := ⟨h, fun _ => rfl⟩

lemma Consistent.le_one {p : System R × ℕ} (h : Consistent id p) : p.2 ≤ 1 := by
  have hw := h.worker
  cases hk : p.1.workers id <;> simp only [hk, WorkerFits] at hw <;> omega

lemma giveUp_fits (h : Fits n js) (hp : js.status = .processing) (now : ℤ) :
    Fits n (giveUp now js) :=
  ⟨h.retries, fun _ => h.started (by simp [hp])⟩

lemma due_of_overdue {now : ℤ} (h : overdue now js = true) : due now js = true := by
  unfold overdue at h
  unfold due
  cases hd : js.processingDeadline with
  | none => simp [hd] at h
  | some dl => simp_all [Int.le_of_lt]

lemma reap_fits (h : Fits n js) {now maxRetries : ℤ} (hd : due now js = true)
    (hm : maxRetries ≤ js.retryCount) :
    Fits n (reap now maxRetries js) ∧ (reap now maxRetries js).status ≠ .pending := by
  rw [reap, if_pos hm]
  exact ⟨giveUp_fits h (status_of_due hd) now, fun h => by cases h⟩

lemma advance_fits (w : Sweep) : PassFits id n (advance w : Pass R) := by
  intro w' read js h
  unfold advance at h
  split at h
  · split_ifs at h
  · cases h

lemma returned_fits (count : ℕ) (err : Bool) : PassFits id n (.returned count err : Pass R) :=
  fun _ _ _ h => by cases h

lemma consistent_pass (hs : Consistent id (s, n)) (i : ℕ) {p : Pass R} (hp : PassFits id n p)
    {jobs : Tables.GoMap (JobState R)} (hf : ∀ js, jobs.lookup id = some js → Fits n js)
    (hn : n = 0 → s.jobs.lookup id = none → jobs.lookup id = none) :
    Consistent id (setPass { s with jobs := jobs } i p, n) := by
  refine ⟨hf, ?_, (forall_update_iff s.passes fun _ => PassFits id n).mpr
    ⟨hp, fun j _ => hs.passes j⟩⟩
  have hw := hs.worker
  show WorkerFits n (jobs.lookup id) (s.workers id)
  cases hk : s.workers id <;> rw [hk] at hw <;> try exact hw
  exact ⟨hw.1, hn hw.1 hw.2⟩

lemma consistent_rows (hs : Consistent id (s, n)) (i : ℕ) {p : Pass R} (hp : PassFits id n p)
    {f : JobState R → JobState R} {keys : List String}
    (hf : ∀ js, s.jobs.lookup id = some js → id ∈ keys → Fits n (f js)) :
    Consistent id (setPass { s with jobs := updateRows f keys s.jobs } i p, n) := by
  refine consistent_pass hs i hp ?_ ?_
  · intro js hj
    rw [lookup_updateRows, map_eq_some_iff] at hj
    obtain ⟨js, hj, rfl⟩ := hj
    split_ifs with hk
    · exact hf js hj hk
    · exact hs.record js hj
  · intro _ hj
    rw [lookup_updateRows, hj]
    rfl

lemma consistent_sweep {i : ℕ} {now : ℤ} {keys : List String} {more answered : Bool}
    (hs : Consistent id (s, n)) (hl : ∀ c ∈ Pass.look S now (s.passes i), ∀ js,
      s.jobs.lookup id = some js → due c.1 js = true → c.2 ≤ js.retryCount)
    (h : sweepStep S s i now keys more answered = some t) : Consistent id (t, n) := by
  have hmove : ∀ {p : Pass R}, PassFits id n p → Consistent id (setPass s i p, n) := fun hp =>
    consistent_pass hs i hp hs.record fun _ hj => hj
  rw [sweepStep] at h
  cases hp : s.passes i with
  | idle | returned count err => simp [hp] at h
  | listing maxRetries count =>
    rw [hp] at h hl
    cases hk : S.kind with
    | memory =>
      simp only [listStep, hk, some.injEq] at h
      subst h
      refine consistent_pass hs i (returned_fits _ _) ?_ ?_
      · intro js hj
        rw [lookup_reapAll, map_eq_some_iff] at hj
        obtain ⟨js, hj, rfl⟩ := hj
        split_ifs with hd
        · exact (reap_fits (hs.record js hj) hd
            (hl (now, maxRetries) (by simp [Pass.look, hk]) js hj hd)).1
        · exact hs.record js hj
      · intro _ hj
        rw [lookup_reapAll, hj]
        rfl
    | postgres =>
      simp only [listStep, hk] at h
      split_ifs at h with ha hse <;> cases h
      · exact hmove (returned_fits _ _)
      · refine consistent_rows hs i (fun _ _ _ he => by cases he) fun js hj hi => ?_
        have hr := selects_mem hse hi hj
        rw [retryable, Bool.and_eq_true, decide_eq_true_eq] at hr
        exact absurd hr.2 (not_lt.mpr (hl (now, maxRetries) (by simp [Pass.look, hk]) js hj
          (due_of_overdue hr.1)))
    | redis | nats =>
      simp only [listStep, hk] at h
      split_ifs at h <;> cases h
      · exact hmove (advance_fits _)
      · exact hmove (returned_fits _ _)
  | givingUp maxRetries count =>
    simp only [hp, giveUpStep] at h
    split_ifs at h with ha hse <;> cases h
    · exact hmove (returned_fits _ _)
    · refine consistent_rows hs i (returned_fits _ _) fun js hj hi => ?_
      have hr := selects_mem hse hi hj
      rw [exhausted, Bool.and_eq_true] at hr
      exact giveUp_fits (hs.record js hj) (status_of_overdue hr.1) now
  | walking w =>
    simp only [hp, readStep] at h
    split at h
    · cases h
    · split at h
      · rename_i hj
        split_ifs at h with hd <;> cases h
        · refine hmove fun _ _ _ he => ?_
          cases he
          exact reap_fits (hs.record _ hj) hd
            (hl (w.now, w.maxRetries) (by simp [hp, Pass.look]) _ hj hd)
        · exact hmove (advance_fits _)
      · cases h
        exact hmove (advance_fits _)
  | writing w id' read js =>
    simp only [hp] at h
    split_ifs at h <;> cases h
    · by_cases hi : id = id'
      · subst hi
        obtain ⟨hf, hst⟩ := hs.passes i w read js hp
        refine consistent_pass hs i (advance_fits _) (fun js' hj => ?_) fun h0 _ => ?_
        · obtain ⟨result, rfl⟩ := lookup_save hj
          exact ⟨hf.retries, hf.started⟩
        · have h1 : n = 1 := hf.started hst
          omega
      · refine consistent_pass hs i (advance_fits _) (fun js' hj => ?_) fun _ hj => ?_
        · rw [lookup_save_ne hi] at hj
          exact hs.record js' hj
        · rwa [lookup_save_ne hi]
    · exact hmove (advance_fits _)

lemma setWorker_self (w : Worker R) : (setWorker s id w).workers id = w := update_self ..

lemma consistent_worker (hs : Consistent id (s, n)) {m : ℕ} (hm : m = n ∨ m = 1)
    {jobs : Tables.GoMap (JobState R)} {w : Worker R}
    (hf : ∀ js, jobs.lookup id = some js → Fits m js) (hw : WorkerFits m (jobs.lookup id) w) :
    Consistent id (setWorker { s with jobs := jobs } id w, m) := by
  refine ⟨hf, by simpa [setWorker] using hw, fun i v read js hp => ?_⟩
  obtain ⟨hc, hst⟩ := hs.passes i v read js hp
  refine ⟨?_, hst⟩
  rcases hm with rfl | rfl
  · exact hc
  · exact fits_one hc.retries

section

variable (hs : Consistent id (s, n)) {w : Worker R} (after : Worker R)
  (ha : ∀ rec, WorkerFits 1 rec after) (hta : tally n w after = 1)
include hs ha hta

/-- After an update the worker has its record, or holds it. -/
lemma consistent_startUpdate (now : ℤ) (answered : Bool) (c : Change R) (ho : JobState R → Worker R)
    (hh : ∀ js, js.retryCount = 0 → WorkerFits n (s.jobs.lookup id) (ho js))
    (hth : ∀ js, tally n w (ho js) = n) :
    Consistent id (startUpdate S s id now answered c ho after,
      tally n w ((startUpdate S s id now answered c ho after).workers id)) := by
  have hz : ∀ js, s.jobs.lookup id = some js → js.retryCount = 0 := fun js hj =>
    (hs.record js hj).retries
  obtain h | h | ⟨js, hj, h⟩ := startUpdate_cases (S := S) s id now answered c ho after <;>
    rw [h, setWorker_self]
  · rw [hta]
    refine consistent_worker hs (.inr rfl) (fun js hj => ?_) (ha _)
    rw [lookup_updateAtOnce, map_eq_some_iff] at hj
    obtain ⟨js, hj, rfl⟩ := hj
    exact fits_one (hz js hj)
  · rw [hta]
    exact consistent_worker hs (.inr rfl) (fun js hj => fits_one (hz js hj)) (ha _)
  · rw [hth]
    exact consistent_worker hs (.inl rfl) hs.record (hh _ (hz js hj))

lemma consistent_finishUpdate (answered : Bool) (hz : js.retryCount = 0) :
    Consistent id (finishUpdate S s id answered js after,
      tally n w ((finishUpdate S s id answered js after).workers id)) := by
  rw [finishUpdate, setWorker_self, hta]
  refine consistent_worker hs (.inr rfl) (fun js' hj => ?_) (ha _)
  cases answered with
  | false => exact fits_one (hs.record js' hj).retries
  | true =>
    obtain ⟨result, rfl⟩ := lookup_save hj
    exact fits_one hz

end

lemma consistent_work {now : ℤ} {answered : Bool} (hs : Consistent id (s, n))
    (h : workStep S s id now answered = some t) :
    Consistent id (t, tally n (s.workers id) (t.workers id)) := by
  have hw := hs.worker
  rw [workStep] at h
  cases hk : s.workers id with
  | idle | working | ended => simp [hk] at h
  | starting =>
    rw [hk] at h hw
    cases h
    obtain rfl : n = 0 := hw
    exact consistent_startUpdate hs .working (fun _ => rfl) rfl now answered _ _
      (fun _ hj => ⟨rfl, hj⟩)
      fun _ => rfl
  | marking held =>
    rw [hk] at h hw
    cases h
    obtain ⟨rfl, hz⟩ : n = 0 ∧ held.retryCount = 0 := hw
    exact consistent_finishUpdate hs .working (fun _ => rfl) rfl answered hz
  | finishing out =>
    rw [hk] at h hw
    cases h
    obtain rfl : n = 1 := hw
    exact consistent_startUpdate hs .ended (fun _ => le_rfl) rfl now answered _ _
      (fun _ hj => ⟨rfl, hj⟩)
      fun _ => rfl
  | recording held =>
    rw [hk] at h hw
    cases h
    obtain ⟨rfl, hz⟩ : n = 1 ∧ held.retryCount = 0 := hw
    exact consistent_finishUpdate hs .ended (fun _ => le_rfl) rfl answered hz

lemma consistent_step {p q : System R × ℕ} {l : Label R} (hs : Consistent id p)
    (hl : Spared S id p l) (h : counted S id p l = some q) : Consistent id q := by
  obtain ⟨s, n⟩ := p
  obtain ⟨t, ht, rfl⟩ := map_eq_some_iff.mp h
  -- steps that leave the job and its worker alone
  have hkeep : t.workers id = s.workers id → Consistent id (t, n) →
      Consistent id (t, tally n (s.workers id) (t.workers id)) := fun hw hc => by
    simpa [tally, hw] using hc
  have hother : ∀ {id'}, id' ≠ id → OwnStep id' s t →
      Consistent id (t, tally n (s.workers id) (t.workers id)) := fun hi ho => by
    obtain ⟨hw, hj⟩ := ho.others id (Ne.symm hi)
    exact hkeep hw ⟨by simpa [hj] using hs.record, by simpa [hw, hj] using hs.worker,
      by simpa [ho.passes] using hs.passes⟩
  cases l with
  | submit id' now answered =>
    simp only [step] at ht
    split at ht <;> cases ht
    rename_i hw hj
    by_cases hi : id' = id
    · subst hi
      have h0 : n = 0 := by
        have := hs.worker
        rw [hw] at this
        exact this.1
      rw [setWorker_self]
      refine consistent_worker hs (.inl (by simp [tally, running])) (fun js hj' => ?_) h0
      rw [create] at hj'
      split_ifs at hj'
      · rw [lookup_set_self] at hj'
        cases hj'
        exact ⟨rfl, fun h => absurd rfl h⟩
      · rw [hj] at hj'
        cases hj'
    · exact hother hi (ownStep_set (by simp [hw]) _ fun _ hid => lookup_create_ne hid now answered)
  | work id' now answered =>
    by_cases hi : id' = id
    · subst hi
      exact consistent_work hs ht
    · exact hother hi (workStep_own ht)
  | processed id' out =>
    simp only [step] at ht
    split at ht <;> cases ht
    rename_i hw
    by_cases hi : id' = id
    · subst hi
      have h1 := hs.worker
      rw [hw] at h1
      rw [setWorker_self]
      exact consistent_worker hs (.inl (by simp [tally, running])) hs.record h1
    · exact hother hi (ownStep_set (by simp [hw]) _ fun _ _ => rfl)
  | crash id' =>
    simp only [step] at ht
    split at ht <;> cases ht
    rename_i he
    by_cases hi : id' = id
    · subst hi
      rw [setWorker_self]
      exact consistent_worker hs (.inl (by simp [tally, running])) hs.record (hs.le_one)
    · exact hother hi (ownStep_set he _ fun _ _ => rfl)
  | reapStale i maxRetries =>
    simp only [step] at ht
    split at ht <;> cases ht
    exact hkeep rfl (consistent_pass hs i (fun _ _ _ he => by cases he) hs.record fun _ hj => hj)
  | sweep i now keys more answered =>
    refine hkeep (by rw [swept_workers (sweepStep_cases ht)]) (consistent_sweep hs ?_ ht)
    exact hl i now keys more answered rfl
  | read id' =>
    cases ht
    exact hkeep rfl hs

def fiveMinutes : JobStore ℕ := ⟨.memory, 300, fun r => some (some r)⟩

/-- A pass within the five minutes, and then the end of the job. -/
def inTime : List (Label ℕ) :=
  [.submit "j" 0 true, .work "j" 0 true, .reapStale 0 1, .sweep 0 299 [] false true,
    .processed "j" (.ok none), .work "j" 301 true]

end SdkApi.JobExecutions
