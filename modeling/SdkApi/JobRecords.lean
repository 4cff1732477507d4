import SdkApi.JobSchedules

/-!
# What workers and passes do to a record

A worker writes the end of its job once and last, and a pass looks for jobs
in processing only. A job is marked as processing once, so that a pass that
allows a retry never gives up. Every step is described by what it does to the
record of each job, given where the job's worker stands.
-/

namespace SdkApi.JobRecords
open GuardedRuns JobStores JobSchedules Option

variable {R : Type}

def settled (js : JobState R) : Option (JobStatus × Option R × String) :=
  if js.status.terminal then some (js.status,js.result,js.error) else none

def outcome (s : System R) (id : String) : Option (JobStatus × Option R × String) :=
  (s.jobs.lookup id).bind settled

/-- A pass writes back only unchanged records and gives up ended jobs. -/
def Careful (S : JobStore R) (s : System R) : Label R → Prop
  | .sweep i now keys _ answered =>
    match s.passes i with
    | .listing maxRetries _ => S.kind = .memory → 0 < maxRetries ∨
        ∀ id js, s.jobs.lookup id = some js → due now js = true → maxRetries ≤ js.retryCount →
          s.workers id = .ended
    | .givingUp maxRetries _ => answered = true → 0 < maxRetries ∨
        ∀ id ∈ keys, s.workers id = .ended
    | .writing w id read _ => answered = true → s.jobs.lookup id = some read ∧
        (0 < w.maxRetries ∨ (w.maxRetries ≤ read.retryCount → s.workers id = .ended))
    | _ => True
  | _ => True

section

/-- A record in processing has not been through a pass yet. -/
def Untouched (js : JobState R) : Prop :=
  js.status = .processing → js.retryCount = 0 ∧ js.result = none

def Fresh (js : JobState R) : Prop := js.status = .pending ∧ js.retryCount = 0

def Open (js : JobState R) : Prop := js.status.terminal = false ∧ Untouched js

def JobOk (rec : Option (JobState R)) : Worker R → Prop
  | .idle => rec = none
  | .starting => ∀ js ∈ rec, Fresh js
  | .marking held => held.status = .processing ∧ Open held ∧ ∀ js ∈ rec, Fresh js
  | .working => ∀ js ∈ rec, Open js
  | .finishing _ => ∀ js ∈ rec, Open js
  | .recording held => held.status.terminal = true ∧ ∀ js ∈ rec, Open js
  | .ended => ∀ js ∈ rec, Untouched js

def PassOk : Pass R → Prop
  | .writing w _ read js => due w.now read = true ∧ js = reap w.now w.maxRetries read
  | _ => True

structure Sound (s : System R) : Prop where
  jobs : ∀ id, JobOk (s.jobs.lookup id) (s.workers id)
  passes : ∀ i, PassOk (s.passes i)

variable {rec : Option (JobState R)} {w : Worker R} {js : JobState R}

lemma fresh_open (h : Fresh js) : Open js := by
  refine ⟨by rw [h.1]; rfl,fun hp => ?_⟩
  rw [h.1] at hp
  cases hp

lemma jobOk_untouched (h : JobOk rec w) : ∀ js ∈ rec, Untouched js := by
  intro js hj
  cases w with
  | idle =>
    rw [show rec = none from h] at hj
    cases hj
  | starting => exact (fresh_open (h js hj)).2
  | marking held => exact (fresh_open (h.2.2 js hj)).2
  | working | finishing out => exact (h js hj).2
  | recording held => exact (h.2 js hj).2
  | ended => exact h js hj

lemma jobOk_open (h : JobOk rec w) (hw : w ≠ .ended) : rec.bind settled = none := by
  have ho : ∀ js ∈ rec, js.status.terminal = false := by
    intro js hj
    cases w with
    | idle =>
      rw [show rec = none from h] at hj
      cases hj
    | starting => exact (fresh_open (h js hj)).1
    | marking held => exact (fresh_open (h.2.2 js hj)).1
    | working | finishing out => exact (h js hj).1
    | recording held => exact (h.2 js hj).1
    | ended => exact absurd rfl hw
  cases rec with
  | none => rfl
  | some js => simp [settled, ho js rfl]

lemma status_of_due {now : ℤ} (h : due now js) : js.status = .processing := by
  rw [due, Bool.and_eq_true] at h
  exact of_decide_eq_true h.1

lemma status_of_overdue {now : ℤ} (h : overdue now js) : js.status = .processing := by
  rw [overdue, Bool.and_eq_true] at h
  exact of_decide_eq_true h.1

/-- What a pass does to the record of a job whose worker stands at `w`. -/
inductive Touched (w : Worker R) : Option (JobState R) → Option (JobState R) → Prop where
  | same (rec : Option (JobState R)) : Touched w rec rec
  | requeued {js : JobState R} (now : ℤ) (h : js.status = .processing) :
      Touched w (some js) (some (requeue now js))
  | gaveUp {js : JobState R} (now : ℤ) (h : js.status = .processing) (hw : w = .ended) :
      Touched w (some js) (some (giveUp now js))

variable {rec rec' : Option (JobState R)} {w : Worker R} {js : JobState R} {S : JobStore R}
  {s t : System R}

lemma touched_ok (h : Touched w rec rec') (hok : JobOk rec w) : JobOk rec' w := by
  cases h with
  | same => exact hok
  | @requeued js now hp =>
    have ho : ∀ js' ∈ some (requeue now js), Open js' := by
      rintro js' ⟨⟩
      exact ⟨rfl,fun h => by cases h⟩
    cases w with
    | idle => cases hok
    | starting =>
      have he := (hok _ rfl).1
      rw [hp] at he
      cases he
    | marking held =>
      have he := (hok.2.2 _ rfl).1
      rw [hp] at he
      cases he
    | working | finishing out => exact ho
    | recording held => exact ⟨hok.1,ho⟩
    | ended => exact fun js' hj' => (ho js' hj').2
  | gaveUp now hp hw =>
    subst hw
    rintro js' ⟨⟩ h
    cases h

lemma touched_settled (h : Touched w rec rec') {o : JobStatus × Option R × String}
    (ho : rec.bind settled = some o) : rec'.bind settled = some o := by
  cases h with
  | same => exact ho
  | requeued now hp | gaveUp now hp hw => simp [settled, hp, JobStatus.terminal] at ho

lemma reap_touched (hok : JobOk (some js) w) (hp : js.status = .processing) {now maxRetries : ℤ}
    (hc : 0 < maxRetries ∨ (maxRetries ≤ js.retryCount → w = .ended)) :
    Touched w (some js) (some (reap now maxRetries js)) := by
  rw [reap]
  split_ifs with hm
  · refine .gaveUp now hp (hc.elim (fun ho => ?_) fun h => h hm)
    have hz := (jobOk_untouched hok js rfl hp).1
    omega
  · exact .requeued now hp

lemma advance_ok {w : Sweep} : PassOk (advance w : Pass R) := by
  rw [advance]
  split
  · split_ifs <;> trivial
  · trivial

variable {p : Pass R}

lemma setPass_forall (P : Pass R → Prop) (h : ∀ j, P (s.passes j)) {i : ℕ}
    (hp : P p) : ∀ j, P ((setPass s i p).passes j) :=
  (Function.forall_update_iff s.passes fun _ => P).mpr ⟨hp,fun j _ => h j⟩

structure Sweeps (s t : System R) : Prop where
  workers : t.workers = s.workers
  records : ∀ id, Touched (s.workers id) (s.jobs.lookup id) (t.jobs.lookup id)
  passes : ∀ i, PassOk (t.passes i)

lemma sweeps_pass (hs : Sound s) {i : ℕ} (h : some (setPass s i p) = some t)
    (hp : PassOk p) : Sweeps s t := by
  cases h
  exact ⟨rfl,fun _ => .same _,setPass_forall PassOk hs.passes hp⟩

lemma sweeps_rows (hs : Sound s) {f : JobState R → JobState R} {ids : List String} (i : ℕ)
    (hp : PassOk p) (hf : ∀ id ∈ ids, ∀ js, s.jobs.lookup id = some js →
      Touched (s.workers id) (some js) (some (f js))) :
    Sweeps s (setPass { s with jobs := updateRows f ids s.jobs } i p) := by
  refine ⟨rfl,fun id => ?_,setPass_forall PassOk hs.passes hp⟩
  show Touched _ _ ((updateRows f ids s.jobs).lookup id)
  rw [lookup_updateRows]
  cases hj : s.jobs.lookup id with
  | none => exact .same _
  | some js =>
    split_ifs with hi
    · exact hf id hi js hj
    · exact .same _

section

variable (hs : Sound s) {i : ℕ}
include hs

variable {keys : List String} {now : ℤ}

lemma listStep_sweeps {maxRetries : ℤ} {count : ℕ} {more answered : Bool}
    (hc : S.kind = .memory → 0 < maxRetries ∨ ∀ id js, s.jobs.lookup id = some js →
      due now js → maxRetries ≤ js.retryCount → s.workers id = .ended)
    (h : listStep S s i maxRetries count now keys more answered = some t) : Sweeps s t := by
  cases hk : S.kind with
  | memory =>
    simp only [listStep, hk, some.injEq] at h
    subst h
    refine ⟨rfl,fun id => ?_,setPass_forall PassOk hs.passes trivial⟩
    show Touched _ _ ((reapAll now maxRetries s.jobs).1.lookup id)
    rw [lookup_reapAll]
    have hj := hs.jobs id
    cases hjs : s.jobs.lookup id with
    | none => exact .same _
    | some js =>
      rw [hjs] at hj
      simp only [map_some]
      split_ifs with hu
      · refine reap_touched hj (status_of_due hu) ?_
        exact (hc hk).imp_right fun ha hm => ha id js hjs hu hm
      · exact .same _
  | postgres =>
    simp only [listStep, hk] at h
    split_ifs at h with hans hl
    · exact sweeps_pass hs h trivial
    · cases h
      refine sweeps_rows hs i trivial fun id hi js hjs => .requeued now ?_
      have he := selects_mem hl hi hjs
      rw [retryable, Bool.and_eq_true] at he
      exact status_of_overdue he.1
  | redis | nats =>
    simp only [listStep, hk] at h
    split_ifs at h
    · exact sweeps_pass hs h advance_ok
    · exact sweeps_pass hs h trivial

lemma giveUpStep_sweeps {maxRetries : ℤ} {count : ℕ} {answered : Bool}
    (hc : answered → 0 < maxRetries ∨ ∀ id ∈ keys, s.workers id = .ended)
    (h : giveUpStep s i maxRetries count now keys answered = some t) : Sweeps s t := by
  rw [giveUpStep] at h
  split_ifs at h with hans he
  · exact sweeps_pass hs h trivial
  · cases h
    refine sweeps_rows hs i trivial fun id hi js hjs => ?_
    have hg := selects_mem he hi hjs
    rw [exhausted, Bool.and_eq_true, decide_eq_true_eq] at hg
    have hp := status_of_overdue hg.1
    have hj := hs.jobs id
    rw [hjs] at hj
    refine .gaveUp now hp ((hc (by simpa using hans)).elim (fun ho => ?_) fun ha => ha id hi)
    have hz := (jobOk_untouched hj js rfl hp).1
    omega

lemma readStep_sweeps {w : Sweep} {answered : Bool}
    (h : readStep s i w answered = some t) : Sweeps s t := by
  rw [readStep] at h
  split at h
  · cases h
  · split at h
    · split_ifs at h with hu
      · exact sweeps_pass hs h ⟨hu,rfl⟩
      · exact sweeps_pass hs h advance_ok
    · exact sweeps_pass hs h advance_ok

lemma writeBack_sweeps {w : Sweep} {id : String} {read js : JobState R}
    (hpass : s.passes i = .writing w id read js) (ha : s.jobs.lookup id = some read)
    (hc : 0 < w.maxRetries ∨ (w.maxRetries ≤ read.retryCount → s.workers id = .ended)) :
    Sweeps s (setPass { s with jobs := save S s.jobs id js } i
      (advance { w with count := w.count+1 })) := by
  have hok := hs.passes i
  rw [hpass] at hok
  obtain ⟨hu,rfl⟩ := hok
  have hp := status_of_due hu
  have hj := hs.jobs id
  rw [ha] at hj
  have he : (reap w.now w.maxRetries read).result = none := by
    rw [reap]
    split_ifs <;> exact (jobOk_untouched hj read rfl hp).2
  refine ⟨rfl,fun id' => ?_,setPass_forall PassOk hs.passes advance_ok⟩
  show Touched _ _ ((save S s.jobs id _).lookup id')
  by_cases hi : id' = id
  · subst hi
    rw [lookup_save_plain he, ha]
    exact reap_touched hj hp hc
  · rw [lookup_save_ne hi]
    exact .same _

lemma sweepStep_sweeps {more answered : Bool} (hc : Careful S s (.sweep i now keys more answered))
    (h : sweepStep S s i now keys more answered = some t) : Sweeps s t := by
  rw [sweepStep] at h
  rw [Careful] at hc
  cases hpass : s.passes i with
  | listing maxRetries count =>
    rw [hpass] at h hc
    exact listStep_sweeps hs hc h
  | givingUp maxRetries count =>
    rw [hpass] at h hc
    exact giveUpStep_sweeps hs hc h
  | walking w =>
    rw [hpass] at h
    exact readStep_sweeps hs h
  | writing w id read js =>
    rw [hpass] at h hc
    split_ifs at h with hans
    · cases h
      exact writeBack_sweeps hs hpass (hc hans).1 (hc hans).2
    · exact sweeps_pass hs h advance_ok
  | idle | returned count err => simp [hpass] at h

end

end

section

variable {S : JobStore R} {s t : System R} {id : String}

/-- The step is one of the worker of `id`. -/
structure Works (id : String) (s t : System R) : Prop extends OwnStep id s t where
  job : JobOk (t.jobs.lookup id) (t.workers id)

lemma works_set (ha : s.workers id ≠ .ended) {jobs : Tables.GoMap (JobState R)} {w : Worker R}
    (hj : ∀ id', id' ≠ id → jobs.lookup id' = s.jobs.lookup id') (hok : JobOk (jobs.lookup id) w) :
    Works id s (setWorker { s with jobs := jobs } id w) := by
  refine ⟨ownStep_set ha w hj,?_⟩
  simpa [setWorker] using hok

variable {answered : Bool}

lemma startUpdate_works (ha : s.workers id ≠ .ended) {now : ℤ}
    {c : Change R} {hl : JobState R → Worker R} {after : Worker R}
    (hm : JobOk (s.jobs.lookup id) after)
    (hi : JobOk ((s.jobs.lookup id).map ((written S c).apply S.processingTimeout now)) after)
    (ho : ∀ js, s.jobs.lookup id = some js →
      JobOk (some js) (hl (c.apply S.processingTimeout now js))) :
    Works id s (startUpdate S s id now answered c hl after) := by
  obtain h | h | ⟨js,hj,h⟩ := startUpdate_cases (S := S) s id now answered c hl after <;> rw [h]
  · refine works_set ha (fun _ hid => lookup_updateAtOnce_ne c now hid) ?_
    rw [lookup_updateAtOnce]
    exact hi
  · exact works_set ha (fun _ _ => rfl) hm
  · refine works_set ha (fun _ _ => rfl) ?_
    rw [hj]
    exact ho js hj

lemma finishUpdate_works (ha : s.workers id ≠ .ended) {js : JobState R} {after : Worker R}
    (hm : JobOk (s.jobs.lookup id) after) (hi : JobOk ((save S s.jobs id js).lookup id) after) :
    Works id s (finishUpdate S s id answered js after) := by
  cases answered with
  | false => exact works_set ha (fun _ _ => rfl) hm
  | true => exact works_set ha (fun _ hid => lookup_save_ne hid) hi

lemma mark_open {c : Change R} (ht : c.status = .processing) (he : c.result = none)
    {js : JobState R} (hj : Fresh js) (timeout now : ℤ) :
    (c.apply timeout now js).status = .processing ∧ Open (c.apply timeout now js) :=
  ⟨ht,by rw [Change.apply, ht]; rfl,fun _ => ⟨hj.2,he⟩⟩

lemma outcomeChange_terminal (out : Except String (Option R)) :
    (outcomeChange out).status.terminal := by
  cases out <;> rfl

lemma terminal_untouched {js : JobState R} (h : js.status.terminal) : Untouched js := by
  intro hp
  rw [hp] at h
  cases h

lemma workStep_works (hs : Sound s) {now : ℤ}
    (h : workStep S s id now answered = some t) : Works id s t := by
  have hj := hs.jobs id
  rw [workStep] at h
  cases hw : s.workers id with
  | starting =>
    rw [hw] at h hj
    cases h
    refine startUpdate_works (by simp [hw]) (fun js hjs => fresh_open (hj js hjs)) ?_ ?_
    · intro js' hj'
      obtain ⟨js,hjs,rfl⟩ := map_eq_some_iff.mp hj'
      exact (mark_open (written_status _) (written_plain rfl) (hj js hjs) _ _).2
    · intro js hjs
      obtain ⟨hp,ho⟩ := @mark_open _ (markProcessing : Change R) rfl rfl js (hj js hjs)
        S.processingTimeout now
      refine ⟨hp,ho,?_⟩
      rintro js' ⟨⟩
      exact hj js hjs
  | marking held =>
    rw [hw] at h hj
    cases h
    obtain ⟨hp,ho,he⟩ := hj
    refine finishUpdate_works (by simp [hw]) (fun js hjs => fresh_open (he js hjs)) ?_
    rw [lookup_save_plain (ho.2 hp).2]
    rintro js ⟨⟩
    exact ho
  | finishing out =>
    rw [hw] at h hj
    cases h
    refine startUpdate_works (by simp [hw]) (fun js hjs => (hj js hjs).2) ?_ ?_
    · intro js' hj'
      obtain ⟨js,hjs,rfl⟩ := map_eq_some_iff.mp hj'
      refine terminal_untouched ?_
      rw [Change.apply, written_status]
      exact outcomeChange_terminal out
    · intro js hjs
      refine ⟨outcomeChange_terminal out,?_⟩
      rintro js' ⟨⟩
      exact hj js hjs
  | recording held =>
    rw [hw] at h hj
    cases h
    refine finishUpdate_works (by simp [hw]) (fun js hjs => (hj.2 js hjs).2) ?_
    intro js hjs
    obtain ⟨result,rfl⟩ := lookup_save hjs
    exact terminal_untouched hj.1
  | idle | working | ended => simp [hw] at h

end

end SdkApi.JobRecords
