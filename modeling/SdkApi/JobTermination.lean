import SdkApi.JobRecords

/-!
# When the end of a job is final

What can undo the end of a job is a pass that writes back a record it has read
before, on Redis and NATS, and a pass that gives up a job whose worker goes
on. Runs without the two keep the status, the result and the error of every
job that has ended.
-/

namespace SdkApi.JobTermination
open GuardedRuns JobStores JobSchedules JobRecords

variable {R : Type}

section

variable {S : JobStore R} {s t : System R} {id : String}

lemma create_fresh (hs : Sound s) (hi : s.workers id = .idle) (now : ℤ)
    (answered : Bool) : JobOk ((create S s.jobs id now answered).lookup id) .starting := by
  intro js hj
  rw [create] at hj
  split_ifs at hj
  · rw [lookup_set_self] at hj
    cases hj
    exact ⟨rfl,rfl⟩
  · have hn := hs.jobs id
    rw [hi] at hn
    rw [show s.jobs.lookup id = none from hn] at hj
    cases hj

section

variable (hs : Sound s) {l : Label R} (hc : Careful S s l) (h : step S s l = some t)
include hs hc h

lemma step_cases : Sweeps s t ∨ ∃ id, Works id s t := by
  cases l with
  | submit id now answered =>
    simp only [step] at h
    split at h <;> cases h
    rename_i hi hn
    exact .inr ⟨id,works_set (by simp [hi]) (fun _ hid => lookup_create_ne hid now answered)
      (create_fresh hs hi now answered)⟩
  | work id now answered => exact .inr ⟨id,workStep_works hs h⟩
  | processed id out =>
    simp only [step] at h
    split at h <;> cases h
    rename_i hw
    have hj := hs.jobs id
    rw [hw] at hj
    exact .inr ⟨id,works_set (by simp [hw]) (fun _ _ => rfl) hj⟩
  | crash id =>
    simp only [step] at h
    split at h
    · cases h
    · cases h
    · rename_i he
      cases h
      exact .inr ⟨id,works_set he (fun _ _ => rfl) (jobOk_untouched (hs.jobs id))⟩
  | reapStale i maxRetries =>
    simp only [step] at h
    split at h
    · exact .inl (sweeps_pass hs h trivial)
    · cases h
  | sweep i now keys more answered => exact .inl (sweepStep_sweeps hs hc h)
  | read id =>
    cases h
    exact .inl ⟨rfl,fun _ => .same _,hs.passes⟩

lemma step_sound : Sound t := by
  rcases step_cases hs hc h with he | ⟨id,ho⟩
  · refine ⟨fun id => ?_,he.passes⟩
    rw [he.workers]
    exact touched_ok (he.records id) (hs.jobs id)
  · refine ⟨fun id' => ?_,?_⟩
    · by_cases hi : id' = id
      · subst hi
        exact ho.job
      · obtain ⟨hw,hl⟩ := ho.others id' hi
        rw [hw, hl]
        exact hs.jobs id'
    · rw [ho.passes]
      exact hs.passes

lemma step_outcome {id : String} {o : JobStatus × Option R × String} (ho : outcome s id = some o) :
    outcome t id = some o := by
  rcases step_cases hs hc h with he | ⟨id',hk⟩
  · exact touched_settled (he.records id) ho
  · by_cases hi : id = id'
    · subst hi
      rw [outcome, jobOk_open (hs.jobs id) hk.alive] at ho
      cases ho
    · rw [outcome, (hk.others id hi).2]
      exact ho

end

lemma initial_sound : Sound (initial : System R) := ⟨fun _ => rfl,fun _ => trivial⟩

def Steps (S : JobStore R) (s : System R) (l : Label R) (t : System R) : Prop := step S s l = some t

lemma run_outcome {ok : System R → Label R → Prop} (Inv : System R → Prop)
    (hi : Inv initial) (hn : ∀ s l t, Inv s → ok s l → Steps S s l t → Inv t)
    (ha : ∀ s l, Inv s → ok s l → Careful S s l) {ls ks : List (Label R)}
    (hb : Run (Steps S) ok initial ls s) (ht : Run (Steps S) ok s ks t)
    {o : JobStatus × Option R × String} (ho : outcome s id = some o) : outcome t id = some o := by
  have hstep : ∀ s l t, Sound s ∧ Inv s → ok s l → Steps S s l t → Sound t ∧ Inv t :=
    fun s l t hs hok hst =>
      ⟨step_sound hs.1 (ha s l hs.2 hok) hst,hn s l t hs.2 hok hst⟩
  have hs : Sound s ∧ Inv s :=
    run_invariant (fun s => Sound s ∧ Inv s) hstep hb ⟨initial_sound,hi⟩
  exact run_relation (fun s t => ∀ id o, outcome s id = some o → outcome t id = some o)
    (fun _ _ _ h => h) (fun _ _ _ h k id o ho => k id o (h id o ho)) (fun s => Sound s ∧ Inv s)
    (fun s l t hs hok hst => ⟨hstep s l t hs hok hst,
      fun _ _ ho => step_outcome hs.1 (ha s l hs.2 hok) hst ho⟩) ht hs id o ho

/-- Once a job is recorded as completed or failed, its status, result and
error stay. -/
theorem run_terminal_absorbing {ls ks : List (Label R)}
    (hbefore : Run (Steps S) (Careful S) initial ls s) (hafter : Run (Steps S) (Careful S) s ks t)
    {id : String} {o : JobStatus × Option R × String} (ho : outcome s id = some o) :
    outcome t id = some o :=
  run_outcome (fun _ => True) trivial (fun _ _ _ _ _ _ => trivial) (fun _ _ _ h => h) hbefore
    hafter ho

end

def sums (kind : Kind) : JobStore String := ⟨kind,5,fun r => some (some r)⟩

def requeued : List (Label String) :=
  [.submit "j" 0 true,.work "j" 0 true,.work "j" 0 true,.reapStale 0 3,.sweep 0 9 ["j"] false true,
    .sweep 0 9 [] false true,.sweep 0 9 [] false true]

def finished : List (Label String) :=
  [.processed "j" (.ok (some "42")),.work "j" 9 true,.work "j" 9 true]

def later : List (Label String) :=
  [.reapStale 1 3,.sweep 1 99 ["j"] false true,.sweep 1 99 [] false true]

def after (kind : Kind) (ls : List (Label String)) : System String :=
  (play (step (sums kind)) initial ls).getD initial

theorem completed_job_stays_completed :
    outcome (after .redis (requeued++finished)) "j" = some (.completed,some "42","") ∧
    outcome (after .redis (requeued++finished++later)) "j" = some (.completed,some "42","") := by
  have hb : Run (Steps (sums .redis)) (Careful (sums .redis)) initial (requeued++finished)
      (after .redis (requeued++finished)) :=
    .cons trivial rfl (.cons trivial rfl (.cons trivial rfl (.cons trivial rfl
      (.cons (fun h => by cases h) rfl (.cons trivial rfl (.cons (fun _ => ⟨rfl,.inl (by decide)⟩) rfl
        (.cons trivial rfl (.cons trivial rfl (.cons trivial rfl (.nil _))))))))))
  have ha : Run (Steps (sums .redis)) (Careful (sums .redis))
      (after .redis (requeued++finished)) later (after .redis (requeued++finished++later)) :=
    .cons trivial rfl (.cons (fun h => by cases h) rfl (.cons trivial rfl (.nil _)))
  have ho : outcome (after .redis (requeued++finished)) "j" = some (.completed,some "42","") := rfl
  exact ⟨ho,run_terminal_absorbing hb ha ho⟩

/-- The pass writes back what it has read before the job was completed. -/
def overtaken : List (Label String) :=
  [.submit "j" 0 true,.work "j" 0 true,.work "j" 0 true,.reapStale 0 3,.sweep 0 9 ["j"] false true,
    .sweep 0 9 [] false true]++finished

theorem pass_undoes_completed_job :
    Run (Steps (sums .redis)) (fun _ _ => True) initial overtaken (after .redis overtaken) ∧
    outcome (after .redis overtaken) "j" = some (.completed,some "42","") ∧
    Run (Steps (sums .redis)) (fun _ _ => True) (after .redis overtaken)
      [.sweep 0 9 [] false true] (after .redis (overtaken++[.sweep 0 9 [] false true])) ∧
    (after .redis (overtaken++[.sweep 0 9 [] false true])).jobs.lookup "j" =
      some { id := "j", status := .pending, createdAt := 0, updatedAt := 9, retryCount := 1 } ∧
    outcome (after .redis (overtaken++[.sweep 0 9 [] false true])) "j" = none ∧
    Run (Steps (sums .nats)) (fun _ _ => True) initial overtaken (after .nats overtaken) ∧
    outcome (after .nats overtaken) "j" = some (.completed,some "42","") ∧
    Run (Steps (sums .nats)) (fun _ _ => True) (after .nats overtaken)
      [.sweep 0 9 [] false true] (after .nats (overtaken++[.sweep 0 9 [] false true])) ∧
    outcome (after .nats (overtaken++[.sweep 0 9 [] false true])) "j" = none :=
  ⟨run_of_play rfl,rfl,run_of_play rfl,rfl,rfl,run_of_play rfl,rfl,run_of_play rfl,rfl⟩

end SdkApi.JobTermination
