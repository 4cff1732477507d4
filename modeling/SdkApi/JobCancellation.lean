import SdkApi.JobTermination

/-!
# Cancelling a job

`HandleCancel` reads a job and deletes it in a second round trip unless it has
read that the job is processing. Its worker knows nothing of it: it calls the
processor whether or not there is a record, and on Redis and NATS it writes a
record that it has read before. Once a worker has ended, nobody but a pass can
bring back what is deleted.
-/

namespace SdkApi.JobCancellation
open AssocLists GuardedRuns JobStores JobSchedules JobTermination Option

variable {R : Type}

/-- What `HandleCancel` answers: 404, 409 or 204. -/
inductive Reply where
  | notFound (what id : String)
  | conflict (detail : String)
  | noContent
  deriving DecidableEq

inductive Cancel where
  | idle
  | deleting (id : String)
  | answered (id : String) (reply : Reply)

structure Cancelling (R : Type) extends System R where
  cancels : ℕ → Cancel

inductive CancelLabel (R : Type) where
  | other (l : Label R)
  | check (i : ℕ) (id : String) (answered : Bool)
  | delete (i : ℕ) (answered : Bool)

variable (S : JobStore R)

def setCancel (s : Cancelling R) (i : ℕ) (c : Cancel) : Cancelling R :=
  { s with cancels := Function.update s.cancels i c }

/-- The status that `HandleCancel` finds. -/
def checked (id : String) : Option (JobState R) → Cancel
  | none => .answered id (.notFound "job" id)
  | some js =>
    if js.status = .processing then .answered id (.conflict "cannot cancel, job is processing")
    else .deleting id

def found (s : Cancelling R) (id : String) (answered : Bool) : Option (JobState R) :=
  if answered || S.kind = .memory then s.jobs.lookup id else none

/-- An error of the store is logged; the answer is 204 all the same. -/
def remove (s : Cancelling R) (id : String) (answered : Bool) : Cancelling R :=
  if answered || S.kind = .memory then
    { s with jobs := s.jobs.filter fun e => decide (e.1 ≠ id) }
  else s

def cancelStep (s : Cancelling R) : CancelLabel R → Option (Cancelling R)
  | .other l => (step S s.toSystem l).map fun t => { s with toSystem := t }
  | .check i id answered =>
    match s.cancels i with
    | .idle => some (setCancel s i (checked id (found S s id answered)))
    | _ => none
  | .delete i answered =>
    match s.cancels i with
    | .deleting id => some (setCancel (remove S s id answered) i (.answered id .noContent))
    | _ => none

def start : Cancelling R := ⟨initial,fun _ => .idle⟩

def CancelSteps (s : Cancelling R) (l : CancelLabel R) (t : Cancelling R) : Prop :=
  cancelStep S s l = some t

/-- A cancelled job's worker has ended, and no pass writes it back. -/
def Considerate (s : Cancelling R) : CancelLabel R → Prop
  | .check _ id answered => ∀ js, found S s id answered = some js → js.status ≠ .processing →
      s.workers id = .ended
  | .delete _ answered => S.kind ≠ .memory → answered = true
  | .other (.sweep i _ _ _ answered) => ∀ w id read js, s.passes i = .writing w id read js →
      answered = true → s.jobs.lookup id ≠ none
  | .other _ => True

section

variable {S} {s t : Cancelling R} {id : String} {l : Label R} {c : Cancel}

lemma ended_stays {u v : System R} (h : step S u l = some v)
    (hu : u.workers id = .ended) : v.workers id = .ended := by
  rcases step_frame h with ⟨ha,-⟩ | ⟨i,now,keys,more,answered,-,he⟩ | ⟨id',ho⟩
  · rw [ha, hu]
  · rw [swept_workers he, hu]
  · have hi : id ≠ id' := by
      intro hq
      exact ho.alive (hq ▸ hu)
    rw [(ho.others id hi).1, hu]

lemma gone_stays {v : System R} (h : step S s.toSystem l = some v) (hc : Considerate S s (.other l))
    (he : s.workers id = .ended) (hg : s.jobs.lookup id = none) : v.jobs.lookup id = none := by
  rcases step_frame h with ⟨-,ha⟩ | ⟨i,now,keys,more,answered,rfl,ht⟩ | ⟨id',ho⟩
  · rw [ha, hg]
  · cases ht with
    | moved p => exact hg
    | rewritten f p =>
      show (s.jobs.map fun e => (e.1,f e.1 e.2)).lookup id = none
      rw [lookup_map_values, hg, map_none]
    | @wroteBack w id' read js p hpass hans =>
      have hi : id ≠ id' := by
        intro hq
        exact hc w id' read js hpass hans (hq ▸ hg)
      show (save S s.jobs id' js).lookup id = none
      rw [lookup_save_ne hi, hg]
  · have hi : id ≠ id' := by
      intro hq
      exact ho.alive (hq ▸ he)
    rw [(ho.others id hi).2, hg]

def CancelOk (s : System R) : Cancel → Prop
  | .deleting id => s.workers id = .ended
  | .answered id .noContent => s.workers id = .ended ∧ s.jobs.lookup id = none
  | _ => True

lemma setCancel_ok (hs : ∀ i, CancelOk s.toSystem (s.cancels i)) (j : ℕ)
    (hc : CancelOk s.toSystem c) :
    ∀ i, CancelOk (setCancel s j c).toSystem ((setCancel s j c).cancels i) :=
  (Function.forall_update_iff s.cancels fun _ => CancelOk s.toSystem).mpr ⟨hc,fun i _ => hs i⟩

lemma cancelOk_checked (rec : Option (JobState R))
    (h : ∀ js, rec = some js → js.status ≠ .processing → s.workers id = .ended) :
    CancelOk s.toSystem (checked id rec) := by
  cases rec with
  | none => trivial
  | some js =>
    rw [checked]
    split_ifs with hp
    · trivial
    · exact h js rfl hp

variable {answered : Bool} {id' : String}

lemma lookup_remove_self (h : S.kind ≠ .memory → answered) :
    (remove S s id answered).jobs.lookup id = none := by
  have ho : (answered || decide (S.kind = .memory)) := by
    by_cases hk : S.kind = .memory
    · simp [hk]
    · simp [h hk]
  rw [remove, if_pos ho]
  exact lookup_drop_key_self id s.jobs

lemma lookup_remove_none (h : s.jobs.lookup id' = none) :
    (remove S s id answered).jobs.lookup id' = none := by
  rw [remove]
  split_ifs
  · by_cases hi : id' = id
    · subst hi
      exact lookup_drop_key_self id' s.jobs
    · exact (lookup_drop_key_ne hi s.jobs).trans h
  · exact h

lemma remove_workers (answered : Bool) : (remove S s id answered).workers = s.workers := by
  rw [remove]
  split_ifs <;> rfl

lemma remove_cancels (answered : Bool) : (remove S s id answered).cancels = s.cancels := by
  rw [remove]
  split_ifs <;> rfl

lemma remove_ok (hc : CancelOk s.toSystem c) (answered : Bool) :
    CancelOk (remove S s id answered).toSystem c := by
  cases c with
  | idle => trivial
  | deleting id' => exact (congrFun (remove_workers answered) id').trans hc
  | answered id' reply =>
    cases reply with
    | noContent =>
      exact ⟨(congrFun (remove_workers answered) id').trans hc.1,lookup_remove_none hc.2⟩
    | _ => trivial

lemma cancelStep_ok {l : CancelLabel R} (hs : ∀ i, CancelOk s.toSystem (s.cancels i))
    (hc : Considerate S s l) (h : cancelStep S s l = some t) :
    ∀ i, CancelOk t.toSystem (t.cancels i) := by
  cases l with
  | other l =>
    obtain ⟨v,hv,rfl⟩ := map_eq_some_iff.mp h
    intro i
    have hi := hs i
    show CancelOk v (s.cancels i)
    cases ha : s.cancels i with
    | idle => trivial
    | deleting id =>
      rw [ha] at hi
      exact ended_stays hv hi
    | answered id reply =>
      cases reply with
      | noContent =>
        rw [ha] at hi
        exact ⟨ended_stays hv hi.1,gone_stays hv hc hi.1 hi.2⟩
      | _ => trivial
  | check j id answered =>
    simp only [cancelStep] at h
    split at h <;> cases h
    exact setCancel_ok hs j (cancelOk_checked (found S s id answered) hc)
  | delete j answered =>
    simp only [cancelStep] at h
    split at h <;> cases h
    rename_i id he
    have hj := hs j
    rw [he] at hj
    refine setCancel_ok (fun i => ?_) j
      ⟨(congrFun (remove_workers answered) id).trans hj,lookup_remove_self hc⟩
    rw [remove_cancels]
    exact remove_ok (hs i) answered

lemma delete_other {i : ℕ} (hid : id' ≠ id) (hi : s.cancels i = .deleting id)
    (h : cancelStep S s (.delete i answered) = some t) : t.jobs.lookup id' = s.jobs.lookup id' := by
  simp only [cancelStep, hi, some.injEq] at h
  subst h
  show (remove S s id answered).jobs.lookup id' = s.jobs.lookup id'
  rw [remove]
  split_ifs
  · exact lookup_drop_key_ne hid s.jobs
  · rfl

lemma run_cancelOk {ls : List (CancelLabel R)} (h : Run (CancelSteps S) (Considerate S) s ls t)
    (hs : ∀ i, CancelOk s.toSystem (s.cancels i)) : ∀ i, CancelOk t.toSystem (t.cancels i) :=
  run_invariant (fun s => ∀ i, CancelOk s.toSystem (s.cancels i))
    (fun _ _ _ hs hc hstep => cancelStep_ok hs hc hstep) h hs

lemma answered_stays {l : CancelLabel R} (h : cancelStep S s l = some t) {i : ℕ} {id : String}
    {reply : Reply} (hi : s.cancels i = .answered id reply) : t.cancels i = .answered id reply := by
  cases l with
  | other l =>
    obtain ⟨v,-,rfl⟩ := map_eq_some_iff.mp h
    exact hi
  | check j id' answered =>
    simp only [cancelStep] at h
    split at h <;> cases h
    rename_i hj
    have hij : i ≠ j := by
      rintro rfl
      rw [hi] at hj
      cases hj
    simpa [setCancel, hij] using hi
  | delete j answered =>
    simp only [cancelStep] at h
    split at h <;> cases h
    rename_i id' hj
    have hij : i ≠ j := by
      rintro rfl
      rw [hi] at hj
      cases hj
    simpa [setCancel, hij, remove_cancels] using hi

/-- After 204 the processor of the job is not running and never starts, and
the job is gone for good. No cancel deletes a job whose processor is running. -/
theorem run_cancel_safe {ls ks : List (CancelLabel R)}
    (hbefore : Run (CancelSteps S) (Considerate S) start ls s)
    (hafter : Run (CancelSteps S) (Considerate S) s ks t) :
    (∀ i id, s.cancels i = .answered id .noContent →
      t.workers id ≠ .working ∧ t.jobs.lookup id = none) ∧
    ∀ i answered u id, cancelStep S t (.delete i answered) = some u → t.workers id = .working →
      u.jobs.lookup id = t.jobs.lookup id := by
  have hok : ∀ i, CancelOk t.toSystem (t.cancels i) :=
    run_cancelOk hafter (run_cancelOk hbefore fun _ => trivial)
  constructor
  · intro i id hi
    have hi' : t.cancels i = .answered id .noContent :=
      run_invariant (fun s => s.cancels i = .answered id .noContent)
        (fun _ _ _ hs _ hstep => answered_stays hstep hs) hafter hi
    have ht := hok i
    rw [hi'] at ht
    refine ⟨?_,ht.2⟩
    rw [ht.1]
    simp
  · intro i answered u id h ho
    cases hi : t.cancels i with
    | deleting id' =>
      have he := hok i
      rw [hi] at he
      have hid : id ≠ id' := by
        rintro rfl
        rw [show t.workers id = .ended from he] at ho
        cases ho
      exact delete_other hid hi h
    | idle | answered id' reply => simp [cancelStep, hi] at h

end

def afterCancel (kind : Kind) (ls : List (CancelLabel String)) : Cancelling String :=
  (play (cancelStep (sums kind)) start ls).getD start

def doneThenCancelled : List (CancelLabel String) :=
  [.other (.submit "j" 0 true),.other (.work "j" 0 true),.other (.processed "j" (.ok (some "42"))),
    .other (.work "j" 1 true),.check 0 "j" true,.delete 0 true]

theorem completed_job_cancelled_safely :
    (afterCancel .memory doneThenCancelled).cancels 0 = .answered "j" .noContent ∧
    (afterCancel .memory doneThenCancelled).workers "j" ≠ .working ∧
    (afterCancel .memory doneThenCancelled).jobs.lookup "j" = none := by
  have hb : Run (CancelSteps (sums .memory)) (Considerate (sums .memory)) start
      doneThenCancelled (afterCancel .memory doneThenCancelled) :=
    .cons trivial rfl (.cons trivial rfl (.cons trivial rfl (.cons trivial rfl
      (.cons (fun _ _ _ => rfl) rfl (.cons (fun _ => rfl) rfl (.nil _))))))
  exact ⟨rfl,(run_cancel_safe hb (.nil _)).1 0 "j" rfl⟩

/-- The processor is started although the job has been cancelled. -/
def cancelledThenStarted : List (CancelLabel String) :=
  [.other (.submit "j" 0 true),.check 0 "j" true,.delete 0 true]

def startedThenDeleted : List (CancelLabel String) :=
  [.other (.submit "j" 0 true),.check 0 "j" true,.other (.work "j" 0 true)]

def deletedThenWritten : List (CancelLabel String) :=
  [.other (.submit "j" 0 true),.other (.work "j" 0 true),.check 0 "j" true,.delete 0 true]

theorem cancelled_job_runs_and_reappears :
    Run (CancelSteps (sums .memory)) (fun _ _ => True) start cancelledThenStarted
      (afterCancel .memory cancelledThenStarted) ∧
    (afterCancel .memory cancelledThenStarted).cancels 0 = .answered "j" .noContent ∧
    Run (CancelSteps (sums .memory)) (fun _ _ => True) (afterCancel .memory cancelledThenStarted)
      [.other (.work "j" 0 true)]
      (afterCancel .memory (cancelledThenStarted++[.other (.work "j" 0 true)])) ∧
    (afterCancel .memory (cancelledThenStarted++[.other (.work "j" 0 true)])).workers "j" =
      .working ∧
    Run (CancelSteps (sums .memory)) (fun _ _ => True) start startedThenDeleted
      (afterCancel .memory startedThenDeleted) ∧
    (afterCancel .memory startedThenDeleted).workers "j" = .working ∧
    ((afterCancel .memory startedThenDeleted).jobs.lookup "j").map JobState.status =
      some .processing ∧
    cancelStep (sums .memory) (afterCancel .memory startedThenDeleted) (.delete 0 true) =
      some (afterCancel .memory (startedThenDeleted++[.delete 0 true])) ∧
    (afterCancel .memory (startedThenDeleted++[.delete 0 true])).jobs.lookup "j" = none ∧
    Run (CancelSteps (sums .redis)) (fun _ _ => True) start deletedThenWritten
      (afterCancel .redis deletedThenWritten) ∧
    (afterCancel .redis deletedThenWritten).cancels 0 = .answered "j" .noContent ∧
    Run (CancelSteps (sums .redis)) (fun _ _ => True) (afterCancel .redis deletedThenWritten)
      [.other (.work "j" 0 true)]
      (afterCancel .redis (deletedThenWritten++[.other (.work "j" 0 true)])) ∧
    ((afterCancel .redis (deletedThenWritten++[.other (.work "j" 0 true)])).jobs.lookup "j").map
      JobState.status = some .processing :=
  ⟨run_of_play rfl,rfl,run_of_play rfl,rfl,run_of_play rfl,rfl,rfl,rfl,rfl,run_of_play rfl,rfl,
    run_of_play rfl,rfl⟩

end SdkApi.JobCancellation
