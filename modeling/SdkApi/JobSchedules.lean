import SdkApi.GuardedRuns
import SdkApi.JobStores

/-!
# Workers and reapers on one job store

`HandleSubmit` creates a job and starts a goroutine for it, which updates the
job's record before and after the processor runs. Any number of `ReapStale`
passes go over the records meanwhile. Everyone takes one round trip to the
store at a time, at any time of any clock; a round trip to a server may fail.
-/

namespace SdkApi.JobSchedules
open GuardedRuns JobStores
open Tables (GoMap)

variable {R : Type}

/-- On Redis and NATS it holds the record between two round trips. -/
inductive Worker (R : Type) where
  | idle
  | starting
  | marking (js : JobState R)
  | working
  | finishing (out : Except String (Option R))
  | recording (js : JobState R)
  | ended

/-- A `ReapStale` pass that goes through a list of keys. -/
structure Sweep where
  now : ℤ
  maxRetries : ℤ
  keys : List String
  more : Bool
  count : ℕ

inductive Pass (R : Type) where
  | idle
  | listing (maxRetries : ℤ) (count : ℕ)
  | walking (w : Sweep)
  | writing (w : Sweep) (id : String) (read js : JobState R)
  | givingUp (maxRetries : ℤ) (count : ℕ)
  | returned (count : ℕ) (err : Bool)

structure System (R : Type) where
  jobs : GoMap (JobState R)
  workers : String → Worker R
  passes : ℕ → Pass R

/-- `answered` says whether the round trip succeeds. -/
inductive Label (R : Type) where
  | submit (id : String) (now : ℤ) (answered : Bool)
  | work (id : String) (now : ℤ) (answered : Bool)
  | processed (id : String) (out : Except String (Option R))
  | crash (id : String)
  | reapStale (i : ℕ) (maxRetries : ℤ)
  | sweep (i : ℕ) (now : ℤ) (keys : List String) (more answered : Bool)
  | read (id : String)

def setWorker (s : System R) (id : String) (w : Worker R) : System R :=
  { s with workers := Function.update s.workers id w }

def setPass (s : System R) (i : ℕ) (p : Pass R) : System R :=
  { s with passes := Function.update s.passes i p }

variable (S : JobStore R)

def markProcessing : Change R := ⟨.processing,none,""⟩

/-- The last `Update` of a worker, by what the processor has returned. -/
def outcomeChange : Except String (Option R) → Change R
  | .error e => ⟨.failed,none,e⟩
  | .ok result => ⟨.completed,result,""⟩

/-- Only Redis and NATS need a second round trip, which `hold` stands for. -/
def startUpdate (s : System R) (id : String) (now : ℤ) (answered : Bool) (c : Change R)
    (hold : JobState R → Worker R) (after : Worker R) : System R :=
  match S.kind with
  | .memory => setWorker { s with jobs := updateAtOnce S c now id s.jobs } id after
  | .postgres =>
    setWorker { s with jobs := if answered then updateAtOnce S c now id s.jobs else s.jobs } id after
  | _ =>
    match answered, s.jobs.lookup id with
    | true, some js => setWorker s id (hold (c.apply S.processingTimeout now js))
    | _, _ => setWorker s id after

def finishUpdate (s : System R) (id : String) (answered : Bool) (js : JobState R)
    (after : Worker R) : System R :=
  setWorker { s with jobs := if answered then save S s.jobs id js else s.jobs } id after

def workStep (s : System R) (id : String) (now : ℤ) (answered : Bool) : Option (System R) :=
  match s.workers id with
  | .starting => some (startUpdate S s id now answered markProcessing .marking .working)
  | .marking js => some (finishUpdate S s id answered js .working)
  | .finishing out =>
    some (startUpdate S s id now answered (outcomeChange out) .recording .ended)
  | .recording js => some (finishUpdate S s id answered js .ended)
  | _ => none

def advance (w : Sweep) : Pass R :=
  match w.keys with
  | [] => if w.more then .listing w.maxRetries w.count else .returned w.count false
  | _ => .walking w

/-- The first round trip of a pass; on Redis there may be several of its kind. -/
def listStep (s : System R) (i : ℕ) (maxRetries : ℤ) (count : ℕ) (now : ℤ) (keys : List String)
    (more answered : Bool) : Option (System R) :=
  match S.kind with
  | .memory =>
    let (jobs,n) := reapAll now maxRetries s.jobs
    some (setPass { s with jobs := jobs } i (.returned n false))
  | .postgres =>
    if answered = false then some (setPass s i (.returned 0 true))
    else if selects s.jobs (retryable now maxRetries) keys then
      some (setPass { s with jobs := updateRows (requeue now) keys s.jobs } i
        (.givingUp maxRetries keys.length))
    else none
  | kind =>
    if answered then some (setPass s i (advance ⟨now,maxRetries,keys,kind = .redis && more,count⟩))
    else some (setPass s i (.returned count true))

def giveUpStep (s : System R) (i : ℕ) (maxRetries : ℤ) (count : ℕ) (now : ℤ) (keys : List String)
    (answered : Bool) : Option (System R) :=
  if answered = false then some (setPass s i (.returned count true))
  else if selects s.jobs (exhausted now maxRetries) keys then
    some (setPass { s with jobs := updateRows (giveUp now) keys s.jobs } i
      (.returned (count+keys.length) false))
  else none

def readStep (s : System R) (i : ℕ) (w : Sweep) (answered : Bool) : Option (System R) :=
  match w.keys with
  | [] => none
  | id::rest =>
    match answered, s.jobs.lookup id with
    | true, some js =>
      if due w.now js then
        some (setPass s i (.writing { w with keys := rest } id js (reap w.now w.maxRetries js)))
      else some (setPass s i (advance { w with keys := rest }))
    | _, _ => some (setPass s i (advance { w with keys := rest }))

def sweepStep (s : System R) (i : ℕ) (now : ℤ) (keys : List String) (more answered : Bool) :
    Option (System R) :=
  match s.passes i with
  | .listing maxRetries count => listStep S s i maxRetries count now keys more answered
  | .givingUp maxRetries count => giveUpStep s i maxRetries count now keys answered
  | .walking w => readStep s i w answered
  | .writing w id _ js =>
    if answered then
      some (setPass { s with jobs := save S s.jobs id js } i (advance { w with count := w.count+1 }))
    else some (setPass s i (advance w))
  | _ => none

def create (jobs : GoMap (JobState R)) (id : String) (now : ℤ) (answered : Bool) :
    GoMap (JobState R) :=
  if answered || S.kind = .memory then Tables.set jobs id (newJob id now) else jobs

/-- Job ids do not repeat, and the memory store outlives its workers. -/
def step (s : System R) : Label R → Option (System R)
  | .submit id now answered =>
    match s.workers id, s.jobs.lookup id with
    | .idle, none => some (setWorker { s with jobs := create S s.jobs id now answered } id .starting)
    | _, _ => none
  | .work id now answered => workStep S s id now answered
  | .processed id out =>
    match s.workers id with
    | .working => some (setWorker s id (.finishing out))
    | _ => none
  | .crash id =>
    match S.kind, s.workers id with
    | .memory, _ | _, .ended => none
    | _, _ => some (setWorker s id .ended)
  | .reapStale i maxRetries =>
    match s.passes i with
    | .idle => some (setPass s i (.listing maxRetries 0))
    | _ => none
  | .sweep i now keys more answered => sweepStep S s i now keys more answered
  | .read _ => some s

def initial : System R := ⟨[],fun _ => .idle,fun _ => .idle⟩

section

variable {S} {s t : System R} {id : String} {answered : Bool} {now : ℤ}

/-- A step of the worker of `id`, which has not ended. -/
structure OwnStep (id : String) (s t : System R) : Prop where
  alive : s.workers id ≠ .ended
  others : ∀ id', id' ≠ id → t.workers id' = s.workers id' ∧ t.jobs.lookup id' = s.jobs.lookup id'
  passes : t.passes = s.passes

lemma ownStep_set (ha : s.workers id ≠ .ended) {jobs : GoMap (JobState R)} (w : Worker R)
    (hj : ∀ id', id' ≠ id → jobs.lookup id' = s.jobs.lookup id') :
    OwnStep id s (setWorker { s with jobs := jobs } id w) := by
  refine ⟨ha,fun id' hi => ⟨?_,hj id' hi⟩,rfl⟩
  simp [setWorker, hi]

lemma startUpdate_cases (s : System R) (id : String) (now : ℤ) (answered : Bool) (c : Change R)
    (ho : JobState R → Worker R) (after : Worker R) :
    startUpdate S s id now answered c ho after =
        setWorker { s with jobs := updateAtOnce S c now id s.jobs } id after ∨
      startUpdate S s id now answered c ho after = setWorker s id after ∨
      ∃ js, s.jobs.lookup id = some js ∧ startUpdate S s id now answered c ho after =
        setWorker s id (ho (c.apply S.processingTimeout now js)) := by
  unfold startUpdate
  split
  · exact .inl rfl
  · cases answered with
    | false => exact .inr (.inl rfl)
    | true => exact .inl rfl
  · split
    · rename_i js hj
      exact .inr (.inr ⟨js,hj,rfl⟩)
    · exact .inr (.inl rfl)

lemma startUpdate_own (ha : s.workers id ≠ .ended) {now : ℤ} {answered : Bool} {c : Change R}
    {ho : JobState R → Worker R} {after : Worker R} :
    OwnStep id s (startUpdate S s id now answered c ho after) := by
  obtain h | h | ⟨js,-,h⟩ := startUpdate_cases (S := S) s id now answered c ho after <;> rw [h]
  · exact ownStep_set ha after fun _ hi => lookup_updateAtOnce_ne c now hi
  · exact ownStep_set ha after fun _ _ => rfl
  · exact ownStep_set ha _ fun _ _ => rfl

lemma finishUpdate_own (ha : s.workers id ≠ .ended) {answered : Bool} {js : JobState R}
    {after : Worker R} : OwnStep id s (finishUpdate S s id answered js after) := by
  cases answered with
  | false => exact ownStep_set ha after fun _ _ => rfl
  | true => exact ownStep_set ha after fun _ hi => lookup_save_ne hi

lemma workStep_own (h : workStep S s id now answered = some t) : OwnStep id s t := by
  rw [workStep] at h
  cases hw : s.workers id with
  | starting | finishing out =>
    rw [hw] at h
    cases h
    exact startUpdate_own (by simp [hw])
  | marking js | recording js =>
    rw [hw] at h
    cases h
    exact finishUpdate_own (by simp [hw])
  | idle | working | ended => simp [hw] at h

lemma lookup_create_ne {id' : String} (h : id' ≠ id) (now : ℤ) (answered : Bool) :
    (create S s.jobs id now answered).lookup id' = s.jobs.lookup id' := by
  rw [create]
  split_ifs
  · exact lookup_set_ne h
  · rfl

inductive Swept (S : JobStore R) (s : System R) (i : ℕ) (answered : Bool) : System R → Prop where
  | moved (p : Pass R) : Swept S s i answered (setPass s i p)
  | rewritten (f : String → JobState R → JobState R) (p : Pass R) :
      Swept S s i answered (setPass { s with jobs := s.jobs.map fun e => (e.1,f e.1 e.2) } i p)
  | wroteBack {w : Sweep} {id : String} {read js : JobState R} (p : Pass R)
      (hpass : s.passes i = .writing w id read js) (hans : answered = true) :
      Swept S s i answered (setPass { s with jobs := save S s.jobs id js } i p)

lemma sweepStep_cases {i : ℕ} {keys : List String} {more answered : Bool}
    (h : sweepStep S s i now keys more answered = some t) : Swept S s i answered t := by
  rw [sweepStep] at h
  cases hp : s.passes i with
  | idle | returned count err => simp [hp] at h
  | listing maxRetries count =>
    simp only [hp, listStep] at h
    split at h
    · cases h
      exact .rewritten (fun _ js => if due now js then reap now maxRetries js else js) _
    · split_ifs at h <;> cases h
      · exact .moved _
      · exact .rewritten (fun key js => if key ∈ keys then requeue now js else js) _
    · split_ifs at h <;> cases h <;> exact .moved _
  | givingUp maxRetries count =>
    simp only [hp, giveUpStep] at h
    split_ifs at h <;> cases h
    · exact .moved _
    · exact .rewritten (fun key js => if key ∈ keys then giveUp now js else js) _
  | walking w =>
    simp only [hp, readStep] at h
    split at h
    · cases h
    · split at h
      · split_ifs at h <;> cases h <;> exact .moved _
      · cases h
        exact .moved _
  | writing w id read js =>
    simp only [hp] at h
    split_ifs at h with hans <;> cases h
    · exact .wroteBack _ hp hans
    · exact .moved _

lemma swept_workers {i : ℕ} (h : Swept S s i answered t) : t.workers = s.workers := by
  cases h <;> rfl

lemma step_frame {l : Label R} (h : step S s l = some t) :
    (t.workers = s.workers ∧ t.jobs = s.jobs) ∨
      (∃ i now keys more answered, l = .sweep i now keys more answered ∧ Swept S s i answered t) ∨
      ∃ id, OwnStep id s t := by
  cases l with
  | submit id now answered =>
    simp only [step] at h
    split at h <;> cases h
    rename_i hi hn
    exact .inr (.inr ⟨id,ownStep_set (by simp [hi]) _ fun _ hid => lookup_create_ne hid now answered⟩)
  | work id now answered => exact .inr (.inr ⟨id,workStep_own h⟩)
  | processed id out =>
    simp only [step] at h
    split at h <;> cases h
    rename_i hw
    exact .inr (.inr ⟨id,ownStep_set (by simp [hw]) _ fun _ _ => rfl⟩)
  | crash id =>
    simp only [step] at h
    split at h
    · cases h
    · cases h
    · rename_i he
      cases h
      exact .inr (.inr ⟨id,ownStep_set he _ fun _ _ => rfl⟩)
  | reapStale i maxRetries =>
    simp only [step] at h
    split at h <;> cases h
    exact .inl ⟨rfl,rfl⟩
  | sweep i now keys more answered =>
    exact .inr (.inl ⟨i,now,keys,more,answered,rfl,sweepStep_cases h⟩)
  | read id =>
    cases h
    exact .inl ⟨rfl,rfl⟩

end

end SdkApi.JobSchedules
