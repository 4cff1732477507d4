import Mathlib.Data.Multiset.Basic
import SdkApi.AsyncManager

/-!
# The calls of an async job manager

One call after the other goes to a manager and its store: submissions, the
two updates of a goroutine with the notification of the callback, status
reads, lists, cancels, `ReapStale` and `Cleanup`. Each call reads the clock
once, and the times are left out of what it shows. The rows of a table, the
keys of a bucket and the entries of a map come in any order.
-/

namespace SdkApi.JobOperations
open JobStores JobSchedules AsyncManager
open Tables (GoMap)

section

variable {R J : Type}

/-- `none` is the text of nil. -/
structure Codec (R J : Type) where
  encode : R → Option J
  decode : J → Option R
  jsonb : J → Bool

def Codec.marshal (codec : Codec R J) (r : R) : Option (Option R) :=
  (codec.encode r).map codec.decode

variable (codec : Codec R J)

def view (js : JobState R) : JobState (Option J) where
  id := js.id
  status := js.status
  result := js.result.map codec.encode
  error := js.error
  createdAt := js.createdAt
  updatedAt := js.updatedAt
  retryCount := js.retryCount
  maxRetries := js.maxRetries
  processingDeadline := js.processingDeadline
  callbackURL := js.callbackURL

def viewChange (c : Change R) : Change (Option J) := ⟨c.status,c.result.map codec.encode,c.errMsg⟩

structure Shown (J : Type) where
  id : String
  status : JobStatus
  result : Option J
  error : String
  retryCount : ℤ
  maxRetries : ℤ
  callbackURL : String

def shown (js : JobState (Option J)) : Option (Shown J) :=
  match js.result with
  | some none => none
  | some (some j) =>
    some ⟨js.id,js.status,some j,js.error,js.retryCount,js.maxRetries,js.callbackURL⟩
  | none => some ⟨js.id,js.status,none,js.error,js.retryCount,js.maxRetries,js.callbackURL⟩

variable (S : JobStore R)

/-- On Redis and NATS the keys are visited one by one. -/
def walk (p : JobState R → Bool)
    (act : GoMap (JobState R) → String → JobState R → GoMap (JobState R)) :
    List String → GoMap (JobState R) × ℕ → GoMap (JobState R) × ℕ
  | [], s => s
  | id::rest, s =>
    match s.1.lookup id with
    | some js => walk p act rest (if p js then (act s.1 id js,s.2+1) else s)
    | none => walk p act rest s

/-- `LIMIT 100`. -/
def hits (p : JobState R → Bool) (jobs : GoMap (JobState R)) : List String :=
  ((jobs.filter fun e => p e.2).take 100).map Prod.fst

def reapRows (now maxRetries : ℤ) (jobs : GoMap (JobState R)) : GoMap (JobState R) × ℕ :=
  let requeued := hits (retryable now maxRetries) jobs
  let jobs := updateRows (requeue now) requeued jobs
  let failed := hits (exhausted now maxRetries) jobs
  (updateRows (giveUp now) failed jobs,requeued.length+failed.length)

def reapStale (now maxRetries : ℤ) (jobs : GoMap (JobState R)) : GoMap (JobState R) × ℕ :=
  match S.kind with
  | .memory => reapAll now maxRetries jobs
  | .postgres => reapRows now maxRetries jobs
  | _ =>
    walk (due now) (fun jobs id js => save S jobs id (reap now maxRetries js))
      (jobs.map Prod.fst) (jobs,0)

def delete (jobs : GoMap (JobState R)) (id : String) : GoMap (JobState R) :=
  jobs.filter fun e => decide (e.1 ≠ id)

def expired (now : ℤ) (ttl : ℕ) (js : JobState R) : Bool :=
  js.status.terminal && decide (js.updatedAt < now-ttl)

/-- PostgreSQL does not read the text of a duration in `µs`. -/
def interval (ttl : ℕ) : Option ℕ := if 0 < ttl ∧ ttl < 1000 then none else some ttl

def cleanAll (now : ℤ) (ttl : ℕ) (jobs : GoMap (JobState R)) : GoMap (JobState R) × ℕ :=
  (jobs.filter fun e => !expired now ttl e.2,(jobs.filter fun e => expired now ttl e.2).length)

/-- The number of jobs that are removed, or `none` for an error. -/
def cleanup (now : ℤ) (ttl : ℕ) (jobs : GoMap (JobState R)) : GoMap (JobState R) × Option ℕ :=
  match S.kind with
  | .memory => ((cleanAll now ttl jobs).1,some (cleanAll now ttl jobs).2)
  | .postgres =>
    match interval ttl with
    | none => (jobs,none)
    | some ttl => ((cleanAll now ttl jobs).1,some (cleanAll now ttl jobs).2)
  | _ =>
    let s := walk (expired now ttl) (fun jobs id _ => delete jobs id) (jobs.map Prod.fst) (jobs,0)
    (s.1,some s.2)

def orNil {α : Type} (l : List α) : Option (List α) := if l.isEmpty then none else some l

/-- `ORDER BY created_at DESC`. -/
def newestFirst (a b : JobState R) : Bool := decide (b.createdAt ≤ a.createdAt)

/-- The jobs of a list; `none` is a nil slice. -/
def list (jobs : GoMap (JobState R)) : Option (List (JobState R)) :=
  match S.kind with
  | .memory => some (jobs.map Prod.snd)
  | .postgres => orNil (((jobs.map Prod.snd).mergeSort newestFirst).take 100)
  | _ => orNil (jobs.map Prod.snd)

inductive Op (R : Type) where
  | submit (id : String) (body : Body)
  | start (id : String)
  | finish (id : String) (out : Except String (Option R))
  | status (id : String)
  | list
  | cancel (id : String)
  | reapStale (maxRetries : ℤ)
  | cleanup (ttl : ℕ)

structure Call (R : Type) where
  now : ℤ
  op : Op R

/-- What a call shows. A list has no order, and `null` is no list. -/
inductive Answer (J : Type) where
  | accepted (id : String) (status : JobStatus)
  | marked
  | notified (target : Except Failure (Option Target))
  | job (js : Shown J)
  | jobs (l : Option (Multiset (Shown J)))
  | notFound (what id : String)
  | conflict (detail : String)
  | noContent
  | internalError
  | count (n : Option ℕ)

def statusAnswer (id : String) (job : Option (JobState (Option J))) : Answer J :=
  match job with
  | none => .notFound "job" id
  | some js =>
    match shown js with
    | none => .internalError
    | some r => .job r

def listAnswer (jobs : Option (List (JobState (Option J)))) : Answer J :=
  match jobs with
  | none => .jobs none
  | some l =>
    match l.mapM shown with
    | none => .internalError
    | some rs => .jobs (some rs)

structure Arrangement (R : Type) where
  arrange : ℕ → GoMap (JobState R) → GoMap (JobState R)
  arrange_perm : ∀ n jobs, (arrange n jobs).Perm jobs

variable (svc : Service) (mgr : Manager) (codec : Codec R J)

/-- The row can be written: a text column takes no NUL. -/
def storable (c : Change R) : Bool :=
  !c.errMsg.toList.contains '\x00' && (c.result.bind codec.encode).all codec.jsonb

def updateJob (jobs : GoMap (JobState R)) (id : String) (now : ℤ) (c : Change R) :
    GoMap (JobState R) :=
  update (storeOf mgr codec.marshal) jobs id now (mgr.kind ≠ .postgres || storable codec c) c

def handleCancel (jobs : GoMap (JobState R)) (id : String) : Answer J × GoMap (JobState R) :=
  match jobs.lookup id with
  | none => (.notFound "job" id,jobs)
  | some js =>
    if js.status = .processing then (.conflict "cannot cancel, job is processing",jobs)
    else (.noContent,delete jobs id)

def perform (jobs : GoMap (JobState R)) (c : Call R) : Answer J × GoMap (JobState R) :=
  match c.op with
  | .submit id body =>
    (.accepted id .pending,submit mgr (storeOf mgr codec.marshal) jobs id c.now true body)
  | .start id => (.marked,updateJob mgr codec jobs id c.now markProcessing)
  | .finish id out =>
    let jobs := updateJob mgr codec jobs id c.now (outcomeChange out)
    (.notified (notifyTarget svc mgr.callback (jobs.lookup id)),jobs)
  | .status id => (statusAnswer id ((jobs.lookup id).map (view codec)),jobs)
  | .list => (listAnswer ((list (storeOf mgr codec.marshal) jobs).map (·.map (view codec))),jobs)
  | .cancel id => handleCancel jobs id
  | .reapStale maxRetries =>
    let s := reapStale (storeOf mgr codec.marshal) c.now maxRetries jobs
    (.count (some s.2),s.1)
  | .cleanup ttl =>
    let s := cleanup (storeOf mgr codec.marshal) c.now ttl jobs
    (.count s.2,s.1)

structure State (R : Type) where
  turn : ℕ := 0
  jobs : GoMap (JobState R) := []

def step (E : Arrangement R) (s : State R) (c : Call R) : Answer J × State R :=
  ((perform svc mgr codec (E.arrange s.turn s.jobs) c).1,
    ⟨s.turn+1,(perform svc mgr codec (E.arrange s.turn s.jobs) c).2⟩)

/-- One table of records, which forgets nothing and shows all of it. -/
def ledgerStep (jobs : GoMap (JobState (Option J))) (c : Call R) :
    Answer J × GoMap (JobState (Option J)) :=
  match c.op with
  | .submit id _ => (.accepted id .pending,Tables.set jobs id (newJob id c.now))
  | .start id => (.marked,updateRows (markProcessing.apply mgr.timeout c.now) [id] jobs)
  | .finish id out =>
    let jobs := updateRows ((viewChange codec (outcomeChange out)).apply mgr.timeout c.now) [id]
      jobs
    (.notified (notifyTarget svc mgr.callback (jobs.lookup id)),jobs)
  | .status id => (statusAnswer id (jobs.lookup id),jobs)
  | .list => (listAnswer (some (jobs.map Prod.snd)),jobs)
  | .cancel id => handleCancel jobs id
  | .reapStale maxRetries =>
    (.count (some (reapAll c.now maxRetries jobs).2),(reapAll c.now maxRetries jobs).1)
  | .cleanup ttl => (.count (some (cleanAll c.now ttl jobs).2),(cleanAll c.now ttl jobs).1)

end

end SdkApi.JobOperations
