import SdkApi.JobSchedules

/-!
# The manager of async jobs

An async entry is validated, gets a store for its jobs and a manager. A
submitted job is created in the store and processed by a goroutine, which
updates its record before and after the processor runs and then notifies the
callback. A pointer of the configuration that is followed although it is nil
is a failure of its own. Times are in microseconds. The routes, the reaper's
schedule and the status stream are left out.
-/

namespace SdkApi.AsyncManager
open JobStores JobSchedules Option
open Tables (GoMap)

section

structure AsyncReassignConf where
  enabled : Bool := false
  processingTimeout : String := ""
  reapInterval : String := ""
  maxRetries : ℤ := 0
  deriving DecidableEq

structure AsyncCallbackConf where
  url : String := ""
  secret : String := ""
  retry : ℤ := 0
  retryDelay : String := ""
  deriving DecidableEq

structure AsyncStoreConf where
  driver : String := ""
  db : String := ""
  kv : String := ""
  stream : String := ""
  reassign : Option AsyncReassignConf := none
  callback : Option AsyncCallbackConf := none
  resultTTL : String := ""
  maxConcurrent : ℤ := 0
  deriving DecidableEq

structure AsyncEntry where
  path : String := ""
  resource : String := ""
  handler : String := ""
  timeout : String := ""
  asyncStore : Option AsyncStoreConf := none
  deriving DecidableEq

def validateAsync (e : AsyncEntry) : Except String AsyncEntry :=
  if e.path = "" ∧ e.resource = "" then .error "async: path or resource is required"
  else
    let e := if e.path = "" then { e with path := "/" ++ GoStrings.trimPrefix e.resource "/" }
      else e
    if e.handler = "" then .error "async: handler is required" else .ok e

inductive Failure where
  | error (msg : String)
  | nilPointer (expr : String)
  deriving DecidableEq

def follow {α : Type} (p : Option α) (expr : String) : Except Failure α :=
  match p with
  | none => .error (.nilPointer expr)
  | some a => .ok a

/-- A stream is `some true` when it is a NATS connection. -/
structure Service where
  parseDuration : String → Option ℤ
  pools : String → Bool
  kvConns : String → Bool
  brokers : String → Option Bool
  provision : Bool
  handlers : String → Bool

namespace Service

variable (svc : Service)

def parseDurationDef (s : String) : ℤ := if s = "" then 0 else (svc.parseDuration s).getD 0

def durationOr (s : String) (default : ℤ) : ℤ :=
  if svc.parseDurationDef s ≤ 0 then default else svc.parseDurationDef s

def fiveMinutes : ℤ := 300000000

def fiveSeconds : ℤ := 5000000

def getProcessingTimeout (e : AsyncEntry) : ℤ :=
  match e.asyncStore.bind (·.reassign) with
  | none => fiveMinutes
  | some r => svc.durationOr r.processingTimeout fiveMinutes

def resolvePGStore (conf : AsyncStoreConf) : Except Failure Kind :=
  if conf.db = "" then .error (.error "async_store: db is required for driver postgres")
  else if svc.pools conf.db = false then
    .error (.error ("async_store: pool \"" ++ conf.db ++ "\" not found"))
  else if svc.provision then .ok .postgres
  else .error (.error "async_store: create pg table")

def resolveRedisStore (conf : AsyncStoreConf) : Except Failure Kind :=
  if conf.kv = "" then .error (.error "async_store: kv is required for driver redis")
  else if svc.kvConns conf.kv then .ok .redis
  else .error (.error ("async_store: kv store \"" ++ conf.kv ++ "\" not found"))

def resolveNATSKVStore (conf : AsyncStoreConf) : Except Failure Kind :=
  if conf.stream = "" then .error (.error "async_store: stream is required for driver nats_kv")
  else
    match svc.brokers conf.stream with
    | none => .error (.error ("async_store: stream \"" ++ conf.stream ++ "\" not found"))
    | some false =>
      .error (.error ("async_store: stream \"" ++ conf.stream ++ "\" is not a NATS connection"))
    | some true =>
      if svc.provision then .ok .nats else .error (.error "async_store: ensure kv bucket")

def resolveAsyncStore (e : AsyncEntry) : Except Failure Kind :=
  match e.asyncStore with
  | none => .ok .memory
  | some conf =>
    if conf.driver = "" ∨ conf.driver = "memory" then .ok .memory
    else if conf.driver = "postgres" then svc.resolvePGStore conf
    else if conf.driver = "redis" then svc.resolveRedisStore conf
    else if conf.driver = "nats_kv" then svc.resolveNATSKVStore conf
    else .error (.error ("async_store: unknown driver \"" ++ conf.driver ++ "\""))

end Service

/-- The manager of an entry; `sem` is the capacity of its semaphore. -/
structure Manager where
  kind : Kind
  timeout : ℤ
  maxRetry : ℤ := 0
  callback : Option AsyncCallbackConf := none
  cleanupTTL : ℤ := 0
  processingTimeout : ℤ := 0
  sem : Option ℤ := none
  deriving DecidableEq

variable (svc : Service)

def resolveAsyncPath (pre : String) (e : AsyncEntry) : String :=
  let rsc := if e.path = "" then e.resource else e.path
  if rsc = "" then "" else pre ++ rsc

/-- The retries and the time to live; the reaper itself runs on its own. -/
def setupAsyncReaper (e : AsyncEntry) : ℤ × ℤ :=
  match e.asyncStore with
  | none => (0,0)
  | some conf =>
    match conf.reassign with
    | none => (0,svc.parseDurationDef conf.resultTTL)
    | some r =>
      if r.enabled then
        (if r.maxRetries ≤ 0 then 3 else r.maxRetries,svc.parseDurationDef conf.resultTTL)
      else (0,svc.parseDurationDef conf.resultTTL)

/-- The reassign section is followed without a test. -/
def configure (mgr : Manager) (conf : AsyncStoreConf) (ttl : ℤ) : Except Failure Manager :=
  match follow conf.reassign "entry.AsyncStore.Reassign" with
  | .error err => .error err
  | .ok r => .ok { mgr with
      callback := conf.callback
      cleanupTTL := ttl
      processingTimeout := svc.durationOr r.processingTimeout Service.fiveMinutes
      sem := if 0 < conf.maxConcurrent then some conf.maxConcurrent else none }

def registerAsync (pre : String) (e : AsyncEntry) (kind : Kind) : Except Failure Manager :=
  if resolveAsyncPath pre e = "" then
    .error (.error "async entry requires path or resource")
  else if e.handler ≠ "" ∧ svc.handlers e.handler = false then
    .error (.error ("async handler \"" ++ e.handler ++ "\" not found"))
  else
    let mgr : Manager :=
      { kind := kind, timeout := svc.getProcessingTimeout e,
        maxRetry := (setupAsyncReaper svc e).1 }
    match e.asyncStore with
    | none => .ok mgr
    | some conf => configure svc mgr conf (setupAsyncReaper svc e).2

/-- The async case of `registerOneEntry`. -/
def registerOneEntry (pre : String) (e : AsyncEntry) : Except Failure Manager :=
  match svc.resolveAsyncStore e with
  | .error err => .error err
  | .ok kind => registerAsync svc pre e kind

variable {R : Type}

inductive JsonValue where
  | str (s : String)
  | other

/-- A request body; `none` if it is not a JSON object. -/
abbrev Body := Option (GoMap JsonValue)

def bodyCallback (body : Body) : Option String :=
  match body.bind (·.lookup "_callback_url") with
  | some (.str url) => some url
  | _ => none

/-- Only the memory driver holds this very object. -/
def submitted (mgr : Manager) (id : String) (now : ℤ) (body : Body) : JobState R :=
  { (newJob id now : JobState R) with
    callbackURL := (bodyCallback body).getD ""
    maxRetries := mgr.maxRetry }

def storeOf (mgr : Manager) (marshal : R → Option (Option R)) : JobStore R where
  kind := mgr.kind
  processingTimeout := mgr.timeout
  marshal := marshal

variable (mgr : Manager) (S : JobStore R)

def submit (jobs : GoMap (JobState R)) (id : String) (now : ℤ) (answered : Bool) (body : Body) :
    GoMap (JobState R) :=
  match mgr.kind with
  | .memory => Tables.set jobs id (submitted mgr id now body)
  | _ => create S jobs id now answered

/-- An `Update` without anything in between. -/
def update (jobs : GoMap (JobState R)) (id : String) (now : ℤ) (answered : Bool) (c : Change R) :
    GoMap (JobState R) :=
  match S.kind with
  | .memory => updateAtOnce S c now id jobs
  | .postgres => if answered then updateAtOnce S c now id jobs else jobs
  | _ =>
    match answered, jobs.lookup id with
    | true, some js => save S jobs id (c.apply S.processingTimeout now js)
    | _, _ => jobs

structure Target where
  url : String
  secret : String
  maxRetry : ℤ
  retryDelay : ℤ
  deriving DecidableEq

/-- The settings of the callback section, which is followed without a test. -/
def target (svc : Service) (callback : Option AsyncCallbackConf) (url secret : String) :
    Except Failure (Option Target) :=
  match follow callback "m.callback" with
  | .error err => .error err
  | .ok cb => .ok (some ⟨url,secret,if cb.retry ≤ 0 then 3 else cb.retry,
      svc.durationOr cb.retryDelay Service.fiveSeconds⟩)

/-- The first half of `notifyCallback`, up to its loop. -/
def notifyTarget (svc : Service) (callback : Option AsyncCallbackConf)
    (job : Option (JobState R)) : Except Failure (Option Target) :=
  match job with
  | none => .ok none
  | some js =>
    if js.callbackURL = "" then
      match callback with
      | none => .ok none
      | some cb => if cb.url = "" then .ok none else target svc callback cb.url cb.secret
    else target svc callback js.callbackURL ""

/-- What a job meets, and the processor's outcome. -/
structure World (R : Type) where
  id : String
  now : ℕ → ℤ
  answered : ℕ → Bool
  outcome : Except String (Option R)

def finalRecord (w : World R) (jobs : GoMap (JobState R)) (body : Body) : Option (JobState R) :=
  let jobs := submit mgr S jobs w.id (w.now 0) (w.answered 0) body
  let jobs := update S jobs w.id (w.now 1) (w.answered 1) markProcessing
  let jobs := update S jobs w.id (w.now 2) (w.answered 2) (outcomeChange w.outcome)
  if w.answered 3 || S.kind = .memory then jobs.lookup w.id else none

end

section

variable {R : Type} {mgr : Manager} {S : JobStore R} {jobs : GoMap (JobState R)} {id : String}

lemma update_callback {P : String → Prop} {now : ℤ} {answered : Bool} {c : Change R}
    (h : ∀ js, jobs.lookup id = some js → P js.callbackURL) :
    ∀ js, (update S jobs id now answered c).lookup id = some js → P js.callbackURL := by
  have ho : ∀ js, (updateAtOnce S c now id jobs).lookup id = some js → P js.callbackURL := by
    intro js hjs
    rw [lookup_updateAtOnce] at hjs
    obtain ⟨js0,hj,rfl⟩ := map_eq_some_iff.mp hjs
    exact h js0 hj
  intro js hjs
  unfold update at hjs
  split at hjs
  · exact ho js hjs
  · split at hjs
    · exact ho js hjs
    · exact h js hjs
  · split at hjs
    · rename_i js0 hj
      obtain ⟨result,rfl⟩ := lookup_save hjs
      exact h js0 hj
    · exact h js hjs

lemma update_memory (hk : S.kind = .memory) {now : ℤ} {answered : Bool} {c : Change R}
    {js : JobState R} (h : jobs.lookup id = some js) :
    ∃ js', (update S jobs id now answered c).lookup id = some js' ∧
      js'.callbackURL = js.callbackURL := by
  unfold update
  rw [hk]
  simp only [lookup_updateAtOnce, h, map_some]
  exact ⟨_,rfl,rfl⟩

lemma submit_memory (hk : mgr.kind = .memory) (now : ℤ) (answered : Bool) (body : Body) :
    (submit mgr S jobs id now answered body).lookup id = some (submitted mgr id now body) := by
  rw [submit, hk]
  exact lookup_set_self _

lemma submit_server (hi : mgr.kind ≠ .memory) (hfr : jobs.lookup id = none) {now : ℤ}
    {answered : Bool} {body : Body} {js : JobState R}
    (h : (submit mgr S jobs id now answered body).lookup id = some js) : js = newJob id now := by
  have he : (create S jobs id now answered).lookup id = some js → js = newJob id now := by
    intro hj
    rw [create] at hj
    split at hj
    · rw [lookup_set_self] at hj
      exact (some.inj hj).symm
    · rw [hfr] at hj
      cases hj
  rw [submit] at h
  split at h
  · rename_i hk
    exact absurd hk hi
  · exact he h

lemma finalRecord_memory {marshal : R → Option (Option R)} (hk : mgr.kind = .memory)
    (w : World R) (jobs : GoMap (JobState R)) (body : Body) :
    ∃ js, finalRecord mgr (storeOf mgr marshal) w jobs body = some js ∧
      js.callbackURL = (bodyCallback body).getD "" := by
  have hS : (storeOf mgr marshal).kind = .memory := hk
  have h0 := @submit_memory _ mgr (storeOf mgr marshal) jobs w.id hk (w.now 0) (w.answered 0) body
  obtain ⟨js1,h1,hu⟩ := @update_memory _ _ _ _ hS (w.now 1) (w.answered 1) markProcessing _ h0
  obtain ⟨js2,h2,hl⟩ :=
    @update_memory _ _ _ _ hS (w.now 2) (w.answered 2) (outcomeChange w.outcome) _ h1
  refine ⟨js2,?_,by rw [hl, hu]; rfl⟩
  rw [finalRecord, hS]
  simpa using h2

lemma finalRecord_server {marshal : R → Option (Option R)} (hk : mgr.kind ≠ .memory) {w : World R}
    {jobs : GoMap (JobState R)} (he : jobs.lookup w.id = none) {body : Body} {js : JobState R}
    (h : finalRecord mgr (storeOf mgr marshal) w jobs body = some js) : js.callbackURL = "" := by
  have h0 : ∀ js, (submit mgr (storeOf mgr marshal) jobs w.id (w.now 0) (w.answered 0) body).lookup
      w.id = some js → js.callbackURL = "" := by
    intro js hj
    rw [submit_server hk he hj]
    rfl
  have h1 := @update_callback _ (storeOf mgr marshal) _ _ (· = "") (w.now 1) (w.answered 1)
    markProcessing h0
  have h2 := @update_callback _ (storeOf mgr marshal) _ _ (· = "") (w.now 2) (w.answered 2)
    (outcomeChange w.outcome) h1
  rw [finalRecord] at h
  split at h
  · exact h2 js h
  · cases h

end

end SdkApi.AsyncManager
