import SdkApi.Channels
import SdkApi.GoStrings
import Mathlib.Data.Int.Basic

/-!
# The exit worker

`startExitWorker` puts a buffered channel between the broker and a number of
worker goroutines. A feeder is a push callback, the pull goroutine or the loop
of a Kafka subscription; each of them calls `enqueueMsg` on one message at a
time. `shutdown` closes the signal channel, unsubscribes, closes the task
channel and waits for the tasks in flight. One step is what a goroutine does
between two points at which another one can run; where a select has two ready
cases the label says which one is taken.
-/

namespace SdkApi.ExitWorkers
open Channels GoStrings

inductive Settlement where
  | ack
  | nak
  | term
  deriving DecidableEq

/-- The fields of `ExitWorker` that its goroutines read. -/
structure ExitWorker where
  maxConcurrent : ℤ
  reply : Bool
  pullBatch : ℤ
  consumerMode : String
  termOnFailure : Bool

def concurrency (cfg : ExitWorker) : ℕ :=
  if cfg.maxConcurrent ≤ 0 then 1 else cfg.maxConcurrent.toNat

lemma concurrency_pos (cfg : ExitWorker) : 0 < concurrency cfg := by
  unfold concurrency
  split <;> omega

/-- There is no hook result without hooks. -/
structure Outcome where
  onMessage : Option (Except String String)
  handler : Except String String
  respond : Except String Unit

/-- The call with which `processTask` settles the message. -/
def processTask (cfg : ExitWorker) (o : Outcome) : Settlement :=
  match o.onMessage, o.handler with
  | some (.error _), _ => .nak
  | _, .error _ => if cfg.termOnFailure then .term else .nak
  | _, .ok resp =>
    if cfg.reply ∧ resp ≠ "" then
      match o.respond with
      | .error _ => .nak
      | .ok _ => .ack
    else .ack

inductive Broker where
  | nats
  | kafka

variable {M : Type}

/-- Who has called `enqueueMsg`, with what is left of the batch. -/
inductive Caller (M : Type) where
  | push
  | pull (rest : List M)
  | kafka
  deriving DecidableEq

/-- Selects of `fetchAndEnqueue` and `enqueueMsg`, then the loop of Kafka. -/
inductive Feeder (M : Type) where
  | top
  | fetching
  | batch (ms : List M)
  | checking (m : M) (caller : Caller M)
  | sending (m : M) (caller : Caller M)
  | polling
  | returned (m : M)
  | stopped
  deriving DecidableEq

/-- The stages of `workerLoop`. -/
inductive Loop (M : Type) where
  | selecting
  | received (m : M)
  | running (m : M)
  | settling (m : M) (settlement : Settlement)
  | leaving
  | stopped
  deriving DecidableEq

inductive Shutdown where
  | idle
  | unsubscribing
  | draining
  | drained
  | timedOut
  deriving DecidableEq

/-- A call on a message; an error of the broker is only logged. -/
structure Call (M : Type) where
  msg : M
  settlement : Settlement
  answered : Bool

/-- The worker with the record of its messages. -/
structure Exit (M : Type) where
  push : Bool
  shut : Bool
  tasks : Channel M
  feeders : List (Feeder M)
  loops : List (Loop M)
  inFlight : ℤ
  stage : Shutdown
  panicked : Bool
  accepted : List M
  handled : List (M × Outcome)
  calls : List (Call M)

inductive Label (M : Type) where
  | deliver (m : M)
  | fetch (i : ℕ) (result : Option (List M))
  | feed (i : ℕ) (sends answered : Bool)
  | take (j : ℕ)
  | quit (j : ℕ)
  | work (j : ℕ) (o : Outcome) (answered : Bool)
  | signal
  | closeTasks
  | check
  | expire

def after (m : M) : Caller M → Feeder M
  | .push => .stopped
  | .pull rest => .batch rest
  | .kafka => .returned m

def Exit.setFeeder (s : Exit M) (i : ℕ) (f : Feeder M) : Exit M :=
  { s with feeders := s.feeders.set i f }

def Exit.setLoop (s : Exit M) (j : ℕ) (w : Loop M) : Exit M :=
  { s with loops := s.loops.set j w }

def Exit.call (s : Exit M) (m : M) (st : Settlement) (answered : Bool) : Exit M :=
  { s with calls := s.calls++[⟨m,st,answered⟩] }

def Exit.queue (s : Exit M) (m : M) : Exit M :=
  { s with tasks := { s.tasks with buffer := s.tasks.buffer++[m] } }

def Exit.send (s : Exit M) (i : ℕ) (m : M) (caller : Caller M) : Option (Exit M) :=
  match s.tasks.send m with
  | .blocks => none
  | .panics => some { s with panicked := true }
  | .sent tasks => some ({ s with tasks := tasks }.setFeeder i (after m caller))

/-- The next step of a feeder that is not waiting for the broker. -/
def feedStep (s : Exit M) (i : ℕ) (sends answered : Bool) : Option (Exit M) :=
  match s.feeders[i]? with
  | some .top => some (s.setFeeder i (if s.shut then .stopped else .fetching))
  | some (.batch []) => some (s.setFeeder i .top)
  | some (.batch (m::ms)) => some (
      if s.shut then (s.call m .nak answered).setFeeder i (.batch ms)
      else s.setFeeder i (.checking m (.pull ms)))
  | some (.checking m caller) => some (
      if s.shut then (s.call m .nak answered).setFeeder i (after m caller)
      else s.setFeeder i (.sending m caller))
  | some (.sending m caller) =>
    if sends then s.send i m caller
    else if s.shut then some ((s.call m .nak answered).setFeeder i (after m caller))
    else none
  | some (.returned m) => some ((s.call m .ack answered).setFeeder i .polling)
  | _ => none

def workStep (cfg : ExitWorker) (s : Exit M) (j : ℕ) (o : Outcome) (answered : Bool) :
    Option (Exit M) :=
  match s.loops[j]? with
  | some (.received m) => some (
      if s.shut then (s.call m .nak answered).setLoop j .selecting
      else { s with inFlight := s.inFlight+1 }.setLoop j (.running m))
  | some (.running m) =>
    some ({ s with handled := s.handled++[(m,o)] }.setLoop j (.settling m (processTask cfg o)))
  | some (.settling m st) => some ((s.call m st answered).setLoop j .leaving)
  | some .leaving => some ({ s with inFlight := s.inFlight-1 }.setLoop j .selecting)
  | _ => none

def takeStep (s : Exit M) (j : ℕ) : Option (Exit M) :=
  match s.loops[j]?, s.tasks.receive with
  | some .selecting, .got m tasks => some ({ s with tasks := tasks }.setLoop j (.received m))
  | some .selecting, .closed => some (s.setLoop j .stopped)
  | _, _ => none

def quitStep (s : Exit M) (j : ℕ) : Option (Exit M) :=
  match s.loops[j]? with
  | some .selecting => if s.shut then some (s.setLoop j .stopped) else none
  | _ => none

def pulls (cfg : ExitWorker) : Bool :=
  decide (cfg.pullBatch > 0) || decide (toLower cfg.consumerMode = "pull")

def started (cfg : ExitWorker) (push : Bool) (feeders : List (Feeder M)) : Exit M where
  push := push
  shut := false
  tasks := ⟨2*concurrency cfg,[],false⟩
  feeders := feeders
  loops := List.replicate (concurrency cfg) .selecting
  inFlight := 0
  stage := .idle
  panicked := false
  accepted := []
  handled := []
  calls := []

/-- Kafka refuses a pull subscription. -/
def startExitWorker (cfg : ExitWorker) : Broker → Option (Exit M)
  | .nats => some (if pulls cfg then started cfg false [.top] else started cfg true [])
  | .kafka => if pulls cfg then none else some (started cfg false [.polling])

section

variable [DecidableEq M]

/-- Messages the broker hands over are new; `none` is an error of the fetch. -/
def fetchStep (s : Exit M) (i : ℕ) (result : Option (List M)) : Option (Exit M) :=
  match s.feeders[i]?, result with
  | some .fetching, some ms =>
    if ms.Nodup ∧ ∀ m ∈ ms, m ∉ s.accepted then
      some ({ s with accepted := s.accepted++ms }.setFeeder i (.batch ms))
    else none
  | some .fetching, none => some (s.setFeeder i (if s.shut then .stopped else .top))
  | some .polling, some [m] =>
    if m ∉ s.accepted then
      some ({ s with accepted := s.accepted++[m] }.setFeeder i (.checking m .kafka))
    else none
  | some .polling, none => some (s.setFeeder i .stopped)
  | _, _ => none

def deliverStep (s : Exit M) (m : M) : Option (Exit M) :=
  if s.push = false ∨ m ∈ s.accepted then none
  else some { s with accepted := s.accepted++[m], feeders := s.feeders++[.checking m .push] }

/-- A second caller of `shutdown` finds the signal closed and returns. -/
def shutdownStep (s : Exit M) : Label M → Option (Exit M)
  | .signal => if s.stage = .idle then some { s with shut := true, stage := .unsubscribing } else none
  | .closeTasks =>
    if s.stage = .unsubscribing then
      some { s with tasks := { s.tasks with closed := true }, stage := .draining }
    else none
  | .check =>
    if s.stage = .draining ∧ s.inFlight = 0 then some { s with stage := .drained } else none
  | .expire =>
    if s.stage = .draining ∧ s.inFlight ≠ 0 then some { s with stage := .timedOut } else none
  | _ => none

def step (cfg : ExitWorker) (s : Exit M) (l : Label M) : Option (Exit M) :=
  if s.panicked then none else
  match l with
  | .deliver m => deliverStep s m
  | .fetch i result => fetchStep s i result
  | .feed i sends answered => feedStep s i sends answered
  | .take j => takeStep s j
  | .quit j => quitStep s j
  | .work j o answered => workStep cfg s j o answered
  | l => shutdownStep s l

end

def Caller.rest : Caller M → List M
  | .pull rest => rest
  | _ => []

def Feeder.holds : Feeder M → List M
  | .batch ms => ms
  | .checking m caller => m::caller.rest
  | .sending m caller => m::caller.rest
  | _ => []

def Feeder.returns : Feeder M → List M
  | .returned m => [m]
  | _ => []

def Feeder.isSending : Feeder M → Bool
  | .sending _ _ => true
  | _ => false

def Loop.holds : Loop M → List M
  | .received m => [m]
  | .running m => [m]
  | .settling m _ => [m]
  | _ => []

def Loop.isRunning : Loop M → Bool
  | .running _ => true
  | _ => false

@[simp] lemma holds_after (m : M) (caller : Caller M) : (after m caller).holds = caller.rest := by
  cases caller <;> rfl

@[simp] lemma after_not_sending (m : M) (caller : Caller M) :
    (after m caller).isSending = false := by
  cases caller <;> rfl

/-- What a feeder's step can do. -/
inductive Fed (s : Exit M) (i : ℕ) : Exit M → Prop where
  | goes {f g : Feeder M} (hf : s.feeders[i]? = some f) (hr : f.returns = [])
      (hh : f.holds = g.holds) (hs : g.isSending = true → s.shut = false) :
      Fed s i (s.setFeeder i g)
  | naks {f g : Feeder M} {m : M} {a : Bool} (hf : s.feeders[i]? = some f)
      (hh : f.holds = m::g.holds) (hs : g.isSending = false) (hshut : s.shut = true) :
      Fed s i ((s.call m .nak a).setFeeder i g)
  | sends {m : M} {caller : Caller M} (hf : s.feeders[i]? = some (.sending m caller))
      (hc : s.tasks.closed = false) :
      Fed s i ((s.queue m).setFeeder i (after m caller))
  | panics {m : M} {caller : Caller M} (hf : s.feeders[i]? = some (.sending m caller))
      (hc : s.tasks.closed = true) : Fed s i { s with panicked := true }
  | acks {m : M} {a : Bool} (hf : s.feeders[i]? = some (.returned m)) :
      Fed s i ((s.call m .ack a).setFeeder i .polling)

lemma feedStep_fed {s t : Exit M} {i : ℕ} {c a : Bool} (h : feedStep s i c a = some t) :
    Fed s i t := by
  unfold feedStep at h
  split at h
  · rename_i hf
    cases h
    apply Fed.goes hf rfl
    · split <;> rfl
    · split <;> simp [Feeder.isSending]
  · rename_i hf
    cases h
    exact .goes hf rfl rfl (by simp [Feeder.isSending])
  · rename_i m ms hf
    split at h
    · rename_i hshut
      cases h
      exact .naks hf rfl rfl hshut
    · cases h
      exact .goes hf rfl rfl (by simp [Feeder.isSending])
  · rename_i m caller hf
    split at h
    · rename_i hshut
      cases h
      exact .naks hf (by rw [holds_after]; rfl) (by simp) hshut
    · rename_i hshut
      cases h
      exact .goes hf rfl rfl (fun _ => by simpa using hshut)
  · rename_i m caller hf
    split at h
    · unfold Exit.send at h
      split at h
      · cases h
      · rename_i hp
        cases h
        exact .panics hf (send_panics hp)
      · rename_i tasks hp
        cases h
        obtain ⟨hc,rfl⟩ := send_sent hp
        exact .sends hf hc
    · split at h <;> cases h
      rename_i hshut
      exact .naks hf (by rw [holds_after]; rfl) (by simp) hshut
  · rename_i m hf
    cases h
    exact .acks hf
  · cases h

/-- What a step of a worker can do to its message. -/
inductive Worked (cfg : ExitWorker) (s : Exit M) (j : ℕ) (o : Outcome) : Exit M → Prop where
  | passes {w v : Loop M} {n : ℤ} (hw : s.loops[j]? = some w) (hh : w.holds = v.holds)
      (hv : v = .selecting ∨ ∃ m, v = .running m) :
      Worked cfg s j o ({ s with inFlight := n }.setLoop j v)
  | handles {m : M} (hw : s.loops[j]? = some (.running m)) :
      Worked cfg s j o
        ({ s with handled := s.handled++[(m,o)] }.setLoop j (.settling m (processTask cfg o)))
  | calls {w v : Loop M} {m : M} {st : Settlement} {a : Bool} (hw : s.loops[j]? = some w)
      (hh : w.holds = [m]) (hv : v = .selecting ∨ v = .leaving)
      (hst : w = .settling m st ∨ (st = .nak ∧ s.shut = true)) :
      Worked cfg s j o ((s.call m st a).setLoop j v)

lemma workStep_worked {cfg : ExitWorker} {s t : Exit M} {j : ℕ} {o : Outcome} {a : Bool}
    (h : workStep cfg s j o a = some t) : Worked cfg s j o t := by
  unfold workStep at h
  split at h
  · rename_i m hw
    split at h
    · rename_i hshut
      cases h
      exact .calls hw rfl (.inl rfl) (.inr ⟨rfl,hshut⟩)
    · cases h
      exact .passes hw rfl (.inr ⟨m,rfl⟩)
  · rename_i m hw
    cases h
    exact .handles hw
  · rename_i m st hw
    cases h
    exact .calls hw rfl (.inr rfl) (.inl rfl)
  · rename_i hw
    cases h
    exact .passes hw rfl (.inl rfl)
  · cases h

end SdkApi.ExitWorkers
