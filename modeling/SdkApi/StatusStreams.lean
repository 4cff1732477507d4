import SdkApi.Channels
import SdkApi.GuardedRuns
import SdkApi.JobStores

/-!
# Streams of a job's status

`HandleStatusSSE` writes a snapshot of the job and subscribes only when the
body is streamed. A broadcast holds the lock of the subscriptions, which
subscribing and unsubscribing take as well; it sends the record of the moment
and drops it where a channel is full.
-/

namespace SdkApi.StatusStreams
open Channels GuardedRuns JobStores List

/-- The goroutine of `HandleSubmit`, by what it does next. -/
inductive Worker where
  | marks
  | announces
  | works
  | reports
  | ended
  deriving DecidableEq

inductive Phase where
  | absent
  | answered
  | listening
  | closed
  deriving DecidableEq

structure Client where
  phase : Phase := .absent
  channel : Channel JobStatus := ⟨8,[],false⟩
  sent : List JobStatus := []

/-- One job, with `none` for a record that is gone. -/
structure State where
  status : Option JobStatus := some .pending
  worker : Worker := .marks
  clients : ℕ → Client := fun _ => {}

inductive Label where
  | mark
  | announce
  | finish (failed : Bool)
  | report
  | reapStale (gaveUp : Bool)
  | cancel
  | snapshot (i : ℕ)
  | subscribe (i : ℕ)
  | receive (i : ℕ)
  | hangUp (i : ℕ)

/-- `select { case ch <- *js: default: }` for a channel that is subscribed. -/
def deliver (st : JobStatus) (c : Client) : Client :=
  match c.phase, c.channel.send st with
  | .listening, .sent ch => { c with channel := ch }
  | _, _ => c

def broadcast (s : State) (i : ℕ) : Client :=
  match s.status with
  | none => s.clients i
  | some st => deliver st (s.clients i)

def unsubscribe (c : Client) : Client :=
  { c with phase := .closed, channel := { c.channel with closed := true } }

/-- An event is written; a terminal one is the last. -/
def emit (c : Client) (st : JobStatus) : Client :=
  let c := { c with sent := c.sent++[st] }
  if st.terminal then unsubscribe c else c

def put (s : State) (i : ℕ) (c : Client) : State :=
  { s with clients := Function.update s.clients i c }

def step (s : State) : Label → Option State
  | .mark =>
    if s.worker = .marks then
      some { s with status := s.status.map fun _ => .processing, worker := .announces }
    else none
  | .announce =>
    if s.worker = .announces then some { s with clients := broadcast s, worker := .works } else none
  | .finish failed =>
    if s.worker = .works then
      some { s with
        status := s.status.map fun _ => bif failed then .failed else .completed
        worker := .reports }
    else none
  | .report =>
    if s.worker = .reports then some { s with clients := broadcast s, worker := .ended } else none
  | .reapStale gaveUp =>
    if s.status = some .processing then
      some { s with status := some (bif gaveUp then .failed else .pending) }
    else none
  | .cancel => if s.status = some .processing then none else some { s with status := none }
  | .snapshot i =>
    match (s.clients i).phase, s.status with
    | .absent, some st => some (put s i (emit { s.clients i with phase := .answered } st))
    | _, _ => none
  | .subscribe i =>
    if (s.clients i).phase = .answered then
      some (put s i { s.clients i with phase := .listening, channel := ⟨8,[],false⟩ })
    else none
  | .receive i =>
    match (s.clients i).phase, (s.clients i).channel.receive with
    | .listening, .got st ch => some (put s i (emit { s.clients i with channel := ch } st))
    | _, _ => none
  | .hangUp i =>
    if (s.clients i).phase = .listening then some (put s i (unsubscribe (s.clients i))) else none

/-- How often the worker has broadcast. -/
def Worker.broadcasts : Worker → ℕ
  | .marks | .announces => 0
  | .works | .reports => 1
  | .ended => 2

structure ClientOk (n : ℕ) (c : Client) : Prop where
  waiting : c.channel.buffer.length ≤ n
  live : c.phase = .listening → c.channel.closed = false ∧ c.channel.capacity = 8

structure Sound (s : State) : Prop where
  clients : ∀ i, ClientOk s.worker.broadcasts (s.clients i)
  reported : s.worker = .reports → ∀ st ∈ s.status, st.terminal = true

variable {s t : State} {c : Client} {n i : ℕ} {st : JobStatus}

lemma deliver_ok (h : ClientOk n c) : ClientOk (n+1) (deliver st c) := by
  unfold deliver
  split
  · rename_i he
    obtain ⟨hl,rfl⟩ := send_sent he
    exact ⟨by simpa using h.waiting,h.live⟩
  · exact ⟨Nat.le_succ_of_le h.waiting,h.live⟩

lemma emit_ok (h : ClientOk n c) : ClientOk n (emit c st) := by
  rw [emit]
  split_ifs
  · exact ⟨h.waiting,nofun⟩
  · exact ⟨h.waiting,h.live⟩

lemma broadcast_ok (h : Sound s) (i : ℕ) : ClientOk (s.worker.broadcasts+1) (broadcast s i) := by
  rw [broadcast]
  split
  · exact ⟨Nat.le_succ_of_le (h.clients i).waiting,(h.clients i).live⟩
  · exact deliver_ok (h.clients i)

lemma put_ok (h : Sound s) (hc : ClientOk s.worker.broadcasts c) : Sound (put s i c) := by
  refine ⟨fun j => ?_,h.reported⟩
  by_cases hj : j = i
  · subst hj
    simpa [put] using hc
  · simpa [put, Function.update_of_ne hj] using h.clients j

lemma step_sound {l : Label} (h : Sound s) (hstep : step s l = some t) : Sound t := by
  unfold step at hstep
  split at hstep
  case h_7 i =>
    split at hstep <;> cases hstep
    exact put_ok h (emit_ok ⟨(h.clients i).waiting,nofun⟩)
  case h_9 i =>
    split at hstep <;> cases hstep
    rename_i he hg
    obtain ⟨ha,hl⟩ := h.clients i
    rw [receive_got hg] at ha hl
    exact put_ok h (emit_ok ⟨Nat.le_of_succ_le ha,hl⟩)
  all_goals
    split_ifs at hstep with hw
    cases hstep
  · exact ⟨by simpa [hw, Worker.broadcasts] using h.clients,nofun⟩
  · exact ⟨fun j => by simpa [hw, Worker.broadcasts] using broadcast_ok h j,nofun⟩
  · refine ⟨by simpa [hw, Worker.broadcasts] using h.clients,fun _ st hst => ?_⟩
    obtain ⟨_,-,rfl⟩ := Option.map_eq_some_iff.mp hst
    rename Bool => failed
    cases failed <;> rfl
  · exact ⟨fun j => by simpa [hw, Worker.broadcasts] using broadcast_ok h j,nofun⟩
  · exact ⟨h.clients,fun hr => absurd (h.reported hr _ hw) (by simp [JobStatus.terminal])⟩
  · exact ⟨h.clients,nofun⟩
  · exact put_ok h ⟨Nat.zero_le _,fun _ => ⟨rfl,rfl⟩⟩
  · exact put_ok h ⟨(h.clients _).waiting,nofun⟩

/-- The status has been sent, or it waits behind others that do not end the stream. -/
def Coming (st : JobStatus) (c : Client) : Prop :=
  st ∈ c.sent ∨ c.phase = .listening ∧ ∃ before after, c.channel.buffer = before++st::after ∧
    ∀ x ∈ before, x.terminal = false

lemma coming_deliver {x : JobStatus} (h : Coming st c) : Coming st (deliver x c) := by
  unfold deliver
  split
  · rename_i hl he
    obtain ⟨-, rfl⟩ := send_sent he
    refine h.imp_right ?_
    rintro ⟨-, before, after, hb, hn⟩
    exact ⟨hl, before, after++[x], by simp [hb], hn⟩
  · exact h

lemma coming_broadcast (h : Coming st (s.clients i)) : Coming st (broadcast s i) := by
  rw [broadcast]
  split
  · exact h
  · exact coming_deliver h

lemma coming_emit {x : JobStatus} (h : st ∈ c.sent) : Coming st (emit c x) := by
  rw [emit]
  split_ifs
  · exact .inl (mem_append_left _ h)
  · exact .inl (mem_append_left _ h)

lemma coming_put {j : ℕ} (h : Coming st (s.clients i)) (hc : j = i → Coming st c) :
    Coming st ((put s j c).clients i) := by
  by_cases hj : j = i
  · subst hj
    simpa [put] using hc rfl
  · simpa [put, Function.update_of_ne (Ne.symm hj)] using h

lemma coming_receive {x : JobStatus} {ch : Channel JobStatus} (h : Coming st c)
    (hl : c.phase = .listening) (hg : c.channel.receive = .got x ch) :
    Coming st (emit { c with channel := ch } x) := by
  rcases h with h | ⟨-, before, after, hb, hn⟩
  · exact coming_emit h
  · rw [receive_got hg] at hb
    cases before with
    | nil =>
      cases hb
      rw [emit]
      split_ifs <;> exact .inl (by simp [unsubscribe])
    | cons y before =>
      obtain ⟨rfl, hr⟩ := cons.inj hb
      obtain ⟨hx, hn⟩ := forall_mem_cons.mp hn
      rw [emit, if_neg (by simp [hx])]
      exact .inr ⟨hl, before, after, hr, hn⟩

lemma coming_step {l : Label} (h : Coming st (s.clients i)) (hl : l ≠ .hangUp i)
    (hstep : step s l = some t) : Coming st (t.clients i) := by
  have hs : (s.clients i).phase ≠ .listening → st ∈ (s.clients i).sent := fun hp =>
    h.resolve_right fun hc => hp hc.1
  unfold step at hstep
  split at hstep
  case h_7 j =>
    split at hstep <;> cases hstep
    rename_i hp _
    exact coming_put h fun hj => by
      subst hj
      exact coming_emit (hs (by simp [hp]))
  case h_9 j =>
    split at hstep <;> cases hstep
    rename_i hp hg
    exact coming_put h fun hj => by
      subst hj
      exact coming_receive h hp hg
  all_goals
    split_ifs at hstep with hw
    cases hstep
  · exact h
  · exact coming_broadcast h
  · exact h
  · exact coming_broadcast h
  · exact h
  · exact h
  · exact coming_put h fun hj => by
      subst hj
      exact .inl (hs (by simp [hw]))
  · exact coming_put h fun hj => absurd (congrArg Label.hangUp hj) hl

def subscribedInTime : List Label := [.snapshot 0,.subscribe 0,.mark,.announce,.finish false]

end SdkApi.StatusStreams
