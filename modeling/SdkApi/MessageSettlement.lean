import SdkApi.MessageCustody
import SdkApi.GuardedRuns

/-!
# Every message is settled exactly once

What can go wrong lies in the shutdown: a worker may take the signal while
messages wait in the channel, and a feeder that has passed its first select may
still send. And the loop of a Kafka subscription acknowledges what it has only
put in the channel.
-/

namespace SdkApi.MessageSettlement
open Channels ExitWorkers GuardedRuns MessageCustody List

variable {M : Type}

def NoneSending (s : Exit M) : Prop := ∀ f ∈ s.feeders, f.isSending = false

def Quiet (s : Exit M) : Prop := s.shut = true ∧ NoneSending s

/-- No feeder is between its selects, and the drained channel is empty. -/
def Orderly (s : Exit M) : Label M → Prop
  | .quit _ => s.tasks.buffer = [] ∧ NoneSending s
  | .closeTasks => NoneSending s
  | .feed i _ _ => s.feeders[i]?.elim [] Feeder.returns = []
  | _ => True

structure Calm (s : Exit M) : Prop where
  alive : s.panicked = false
  loops : s.loops ≠ []
  signalled : s.stage ≠ .idle → s.shut = true
  closed : s.tasks.closed = true → Quiet s
  stopped : .stopped ∈ s.loops → Quiet s ∧ s.tasks.buffer = []

section

variable {s : Exit M} {g : Feeder M} {v : Loop M}

lemma noneSending_setFeeder (h : NoneSending s) (i : ℕ)
    (hg : g.isSending = false) : NoneSending (s.setFeeder i g) :=
  forall_set h hg

lemma mem_of_mem_setLoop {j : ℕ} (hv : v ≠ .stopped)
    (h : .stopped ∈ (s.setLoop j v).loops) : .stopped ∈ s.loops := by
  rcases mem_or_eq_of_mem_set h with h | h
  · exact h
  · exact absurd h.symm hv

lemma setLoop_ne_nil (h : s.loops ≠ []) (j : ℕ) (v : Loop M) : (s.setLoop j v).loops ≠ [] := by
  simpa [Exit.setLoop] using h

lemma calm_setFeeder (h : Calm s) (i : ℕ)
    (hg : g.isSending → s.shut = false) : Calm (s.setFeeder i g) := by
  have hq : Quiet s → Quiet (s.setFeeder i g) := by
    intro hq
    apply And.intro hq.1
    apply noneSending_setFeeder hq.2
    by_contra hs
    have ho := hg (by simpa using hs)
    rw [hq.1] at ho
    cases ho
  exact ⟨h.alive,h.loops,h.signalled,fun hc => hq (h.closed hc),
    fun hw => ⟨hq (h.stopped hw).1,(h.stopped hw).2⟩⟩

lemma calm_setLoop (h : Calm s) (j : ℕ) (hv : v ≠ .stopped) : Calm (s.setLoop j v) :=
  ⟨h.alive,setLoop_ne_nil h.loops j v,h.signalled,h.closed,
    fun hw => h.stopped (mem_of_mem_setLoop hv hw)⟩

lemma calm_stop (h : Calm s) (j : ℕ) (hq : Quiet s) (hb : s.tasks.buffer = []) :
    Calm (s.setLoop j .stopped) :=
  ⟨h.alive,setLoop_ne_nil h.loops j _,h.signalled,h.closed,fun _ => ⟨hq,hb⟩⟩

lemma calm_call (h : Calm s) {m : M} {st : Settlement} {a : Bool} : Calm (s.call m st a) :=
  { h with }

lemma sending_not_quiet {i : ℕ} {m : M} {caller : Caller M}
    (hf : s.feeders[i]? = some (.sending m caller)) : ¬ Quiet s := by
  intro hq
  have h := hq.2 _ (mem_of_getElem? hf)
  cases h

end

variable {s t : Exit M} {cfg : ExitWorker} {l : Label M} {b : Broker} {j : ℕ}

lemma fed_calm {i : ℕ} (hs : Calm s) (h : Fed s i t) : Calm t := by
  cases h with
  | goes hf hr hh he => exact calm_setFeeder hs i he
  | naks hf hh he hshut => exact calm_setFeeder (calm_call hs) i (by simp [he])
  | @sends m caller hf hc =>
    -- the channel is open and every worker runs, or the feeder could not send
    have ho : Calm (s.queue m) :=
      { hs with stopped := fun hw => absurd (hs.stopped hw).1 (sending_not_quiet hf) }
    exact calm_setFeeder ho i (by simp)
  | panics hf hc => exact absurd (hs.closed hc) (sending_not_quiet hf)
  | acks hf => exact calm_setFeeder (calm_call hs) i (by simp [Feeder.isSending])

lemma worked_calm {o : Outcome} (hs : Calm s) (h : Worked cfg s j o t) : Calm t := by
  cases h with
  | @passes w v n hw hh hv =>
    have hn : Calm { s with inFlight := n } := { hs with }
    exact calm_setLoop hn j (by rcases hv with rfl | ⟨m,rfl⟩ <;> simp)
  | @handles m hw =>
    have hn : Calm { s with handled := s.handled++[(m,o)] } := { hs with }
    exact calm_setLoop hn j (by simp)
  | calls hw hh hv hst =>
    exact calm_setLoop (calm_call hs) j (by rcases hv with rfl | rfl <;> simp)

lemma takeStep_calm (hs : Calm s) (h : takeStep s j = some t) : Calm t := by
  unfold takeStep at h
  split at h
  · rename_i m tasks hw hr
    cases h
    have hg := receive_got hr
    have hn : Calm { s with tasks := tasks } := by
      refine ⟨hs.alive,hs.loops,hs.signalled,fun hc => hs.closed ?_,fun hw => ?_⟩
      · rw [hg]
        exact hc
      · have hb := (hs.stopped hw).2
        rw [hg] at hb
        cases hb
    exact calm_setLoop hn j (by simp)
  · rename_i hw hr
    cases h
    obtain ⟨hc,hb⟩ := receive_closed hr
    exact calm_stop hs j (hs.closed hc) hb
  · cases h

lemma quitStep_calm (hs : Calm s) (hok : Orderly s (.quit j))
    (h : quitStep s j = some t) : Calm t := by
  unfold quitStep at h
  split at h
  · split at h <;> cases h
    rename_i hshut
    exact calm_stop hs j ⟨hshut,hok.2⟩ hok.1
  · cases h

lemma shutdownStep_calm (hs : Calm s) (hok : Orderly s l)
    (h : shutdownStep s l = some t) : Calm t := by
  cases l with
  | signal =>
    simp only [shutdownStep] at h
    split at h <;> cases h
    exact ⟨hs.alive,hs.loops,fun _ => rfl,fun hc => ⟨rfl,(hs.closed hc).2⟩,
      fun hw => ⟨⟨rfl,(hs.stopped hw).1.2⟩,(hs.stopped hw).2⟩⟩
  | closeTasks =>
    simp only [shutdownStep] at h
    split at h <;> cases h
    rename_i hst
    have hshut : s.shut := hs.signalled (by simp [hst])
    exact ⟨hs.alive,hs.loops,fun _ => hshut,fun _ => ⟨hshut,hok⟩,hs.stopped⟩
  | check | expire =>
    simp only [shutdownStep] at h
    split at h <;> cases h
    rename_i hst
    exact ⟨hs.alive,hs.loops,fun _ => hs.signalled (by simp [hst.1]),hs.closed,hs.stopped⟩
  | _ => cases h

lemma again_of_orderly {s : Exit M} (hok : Orderly s l) : again s l = [] := by
  cases l with
  | feed i c a => exact hok
  | _ => rfl

def AllStopped (s : Exit M) : Prop := (∀ f ∈ s.feeders, f = .stopped) ∧ ∀ w ∈ s.loops, w = .stopped

lemma startExitWorker_started {s : Exit M} (h : startExitWorker cfg b = some s) :
    ∃ push feeders, s = started cfg push feeders ∧ ∀ f ∈ feeders, f.holds = [] := by
  cases b with
  | nats =>
    simp only [startExitWorker, Option.some.injEq] at h
    split at h
    · exact ⟨_,_,h.symm,by simp [Feeder.holds]⟩
    · exact ⟨_,_,h.symm,by simp⟩
  | kafka =>
    simp only [startExitWorker] at h
    split at h
    · cases h
    · cases h
      exact ⟨_,_,rfl,by simp [Feeder.holds]⟩

lemma started_calm (cfg : ExitWorker) (push : Bool) (feeders : List (Feeder M)) :
    Calm (started cfg push feeders) where
  alive := rfl
  loops := by simpa [started] using Nat.ne_of_gt (concurrency_pos cfg)
  signalled := by simp [started]
  closed := by simp [started]
  stopped := fun hw => by cases eq_of_mem_replicate hw

variable [DecidableEq M]

lemma fetchStep_calm {i : ℕ} {r : Option (List M)} (hs : Calm s)
    (h : fetchStep s i r = some t) : Calm t := by
  have ha : ∀ ms, Calm { s with accepted := s.accepted++ms } := fun ms => { hs with }
  unfold fetchStep at h
  split at h
  · split at h <;> cases h
    exact calm_setFeeder (ha _) i (by simp [Feeder.isSending])
  · cases h
    apply calm_setFeeder hs i
    split <;> simp [Feeder.isSending]
  · split at h <;> cases h
    exact calm_setFeeder (ha _) i (by simp [Feeder.isSending])
  · cases h
    exact calm_setFeeder hs i (by simp [Feeder.isSending])
  · cases h

lemma deliverStep_calm {m : M} (hs : Calm s) (h : deliverStep s m = some t) : Calm t := by
  unfold deliverStep at h
  split at h
  · cases h
  · cases h
    have hq : Quiet s → ∀ f ∈ s.feeders++[.checking m .push], f.isSending = false := by
      intro hq f hf
      rcases mem_append.mp hf with hf | hf
      · exact hq.2 f hf
      · rw [mem_singleton.mp hf]
        rfl
    exact ⟨hs.alive,hs.loops,hs.signalled,
      fun hc => ⟨(hs.closed hc).1,hq (hs.closed hc)⟩,
      fun hw => ⟨⟨(hs.stopped hw).1.1,hq (hs.stopped hw).1⟩,(hs.stopped hw).2⟩⟩

lemma step_calm (hs : Calm s) (hok : Orderly s l) (h : step cfg s l = some t) : Calm t := by
  unfold step at h
  split at h
  · cases h
  · split at h
    · exact deliverStep_calm hs h
    · exact fetchStep_calm hs h
    · exact fed_calm hs (feedStep_fed h)
    · exact takeStep_calm hs h
    · exact quitStep_calm hs hok h
    · exact worked_calm hs (workStep_worked h)
    · exact shutdownStep_calm hs hok h

def Settled (s : Exit M) : Prop := s.accepted.Nodup ∧ ∀ m, places s m = s.accepted.count m

lemma step_settled (hs : Settled s)
    (hok : Orderly s l) (h : step cfg s l = some t) : Settled t := by
  obtain ⟨new,ha⟩ := step_accounts h
  constructor
  · rw [ha.accepted]
    apply List.Nodup.append hs.1 ha.nodup
    intro m hm hn
    exact ha.fresh m hn hm
  · intro m
    rw [ha.moved m, hs.2 m, ha.accepted, again_of_orderly hok, count_append]
    simp

lemma started_settled (cfg : ExitWorker) (push : Bool) {feeders : List (Feeder M)}
    (hf : ∀ f ∈ feeders, f.holds = []) : Settled (started cfg push feeders) :=
  ⟨nodup_nil,places_started cfg push hf⟩

def Steps (cfg : ExitWorker) (s : Exit M) (l : Label M) (t : Exit M) : Prop := step cfg s l = some t

lemma run_kept {ls : List (Label M)} (hs : startExitWorker cfg b = some s)
    (h : Run (Steps cfg) Orderly s ls t) : Calm t ∧ Settled t := by
  obtain ⟨push,feeders,rfl,hf⟩ := startExitWorker_started hs
  apply run_invariant (fun s => Calm s ∧ Settled s) _ h
  · exact ⟨started_calm cfg push feeders,started_settled cfg push hf⟩
  · intro s l t hs hok hstep
    exact ⟨step_calm hs.1 hok hstep,step_settled hs.2 hok hstep⟩

lemma places_of_allStopped {s : Exit M} (h : AllStopped s) (hb : s.tasks.buffer = []) (m : M) :
    places s m = (s.calls.map Call.msg).count m := by
  have hf : ∀ f ∈ s.feeders, f.holds = [] := by
    intro f hf
    rw [h.1 f hf]
    rfl
  have hw : ∀ w ∈ s.loops, w.holds = [] := by
    intro w hw
    rw [h.2 w hw]
    rfl
  simp [places, held_eq_zero hf, held_eq_zero hw, hb]

theorem run_settles_once (cfg : ExitWorker) (b : Broker) {s t : Exit M} {ls : List (Label M)}
    (hs : startExitWorker cfg b = some s) (h : Run (Steps cfg) Orderly s ls t) :
    t.panicked = false ∧ (t.stage = .drained → AllStopped t →
      t.tasks.buffer = [] ∧ ∀ m ∈ t.accepted, (t.calls.map Call.msg).count m = 1) := by
  obtain ⟨ha,he⟩ := run_kept hs h
  apply And.intro ha.alive
  intro _ ht
  -- there is a worker, and it has left nothing behind
  obtain ⟨w,hw⟩ := exists_mem_of_ne_nil _ ha.loops
  have hb : t.tasks.buffer = [] := (ha.stopped (ht.2 w hw ▸ hw)).2
  apply And.intro hb
  intro m hm
  rw [← places_of_allStopped ht hb, he.2 m]
  exact count_eq_one_of_mem he.1 hm

instance (s : Exit M) : Decidable (NoneSending s) :=
  inferInstanceAs (Decidable (∀ f ∈ s.feeders, f.isSending = false))

instance (s : Exit M) : (l : Label M) → Decidable (Orderly s l)
  | .quit _ => inferInstanceAs (Decidable (s.tasks.buffer = [] ∧ NoneSending s))
  | .closeTasks => inferInstanceAs (Decidable (NoneSending s))
  | .feed i _ _ => inferInstanceAs (Decidable (s.feeders[i]?.elim [] Feeder.returns = []))
  | .deliver _ | .fetch _ _ | .take _ | .work _ _ _ | .signal | .check | .expire => isTrue trivial

def onePush : ExitWorker := ⟨1,false,0,"",false⟩

def succeeds : Outcome := ⟨none,.ok "done",.ok ()⟩

def natsStart : Exit ℕ := started onePush true []

def kafkaStart : Exit ℕ := started onePush false [.polling]

/-- A message passes both selects of `enqueueMsg`. -/
def enqueued : List (Label ℕ) := [.feed 0 true true,.feed 0 true true]

def worked : List (Label ℕ) :=
  [.take 0,.work 0 succeeds true,.work 0 succeeds true,.work 0 succeeds true,.work 0 succeeds true]

def shutDown : List (Label ℕ) := [.signal,.quit 0,.closeTasks,.check]

def reached (s : Exit ℕ) (ls : List (Label ℕ)) : Exit ℕ := (play (step onePush) s ls).getD s

def processedThenShut : List (Label ℕ) := .deliver 0::(enqueued++worked++shutDown)

theorem message_processed_then_shutdown :
    startExitWorker onePush .nats = some natsStart ∧
    Run (Steps onePush) Orderly natsStart processedThenShut (reached natsStart processedThenShut) ∧
    (reached natsStart processedThenShut).accepted = [0] ∧
    ∀ m ∈ (reached natsStart processedThenShut).accepted,
      ((reached natsStart processedThenShut).calls.map Call.msg).count m = 1 := by
  have ht : startExitWorker onePush .nats = some natsStart := rfl
  have hrun : Run (Steps onePush) Orderly natsStart processedThenShut
      (reached natsStart processedThenShut) := run_of_guarded_play rfl
  have ho : AllStopped (reached natsStart processedThenShut) := by
    constructor
    · decide
    · decide
  exact ⟨ht,hrun,rfl,((run_settles_once onePush .nats ht hrun).2 rfl ho).2⟩

def leftInChannel : List (Label ℕ) := .deliver 0::(enqueued++shutDown)

def sentTooLate : List (Label ℕ) :=
  [.deliver 0,.feed 0 true true,.signal,.closeTasks,.feed 0 true true]

def ackedTwice : List (Label ℕ) :=
  .fetch 0 (some [0])::(enqueued++worked++[.feed 0 true true,.fetch 0 none]++shutDown)

theorem message_left_or_sent_late_or_acked_twice :
    startExitWorker onePush .nats = some natsStart ∧
    startExitWorker onePush .kafka = some kafkaStart ∧
    Run (Steps onePush) (fun _ _ => True) natsStart leftInChannel
      (reached natsStart leftInChannel) ∧
    (reached natsStart leftInChannel).stage = .drained ∧
    AllStopped (reached natsStart leftInChannel) ∧
    (reached natsStart leftInChannel).tasks.buffer = [0] ∧
    (reached natsStart leftInChannel).calls = [] ∧
    Run (Steps onePush) (fun _ _ => True) natsStart sentTooLate (reached natsStart sentTooLate) ∧
    (reached natsStart sentTooLate).panicked = true ∧
    Run (Steps onePush) (fun _ _ => True) kafkaStart ackedTwice (reached kafkaStart ackedTwice) ∧
    (reached kafkaStart ackedTwice).stage = .drained ∧
    AllStopped (reached kafkaStart ackedTwice) ∧
    (reached kafkaStart ackedTwice).calls = [⟨0,.ack,true⟩,⟨0,.ack,true⟩] :=
  ⟨rfl,rfl,run_of_play rfl,rfl,⟨by decide,by decide⟩,rfl,rfl,run_of_play rfl,rfl,run_of_play rfl,
    rfl,⟨by decide,by decide⟩,rfl⟩

end SdkApi.MessageSettlement
