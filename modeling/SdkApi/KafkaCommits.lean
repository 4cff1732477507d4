import SdkApi.MessageCustody
import SdkApi.GuardedRuns

/-!
# What a Kafka commit covers

`Ack` and `Term` of a Kafka message commit its offset, and with it all earlier
offsets of its partition; `Nak` does nothing. The loop of the subscription
commits as soon as its handler has returned nil, and the handler of an exit
worker returns nil when the message is in the task channel.
-/

namespace SdkApi.KafkaCommits
open Channels ExitWorkers GuardedRuns MessageCustody List Option

structure Offset where
  partition : ℕ
  offset : ℕ
  deriving DecidableEq

/-- A commit of `c` moves the position of the partition past `m`. -/
def covers (c m : Offset) : Prop := c.partition = m.partition ∧ m.offset ≤ c.offset

def isCommit (c : Call Offset) : Prop := c.settlement ≠ .nak ∧ c.answered = true

def Covered (s : Exit Offset) (m : Offset) : Prop := ∃ c ∈ s.calls, isCommit c ∧ covers c.msg m

/-- The handler succeeds, or the message goes to the dead letters. -/
def completes (cfg : ExitWorker) (o : Outcome) : Bool :=
  match o.onMessage, o.handler with
  | some (.error _), _ => false
  | _, .ok _ => true
  | _, .error _ => cfg.termOnFailure

def Done (cfg : ExitWorker) (s : Exit Offset) (m : Offset) : Prop :=
  ∃ o, (m,o) ∈ s.handled ∧ completes cfg o = true

def InOrder (s : Exit Offset) : Label Offset → Prop
  | .fetch _ (some ms) =>
    ∀ m ∈ ms, ∀ n ∈ s.accepted, n.partition = m.partition → n.offset < m.offset
  | _ => True

def KafkaSteps (cfg : ExitWorker) (s : Exit Offset) (l : Label Offset) (t : Exit Offset) : Prop :=
  InOrder s l ∧ step cfg s l = some t

def AtRest (s : Exit Offset) : Prop :=
  s.shut = false ∧ s.tasks.buffer = [] ∧ ∀ w ∈ s.loops, w.holds = []

/-- A worker at rest acknowledges, and failures become dead letters. -/
def Prudent (cfg : ExitWorker) (s : Exit Offset) : Label Offset → Prop
  | .feed i _ _ => s.feeders[i]?.elim [] Feeder.returns = [] ∨ AtRest s
  | .work j o _ => s.loops[j]?.any Loop.isRunning = true → completes cfg o = true
  | _ => True

inductive Polls : Feeder Offset → List Offset → Prop where
  | polling : Polls .polling []
  | checking (m : Offset) : Polls (.checking m .kafka) [m]
  | sending (m : Offset) : Polls (.sending m .kafka) [m]
  | returned (m : Offset) : Polls (.returned m) [m]
  | stopped : Polls .stopped []

/-- Every message but that of the loop is done, which is the last one. -/
structure Earned (cfg : ExitWorker) (s : Exit Offset) (f : Feeder Offset) (current : List Offset) :
    Prop where
  feeders : s.feeders = [f]
  polls : Polls f current
  push : s.push = false
  done : ∀ m ∈ s.accepted, m ∈ current ∨ Done cfg s m
  known : ∀ m ∈ current, m ∈ s.accepted
  last : ∀ m ∈ current, ∀ n ∈ s.accepted, n ≠ m → n.partition = m.partition → n.offset < m.offset
  settling : ∀ m st, .settling m st ∈ s.loops → Done cfg s m
  commits : ∀ c ∈ s.calls, c.settlement ≠ .nak → Done cfg s c.msg
  calls : s.shut = false → ∀ c ∈ s.calls, Done cfg s c.msg

def Kept (s : Exit Offset) : Prop := ∀ m, m ∈ s.accepted ↔ 0 < places s m

variable {cfg : ExitWorker} {s t : Exit Offset} {f : Feeder Offset} {current : List Offset}
variable {l : Label Offset}
variable {m : Offset} {i : ℕ}

lemma done_of_append {more : List (Offset × Outcome)}
    (h : t.handled = s.handled++more) (hm : Done cfg s m) : Done cfg t m := by
  obtain ⟨o,ho,hc⟩ := hm
  exact ⟨o,by rw [h]; exact mem_append_left _ ho,hc⟩

lemma earned_covered (h : Earned cfg s f current) (hk : Kept s)
    (hm : m ∈ s.accepted) (hc : Covered s m) : Done cfg s m := by
  obtain ⟨c,hc,⟨hn,_⟩,ha,hof⟩ := hc
  have ho := h.commits c hc hn
  rcases h.done m hm with hu | hm
  · by_cases he : c.msg = m
    · exact he ▸ ho
    · have hac : c.msg ∈ s.accepted := by
        rw [hk]
        apply Nat.lt_of_lt_of_le _ (Nat.le_add_left _ _)
        exact count_pos_iff.mpr (List.mem_map_of_mem hc)
      have hl := h.last m hu c.msg hac he ha
      omega
  · exact hm

lemma kept_step (hk : Kept s) (ha : ∀ m ∈ again s l, m ∈ s.accepted)
    (h : step cfg s l = some t) : Kept t := by
  intro m
  obtain ⟨new,hac⟩ := step_accounts h
  have hg : 0 < (again s l).count m → 0 < places s m :=
    fun ho => (hk m).mp (ha m (count_pos_iff.mp ho))
  have hn : m ∈ new ↔ 0 < new.count m := count_pos_iff.symm
  rw [hac.accepted, mem_append, hk m, hac.moved m, hn]
  omega

lemma done_of_atRest (h : Earned cfg s (.returned m) [m]) (hk : Kept s)
    (hr : AtRest s) : Done cfg s m := by
  have ho := (hk m).mp (h.known m (mem_singleton_self m))
  have he : held Feeder.holds s.feeders m = 0 := by
    rw [h.feeders]
    rfl
  have ha : 0 < (s.calls.map Call.msg).count m := by
    simpa [places, he, hr.2.1, held_eq_zero hr.2.2] using ho
  obtain ⟨c,hc,rfl⟩ := List.mem_map.mp (count_pos_iff.mp ha)
  exact h.calls hr.1 c hc

lemma feeders_set (hf : s.feeders = [f]) (hi : s.feeders[i]? = some f)
    (g : Feeder Offset) : s.feeders.set i g = [g] := by
  rw [hf] at hi ⊢
  cases i with
  | zero => rfl
  | succ i => cases hi

lemma earned_setFeeder (h : Earned cfg s f current) (hi : s.feeders[i]? = some f)
    {g : Feeder Offset} (hg : Polls g current) : Earned cfg (s.setFeeder i g) g current :=
  { h with feeders := feeders_set h.feeders hi g, polls := hg }

lemma earned_call (h : Earned cfg s f current) {st : Settlement} (a : Bool)
    (hm : Done cfg s m ∨ (st = .nak ∧ s.shut)) : Earned cfg (s.call m st a) f current := by
  refine { h with commits := ?_, calls := ?_ }
  · intro c hc hn
    rcases mem_append.mp hc with hc | hc
    · exact h.commits c hc hn
    · rw [mem_singleton.mp hc] at hn ⊢
      exact hm.resolve_right fun ha => hn ha.1
  · intro ho c hc
    rcases mem_append.mp hc with hc | hc
    · exact h.calls ho c hc
    · rw [mem_singleton.mp hc]
      apply hm.resolve_right
      intro hshut
      exact absurd (hshut.2.symm.trans ho) (by simp)

lemma earned_setLoop (h : Earned cfg s f current) (j : ℕ) {v : Loop Offset}
    (hv : ∀ m st, v = .settling m st → Done cfg s m) : Earned cfg (s.setLoop j v) f current := by
  refine { h with settling := ?_ }
  intro m st hw
  rcases mem_or_eq_of_mem_set hw with hw | hw
  · exact h.settling m st hw
  · exact hv m st hw.symm

lemma earned_next (h : Earned cfg s (.returned m) [m]) (a : Bool)
    (hi : s.feeders[i]? = some (.returned m)) (hm : Done cfg s m) :
    Earned cfg ((s.call m .ack a).setFeeder i .polling) .polling [] := by
  have ha : Earned cfg (s.call m .ack a) (.returned m) [m] := earned_call h a (.inl hm)
  refine ⟨feeders_set h.feeders hi _,.polling,h.push,?_,by simp,by simp,ha.settling,
    ha.commits,ha.calls⟩
  intro n hn
  apply Or.inr
  rcases h.done n hn with hu | ho
  · rw [mem_singleton.mp hu]
    exact hm
  · exact ho

lemma earned_nak (h : Earned cfg s f [m]) (a : Bool)
    (hi : s.feeders[i]? = some f) (hshut : s.shut) :
    Earned cfg ((s.call m .nak a).setFeeder i (after m .kafka)) (.returned m) [m] :=
  earned_setFeeder (earned_call h a (.inr ⟨rfl,hshut⟩)) hi (.returned m)

lemma send_earned (h : Earned cfg s f [m]) (hi : s.feeders[i]? = some f)
    (hstep : s.send i m .kafka = some t) : ∃ g, Earned cfg t g [m] := by
  unfold Exit.send at hstep
  split at hstep
  · cases hstep
  · cases hstep
    exact ⟨f,{ h with }⟩
  · rename_i tasks he
    cases hstep
    have ht : Earned cfg { s with tasks := tasks } f [m] := { h with }
    exact ⟨_,earned_setFeeder ht hi (.returned m)⟩

section

variable (h : Earned cfg s f current) {c a : Bool} {j : ℕ}
include h

lemma getElem_of_feedStep {i : ℕ} (hstep : feedStep s i c a = some t) : s.feeders[i]? = some f := by
  unfold feedStep at hstep
  rw [h.feeders] at hstep ⊢
  cases i with
  | zero => rfl
  | succ i => cases hstep

lemma feed_earned (hk : Kept s) {i : ℕ} (hok : Prudent cfg s (.feed i c a))
    (hstep : feedStep s i c a = some t) : ∃ g next, Earned cfg t g next := by
  have hi := getElem_of_feedStep h hstep
  cases h.polls with
  | polling | stopped => simp [feedStep, hi] at hstep
  | checking m =>
    simp only [feedStep, hi, some.injEq] at hstep
    split at hstep
    · rename_i hshut
      subst hstep
      exact ⟨_,_,earned_nak h a hi hshut⟩
    · subst hstep
      exact ⟨_,_,earned_setFeeder h hi (.sending m)⟩
  | sending m =>
    simp only [feedStep, hi] at hstep
    split at hstep
    · obtain ⟨g,hg⟩ := send_earned h hi hstep
      exact ⟨g,_,hg⟩
    · split at hstep <;> cases hstep
      rename_i hshut
      exact ⟨_,_,earned_nak h a hi hshut⟩
  | returned m =>
    simp only [feedStep, hi, some.injEq] at hstep
    subst hstep
    have he : AtRest s := by
      apply hok.resolve_left
      rw [hi]
      simp [Feeder.returns]
    exact ⟨_,_,earned_next h a hi (done_of_atRest h hk he)⟩

lemma fetch_earned {i : ℕ} {r : Option (List Offset)} (hor : InOrder s (.fetch i r))
    (hstep : fetchStep s i r = some t) : ∃ g next, Earned cfg t g next := by
  unfold fetchStep at hstep
  have hf : ∀ {g}, s.feeders[i]? = some g → g = f := by
    intro g hg
    rw [h.feeders] at hg
    cases i with
    | zero => exact (some.inj hg).symm
    | succ i => cases hg
  have ho := h.polls
  split at hstep
  · rename_i hg
    rw [← hf hg] at ho
    cases ho
  · rename_i hg
    rw [← hf hg] at ho
    cases ho
  · rename_i m hg
    split at hstep <;> cases hstep
    rename_i he
    obtain rfl := hf hg
    cases ho
    refine ⟨_,_,feeders_set h.feeders hg _,.checking m,h.push,?_,?_,?_,h.settling,h.commits,
      h.calls⟩
    · intro n hn
      rcases mem_append.mp hn with hn | hn
      · exact .inr ((h.done n hn).resolve_left (by simp))
      · exact .inl hn
    · intro n hn
      exact mem_append_right _ hn
    · intro n hn p hp hne ha
      obtain rfl := mem_singleton.mp hn
      rcases mem_append.mp hp with hp | hp
      · exact hor n (mem_singleton_self n) p hp ha
      · exact absurd (mem_singleton.mp hp) hne
  · rename_i hg
    cases hstep
    obtain rfl := hf hg
    cases ho
    exact ⟨_,_,earned_setFeeder h hg .stopped⟩
  · cases hstep

lemma work_earned {o : Outcome} {a : Bool} (hok : Prudent cfg s (.work j o a))
    (hstep : workStep cfg s j o a = some t) : Earned cfg t f current := by
  have ho := workStep_worked hstep
  cases ho with
  | @passes w v n hw hh hv =>
    have hn : Earned cfg { s with inFlight := n } f current := { h with }
    exact earned_setLoop hn j (by rcases hv with rfl | ⟨m,rfl⟩ <;> simp)
  | @handles m hw =>
    have hd : ∀ {n}, Done cfg s n → Done cfg { s with handled := s.handled++[(m,o)] } n :=
      done_of_append rfl
    have hn : Earned cfg { s with handled := s.handled++[(m,o)] } f current :=
      ⟨h.feeders,h.polls,h.push,fun n hn => (h.done n hn).imp_right hd,h.known,h.last,
        fun n st hw => hd (h.settling n st hw),fun c hc hst => hd (h.commits c hc hst),
        fun he c hc => hd (h.calls he c hc)⟩
    apply earned_setLoop hn j
    intro n st hst
    cases hst
    exact ⟨o,by simp,hok (by simp [hw, Loop.isRunning])⟩
  | @calls w v m st b hw hh hv hst =>
    have hm : Done cfg s m ∨ (st = .nak ∧ s.shut) := by
      apply hst.imp_left
      rintro rfl
      exact h.settling m st (mem_of_getElem? hw)
    exact earned_setLoop (earned_call h b hm) j (by rcases hv with rfl | rfl <;> simp)

lemma take_earned (hstep : takeStep s j = some t) : Earned cfg t f current := by
  unfold takeStep at hstep
  split at hstep
  · cases hstep
    rename_i tasks _ _
    have ht : Earned cfg { s with tasks := tasks } f current := { h with }
    exact earned_setLoop ht j (by simp)
  · cases hstep
    exact earned_setLoop h j (by simp)
  · cases hstep

lemma quit_earned (hstep : quitStep s j = some t) : Earned cfg t f current := by
  unfold quitStep at hstep
  split at hstep
  · split at hstep <;> cases hstep
    exact earned_setLoop h j (by simp)
  · cases hstep

lemma shutdown_earned (hstep : shutdownStep s l = some t) : Earned cfg t f current := by
  cases l with
  | signal =>
    simp only [shutdownStep] at hstep
    split at hstep <;> cases hstep
    exact { h with calls := by simp }
  | closeTasks | check | expire =>
    simp only [shutdownStep] at hstep
    split at hstep <;> cases hstep
    exact { h with }
  | _ => cases hstep

lemma step_earned (hk : Kept s) (hok : Prudent cfg s l)
    (hstep : KafkaSteps cfg s l t) : ∃ g next, Earned cfg t g next := by
  obtain ⟨ho,hstep⟩ := hstep
  unfold step at hstep
  split at hstep
  · cases hstep
  · split at hstep
    · simp [deliverStep, h.push] at hstep
    · exact fetch_earned h ho hstep
    · exact feed_earned h hk hok hstep
    · exact ⟨f,current,take_earned h hstep⟩
    · exact ⟨f,current,quit_earned h hstep⟩
    · exact ⟨f,current,work_earned h hok hstep⟩
    · exact ⟨f,current,shutdown_earned h hstep⟩

lemma again_accepted (l : Label Offset) : ∀ m ∈ again s l, m ∈ s.accepted := by
  intro m hm
  cases l with
  | feed i c a =>
    have hl := h.feeders
    cases hg : s.feeders[i]? with
    | none => simp [again, hg] at hm
    | some g =>
      have hgf : g ∈ s.feeders := mem_of_getElem? hg
      rw [h.feeders, mem_singleton] at hgf
      subst hgf
      simp only [again, hg, elim_some] at hm
      apply h.known
      cases h.polls with
      | returned n => exact hm
      | _ => cases hm
  | _ => cases hm

end

lemma start_earned {s : Exit Offset} (hs : startExitWorker cfg .kafka = some s) :
    Earned cfg s .polling [] ∧ Kept s := by
  simp only [startExitWorker] at hs
  split at hs
  · cases hs
  · cases hs
    constructor
    · refine ⟨rfl,.polling,rfl,by simp [started],by simp,by simp,?_,by simp [started],
        by simp [started]⟩
      intro m st hw
      cases eq_of_mem_replicate hw
    · intro m
      rw [places_started cfg false (by simp [Feeder.holds]) m]
      simp [started]

/-- At every point of such a run the committed position covers only messages
that are done. -/
theorem run_commits_earned (cfg : ExitWorker) {s t : Exit Offset} {ls : List (Label Offset)}
    (hs : startExitWorker cfg .kafka = some s) (h : Run (KafkaSteps cfg) (Prudent cfg) s ls t) :
    ∀ m ∈ t.accepted, Covered t m → Done cfg t m := by
  have hi : (∃ f current, Earned cfg t f current) ∧ Kept t := by
    apply run_invariant (fun s => (∃ f current, Earned cfg s f current) ∧ Kept s) _ h
    · obtain ⟨he,hk⟩ := start_earned hs
      exact ⟨⟨_,_,he⟩,hk⟩
    · rintro s l t ⟨⟨f,current,he⟩,hk⟩ hok hstep
      exact ⟨step_earned he hk hok hstep,kept_step hk (again_accepted he l) hstep.2⟩
  obtain ⟨⟨f,current,he⟩,hk⟩ := hi
  intro m hm hc
  exact earned_covered he hk hm hc

instance (s : Exit Offset) : (l : Label Offset) → Decidable (InOrder s l)
  | .fetch _ (some ms) =>
    inferInstanceAs (Decidable (∀ m ∈ ms, ∀ n ∈ s.accepted,
      n.partition = m.partition → n.offset < m.offset))
  | .fetch _ none => isTrue trivial
  | .deliver _ | .feed _ _ _ | .take _ | .quit _ | .work _ _ _ | .signal | .closeTasks | .check
  | .expire => isTrue trivial

instance (s : Exit Offset) : Decidable (AtRest s) :=
  inferInstanceAs (Decidable (s.shut = false ∧ s.tasks.buffer = [] ∧ ∀ w ∈ s.loops, w.holds = []))

instance (cfg : ExitWorker) (s : Exit Offset) : (l : Label Offset) → Decidable (Prudent cfg s l)
  | .feed i _ _ =>
    inferInstanceAs (Decidable (s.feeders[i]?.elim [] Feeder.returns = [] ∨ AtRest s))
  | .work j o _ =>
    inferInstanceAs (Decidable (s.loops[j]?.any Loop.isRunning = true → completes cfg o = true))
  | .deliver _ | .fetch _ _ | .take _ | .quit _ | .signal | .closeTasks | .check | .expire =>
    isTrue trivial

def oneWorker : ExitWorker := ⟨1,false,0,"",false⟩

def polling : Exit Offset := started oneWorker false [.polling]

def first : Offset := ⟨0,0⟩

def answers (handler : Except String String) : Outcome := ⟨none,handler,.ok ()⟩

def fetched (m : Offset) : List (Label Offset) :=
  [.fetch 0 (some [m]),.feed 0 true true,.feed 0 true true]

def worked (o : Outcome) : List (Label Offset) :=
  [.take 0,.work 0 o true,.work 0 o true,.work 0 o true,.work 0 o true]

def acknowledged : List (Label Offset) := [.feed 0 true true]

def reached (ls : List (Label Offset)) : Exit Offset := (play (step oneWorker) polling ls).getD polling

lemma run_reached {ok : Exit Offset → Label Offset → Prop} [∀ s l, Decidable (ok s l)]
    {ls : List (Label Offset)}
    (h : play (fun s l => if InOrder s l ∧ ok s l then step oneWorker s l else none) polling ls =
      some (reached ls)) : Run (KafkaSteps oneWorker) ok polling ls (reached ls) :=
  run_imp (fun _ _ _ hok hstep => ⟨hok.1,hstep⟩) (fun _ _ hok => hok.2) (run_of_guarded_play h)

def handledThenCommitted : List (Label Offset) :=
  fetched first++worked (answers (.ok "done"))++acknowledged

theorem handled_message_committed :
    startExitWorker oneWorker .kafka = some polling ∧
    Run (KafkaSteps oneWorker) (Prudent oneWorker) polling handledThenCommitted
      (reached handledThenCommitted) ∧
    first ∈ (reached handledThenCommitted).accepted ∧
    Covered (reached handledThenCommitted) first ∧
    Done oneWorker (reached handledThenCommitted) first := by
  have ht : startExitWorker oneWorker .kafka = some polling := rfl
  have hrun : Run (KafkaSteps oneWorker) (Prudent oneWorker) polling handledThenCommitted
      (reached handledThenCommitted) := run_reached rfl
  have hm : first ∈ (reached handledThenCommitted).accepted := mem_singleton_self first
  have ho : Covered (reached handledThenCommitted) first :=
    ⟨⟨first,.ack,true⟩,.head _,⟨by decide,rfl⟩,rfl,Nat.le_refl 0⟩
  exact ⟨ht,hrun,hm,ho,run_commits_earned oneWorker ht hrun first hm ho⟩

def committedInQueue : List (Label Offset) := fetched first++acknowledged

/-- The worker's `Nak` does nothing, and the loop acknowledges. -/
def committedAfterFailure : List (Label Offset) :=
  fetched first++worked (answers (.error "unavailable"))++acknowledged

theorem queued_and_failed_messages_committed :
    startExitWorker oneWorker .kafka = some polling ∧
    Run (KafkaSteps oneWorker) (fun _ _ => True) polling committedInQueue
      (reached committedInQueue) ∧
    Covered (reached committedInQueue) first ∧
    (reached committedInQueue).tasks.buffer = [first] ∧
    ¬ Done oneWorker (reached committedInQueue) first ∧
    Run (KafkaSteps oneWorker) (fun _ _ => True) polling committedAfterFailure
      (reached committedAfterFailure) ∧
    Covered (reached committedAfterFailure) first ∧
    ¬ Done oneWorker (reached committedAfterFailure) first := by
  have ha : (reached committedAfterFailure).handled = [(first,answers (.error "unavailable"))] :=
    rfl
  refine ⟨rfl,run_reached rfl,⟨⟨first,.ack,true⟩,.head _,⟨by decide,rfl⟩,rfl,Nat.le_refl 0⟩,
    rfl,?_,run_reached rfl,
    ⟨⟨first,.ack,true⟩,.tail _ (.head _),⟨by decide,rfl⟩,rfl,Nat.le_refl 0⟩,?_⟩
  · rintro ⟨o,ho,_⟩
    cases ho
  · rintro ⟨o,ho,hc⟩
    rw [ha, mem_singleton] at ho
    cases ho
    cases hc

end SdkApi.KafkaCommits
