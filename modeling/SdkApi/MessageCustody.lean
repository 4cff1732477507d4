import SdkApi.ExitWorkers
import Mathlib.Data.List.Nodup

/-!
# Where a message is

A message that the exit worker has accepted is with a feeder, in the task
channel, with a worker, or settled, and a step moves it from one to the next.
Only the loop of a Kafka subscription settles a message that has already left
it.
-/

namespace SdkApi.MessageCustody
open Channels ExitWorkers List Option

variable {M : Type} [DecidableEq M]

def places (s : Exit M) (m : M) : ℕ :=
  held Feeder.holds s.feeders m+s.tasks.buffer.count m+held Loop.holds s.loops m
    +(s.calls.map Call.msg).count m

omit [DecidableEq M] in
/-- The message that a Kafka loop acknowledges in a step. -/
def again (s : Exit M) : Label M → List M
  | .feed i _ _ => s.feeders[i]?.elim [] Feeder.returns
  | _ => []

structure Accounts (s : Exit M) (l : Label M) (t : Exit M) (new : List M) : Prop where
  accepted : t.accepted = s.accepted++new
  nodup : new.Nodup
  fresh : ∀ m ∈ new, m ∉ s.accepted
  moved : ∀ m, places t m = places s m+new.count m+(again s l).count m

variable {s t : Exit M} {l : Label M} {cfg : ExitWorker} {j : ℕ} {i : ℕ}

lemma accounts_of_moved (ha : t.accepted = s.accepted)
    (hm : ∀ m, places t m = places s m+(again s l).count m) : Accounts s l t [] :=
  ⟨by rw [ha, append_nil],nodup_nil,by simp,fun m => by simpa using hm m⟩

lemma places_setFeeder {s : Exit M} {f : Feeder M} (hf : s.feeders[i]? = some f) (g : Feeder M)
    (m : M) : places (s.setFeeder i g) m+f.holds.count m = places s m+g.holds.count m := by
  have h := held_set Feeder.holds hf g m
  simp only [places, Exit.setFeeder]
  omega

lemma places_setLoop {s : Exit M} {w : Loop M} (hw : s.loops[j]? = some w) (v : Loop M) (m : M) :
    places (s.setLoop j v) m+w.holds.count m = places s m+v.holds.count m := by
  have h := held_set Loop.holds hw v m
  simp only [places, Exit.setLoop]
  omega

lemma places_call (s : Exit M) (n : M) (st : Settlement) (a : Bool) (m : M) :
    places (s.call n st a) m = places s m+[n].count m := by
  simp only [places, Exit.call, map_append, map_cons, map_nil, count_append]
  omega

lemma places_queue (s : Exit M) (n m : M) : places (s.queue n) m = places s m+[n].count m := by
  simp only [places, Exit.queue, count_append]
  omega

lemma feedStep_accounts {c a : Bool} (h : feedStep s i c a = some t) :
    Accounts s (.feed i c a) t [] := by
  have he := feedStep_fed h
  clear h
  cases he with
  | @goes f g hf hr hh hs =>
    refine accounts_of_moved rfl fun m => ?_
    have hp := places_setFeeder hf g m
    simp only [again, hf, elim_some, hr, count_nil]
    rw [hh] at hp
    omega
  | @naks f g n b hf hh hs hshut =>
    refine accounts_of_moved rfl fun m => ?_
    have hp := places_setFeeder (s := s.call n .nak b) (f := f) hf g m
    have hr : f.returns = [] := by
      cases f <;> first | rfl | simp [Feeder.holds] at hh
    rw [places_call, hh, ← singleton_append, count_append] at hp
    simp only [again, hf, elim_some, hr, count_nil]
    omega
  | @sends n caller hf hc =>
    refine accounts_of_moved rfl fun m => ?_
    have hp := places_setFeeder (s := s.queue n) hf (after n caller) m
    rw [places_queue, holds_after, show (Feeder.sending n caller).holds = [n]++caller.rest from rfl,
      count_append] at hp
    simp only [again, hf, elim_some, Feeder.returns, count_nil]
    omega
  | panics hf hc =>
    refine accounts_of_moved rfl fun m => ?_
    simp [again, hf, Feeder.returns, places]
  | @acks n b hf =>
    refine accounts_of_moved rfl fun m => ?_
    have hp := places_setFeeder (s := s.call n .ack b) hf .polling m
    rw [places_call] at hp
    simp only [again, hf, elim_some, Feeder.returns]
    simpa [Feeder.holds] using hp

lemma workStep_accounts {o : Outcome} {a : Bool}
    (h : workStep cfg s j o a = some t) : Accounts s (.work j o a) t [] := by
  have ho := workStep_worked h
  clear h
  cases ho with
  | @passes w v n hw hh hv =>
    refine accounts_of_moved rfl fun m => ?_
    have hp := places_setLoop (s := { s with inFlight := n }) hw v m
    rw [hh] at hp
    exact Nat.add_right_cancel hp
  | @handles n hw =>
    refine accounts_of_moved rfl fun m => ?_
    exact Nat.add_right_cancel
      (places_setLoop (s := { s with handled := s.handled++[(n,o)] }) hw _ m)
  | @calls w v n st b hw hh hv hst =>
    refine accounts_of_moved rfl fun m => ?_
    have hp := places_setLoop (s := s.call n st b) hw v m
    have hn : v.holds = [] := by rcases hv with rfl | rfl <;> rfl
    rw [places_call, hh, hn] at hp
    exact Nat.add_right_cancel hp

lemma takeStep_accounts (h : takeStep s j = some t) : Accounts s (.take j) t [] := by
  unfold takeStep at h
  split at h
  · rename_i n tasks hw hr
    cases h
    refine accounts_of_moved rfl fun m => ?_
    have hp := places_setLoop (s := { s with tasks := tasks }) hw (.received n) m
    have hb : places s m = places { s with tasks := tasks } m+[n].count m := by
      simp only [places, receive_got hr]
      rw [← singleton_append, count_append]
      omega
    rw [hb]
    exact hp
  · rename_i hw hr
    cases h
    refine accounts_of_moved rfl fun m => ?_
    exact places_setLoop hw .stopped m
  · cases h

lemma quitStep_accounts (h : quitStep s j = some t) : Accounts s (.quit j) t [] := by
  unfold quitStep at h
  split at h
  · rename_i hw
    split at h <;> cases h
    refine accounts_of_moved rfl fun m => ?_
    exact places_setLoop hw .stopped m
  · cases h

lemma fetchStep_accounts {r : Option (List M)}
    (h : fetchStep s i r = some t) : ∃ new, Accounts s (.fetch i r) t new := by
  unfold fetchStep at h
  split at h
  · rename_i ms hf
    split at h <;> cases h
    rename_i hn
    refine ⟨ms,rfl,hn.1,hn.2,fun m => ?_⟩
    exact places_setFeeder (s := { s with accepted := s.accepted++ms }) hf (.batch ms) m
  · rename_i hf
    cases h
    refine ⟨[],accounts_of_moved rfl fun m => ?_⟩
    have hi : (if s.shut then Feeder.stopped else .top : Feeder M).holds = [] := by split <;> rfl
    have hp := places_setFeeder hf (if s.shut then .stopped else .top) m
    rw [hi] at hp
    exact hp
  · rename_i n hf
    split at h <;> cases h
    rename_i hn
    refine ⟨[n],rfl,nodup_singleton n,by simpa using hn,fun m => ?_⟩
    exact places_setFeeder (s := { s with accepted := s.accepted++[n] }) hf (.checking n .kafka) m
  · rename_i hf
    cases h
    exact ⟨[],accounts_of_moved rfl (places_setFeeder hf .stopped)⟩
  · cases h

lemma deliverStep_accounts {n : M} (h : deliverStep s n = some t) :
    Accounts s (.deliver n) t [n] := by
  unfold deliverStep at h
  split at h
  · cases h
  · rename_i he
    cases h
    refine ⟨rfl,nodup_singleton n,by simpa using fun hn => he (.inr hn),fun m => ?_⟩
    simp only [places, held_append, Feeder.holds, Caller.rest, again, count_nil]
    omega

lemma shutdownStep_accounts (h : shutdownStep s l = some t) : Accounts s l t [] := by
  cases l with
  | signal | closeTasks | check | expire =>
    simp only [shutdownStep] at h
    split at h <;> cases h
    exact accounts_of_moved rfl fun m => rfl
  | _ => cases h

lemma step_accounts (h : step cfg s l = some t) : ∃ new, Accounts s l t new := by
  unfold step at h
  split at h
  · cases h
  · split at h
    · exact ⟨_,deliverStep_accounts h⟩
    · exact fetchStep_accounts h
    · exact ⟨_,feedStep_accounts h⟩
    · exact ⟨_,takeStep_accounts h⟩
    · exact ⟨_,quitStep_accounts h⟩
    · exact ⟨_,workStep_accounts h⟩
    · exact ⟨_,shutdownStep_accounts h⟩

lemma places_started (cfg : ExitWorker) (push : Bool) {feeders : List (Feeder M)}
    (hf : ∀ f ∈ feeders, f.holds = []) (m : M) : places (started cfg push feeders) m = 0 := by
  have hw : ∀ w ∈ List.replicate (concurrency cfg) (Loop.selecting : Loop M), w.holds = [] := by
    intro w hw
    rw [eq_of_mem_replicate hw]
    rfl
  simp [places, started, held_eq_zero hf, held_eq_zero hw]

end SdkApi.MessageCustody
