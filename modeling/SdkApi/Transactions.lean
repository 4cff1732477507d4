import Mathlib.Data.List.Basic

/-!
# Transactions of statements that may fail

A transaction works on a copy of what is stored and publishes the copy when
it commits. A statement may be refused by the engine or fail for a reason
from outside, and then the transaction is rolled back. Some engines end the
open transaction with a commit before they run certain statements; from then
on every statement is stored at once.
-/

namespace SdkApi.Transactions

variable {α S : Type*}

/-- `exec` is `none` for a statement that the engine refuses. -/
structure Engine (α S : Type*) where
  exec : S → α → Option α
  implicit : S → Bool

structure Tx (α : Type*) where
  stored : α
  working : α
  active : Bool

inductive Point where
  | start
  | statement (i : ℕ)
  | commit
  deriving DecidableEq

namespace Engine

variable (e : Engine α S)

def enter (s : S) (tx : Tx α) : Tx α :=
  if e.implicit s then ⟨tx.working,tx.working,false⟩ else tx

def send (fault : Bool) (s : S) (tx : Tx α) : Bool × Tx α :=
  let tx := e.enter s tx
  match if fault then none else e.exec s tx.working with
  | none => (false,tx)
  | some a => (true,⟨if tx.active then tx.stored else a,a,tx.active⟩)

/-- The statements from number `i` on, up to the first that fails. -/
def sendAll (fault : ℕ → Bool) : ℕ → List S → Tx α → Option ℕ × Tx α
  | _, [], tx => (none,tx)
  | i, s::ss, tx =>
    let r := e.send (fault i) s tx
    if r.1 then sendAll fault (i+1) ss r.2 else (some i,r.2)

def transact (fault : Point → Bool) (ss : List S) (a : α) : Option Point × α :=
  if fault .start then (some .start,a)
  else
    match e.sendAll (fun i => fault (.statement i)) 0 ss ⟨a,a,true⟩ with
    | (some i,tx) => (some (.statement i),tx.stored)
    | (none,tx) => if fault .commit then (some .commit,tx.stored) else (none,tx.working)

/-- The effect of all statements, if none of them is refused. -/
def replay : List S → α → Option α
  | [], a => some a
  | s::ss, a => (e.exec s a).bind (replay ss)

def Atomic : Prop := ∀ s, e.implicit s = false

end Engine

variable {e : Engine α S}

lemma replay_append (ss ts : List S) (a : α) :
    e.replay (ss++ts) a = (e.replay ss a).bind (e.replay ts) := by
  induction ss generalizing a with
  | nil => rfl
  | cons s ss ih =>
    rw [List.cons_append, Engine.replay, Engine.replay, Option.bind_assoc]
    congr 1
    funext b
    exact ih b

section

variable {fault : Bool} {faults : ℕ → Bool} {s : S} {ss : List S} {tx : Tx α} {i : ℕ}

section

variable (he : e.Atomic) (hactive : tx.active)
include he hactive

lemma send_cases :
    e.send fault s tx = (false,tx) ∨
      ∃ a, e.exec s tx.working = some a ∧ e.send fault s tx = (true,{ tx with working := a }) := by
  have hn : e.enter s tx = tx := by simp [Engine.enter, he s]
  cases fault with
  | true =>
    left
    simp [Engine.send, hn]
  | false =>
    cases hx : e.exec s tx.working with
    | none =>
      left
      simp [Engine.send, hn, hx]
    | some a =>
      right
      exact ⟨a,rfl,by simp [Engine.send, hn, hx, hactive]⟩

lemma sendAll_spec :
    (e.sendAll faults i ss tx).2.stored = tx.stored ∧
      ((e.sendAll faults i ss tx).1 = none →
        e.replay ss tx.working = some (e.sendAll faults i ss tx).2.working) := by
  induction ss generalizing i tx with
  | nil => exact ⟨rfl,fun _ => rfl⟩
  | cons s ss ih =>
    rw [Engine.sendAll]
    rcases @send_cases _ _ e (faults i) s tx he hactive with hn | ⟨a,hx,hn⟩
    · simp [hn]
    · obtain ⟨ht,hl⟩ := @ih { tx with working := a } (i+1) hactive
      simp only [hn, if_true]
      refine ⟨ht,fun ho => ?_⟩
      rw [Engine.replay, hx]
      exact hl ho

omit faults in
lemma sendAll_of_replay {b : α} (h : e.replay ss tx.working = some b) :
    e.sendAll (fun _ => false) i ss tx = (none, { tx with working := b }) := by
  induction ss generalizing i tx with
  | nil =>
    cases h
    rfl
  | cons s ss ih =>
    obtain ⟨a, hx, ht⟩ := Option.bind_eq_some_iff.mp h
    have hn : e.send false s tx = (true, { tx with working := a }) := by
      simp [Engine.send, Engine.enter, he s, hx, hactive]
    simp only [Engine.sendAll, hn, if_true]
    exact @ih { tx with working := a } (i+1) hactive ht

end

end

section

variable {fault : Point → Bool} {ss : List S} {a b : α}

lemma transact_cases (he : e.Atomic) :
    (∃ p, e.transact fault ss a = (some p,a)) ∨
      ∃ b, e.replay ss a = some b ∧ e.transact fault ss a = (none,b) := by
  unfold Engine.transact
  split
  · exact .inl ⟨.start,rfl⟩
  · obtain ⟨ht,hl⟩ :=
      @sendAll_spec _ _ e (fun i => fault (.statement i)) ss ⟨a,a,true⟩ 0 he rfl
    split
    · rename_i i tx hn
      rw [hn] at ht
      exact .inl ⟨.statement i,by rw [ht]⟩
    · rename_i tx hn
      rw [hn] at ht hl
      split
      · exact .inl ⟨.commit,by rw [ht]⟩
      · exact .inr ⟨tx.working,hl rfl,rfl⟩

lemma transact_of_replay (he : e.Atomic) (h : e.replay ss a = some b) :
    e.transact (fun _ => false) ss a = (none, b) := by
  have hn := @sendAll_of_replay _ _ e ss ⟨a, a, true⟩ 0 he rfl b h
  simp [Engine.transact, hn]

end

end SdkApi.Transactions
