import Mathlib.Data.List.Count

/-!
# Buffered channels and what a pool of processes holds

A buffered channel that can be closed, over arbitrary values: a send on a
closed channel panics, a receive drains the buffer before it reports the
close. What the processes of a pool hold is counted by value; when one process
moves on, the count changes by what that process held and holds.
-/

namespace SdkApi.Channels
open List

structure Channel (α : Type*) where
  capacity : ℕ
  buffer : List α
  closed : Bool

inductive Sent (α : Type*) where
  | blocks
  | panics
  | sent (c : Channel α)

inductive Received (α : Type*) where
  | blocks
  | closed
  | got (a : α) (c : Channel α)

variable {α π : Type*} {c d : Channel α} {a : α}

def Channel.send (c : Channel α) (a : α) : Sent α :=
  if c.closed then .panics
  else if c.buffer.length < c.capacity then .sent { c with buffer := c.buffer++[a] }
  else .blocks

def Channel.receive (c : Channel α) : Received α :=
  match c.buffer with
  | a::rest => .got a { c with buffer := rest }
  | [] => if c.closed then .closed else .blocks

lemma send_sent (h : c.send a = .sent d) :
    c.closed = false ∧ d = { c with buffer := c.buffer++[a] } := by
  unfold Channel.send at h
  split at h
  · cases h
  · rename_i hc
    split at h <;> cases h
    exact ⟨by simpa using hc,rfl⟩

lemma send_panics {c : Channel α} (h : c.send a = .panics) : c.closed := by
  unfold Channel.send at h
  split at h
  · assumption
  · split at h <;> cases h

lemma receive_got (h : c.receive = .got a d) : c = { d with buffer := a::d.buffer } := by
  unfold Channel.receive at h
  split at h
  · rename_i b rest hb
    cases h
    simp [← hb]
  · split at h <;> cases h

lemma receive_closed {c : Channel α} (h : c.receive = .closed) : c.closed ∧ c.buffer = [] := by
  unfold Channel.receive at h
  split at h
  · cases h
  · rename_i hb
    split at h
    · exact ⟨by assumption,hb⟩
    · cases h

variable [DecidableEq α]

def held (holds : π → List α) (pool : List π) (a : α) : ℕ := (pool.flatMap holds).count a

variable {holds : π → List α} {pool : List π} {i : ℕ} {p : π}

lemma held_append (holds : π → List α) (pool : List π) (p : π) (a : α) :
    held holds (pool++[p]) a = held holds pool a+(holds p).count a := by
  simp [held]

lemma held_set (holds : π → List α) (h : pool[i]? = some p) (q : π) (a : α) :
    held holds (pool.set i q) a+(holds p).count a = held holds pool a+(holds q).count a := by
  induction pool generalizing i with
  | nil => simp at h
  | cons r pool ih =>
    cases i with
    | zero =>
      obtain rfl : r = p := by simpa using h
      simp only [held, set_cons_zero, flatMap_cons, count_append]
      omega
    | succ i =>
      have h' := ih (by simpa using h)
      simp only [held, set_cons_succ, flatMap_cons, count_append] at h' ⊢
      omega

lemma held_eq_zero (h : ∀ p ∈ pool, holds p = []) (a : α) : held holds pool a = 0 := by
  simp only [held, count_eq_zero, mem_flatMap, not_exists, not_and]
  intro p hp
  simp [h p hp]

omit [DecidableEq α] in
lemma forall_set {P : π → Prop} (h : ∀ p ∈ pool, P p) {q : π} (hq : P q) :
    ∀ p ∈ pool.set i q, P p := by
  intro p hp
  rcases mem_or_eq_of_mem_set hp with hp | rfl
  · exact h p hp
  · exact hq

end SdkApi.Channels
