import Mathlib.Algebra.Order.Ring.Int

/-!
# Copies that expire

Facts are recorded with the instant at which they were learned. A copy of a
fact carries the instant from which it may no longer be used, a fixed time
after the record. A copy that is used in time stands for a recent record.
-/

namespace SdkApi.ExpiringCopies

variable {α : Type*} {log log' : List (ℤ × α)} {a : α} {span ttl now now' expires : ℤ}

def Within (log : List (ℤ × α)) (span now : ℤ) (a : α) : Prop :=
  ∃ s, (s,a) ∈ log ∧ now-span ≤ s ∧ s ≤ now

/-- The copy expires `ttl` after a record of the fact. -/
def Backed (log : List (ℤ × α)) (ttl now expires : ℤ) (a : α) : Prop :=
  ∃ s, (s,a) ∈ log ∧ s ≤ now ∧ expires = s+ttl

lemma Within.mono (h : Within log span now a) (hl : log ⊆ log') : Within log' span now a := by
  obtain ⟨s,hs,hi⟩ := h
  exact ⟨s,hl hs,hi⟩

lemma Within.widen (h : Within log span now a) {span' : ℤ} (ha : span ≤ span') :
    Within log span' now a := by
  obtain ⟨s,hs,ho,ht⟩ := h
  exact ⟨s,hs,by omega,ht⟩

lemma within_recorded (h : (now,a) ∈ log) (ha : 0 ≤ span) : Within log span now a :=
  ⟨now,h,by omega,le_refl _⟩

lemma Backed.later (h : Backed log ttl now expires a) (hl : log ⊆ log') (hn : now ≤ now') :
    Backed log' ttl now' expires a := by
  obtain ⟨s,hs,ht,he⟩ := h
  exact ⟨s,hl hs,ht.trans hn,he⟩

lemma backed_recorded (h : (now,a) ∈ log) : Backed log ttl now (now+ttl) a :=
  ⟨now,h,le_refl _,rfl⟩

lemma Backed.within (h : Backed log ttl now expires a) (he : now ≤ expires) :
    Within log ttl now a := by
  obtain ⟨s,hs,ht,hx⟩ := h
  exact ⟨s,hs,by omega,ht⟩

end SdkApi.ExpiringCopies
