import Mathlib.Data.List.Basic

/-!
# Short-circuiting handler chains

A handler either passes an updated context to its successor or answers and
stops the chain. The state and answer types are arbitrary. Reaching the end
of a chain means that every handler of it has passed the context on.
-/

namespace SdkApi.HandlerChain

variable {σ ρ η : Type*}

inductive Outcome (σ ρ : Type*) where
  | next (s : σ)
  | stop (s : σ) (r : ρ)

abbrev Handler (σ ρ : Type*) := σ → Outcome σ ρ

def run : List (Handler σ ρ) → σ → Outcome σ ρ
  | [], s => .next s
  | h::hs, s =>
    match h s with
    | .next t => run hs t
    | .stop t r => .stop t r

/-- Every handler has passed the context on and the last one left `t`. -/
def Reaches (hs : List (Handler σ ρ)) (s t : σ) : Prop := run hs s = .next t

@[simp] lemma reaches_nil (s t : σ) : Reaches ([] : List (Handler σ ρ)) s t ↔ t = s := by
  simp only [Reaches, run, Outcome.next.injEq]
  exact eq_comm

lemma reaches_cons (h : Handler σ ρ) (hs : List (Handler σ ρ)) (s t : σ) :
    Reaches (h::hs) s t ↔ ∃ u, h s = .next u ∧ Reaches hs u t := by
  cases hh : h s with
  | next u | stop u r => simp [Reaches, run, hh]

lemma reaches_append (hs gs : List (Handler σ ρ)) (s t : σ) :
    Reaches (hs++gs) s t ↔ ∃ u, Reaches hs s u ∧ Reaches gs u t := by
  induction hs generalizing s with
  | nil => simp
  | cons h hs ih =>
    simp only [List.cons_append, reaches_cons, ih]
    constructor
    · rintro ⟨u,hu,v,hv,hw⟩
      exact ⟨v,⟨u,hu,hv⟩,hw⟩
    · rintro ⟨v,⟨u,hu,hv⟩,hw⟩
      exact ⟨u,hu,v,hv,hw⟩

lemma reaches_self {hs : List (Handler σ ρ)} (s : σ) (h : ∀ g ∈ hs, g s = .next s) :
    Reaches hs s s := by
  induction hs with
  | nil => simp
  | cons g hs ih =>
    exact (reaches_cons g hs s s).mpr ⟨s,h g (by simp),ih fun g' hg => h g' (by simp [hg])⟩

lemma reaches_mem {hs : List (Handler σ ρ)} (h : Handler σ ρ) (hm : h ∈ hs) {s t : σ}
    (hr : Reaches hs s t) :
    ∃ before after u v, (∀ g ∈ before, g ∈ hs) ∧ (∀ g ∈ after, g ∈ hs) ∧
      Reaches before s u ∧ h u = .next v ∧ Reaches after v t := by
  obtain ⟨before,after,rfl⟩ := List.append_of_mem hm
  obtain ⟨u,hu,hv⟩ := (reaches_append before (h::after) s t).mp hr
  obtain ⟨v,huv,ht⟩ := (reaches_cons h after u t).mp hv
  exact ⟨before,after,u,v,fun g hg => by simp [hg],fun g hg => by simp [hg],hu,huv,ht⟩

lemma reaches_relation (R : σ → σ → Prop) (he : ∀ s, R s s) (hs : List (Handler σ ρ))
    (hstep : ∀ h ∈ hs, ∀ r s t, R r s → h s = .next t → R r t)
    (s t : σ) (hr : Reaches hs s t) : R s t := by
  have hn : ∀ r, R r s → R r t := by
    induction hs generalizing s with
    | nil =>
      intro r h
      rwa [(reaches_nil s t).mp hr]
    | cons h hs ih =>
      intro r hrs
      obtain ⟨u,hu,ht⟩ := (reaches_cons h hs s t).mp hr
      exact ih (fun g hg => hstep g (by simp [hg])) u ht r (hstep h (by simp) r s u hrs hu)
  exact hn s (he s)

/-- Elements of the list are names; `sem` gives what each of them does. -/
def executed (sem : η → Handler σ ρ) : List η → σ → List η
  | [], _ => []
  | h::hs, s =>
    match sem h s with
    | .next t => h :: executed sem hs t
    | .stop _ _ => [h]

section

variable (sem : η → Handler σ ρ) (hs : List η)

lemma executed_prefix (s : σ) : executed sem hs s <+: hs := by
  induction hs generalizing s with
  | nil => exact List.prefix_rfl
  | cons h hs ih =>
    cases hh : sem h s with
    | next t => simpa [executed, hh] using ih t
    | stop t r => simp [executed, hh]

lemma executed_last (h : η) (s : σ) :
    executed sem (hs++[h]) s = hs++[h] ↔ ∃ t, Reaches (hs.map sem) s t := by
  induction hs generalizing s with
  | nil => cases hh : sem h s <;> simp [executed, hh]
  | cons g hs ih =>
    cases hg : sem g s with
    | next t => simp [executed, hg, ih, reaches_cons]
    | stop t r => simp [executed, hg, reaches_cons]

lemma executed_of_next (s : σ)
    (hn : ∀ h ∈ hs, ∀ s, ∃ t, sem h s = .next t) : executed sem hs s = hs := by
  induction hs generalizing s with
  | nil => rfl
  | cons h hs ih =>
    obtain ⟨t,ht⟩ := hn h (by simp) s
    simp only [executed, ht]
    rw [ih t (fun g hg => hn g (by simp [hg]))]

end

end SdkApi.HandlerChain
