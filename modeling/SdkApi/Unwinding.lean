import Mathlib.Data.List.Basic

/-!
# Noninterference by unwinding

A machine answers each action and moves on. Its actions may be chosen along
the way, by sessions that look at the state and stop at a refusal. The
answers to the actions of one owner do not depend on the other actions when
a view of the state decides them, own actions keep the view and all other
actions leave it alone.
-/

namespace SdkApi.Unwinding
open List

section

variable {σ ε β : Type*} (step : σ → ε → β × σ)

def trace : σ → List ε → List (ε × β)
  | _, [] => []
  | s, e::es => (e,(step s e).1)::trace (step s e).2 es

def final : σ → List ε → σ
  | s, [] => s
  | s, e::es => final (step s e).2 es

def performed {ι : Type*} (actions : σ → ι → List ε) : σ → List ι → List ε
  | _, [] => []
  | s, i::is => actions s i++performed actions (final step s (actions s i)) is

variable {step}

lemma final_invariant {Inv : σ → Prop} {ok : ε → Prop} (hi : ∀ s e, Inv s → ok e → Inv (step s e).2)
    {s : σ} {es : List ε} (hs : Inv s) (hok : ∀ e ∈ es, ok e) : Inv (final step s es) := by
  induction es generalizing s with
  | nil => exact hs
  | cons e es ih =>
    apply ih
    · exact hi s e hs (hok e (.head _))
    · intro f hf
      exact hok f (.tail e hf)

section

variable {ι : Type*} {actions : σ → ι → List ε} {ok : ε → Prop}

lemma mem_performed_of_mem {is : List ι} (h : ∀ i ∈ is, ∀ s, ∀ e ∈ actions s i, ok e) (s : σ) :
    ∀ e ∈ performed step actions s is, ok e := by
  induction is generalizing s with
  | nil =>
    intro e he
    cases he
  | cons i is ih =>
    intro e he
    rcases mem_append.mp he with he | he
    · exact h i (.head _) s e he
    · exact ih (fun j hj => h j (.tail i hj)) _ e he

lemma mem_performed (h : ∀ s i, ∀ e ∈ actions s i, ok e) (s : σ) (is : List ι) :
    ∀ e ∈ performed step actions s is, ok e :=
  mem_performed_of_mem (fun i _ s => h s i) s

variable {Inv : σ → Prop}

variable {Agree : σ → σ → Prop} {es : List ε} {s t : σ} {own : ε → Bool}
variable (hi : ∀ s e, Inv s → ok e → Inv (step s e).2)
include hi

/-- The unwinding theorem. The purged run keeps the answers to the own
actions: the two runs stay in agreement while the other actions are left out. -/
lemma trace_purge (hn : ∀ s t e, Inv s → Inv t → Agree s t → ok e → own e →
      (step s e).1 = (step t e).1 ∧ Agree (step s e).2 (step t e).2)
    (ho : ∀ s t e, Inv s → Agree s t → ok e → own e = false → Agree (step s e).2 t)
    (hs : Inv s) (ht : Inv t) (h : Agree s t) (hok : ∀ e ∈ es, ok e) :
    (trace step s es).filter (fun r => own r.1) = trace step t (es.filter own) := by
  induction es generalizing s t with
  | nil => rfl
  | cons e es ih =>
    have he := hok e (.head _)
    have hes : ∀ f ∈ es, ok f := fun f hf => hok f (.tail e hf)
    cases hm : own e with
    | true =>
      obtain ⟨ha,hg⟩ := hn s t e hs ht h he hm
      have hre := ih (hi s e hs he) (hi t e ht he) hg hes
      simp only [trace, filter_cons, hm, if_true, ha, hre]
    | false =>
      have hre := ih (hi s e hs he) ht (ho s t e hs h he hm) hes
      simp only [trace, filter_cons, hm, Bool.false_eq_true, if_false, hre]

lemma trace_of_agree (ho : ∀ s t e, Inv s → Agree s t → ok e →
      (step s e).1 = (step t e).1 ∧ Agree (step s e).2 (step t e).2)
    (hs : Inv s) (h : Agree s t) (hok : ∀ e ∈ es, ok e) :
    trace step s es = trace step t es := by
  induction es generalizing s t with
  | nil => rfl
  | cons e es ih =>
    have he := hok e (.head _)
    obtain ⟨ha,hg⟩ := ho s t e hs h he
    have ht := ih (hi s e hs he) hg fun f hf => hok f (.tail e hf)
    simp only [trace, ha, ht]

lemma final_purge (hn : ∀ s t e, Inv s → Agree s t → ok e → own e → Agree (step s e).2 (step t e).2)
    (ho : ∀ s t e, Inv s → Agree s t → ok e → own e = false → Agree (step s e).2 t)
    (hs : Inv s) (h : Agree s t) (hok : ∀ e ∈ es, ok e) :
    Agree (final step s es) (final step t (es.filter own)) := by
  induction es generalizing s t with
  | nil => exact h
  | cons e es ih =>
    have he := hok e (.head _)
    have hes : ∀ f ∈ es, ok f := fun f hf => hok f (.tail e hf)
    cases hm : own e with
    | true =>
      rw [filter_cons_of_pos hm]
      exact ih (hi s e hs he) (hn s t e hs h he hm) hes
    | false =>
      rw [filter_cons_of_neg (by simp [hm])]
      exact ih (hi s e hs he) (ho s t e hs h he hm) hes

end

lemma trace_append (s : σ) (xs ys : List ε) :
    trace step s (xs++ys) = trace step s xs++trace step (final step s xs) ys := by
  induction xs generalizing s with
  | nil => rfl
  | cons x xs ih => simp only [cons_append, trace, final, ih]

lemma trace_take (s : σ) (n : ℕ) (es : List ε) :
    trace step s (es.take n) = (trace step s es).take n := by
  induction es generalizing s n with
  | nil => simp [trace]
  | cons e es ih =>
    cases n with
    | zero => rfl
    | succ n => simp only [take_succ_cons, trace, ih]

end

section

variable {σ ε β : Type*} {step : σ → ε → β × σ}

def rounds (xs : List ε) (n : ℕ) : List ε := (List.replicate n xs).flatten

lemma rounds_succ (xs : List ε) (n : ℕ) : rounds xs (n+1) = xs++rounds xs n := by
  rw [rounds, replicate_succ, flatten_cons, rounds]

variable {xs : List ε}

lemma mem_of_rounds {n : ℕ} {e : ε} (h : e ∈ rounds xs n) : e ∈ xs := by
  obtain ⟨ys,hy,he⟩ := mem_flatten.mp h
  rwa [eq_of_mem_replicate hy] at he

lemma le_length_rounds (h : xs ≠ []) (n : ℕ) : n ≤ (rounds xs n).length := by
  induction n with
  | zero => exact Nat.zero_le _
  | succ n ih =>
    have := length_pos_iff.mpr h
    rw [rounds_succ, length_append]
    omega

/-- A round that leaves all later answers as they are gets the answers of its
first time every time. -/
lemma trace_rounds {b : β} {s : σ} (hi : ∀ r ∈ trace step s xs, r.2 = b)
    (ha : ∀ n, trace step (final step s xs) (rounds xs n) = trace step s (rounds xs n))
    (n : ℕ) : ∀ r ∈ trace step s (rounds xs n), r.2 = b := by
  induction n with
  | zero => nofun
  | succ n ih =>
    intro r hr
    rw [rounds_succ, trace_append, ha n] at hr
    rcases mem_append.mp hr with hr | hr
    · exact hi r hr
    · exact ih r hr

/-- A budget that each granted action lowers bounds the actions that are all
granted. -/
lemma length_le_of_granted {step : σ → ε → Bool × σ} {Inv : σ → Prop} {ok : ε → Prop}
    {budget : σ → ℕ} (hi : ∀ s e, Inv s → ok e → Inv (step s e).2)
    (hl : ∀ s e, Inv s → ok e → (step s e).1 → budget (step s e).2 < budget s)
    {s : σ} {es : List ε} (hs : Inv s) (hok : ∀ e ∈ es, ok e)
    (ha : ∀ r ∈ trace step s es, r.2) : es.length ≤ budget s := by
  induction es generalizing s with
  | nil => exact Nat.zero_le _
  | cons e es ih =>
    have he := hok e (.head _)
    have hg : (step s e).1 := ha (e,(step s e).1) (.head _)
    have ht := ih (hi s e hs he) (fun f hf => hok f (.tail e hf))
      fun r hr => ha r (.tail _ hr)
    have := hl s e hs he hg
    rw [length_cons]
    omega

end

section

variable {σ ε : Type*} (step : σ → ε → Bool × σ) {es : List ε}

def untilRefused : σ → List ε → List ε
  | _, [] => []
  | s, e::es => e::if (step s e).1 then untilRefused (step s e).2 es else []

lemma mem_of_untilRefused {s : σ} {e : ε} (h : e ∈ untilRefused step s es) : e ∈ es := by
  induction es generalizing s with
  | nil => cases h
  | cons f es ih =>
    rw [untilRefused, mem_cons] at h
    rcases h with rfl | h
    · exact .head _
    · split at h
      · exact .tail f (ih h)
      · cases h

def refused : σ → List ε → Option ε
  | _, [] => none
  | s, e::es => if (step s e).1 then refused (step s e).2 es else some e

variable {step}

lemma refused_cases {s : σ} {e : ε} (h : refused step s es = some e) :
    ∃ xs ys, es = xs++e::ys ∧ untilRefused step s es = xs++[e] ∧
      (∀ r ∈ trace step s xs, r.2) ∧ (step (final step s xs) e).1 = false := by
  induction es generalizing s with
  | nil => cases h
  | cons f es ih =>
    rw [refused] at h
    rw [untilRefused]
    cases hf : (step s f).1 with
    | true =>
      rw [hf, if_pos rfl] at h
      obtain ⟨xs,ys,he,hu,ha,hno⟩ := ih h
      refine ⟨f::xs,ys,by rw [he, cons_append],by rw [if_pos rfl, hu, cons_append], ?_,hno⟩
      intro r hr
      rcases mem_cons.mp hr with rfl | hr
      · exact hf
      · exact ha r hr
    | false =>
      rw [hf, if_neg Bool.false_ne_true] at h
      cases h
      exact ⟨[],es,rfl,rfl,nofun,hf⟩

end

end SdkApi.Unwinding
