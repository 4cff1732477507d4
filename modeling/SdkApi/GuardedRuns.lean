import Mathlib.Data.List.Basic

/-!
# Runs whose steps meet a condition

A labelled transition relation over arbitrary states and labels. The
condition of a step may speak about the state before it and its label, never
about what the step leads to.
-/

namespace SdkApi.GuardedRuns

variable {σ ε : Type*} {step : σ → ε → σ → Prop} {ok : σ → ε → Prop}

/-- Each step of a run meets `ok` where it is taken. -/
inductive Run (step : σ → ε → σ → Prop) (ok : σ → ε → Prop) : σ → List ε → σ → Prop where
  | nil (s : σ) : Run step ok s [] s
  | cons {s t u : σ} {e : ε} {es : List ε} (hok : ok s e) (hstep : step s e t)
      (hrun : Run step ok t es u) : Run step ok s (e::es) u

lemma run_append {s t u : σ} {es fs : List ε} (h : Run step ok s es t)
    (k : Run step ok t fs u) : Run step ok s (es++fs) u := by
  induction h with
  | nil s => exact k
  | cons hok hstep _ ih => exact .cons hok hstep (ih k)

variable {es : List ε} {s u : σ} {f : σ → ε → Option σ}

lemma run_imp {step' : σ → ε → σ → Prop} {ok' : σ → ε → Prop}
    (hstep : ∀ s e t, ok s e → step s e t → step' s e t) (hok : ∀ s e, ok s e → ok' s e)
    (h : Run step ok s es u) : Run step' ok' s es u := by
  induction h with
  | nil s => exact .nil s
  | cons hs ht _ ih => exact .cons (hok _ _ hs) (hstep _ _ _ hs ht) ih

lemma run_invariant (Inv : σ → Prop) (hi : ∀ s e t, Inv s → ok s e → step s e t → Inv t)
    (h : Run step ok s es u) (hs : Inv s) : Inv u := by
  induction h with
  | nil s => exact hs
  | cons hok hstep _ ih => exact ih (hi _ _ _ hs hok hstep)

lemma run_relation (R : σ → σ → Prop) (he : ∀ s, R s s) (ha : ∀ s t u, R s t → R t u → R s u)
    (Inv : σ → Prop) (hi : ∀ s e t, Inv s → ok s e → step s e t → Inv t ∧ R s t)
    (h : Run step ok s es u) (hs : Inv s) : R s u := by
  induction h with
  | nil s => exact he s
  | cons hok hstep _ ih =>
    obtain ⟨ht,hr⟩ := hi _ _ _ hs hok hstep
    exact ha _ _ _ hr (ih ht)

def play (f : σ → ε → Option σ) : σ → List ε → Option σ
  | s, [] => some s
  | s, e::es => (f s e).bind fun t => play f t es

lemma run_of_play (h : play f s es = some u) :
    Run (fun s e t => f s e = some t) (fun _ _ => True) s es u := by
  induction es generalizing s with
  | nil =>
    cases h
    exact .nil _
  | cons e es ih =>
    obtain ⟨t,ht,hu⟩ := Option.bind_eq_some_iff.mp h
    exact .cons trivial ht (ih hu)

lemma run_of_guarded_play [∀ s e, Decidable (ok s e)]
    (h : play (fun s e => if ok s e then f s e else none) s es = some u) :
    Run (fun s e t => f s e = some t) ok s es u := by
  induction es generalizing s with
  | nil =>
    cases h
    exact .nil _
  | cons e es ih =>
    obtain ⟨t,ht,hu⟩ := Option.bind_eq_some_iff.mp h
    dsimp only at ht
    split at ht
    · rename_i hok
      exact .cons hok ht (ih hu)
    · cases ht

end SdkApi.GuardedRuns
