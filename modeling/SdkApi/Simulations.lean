import SdkApi.GuardedRuns

/-!
# Machines that answer alike

A machine answers each action and moves on. When it keeps up a relation to an
abstract machine whose run meets a condition, and both answer alike while the
relation holds, it gives the answers of the abstract machine. Two machines
that do so for one abstract machine cannot be told apart.
-/

namespace SdkApi.Simulations
open GuardedRuns

variable {σ τ ε β : Type*}

def answers (step : σ → ε → β × σ) : σ → List ε → List β
  | _, [] => []
  | s, e::es => (step s e).1::answers step (step s e).2 es

def Moves (step : σ → ε → β × σ) (s : σ) (e : ε) (t : σ) : Prop := (step s e).2 = t

lemma answers_eq {step : σ → ε → β × σ} {spec : τ → ε → β × τ} {ok : τ → ε → Prop}
    {Rel : σ → τ → Prop}
    (hstep : ∀ s t e, Rel s t → ok t e →
      (step s e).1 = (spec t e).1 ∧ Rel (step s e).2 (spec t e).2)
    {s : σ} {t u : τ} {es : List ε} (hrun : Run (Moves spec) ok t es u) (he : Rel s t) :
    answers step s es = answers spec t es := by
  induction hrun generalizing s with
  | nil t => rfl
  | cons hok hm _ ih =>
    obtain ⟨ha,hn⟩ := hstep _ _ _ he hok
    cases hm
    rw [answers, answers, ha, ih hn]

end SdkApi.Simulations
