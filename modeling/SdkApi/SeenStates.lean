import Mathlib.Data.List.Basic

/-!
# Programs and the states they go through

A program over a state can fail, and every assignment in it is seen: the
outcome has the states of all assignments in their order. An invariant of a
program holds at each of them, also when the program fails or is stopped
between two assignments; a postcondition holds only where it returns. The
rules follow the way a program is put together.
-/

namespace SdkApi.SeenStates
open List

structure Outcome (σ ε α : Type) where
  seen : List σ
  state : σ
  result : Except ε α

def Prog (σ ε α : Type) := σ → Outcome σ ε α

variable {σ ε α β : Type}

namespace Prog

def ret (a : α) : Prog σ ε α := fun s => ⟨[],s,.ok a⟩

def andThen (m : Prog σ ε α) (f : α → Prog σ ε β) : Prog σ ε β := fun s =>
  match (m s).result with
  | .error e => ⟨(m s).seen,(m s).state,.error e⟩
  | .ok a => ⟨(m s).seen++(f a (m s).state).seen,(f a (m s).state).state,(f a (m s).state).result⟩

instance : Monad (Prog σ ε) where
  pure := ret
  bind := andThen

def get : Prog σ ε σ := fun s => ⟨[],s,.ok s⟩

def assign (f : σ → σ) : Prog σ ε Unit := fun s => ⟨[f s],f s,.ok ()⟩

def fail (e : ε) : Prog σ ε α := fun s => ⟨[],s,.error e⟩

def rescue (m : Prog σ ε α) (handler : ε → σ → σ) : Prog σ ε α := fun s =>
  match (m s).result with
  | .error e => ⟨(m s).seen++[handler e (m s).state],handler e (m s).state,.error e⟩
  | .ok _ => m s

end Prog

structure Keeps (I P : σ → Prop) (m : Prog σ ε α) (Q : α → σ → Prop) (E : ε → σ → Prop) :
    Prop where
  seen : ∀ s, P s → ∀ u ∈ (m s).seen, I u
  returns : ∀ s, P s → ∀ a, (m s).result = .ok a → Q a (m s).state
  fails : ∀ s, P s → ∀ e, (m s).result = .error e → E e (m s).state

section

variable {I P P' : σ → Prop} {Q Q' : α → σ → Prop} {R : β → σ → Prop} {E E' : ε → σ → Prop}
  {m : Prog σ ε α} {f : α → Prog σ ε β}

lemma keeps_ret {a : α} (h : ∀ s, P s → Q a s) : Keeps I P (pure a : Prog σ ε α) Q E where
  seen _ _ := nofun
  returns s hs b hb := by
    cases hb
    exact h s hs
  fails _ _ := nofun

lemma keeps_fail {e : ε} (h : ∀ s, P s → E e s) :
    Keeps I P (Prog.fail e : Prog σ ε α) Q E where
  seen _ _ := nofun
  returns _ _ := nofun
  fails s hs e' he := by
    cases he
    exact h s hs

lemma keeps_assign {g : σ → σ} {Q : Unit → σ → Prop} (hI : ∀ s, P s → I (g s))
    (hQ : ∀ s, P s → Q () (g s)) : Keeps I P (Prog.assign g : Prog σ ε Unit) Q E where
  seen s hs u hu := by
    rw [mem_singleton.mp hu]
    exact hI s hs
  returns s hs _ _ := hQ s hs
  fails _ _ := nofun

lemma bind_cases (m : Prog σ ε α) (f : α → Prog σ ε β) (s : σ) :
    (∃ e, (m s).result = .error e ∧ (m >>= f) s = ⟨(m s).seen,(m s).state,.error e⟩) ∨
      ∃ a, (m s).result = .ok a ∧ (m >>= f) s = ⟨(m s).seen++(f a (m s).state).seen,
        (f a (m s).state).state,(f a (m s).state).result⟩ := by
  change (∃ e, _ ∧ Prog.andThen m f s = _) ∨ ∃ a, _ ∧ Prog.andThen m f s = _
  unfold Prog.andThen
  cases h : (m s).result with
  | error e => exact .inl ⟨e,rfl,rfl⟩
  | ok a => exact .inr ⟨a,rfl,rfl⟩

lemma keeps_bind (hm : Keeps I P m Q E) (hf : ∀ a, Keeps I (Q a) (f a) R E) :
    Keeps I P (m >>= f) R E where
  seen s hs u hu := by
    rcases bind_cases m f s with ⟨e,-,h⟩ | ⟨a,ha,h⟩
    · rw [h] at hu
      exact hm.seen s hs u hu
    · rw [h] at hu
      rcases mem_append.mp hu with hu | hu
      · exact hm.seen s hs u hu
      · exact (hf a).seen _ (hm.returns s hs a ha) u hu
  returns s hs b hb := by
    rcases bind_cases m f s with ⟨e,-,h⟩ | ⟨a,ha,h⟩
    · rw [h] at hb
      cases hb
    · rw [h] at hb ⊢
      exact (hf a).returns _ (hm.returns s hs a ha) b hb
  fails s hs e he := by
    rcases bind_cases m f s with ⟨e',hm',h⟩ | ⟨a,ha,h⟩
    · rw [h] at he ⊢
      cases he
      exact hm.fails s hs e hm'
    · rw [h] at he ⊢
      exact (hf a).fails _ (hm.returns s hs a ha) e he

lemma keeps_get {f : σ → Prog σ ε β} (hf : ∀ s, P s → Keeps I (· = s) (f s) R E) :
    Keeps I P (Prog.get >>= f) R E where
  seen s hs := (hf s hs).seen s rfl
  returns s hs := (hf s hs).returns s rfl
  fails s hs := (hf s hs).fails s rfl

lemma keeps_ite {c : Prop} [Decidable c] {m' : Prog σ ε α} (ht : c → Keeps I P m Q E)
    (he : ¬c → Keeps I P m' Q E) : Keeps I P (if c then m else m') Q E := by
  split
  · exact ht ‹_›
  · exact he ‹_›

lemma keeps_weaken (hm : Keeps I P m Q E) (hP : ∀ s, P' s → P s) (hQ : ∀ a s, Q a s → Q' a s)
    (hE : ∀ e s, E e s → E' e s) : Keeps I P' m Q' E' where
  seen s hs := hm.seen s (hP s hs)
  returns s hs a ha := hQ a _ (hm.returns s (hP s hs) a ha)
  fails s hs e he := hE e _ (hm.fails s (hP s hs) e he)

variable {handler : ε → σ → σ}

lemma rescue_ok {m : Prog σ ε α} {s : σ} {a : α}
    (h : (m s).result = .ok a) : m.rescue handler s = m s := by
  simp only [Prog.rescue, h]

lemma rescue_error {m : Prog σ ε α} {s : σ} {e : ε}
    (h : (m s).result = .error e) : m.rescue handler s =
      ⟨(m s).seen++[handler e (m s).state],handler e (m s).state,.error e⟩ := by
  simp only [Prog.rescue, h]

lemma keeps_rescue (hm : Keeps I P m Q E)
    {hI : ∀ e s, E e s → I (handler e s)} {hE : ∀ e s, E e s → E' e (handler e s)} :
    Keeps I P (m.rescue handler) Q E' where
  seen s hs u hu := by
    cases h : (m s).result with
    | ok a =>
      rw [rescue_ok h] at hu
      exact hm.seen s hs u hu
    | error e =>
      rw [rescue_error h] at hu
      rcases mem_append.mp hu with hu | hu
      · exact hm.seen s hs u hu
      · rw [mem_singleton.mp hu]
        exact hI e _ (hm.fails s hs e h)
  returns s hs a ha := by
    cases h : (m s).result with
    | ok b =>
      rw [rescue_ok h] at ha ⊢
      exact hm.returns s hs a ha
    | error e =>
      rw [rescue_error h] at ha
      cases ha
  fails s hs e he := by
    cases h : (m s).result with
    | ok b =>
      rw [rescue_ok h, h] at he
      cases he
    | error e' =>
      rw [rescue_error h] at he ⊢
      cases he
      exact hE e _ (hm.fails s hs e h)

lemma keeps_of_states (h : ∀ s, P s → Keeps I (· = s) m Q E) : Keeps I P m Q E where
  seen s hs := (h s hs).seen s rfl
  returns s hs := (h s hs).returns s rfl
  fails s hs := (h s hs).fails s rfl

end

end SdkApi.SeenStates
