import SdkApi.GoStrings

/-!
# Panics in the gRPC server chains

`buildGrpcServerOptions` chains the interceptors of unary calls and those of
streams. Nothing but `unaryRecoverInterceptor` recovers a panic, and only the
unary chain has it.
-/

namespace SdkApi.GrpcChains
open List

inductive Reply where
  | ok
  | status (code : ℕ)
  | panics

def internal : ℕ := 13

structure GrpcServerConf where
  timeout : ℤ := 0
  cpuThreshold : ℤ := 0

structure GrpcInterceptorsConfig where
  trace : Bool := true
  breaker : Bool := true
  timeout : Bool := true
  shedding : Bool := true
  prometheus : Bool := true

inductive Interceptor where
  | recover
  | tracing
  | breaker
  | timeout
  | shedding
  | prometheus
  deriving DecidableEq

def unary (cfg : GrpcServerConf) (ic : GrpcInterceptorsConfig) : List Interceptor :=
  [.recover]++(if ic.trace then [.tracing] else [])++(if ic.breaker then [.breaker] else [])++
    (if ic.timeout ∧ 0 < cfg.timeout then [.timeout] else [])++
    (if ic.shedding ∧ 0 < cfg.cpuThreshold then [.shedding] else [])++
    (if ic.prometheus then [.prometheus] else [])

def stream (ic : GrpcInterceptorsConfig) : List Interceptor :=
  (if ic.trace then [.tracing] else [])++(if ic.breaker then [.breaker] else [])

/-- What happens in an interceptor: a panic before or after the rest of the
chain, or the status of a call that it turns away. -/
structure Event where
  before : Bool := false
  rejects : Option ℕ := none
  after : Bool := false

def intercept (events : Interceptor → Event) (i : Interceptor) (rest : Reply) : Reply :=
  match i, rest with
  | .recover, .panics => .status internal
  | .recover, r => r
  | i, r =>
    if (events i).before then .panics
    else match (events i).rejects with
      | some code => .status code
      | none => if (events i).after then .panics else r

def call (events : Interceptor → Event) (chain : List Interceptor) (handler : Reply) : Reply :=
  chain.foldr (intercept events) handler

inductive Kind where
  | unary
  | stream

def chain (cfg : GrpcServerConf) (ic : GrpcInterceptorsConfig) : Kind → List Interceptor
  | .unary => unary cfg ic
  | .stream => stream ic

/-- The handler panics, or an interceptor does, and nothing before it turns the call away. -/
def Raises (events : Interceptor → Event) (chain : List Interceptor) (handler : Reply) : Prop :=
  ∃ front back, chain = front++back ∧
    (∀ i ∈ front, (events i).before = false ∧ (events i).rejects = none) ∧
    ((back = [] ∧ handler = .panics) ∨ (∃ i ∈ back.head?, (events i).before) ∨
      ∃ i ∈ front, (events i).after)

variable {events : Interceptor → Event} {handler : Reply}

lemma raises_cons {i : Interceptor} {chain : List Interceptor} :
    Raises events (i::chain) handler ↔ (events i).before ∨
      ((events i).rejects = none ∧ ((events i).after ∨ Raises events chain handler)) := by
  constructor
  · rintro ⟨front, back, hc, hf, hr⟩
    cases front with
    | nil =>
      rw [nil_append] at hc
      subst hc
      exact .inl (by simpa using hr)
    | cons j front =>
      obtain ⟨rfl, rfl⟩ := cons.inj hc
      rw [forall_mem_cons] at hf
      refine .inr ⟨hf.1.2, ?_⟩
      rcases hr with hr | hr | ⟨k, hk, ha⟩
      · exact .inr ⟨front, back, rfl, hf.2, .inl hr⟩
      · exact .inr ⟨front, back, rfl, hf.2, .inr (.inl hr)⟩
      · rcases mem_cons.mp hk with rfl | hk
        · exact .inl ha
        · exact .inr ⟨front, back, rfl, hf.2, .inr (.inr ⟨k, hk, ha⟩)⟩
  · cases hb : (events i).before with
    | true => exact fun _ => ⟨[], i::chain, rfl, by simp, .inr (.inl ⟨i, rfl, hb⟩)⟩
    | false =>
      rintro (h | ⟨hn, ha | ⟨front, back, rfl, hf, hr⟩⟩)
      · cases h
      · exact ⟨[i], chain, rfl, by simp [hb, hn], .inr (.inr ⟨i, by simp, ha⟩)⟩
      · refine ⟨i::front, back, rfl, forall_mem_cons.mpr ⟨⟨hb, hn⟩, hf⟩, ?_⟩
        exact hr.imp_right (.imp_right fun ⟨j, hj, ha⟩ => ⟨j, .tail _ hj, ha⟩)

lemma intercept_panics_iff {i : Interceptor} (h : i ≠ .recover) (r : Reply) :
    intercept events i r = .panics ↔ (events i).before ∨
      ((events i).rejects = none ∧ ((events i).after ∨ r = .panics)) := by
  have hi : intercept events i r = if (events i).before then .panics
      else match (events i).rejects with
        | some code => .status code
        | none => if (events i).after then .panics else r := by
    cases i <;> first | exact absurd rfl h | rfl
  rw [hi]
  cases (events i).before <;> cases (events i).rejects <;> cases (events i).after <;> simp

lemma call_panics_iff {chain : List Interceptor} (h : .recover ∉ chain) :
    call events chain handler = .panics ↔ Raises events chain handler := by
  induction chain with
  | nil => simp [call, Raises]
  | cons i chain ih =>
    rw [mem_cons, not_or] at h
    rw [raises_cons, ← ih h.2]
    exact intercept_panics_iff (fun hi => h.1 hi.symm) _

lemma unary_eq (cfg : GrpcServerConf) (ic : GrpcInterceptorsConfig) :
    ∃ rest, unary cfg ic = .recover::rest ∧ .recover ∉ rest := by
  refine ⟨(unary cfg ic).tail, rfl, ?_⟩
  simp only [unary, cons_append, tail_cons, mem_append]
  rintro ((((h | h) | h) | h) | h) <;> split at h <;> simp at h

lemma recover_not_mem_stream (ic : GrpcInterceptorsConfig) : .recover ∉ stream ic := by
  rw [stream, mem_append]
  rintro (h | h) <;> split at h <;> simp at h

/-- No panic leaves the chain, and whatever panics in it gives an internal error. -/
def Contained (events : Interceptor → Event) (chain : List Interceptor) (handler : Reply) : Prop :=
  call events chain handler ≠ .panics ∧
    (Raises events (chain.filter (· ≠ .recover)) handler →
      call events chain handler = .status internal)

/-- Panics are contained in unary calls, and in those streams in which nothing panics. -/
theorem panics_contained_iff (cfg : GrpcServerConf) (ic : GrpcInterceptorsConfig) (kind : Kind)
    (events : Interceptor → Event) (handler : Reply) :
    Contained events (chain cfg ic kind) handler ↔
      kind = .unary ∨ ¬Raises events (chain cfg ic kind) handler := by
  cases kind with
  | unary =>
    obtain ⟨rest, hu, hr⟩ := unary_eq cfg ic
    have hf : (unary cfg ic).filter (· ≠ .recover) = rest := by
      rw [hu, filter_cons_of_neg (by simp), filter_eq_self]
      exact fun i hi => decide_eq_true fun he => hr (he ▸ hi)
    have hc : call events (unary cfg ic) handler =
        intercept events .recover (call events rest handler) := by rw [hu]; rfl
    simp only [chain, true_or, iff_true, Contained, hf, hc]
    refine ⟨?_, fun hp => by rw [(call_panics_iff hr).mpr hp]; rfl⟩
    cases call events rest handler <;> simp [intercept]
  | stream =>
    have hr := recover_not_mem_stream ic
    have hf : (stream ic).filter (· ≠ .recover) = stream ic := by
      rw [filter_eq_self]
      exact fun i hi => decide_eq_true fun he => hr (he ▸ hi)
    simp only [chain, reduceCtorEq, false_or, Contained, hf, ← call_panics_iff hr]
    exact ⟨fun h => h.1, fun h => ⟨h, fun hp => absurd hp h⟩⟩

/-- A streaming handler that panics takes the process down. -/
theorem stream_panics : Raises (fun _ => {}) (chain {} {} .stream) .panics ∧
    call (fun _ => {}) (chain {} {} .stream) .panics = .panics ∧
    ¬Contained (fun _ => {}) (chain {} {} .stream) .panics :=
  ⟨⟨chain {} {} .stream, [], rfl, by decide, .inl ⟨rfl, rfl⟩⟩, rfl, fun h => h.1 rfl⟩

end SdkApi.GrpcChains
