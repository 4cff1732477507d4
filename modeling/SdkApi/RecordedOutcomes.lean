import SdkApi.GoStrings

/-!
# What the breaker and the shedder record

Both look at the response when the handlers have returned, the breaker also at
the error. The error handler maps the error to a status after that.
-/

namespace SdkApi.RecordedOutcomes

/-- What `errors.As` finds in an error. -/
structure HandlerError where
  fiberCode : Option ℤ := none
  oopsCode : Option String := none
  isServiceUnavailable : Bool := false

/-- The response that the handlers leave and the error that they return. -/
structure Outcome where
  status : ℤ := 200
  hasBody : Bool := false
  err : Option HandlerError := none

inductive Mark where
  | success | failure
  deriving DecidableEq

def oopsCodeToHTTP (code : String) : ℤ :=
  ([("ERR_NOT_FOUND",404),("ERR_VALIDATION",400),("ERR_UNAUTHORIZED",401),("ERR_FORBIDDEN",403),
    ("ERR_RATE_LIMITED",429),("ERR_TIMEOUT",504)].lookup code).getD 500

/-- The status after `errorHandler`. -/
def errorHandler (o : Outcome) (e : HandlerError) : ℤ :=
  let code := e.fiberCode.getD 500
  if o.hasBody then o.status
  else if 500 ≤ code then (e.oopsCode.map oopsCodeToHTTP).getD code
  else code

def Outcome.final (o : Outcome) : ℤ := (o.err.map (errorHandler o)).getD o.status

def isClientError (code : ℤ) : Bool := 400 ≤ code && code < 500

def acceptable (o : Outcome) : Bool :=
  o.err.all fun e => e.fiberCode.any isClientError || isClientError o.status

def unavailable : Outcome := { status := 503, hasBody := true }

/-- `Breaker` over `doReq`: what is recorded and what it returns. -/
def breaker (rejects : Bool) (o : Outcome) : List Mark × Outcome :=
  if rejects then ([],unavailable)
  else ([if acceptable o then .success else .failure],
    if o.err.any HandlerError.isServiceUnavailable then unavailable else o)

def shedding (rejects : Bool) (o : Outcome) : List Mark × Outcome :=
  if rejects then ([],unavailable)
  else ([if 500 ≤ o.status then .failure else .success],o)

/-- `Shedding` around `Breaker`: the marks of both and the status that is sent. -/
def serve (drops rejects : Bool) (o : Outcome) : List Mark × List Mark × ℤ :=
  let inner := breaker rejects o
  let outer := shedding drops inner.2
  (outer.1,if drops then [] else inner.1,outer.2.final)

def markOf (status : ℤ) : Mark := if 500 ≤ status then .failure else .success

def clientCodes : List String :=
  ["ERR_NOT_FOUND", "ERR_VALIDATION", "ERR_UNAUTHORIZED", "ERR_FORBIDDEN", "ERR_RATE_LIMITED"]

/-- The error is answered with a status from 500 on: with the one of the body, or because
neither code of the error is one of the client. -/
def ServerSide (o : Outcome) (e : HandlerError) : Prop :=
  if o.hasBody then 500 ≤ o.status
  else 500 ≤ e.fiberCode.getD 500 ∧ ∀ code ∈ e.oopsCode, code ∉ clientCodes

/-- The status and the fiber error that the middlewares see tell the side of the error. -/
def Seen (o : Outcome) : Prop :=
  match o.err with
  | none => o.status < 500
  | some e =>
    if e.isServiceUnavailable then ¬e.fiberCode.any isClientError ∧ ¬isClientError o.status
    else (ServerSide o e → 500 ≤ o.status ∧ ¬e.fiberCode.any isClientError) ∧
      (¬ServerSide o e → o.status < 500 ∧ (e.fiberCode.any isClientError ∨ 400 ≤ o.status))

lemma oopsCodeToHTTP_iff (code : String) : 500 ≤ oopsCodeToHTTP code ↔ code ∉ clientCodes := by
  constructor
  · exact fun h hc => (by decide : ∀ c ∈ clientCodes, ¬500 ≤ oopsCodeToHTTP c) code hc h
  · intro h
    by_cases ht : code = "ERR_TIMEOUT"
    · rw [ht]
      decide
    · have hb : ∀ {c : String}, code ≠ c → (code == c) = false := beq_false_of_ne
      simp only [clientCodes, List.mem_cons, List.not_mem_nil, or_false, not_or] at h
      obtain ⟨h1, h2, h3, h4, h5⟩ := h
      simp [oopsCodeToHTTP, List.lookup_cons, hb h1, hb h2, hb h3, hb h4, hb h5, hb ht]

lemma serverSide_iff (o : Outcome) (e : HandlerError) :
    ServerSide o e ↔ 500 ≤ errorHandler o e := by
  unfold ServerSide errorHandler
  by_cases hb : o.hasBody
  · simp [hb]
  · by_cases hc : 500 ≤ e.fiberCode.getD 500
    · cases he : e.oopsCode with
      | none => simp [hb, hc]
      | some code => simp [hb, hc, oopsCodeToHTTP_iff]
    · simp [hb, hc]

lemma markOf_eq_iff {a b : ℤ} : markOf a = markOf b ↔ (500 ≤ a ↔ 500 ≤ b) := by
  by_cases ha : 500 ≤ a <;> by_cases hb : 500 ≤ b <;> simp [markOf, ha, hb]

lemma acceptable_eq_iff {o : Outcome} {a : ℤ} :
    (if acceptable o then Mark.success else .failure) = markOf a ↔ (acceptable o ↔ a < 500) := by
  rw [← not_le]
  cases acceptable o <;> by_cases ha : 500 ≤ a <;> simp [markOf, ha]

lemma seen_iff (o : Outcome) (h : ¬o.err.any HandlerError.isServiceUnavailable) :
    (500 ≤ o.status ↔ 500 ≤ o.final) ∧ (acceptable o ↔ o.final < 500) ↔ Seen o := by
  cases he : o.err with
  | none => simp [Seen, Outcome.final, acceptable, he]
  | some e =>
    have hi : e.isServiceUnavailable = false := by simpa [he] using h
    have hf : o.final = errorHandler o e := by simp [Outcome.final, he]
    have ha : acceptable o ↔ e.fiberCode.any isClientError ∨ isClientError o.status := by
      simp [acceptable, he]
    have hc : isClientError o.status ↔ 400 ≤ o.status ∧ o.status < 500 := by simp [isClientError]
    simp only [Seen, he, hi, Bool.false_eq_true, if_false, serverSide_iff, hf, ha, hc]
    by_cases hs : 500 ≤ errorHandler o e
    · have hn : ¬errorHandler o e < 500 := not_lt.mpr hs
      by_cases ho : 500 ≤ o.status <;> simp [hs, hn, ho, not_lt.mpr]
    · have hn : errorHandler o e < 500 := not_le.mp hs
      by_cases ho : 500 ≤ o.status <;> simp [hs, hn, ho, not_le.mp]

/-- Each admitted request is recorded once. A failure is recorded exactly if the status that
is sent is at least 500, exactly if the request is not admitted or its outcome is seen. -/
theorem recorded_final_iff (o : Outcome) (drops rejects : Bool) :
    (serve drops rejects o).1.length = (if drops then 0 else 1) ∧
    (serve drops rejects o).2.1.length = (if drops || rejects then 0 else 1) ∧
    (((∀ m ∈ (serve drops rejects o).1, m = markOf (serve drops rejects o).2.2) ∧
      ∀ m ∈ (serve drops rejects o).2.1, m = markOf (serve drops rejects o).2.2) ↔
        drops ∨ rejects ∨ Seen o) := by
  cases drops with
  | true => simp [serve, shedding]
  | false =>
    cases rejects with
    | true => simp [serve, shedding, breaker, unavailable, Outcome.final, markOf]
    | false =>
      refine ⟨rfl, rfl, ?_⟩
      by_cases h : o.err.any HandlerError.isServiceUnavailable
      · cases he : o.err with
        | none => simp [he] at h
        | some e =>
          have hi : e.isServiceUnavailable := by simpa [he] using h
          simp [serve, shedding, breaker, unavailable, Outcome.final, markOf, Seen, acceptable, he,
            hi]
      · have hs := seen_iff o h
        have hm : ∀ x, markOf x = if 500 ≤ x then Mark.failure else .success := fun _ => rfl
        simpa [serve, shedding, breaker, h, ← hm, markOf_eq_iff, acceptable_eq_iff] using hs

/-- A 503 without an error is a success of the breaker, an error without a
status one of the shedder. -/
theorem failure_unseen : serve false false { status := 503 } = ([.failure],[.success],503) ∧
    serve false false { err := some {} } = ([.success],[.failure],500) := by
  decide

end SdkApi.RecordedOutcomes
