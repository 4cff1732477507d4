import SdkApi.GoStrings

/-!
# Attempts of the retry middleware

`c.Next()` moves the cursor of a request over its handlers and never back.
`Retry` calls it once for each attempt, so only the first attempt finds the
downstream handler; a later one finds no handler and gets a 404.
-/

namespace SdkApi.RetryAttempts

variable {E : Type}

/-- The status that an execution leaves, and the error it returns. -/
structure Outcome (E : Type) where
  status : ℤ
  err : Option E

def Outcome.retryable (o : Outcome E) : Bool := o.err.isSome || 500 ≤ o.status

def retries (method : String) : Bool := method ∈ ["GET","HEAD","PUT","DELETE","OPTIONS"]

/-- `behind` says that the cursor has passed the downstream handler. -/
structure Ctx where
  behind : Bool := false
  attempt : Option ℕ := none
  runs : ℕ := 0
  status : ℤ := 200

variable (newError : ℤ → String → E) (tape : ℕ → Outcome E)

def next (c : Ctx) : Ctx × Option E :=
  if c.behind then (c,some (newError 404 "Not Found"))
  else ({ c with behind := true, runs := c.runs+1, status := (tape c.runs).status },
    (tape c.runs).err)

def settled (r : Ctx × Option E) : Bool := r.2.isNone && r.1.status < 500

/-- The loop of `Retry` from attempt `i` on, with the number of those behind it. -/
def attempts : ℕ → ℕ → Ctx → Ctx × Option E
  | i, 0, c =>
    let r := next newError tape { c with attempt := some (i+1) }
    if settled r then r else (r.1,some (r.2.getD (newError r.1.status "retryable error")))
  | i, left+1, c =>
    let r := next newError tape { c with attempt := some (i+1) }
    if settled r then r else attempts (i+1) left r.1

def retry (maxRetries : ℕ) (method : String) (c : Ctx) : Ctx × Option E :=
  if retries method = false ∨ c.attempt.isSome then next newError tape c
  else attempts newError tape 0 maxRetries c

/-- What retrying is meant to be: the executions, and the outcome of the last. -/
def intended : ℕ → ℕ → ℕ × Outcome E
  | k, 0 => (k+1,tape k)
  | k, left+1 => if (tape k).retryable then intended (k+1) left else (k+1,tape k)

variable {newError tape}

lemma attempts_behind {c : Ctx} (h : c.behind) (i left : ℕ) :
    (attempts newError tape i left c).1.runs = c.runs := by
  induction left generalizing i c with
  | zero => simp [attempts, next, settled, h]
  | succ left ih =>
    simp only [attempts, next, settled, h, if_true, Option.isNone_some, Bool.false_and,
      Bool.false_eq_true, if_false]
    exact ih rfl (i+1)

lemma attempts_runs (i left : ℕ) {c : Ctx} (h : c.behind = false) :
    (attempts newError tape i left c).1.runs = c.runs+1 := by
  cases left with
  | zero =>
    simp only [attempts, next, h, Bool.false_eq_true, if_false]
    split_ifs <;> rfl
  | succ left =>
    simp only [attempts, next, h, Bool.false_eq_true, if_false]
    split_ifs
    · rfl
    · exact attempts_behind rfl (i+1) left

lemma intended_runs (k left : ℕ) : k+1 ≤ (intended tape k left).1 := by
  induction left generalizing k with
  | zero => exact le_rfl
  | succ left ih =>
    rw [intended]
    split_ifs
    · exact (Nat.le_succ _).trans (ih (k+1))
    · exact le_rfl

/-- The downstream handler is executed once. That is what is meant, with its
answer, exactly if the outcome is not retryable or the method is not retried. -/
theorem retry_intended_iff (newError : ℤ → String → E) (tape : ℕ → Outcome E) {m : ℕ}
    (hm : 1 ≤ m) (method : String) :
    (retry newError tape m method {}).1.runs = 1 ∧
    (retries method = false → retry newError tape m method {} =
      (⟨true,none,1,(tape 0).status⟩,(tape 0).err)) ∧
    (retries method →
      ((∃ at_, retry newError tape m method {} = (⟨true,at_,(intended tape 0 m).1,
        (intended tape 0 m).2.status⟩,(intended tape 0 m).2.err)) ↔
      (tape 0).retryable = false)) := by
  obtain ⟨left,rfl⟩ := Nat.exists_eq_succ_of_ne_zero (Nat.one_le_iff_ne_zero.mp hm)
  cases hr : retries method with
  | false => simp [retry, hr, next]
  | true =>
    have hu : (retry newError tape (left+1) method {}).1.runs = 1 := by
      simpa [retry, hr] using attempts_runs 0 (left+1) rfl
    refine ⟨hu,nofun,fun _ => ⟨?_,fun h => ?_⟩⟩
    · rintro ⟨at_,heq⟩
      rw [heq] at hu
      by_contra he
      rw [Bool.not_eq_false] at he
      have ho := @intended_runs _ tape 1 left
      simp only [intended, he, if_true, Nat.zero_add] at hu
      omega
    · obtain ⟨her,hst⟩ : (tape 0).err = none ∧ (tape 0).status < 500 := by
        simpa [Outcome.retryable] using h
      exact ⟨some 1,by simp [retry, hr, attempts, next, settled, intended, h, her, hst]⟩

theorem healthy_get_once :
    (∃ at_, retry (fun code _ => code) (fun _ => ⟨200,none⟩) 2 "GET" {} =
      (⟨true,at_,1,200⟩,none)) ∧
    (retry (fun code _ => code) (fun k => ⟨503-k,none⟩) 2 "GET" {}).1.runs = 1 ∧
    retry (fun code _ => code) (fun _ => ⟨503,none⟩) 2 "POST" {} = (⟨true,none,1,503⟩,none) :=
  ⟨((retry_intended_iff _ _ (by decide) "GET").2.2 (by decide)).mpr (by decide),
    (retry_intended_iff _ _ (by decide) "GET").1,
    (retry_intended_iff _ _ (by decide) "POST").2.1 (by decide)⟩

/-- A handler that would succeed the second time: the client gets a 404. -/
theorem second_attempt_not_found :
    (retry (fun code _ => code) (fun k => ⟨if k = 0 then 503 else 200,none⟩) 2 "GET" {}).2 =
      some 404 ∧
      intended (E := ℤ) (fun k => ⟨if k = 0 then 503 else 200,none⟩) 0 2 = (2,⟨200,none⟩) :=
  ⟨rfl,rfl⟩

end SdkApi.RetryAttempts
