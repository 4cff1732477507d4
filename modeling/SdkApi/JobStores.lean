import SdkApi.Tables

/-!
# Job records and the four job stores

A job store keeps one record per job. The memory store works on its map under
a lock and PostgreSQL on its table with one statement; Redis and NATS read a
record and write it back. A record that cannot be marshalled is written as an
empty text, which nobody can read again.
-/

namespace SdkApi.JobStores
open AssocLists
open Tables (GoMap)

inductive JobStatus where
  | pending
  | processing
  | completed
  | failed
  deriving DecidableEq

def JobStatus.terminal : JobStatus → Bool
  | .completed | .failed => true
  | _ => false

structure JobState (R : Type) where
  id : String
  status : JobStatus
  result : Option R := none
  error : String := ""
  createdAt : ℤ
  updatedAt : ℤ
  retryCount : ℤ := 0
  maxRetries : ℤ := 0
  processingDeadline : Option ℤ := none
  callbackURL : String := ""
  deriving DecidableEq

variable {R : Type}

def newJob (id : String) (now : ℤ) : JobState R where
  id := id
  status := .pending
  createdAt := now
  updatedAt := now

/-- The arguments of an `Update`. -/
structure Change (R : Type) where
  status : JobStatus
  result : Option R
  errMsg : String

/-- The assignments of an `Update`. -/
def Change.apply (c : Change R) (timeout now : ℤ) (js : JobState R) : JobState R :=
  { js with
    status := c.status
    result := c.result
    error := c.errMsg
    updatedAt := now
    processingDeadline := if c.status = .processing then some (now+timeout) else none }

/-- The deadline is at or before `now`. -/
def due (now : ℤ) (js : JobState R) : Bool :=
  js.status = .processing && (js.processingDeadline.map fun dl => !decide (now < dl)).getD false

/-- The same in SQL: the deadline is before `now`. -/
def overdue (now : ℤ) (js : JobState R) : Bool :=
  js.status = .processing && (js.processingDeadline.map fun dl => decide (dl < now)).getD false

def requeue (now : ℤ) (js : JobState R) : JobState R :=
  { js with
    status := .pending
    retryCount := js.retryCount+1
    processingDeadline := none
    updatedAt := now }

def giveUp (now : ℤ) (js : JobState R) : JobState R :=
  { js with
    status := .failed
    error := "max retries exceeded"
    processingDeadline := none
    updatedAt := now }

def reap (now maxRetries : ℤ) (js : JobState R) : JobState R :=
  if maxRetries ≤ js.retryCount then giveUp now js else requeue now js

inductive Kind where
  | memory
  | redis
  | nats
  | postgres
  deriving DecidableEq

/-- `marshal` is what a result is read back as. -/
structure JobStore (R : Type) where
  kind : Kind
  processingTimeout : ℤ
  marshal : R → Option (Option R)

variable (S : JobStore R)

def save (jobs : GoMap (JobState R)) (id : String) (js : JobState R) : GoMap (JobState R) :=
  match js.result with
  | none => Tables.set jobs id js
  | some r =>
    match S.marshal r with
    | some result => Tables.set jobs id { js with result := result }
    | none => jobs.filter fun e => e.1 ≠ id

/-- `UPDATE … WHERE id IN ids`. -/
def updateRows (f : JobState R → JobState R) (ids : List String) (jobs : GoMap (JobState R)) :
    GoMap (JobState R) :=
  jobs.map fun e => (e.1,if e.1 ∈ ids then f e.2 else e.2)

/-- PostgreSQL stores a result that cannot be marshalled as `NULL`. -/
def written (c : Change R) : Change R :=
  match S.kind with
  | .postgres => { c with result := c.result.bind fun r => (S.marshal r).getD none }
  | _ => c

/-- An `Update` in one round trip, as the memory store and PostgreSQL do it. -/
def updateAtOnce (c : Change R) (now : ℤ) (id : String) : GoMap (JobState R) → GoMap (JobState R) :=
  updateRows ((written S c).apply S.processingTimeout now) [id]

/-- `ReapStale` of the memory store, with the number of jobs reaped. -/
def reapAll (now maxRetries : ℤ) (jobs : GoMap (JobState R)) : GoMap (JobState R) × ℕ :=
  (jobs.map fun e => (e.1,if due now e.2 then reap now maxRetries e.2 else e.2),
    (jobs.filter fun e => due now e.2).length)

def selects (jobs : GoMap (JobState R)) (p : JobState R → Bool) (ids : List String) : Bool :=
  decide (ids.length ≤ 100) && ids.all fun id => (jobs.lookup id).any p

/-- The first statement of `ReapStale` on PostgreSQL hits these rows. -/
def retryable (now maxRetries : ℤ) (js : JobState R) : Bool :=
  overdue now js && decide (js.retryCount < maxRetries)

def exhausted (now maxRetries : ℤ) (js : JobState R) : Bool :=
  overdue now js && decide (maxRetries ≤ js.retryCount)

section

variable {S} {jobs : GoMap (JobState R)} {id : String} {js : JobState R}

lemma lookup_set_self (js : JobState R) : (Tables.set jobs id js).lookup id = some js := by
  simp [Tables.lookup_set]

variable {id' : String}

lemma lookup_set_ne (h : id' ≠ id) : (Tables.set jobs id js).lookup id' = jobs.lookup id' := by
  rw [Tables.lookup_set, if_neg h]

lemma lookup_save_ne (h : id' ≠ id) : (save S jobs id js).lookup id' = jobs.lookup id' := by
  rw [save]
  split
  · exact lookup_set_ne h
  · split
    · exact lookup_set_ne h
    · exact lookup_drop_key_ne h jobs

lemma lookup_save_plain (h : js.result = none) : (save S jobs id js).lookup id = some js := by
  rw [save, h]
  exact lookup_set_self js

lemma lookup_save {js' : JobState R} (h : (save S jobs id js).lookup id = some js') :
    ∃ result, js' = { js with result := result } := by
  rw [save] at h
  split at h
  · rw [lookup_set_self, Option.some.injEq] at h
    exact ⟨js.result,h.symm⟩
  · split at h
    · rw [lookup_set_self, Option.some.injEq] at h
      exact ⟨_,h.symm⟩
    · rw [lookup_drop_key_self] at h
      cases h

lemma lookup_updateRows (f : JobState R → JobState R) (ids : List String) :
    (updateRows f ids jobs).lookup id =
      (jobs.lookup id).map fun js => if id ∈ ids then f js else js :=
  lookup_map_values (fun key js => if key ∈ ids then f js else js) jobs id

variable (c : Change R)

lemma lookup_updateAtOnce_ne (now : ℤ) (h : id' ≠ id) :
    (updateAtOnce S c now id jobs).lookup id' = jobs.lookup id' := by
  rw [updateAtOnce, lookup_updateRows]
  simp [h]

lemma lookup_updateAtOnce (now : ℤ) :
    (updateAtOnce S c now id jobs).lookup id =
      (jobs.lookup id).map ((written S c).apply S.processingTimeout now) := by
  rw [updateAtOnce, lookup_updateRows]
  simp

lemma written_status : (written S c).status = c.status := by
  rw [written]
  split <;> rfl

lemma written_plain {c : Change R} (h : c.result = none) : (written S c).result = none := by
  rw [written]
  split
  · simp [h]
  · exact h

lemma lookup_reapAll (now maxRetries : ℤ) :
    (reapAll now maxRetries jobs).1.lookup id =
      (jobs.lookup id).map fun js => if due now js then reap now maxRetries js else js :=
  lookup_map_values (fun _ js => if due now js then reap now maxRetries js else js) jobs id

lemma selects_mem {p : JobState R → Bool} {ids : List String} (h : selects jobs p ids)
    (hi : id ∈ ids) (hj : jobs.lookup id = some js) : p js := by
  rw [selects, Bool.and_eq_true, List.all_eq_true] at h
  simpa [hj] using h.2 id hi

end

end SdkApi.JobStores
