import SdkApi.CacheTransparency
import SdkApi.Freshness

/-!
# Requests on one id, step by step

Several requests on one id share the table, the caches and the flight group
of `cacheNode`. A request takes one step at a time: a lookup in a cache, a
statement, a store into a cache, a delete from a cache. At most one Get leads
a flight; the others wait for the result of its call.

The ledger, the floor of a Get and the version that a write has made are
records of the run and have no counterpart in the program. A version is what
the table answers for the id; the floor of a Get is the last version whose
writer had returned when the Get started.
-/

namespace SdkApi.CacheSchedules
open SqlEngine Tables KeyedTable CachedCrud CacheTransparency Freshness

variable {V A J : Type}

/-- Constructors are named for the next step or for the end. -/
inductive Proc (V A J : Type) where
  | idle
  | lookingL1 (floor : ℕ)
  | entering (floor : ℕ)
  | lookingL2 (floor : ℕ)
  | repairing (floor : ℕ)
  | querying (floor : ℕ)
  | storingL2 (floor : ℕ) (res : Except DbError (Row V))
  | leaving (floor : ℕ) (res : Except DbError (Row V))
  | waiting (floor leader : ℕ)
  | storingL1 (floor : ℕ) (r : Row V)
  | answered (floor : ℕ) (ans : Answer J)
  | updating (patch : GoMap A)
  | rereading (wrote : Option ℕ)
  | deleting
  | droppingL1 (wrote : Option ℕ) (ans : Answer J)
  | droppingL2 (wrote : Option ℕ) (ans : Answer J)
  | returning (wrote : Option ℕ) (ans : Answer J)
  | returned (wrote : Option ℕ) (ans : Answer J)

/-- `flight` is the leader of the call in progress. -/
structure Config (V A J : Type) extends State V J where
  procs : ℕ → Proc V A J
  flight : Option ℕ
  results : ℕ → Option (Except DbError J)
  ledger : Ledger (Except DbError J)

inductive Call (A : Type) where
  | get
  | update (body : Option (GoMap A))
  | delete

inductive Label (A : Type) where
  | start (i : ℕ) (call : Call A)
  | tick (i : ℕ)
  | expireL1
  | expireL2

def put (c : Config V A J) (i : ℕ) (q : Proc V A J) : Config V A J :=
  { c with procs := Function.update c.procs i q }

section

variable (b : Backend V A) (info : TableInfo) (d : Driver)

def updateStmt (id : String) (patch : GoMap A) (tbl : Table V) : Step V (Result V) :=
  if patch = [] then (tbl,.error .noFields)
  else
    match patchSets b info d patch with
    | .error e => (tbl,.error e)
    | .ok sets => query b (.update sets [eqCond info.primaryKey (b.text id)]) tbl

lemma update_eq (id : String) (patch : GoMap A) (tbl : Table V) :
    update b info d id patch tbl =
      match updateStmt b info d id patch tbl with
      | (t,.error e) => (t,.error e)
      | (t,.ok r) => if d = .mysql then get b info d id t else (t,oneRow d r.rows) := by
  rw [update, updateStmt]
  by_cases h : patch = []
  · rw [if_pos h, if_pos h]
  rw [if_neg h, if_neg h]
  cases patchSets b info d patch with
  | error e => rfl
  | ok sets =>
    dsimp only
    rcases query b (.update sets [eqCond info.primaryKey (b.text id)]) tbl with ⟨t,e | r⟩
    · rfl
    · cases d <;> rfl

end

variable (p : CachedProvider V A J) (id : String)

/-- What `doTake` stores of a query's result. -/
def stored (l2 : KV (L2Value J)) (key : String) : Except DbError (Row V) → KV (L2Value J)
  | .ok r => Function.update l2 key (some (.json (p.codec.encode r)))
  | .error .notFound => storeNew l2 key .notFound
  | .error _ => l2

def resume (floor : ℕ) : Except DbError (Row V) → Proc V A J
  | .ok r => .storingL1 floor r
  | .error e => .answered floor (answerOf p (.error e))

def startCall (c : Config V A J) (i : ℕ) : Call A → Config V A J
  | .get => put c i (.lookingL1 c.ledger.returned)
  | .update none => put c i (.returning none .invalidBody)
  | .update (some patch) => put c i (.updating patch)
  | .delete => put c i .deleting

/-- A statement has left the table `t` behind. -/
def written (c : Config V A J) (t : Table V) : Config V A J :=
  { c with table := t, ledger := { c.ledger with versions := c.ledger.versions++[answer p t id] } }

def initial (st : State V J) : Config V A J :=
  ⟨st,fun _ => .idle,none,fun _ => none,⟨[answer p st.table id],0,0,0⟩⟩

variable [DecidableEq J]

def changedVersion (c : Config V A J) (t : Table V) : Option ℕ :=
  if answer p t id = answer p c.table id then none else some c.ledger.versions.length

/-- An executed statement has written the row if there is one afterwards, changed or not. -/
def wroteVersion (c : Config V A J) (t : Table V) : Option ℕ :=
  if (answer p t id).isOk then some c.ledger.versions.length else changedVersion p id c t

def getStep (c : Config V A J) (i : ℕ) : Option (Config V A J) :=
  let key := p.keyPrefix ++ id
  match c.procs i with
  | .lookingL1 f =>
    match c.l1.bind fun l1 => l1 key with
    | some v => some (put c i (.answered f (.json 200 (l1JSON p v))))
    | none => some (put c i (.entering f))
  | .entering f =>
    match c.flight with
    | some l => some (put c i (.waiting f l))
    | none => some (put { c with flight := some i } i (.lookingL2 f))
  | .lookingL2 f =>
    match c.l2 key with
    | some .notFound => some (put c i (.leaving f (.error .notFound)))
    | some (.json j) =>
      match p.codec.decode j with
      | some r => some (put c i (.leaving f (.ok r)))
      | none => some (put c i (.repairing f))
    | none => some (put c i (.querying f))
  | .repairing f => some (put { c with l2 := drop c.l2 key } i (.querying f))
  | .querying f =>
    let out := get p.backend p.info p.driver id c.table
    some (put { c with table := out.1 } i (.storingL2 f out.2))
  | .storingL2 f res => some (put { c with l2 := stored p c.l2 key res } i (.leaving f res))
  | .leaving f res =>
    some (put { c with
      flight := none
      results := Function.update c.results i (some (res.map p.codec.encode)) } i (resume p f res))
  | .waiting f l =>
    match c.results l with
    | none => none
    | some (.error e) => some (put c i (resume p f (.error e)))
    | some (.ok j) =>
      match p.codec.decode j with
      | some r => some (put c i (resume p f (.ok r)))
      -- an error of the decoder, which a text of the encoder does not cause
      | none => some (put c i (.answered f (.failed .query)))
  | .storingL1 f r =>
    some (put { c with l1 := c.l1.map fun l1 => storeNew l1 key (.row r) } i
      (.answered f (.json 200 (p.codec.encode r))))
  | _ => none

def writeStep (c : Config V A J) (i : ℕ) : Option (Config V A J) :=
  let key := p.keyPrefix ++ id
  match c.procs i with
  | .updating patch =>
    match updateStmt p.backend p.info p.driver id patch c.table with
    | (t,.error e) =>
      some (put (written p id c t) i (.returning (changedVersion p id c t) (failure e)))
    | (t,.ok res) =>
      if p.driver = .mysql then
        some (put (written p id c t) i (.rereading (wroteVersion p id c t)))
      else
        match oneRow p.driver res.rows with
        | .error e =>
          some (put (written p id c t) i (.returning (changedVersion p id c t) (failure e)))
        | .ok r =>
          some (put (written p id c t) i
            (.droppingL1 (some c.ledger.versions.length) (.json 200 (p.codec.encode r))))
  | .rereading w =>
    match get p.backend p.info p.driver id c.table with
    | (t,.error e) => some (put { c with table := t } i (.returning w (failure e)))
    | (t,.ok r) =>
      some (put { c with table := t } i (.droppingL1 w (.json 200 (p.codec.encode r))))
  | .deleting =>
    match delete p.backend p.info id c.table with
    | (t,.error e) =>
      some (put (written p id c t) i (.returning (changedVersion p id c t) (failure e)))
    | (t,.ok ()) =>
      some (put (written p id c t) i (.droppingL1 (some c.ledger.versions.length) (.empty 204)))
  | .droppingL1 w ans =>
    some (put { c with
      l1 := c.l1.map fun l1 => drop l1 key
      ledger := { c.ledger with dropped1 := max c.ledger.dropped1 (w.getD 0) } } i
      (.droppingL2 w ans))
  | .droppingL2 w ans =>
    some (put { c with
      l2 := drop c.l2 key
      ledger := { c.ledger with dropped2 := max c.ledger.dropped2 (w.getD 0) } } i
      (.returning w ans))
  | .returning w ans =>
    some (put { c with
      ledger := { c.ledger with returned := max c.ledger.returned (w.getD 0) } } i
      (.returned w ans))
  | _ => none

def step (c : Config V A J) : Label A → Option (Config V A J)
  | .start i call =>
    match c.procs i with
    | .idle => some (startCall c i call)
    | _ => none
  | .tick i => (getStep p id c i).or (writeStep p id c i)
  | .expireL1 => some { c with l1 := c.l1.map fun l1 => drop l1 (p.keyPrefix ++ id) }
  | .expireL2 => some { c with l2 := drop c.l2 (p.keyPrefix ++ id) }

end SdkApi.CacheSchedules
