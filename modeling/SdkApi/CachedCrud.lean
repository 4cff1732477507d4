import SdkApi.CrudProviders

/-!
# The cached CRUD providers

`cachedCRUD` and `mysqlCachedCRUD` put an in-process cache (L1) and a shared
node (L2) in front of a table. Both key their entries with a prefix and the
id of the request. L2 holds JSON texts and placeholders for ids that were not
found. L1 holds Go values, among them the byte slices with which `warmCache`
fills it under keys without the prefix.

Expiry is left out; the entries that the bounded L1 drops are dropped by
steps of their own.
-/

namespace SdkApi.CachedCrud
open GoStrings SqlEngine Tables TableQueries CrudProviders

variable {V A J : Type}

/-- What has been marshalled comes back as a value that marshals alike. -/
structure Codec (V A J : Type) where
  encode : Row V → J
  encodeEntity : Entity A → J
  bytes : J → J
  decode : J → Option (Row V)
  recode : ∀ r, ∃ r', decode (encode r) = some r' ∧ encode r' = encode r

inductive L1Value (V J : Type) where
  | row (r : Row V)
  | slice (j : J)

/-- What Redis holds under a key: a JSON text or the placeholder `*`. -/
inductive L2Value (J : Type) where
  | json (j : J)
  | notFound

abbrev KV (α : Type) := String → Option α

/-- `l1` is nil when no TTL is configured for it. -/
structure State (V J : Type) where
  table : Table V
  l1 : Option (KV (L1Value V J))
  l2 : KV (L2Value J)

structure CachedProvider (V A J : Type) where
  backend : Backend V A
  info : TableInfo
  driver : Driver
  keyPrefix : String
  codec : Codec V A J

inductive Answer (J : Type) where
  | json (status : ℕ) (body : J)
  | message (status : ℕ) (text : String)
  | failed (err : DbError)
  | invalidBody
  | empty (status : ℕ)

def Answer.status : Answer J → ℕ
  | .json n _ => n
  | .message n _ => n
  | .failed _ => 500
  | .invalidBody => 400
  | .empty n => n

def Answer.row : Answer J → Option J
  | .json _ j => some j
  | _ => none

def drop {α : Type} (kv : KV α) (key : String) : KV α := Function.update kv key none

/-- `LoadOrStore` and `SETNX`: a value that is there stays. -/
def storeNew {α : Type} (kv : KV α) (key : String) (v : α) : KV α :=
  if (kv key).isSome then kv else Function.update kv key (some v)

section

variable (c : Codec V A J) (l2 : KV (L2Value J)) (key : String)

def load (query : Step V (Row V)) : Table V × KV (L2Value J) × Except DbError (Row V) :=
  match query with
  | (t,.error .notFound) => (t,storeNew l2 key .notFound,.error .notFound)
  | (t,.error e) => (t,l2,.error e)
  | (t,.ok r) => (t,Function.update l2 key (some (.json (c.encode r))),.ok r)

/-- A text that does not decode is removed and loaded anew. -/
def doTake (query : Table V → Step V (Row V)) (tbl : Table V) :
    Table V × KV (L2Value J) × Except DbError (Row V) :=
  match l2 key with
  | some .notFound => (tbl,l2,.error .notFound)
  | some (.json j) =>
    match c.decode j with
    | some r => (tbl,l2,.ok r)
    | none => load c (drop l2 key) key (query tbl)
  | none => load c l2 key (query tbl)

variable (p : CachedProvider V A J)

def l1JSON : L1Value V J → J
  | .row r => p.codec.encode r
  | .slice j => p.codec.bytes j

def notFoundText : String := if p.driver = .mysql then "link not found" else "not found"

def cachedGet (id : String) (st : State V J) : State V J × Answer J :=
  let key := p.keyPrefix ++ id
  match st.l1.bind fun l1 => l1 key with
  | some v => (st,.json 200 (l1JSON p v))
  | none =>
    match doTake p.codec st.l2 key (get p.backend p.info p.driver id) st.table with
    | (t,l2,.error .notFound) => (⟨t,st.l1,l2⟩,.message 404 (notFoundText p))
    | (t,l2,.error e) => (⟨t,st.l1,l2⟩,.failed e)
    | (t,l2,.ok r) =>
      (⟨t,st.l1.map fun l1 => storeNew l1 key (.row r),l2⟩,.json 200 (p.codec.encode r))

def delCache (id : String) (st : State V J) : State V J :=
  let key := p.keyPrefix ++ id
  ⟨st.table,st.l1.map fun l1 => drop l1 key,drop st.l2 key⟩

def cachedCreate (body : Option (Entity A)) (st : State V J) : State V J × Answer J :=
  match body with
  | none => (st,.invalidBody)
  | some en =>
    match create p.backend p.info p.driver en st.table with
    | (t,.error e) => ({ st with table := t },.failed e)
    | (t,.ok (.row r)) => ({ st with table := t },.json 201 (p.codec.encode r))
    | (t,.ok (.entity en)) => ({ st with table := t },.json 201 (p.codec.encodeEntity en))

def failure : DbError → Answer J
  | .notFound => .message 404 "not found"
  | e => .failed e

def cachedUpdate (id : String) (body : Option (GoMap A)) (st : State V J) : State V J × Answer J :=
  match body with
  | none => (st,.invalidBody)
  | some patch =>
    match update p.backend p.info p.driver id patch st.table with
    | (t,.error e) => ({ st with table := t },failure e)
    | (t,.ok r) => (delCache p id { st with table := t },.json 200 (p.codec.encode r))

def cachedDelete (id : String) (st : State V J) : State V J × Answer J :=
  match delete p.backend p.info id st.table with
  | (t,.error e) => ({ st with table := t },failure e)
  | (t,.ok ()) => (delCache p id { st with table := t },.empty 204)

def cachedList (st : State V J) : State V J × Answer J :=
  (st,if p.driver = .mysql then .empty 405
    else .message 405 "list not available for cached provider")

def cachedServe (req : Request A) (st : State V J) : State V J × Answer J :=
  match req with
  | .list _ => cachedList p st
  | .get id => cachedGet p id st
  | .create body => cachedCreate p body st
  | .update id body => cachedUpdate p id body st
  | .delete id => cachedDelete p id st

/-- The field named `ID` with the formatting verb, empty if there is none. -/
def extractID (r : Row V) : String :=
  match p.info.fields.find? fun f => f.goName = "ID" with
  | some f => p.backend.format (r (toLower f.column))
  | none => ""

def warmRow (l1 : KV (L1Value V J)) (r : Row V) : KV (L1Value V J) :=
  if extractID p r = "" then l1 else storeNew l1 (extractID p r) (.slice (p.codec.encode r))

/-- Only PostgreSQL warms its L1, with the first hundred rows by key. -/
def warmCache (hasL1 : Bool) (tbl : Table V) : State V J :=
  let l1 : Option (KV (L1Value V J)) := if hasL1 then some fun _ => none else none
  match p.driver with
  | .postgres =>
    match queryPaginated p.backend p.info 1 100 "" tbl with
    | (t,.error _) => ⟨t,l1,fun _ => none⟩
    | (t,.ok (rows,_)) => ⟨t,l1.map fun l1 => rows.foldl (warmRow p) l1,fun _ => none⟩
  | _ => ⟨tbl,l1,fun _ => none⟩

/-- A request, or the eviction of an entry of the bounded L1. -/
inductive Event (A : Type) where
  | request (req : Request A)
  | evict (key : String)

def act (st : State V J) : Event A → State V J
  | .request req => (cachedServe p req st).1
  | .evict key => { st with l1 := st.l1.map fun l1 => drop l1 key }

def plainGet (id : String) (tbl : Table V) : Answer J :=
  match (get p.backend p.info p.driver id tbl).2 with
  | .ok r => .json 200 (p.codec.encode r)
  | .error .notFound => .message 404 (notFoundText p)
  | .error e => .failed e

end

end SdkApi.CachedCrud
