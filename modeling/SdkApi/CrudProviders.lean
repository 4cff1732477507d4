import SdkApi.TableQueries

/-!
# The CRUD providers of the three SQL drivers

A provider serves one request after another against its table. The tenant
that the request's middleware has stored selects the scoped operations.
Hooks that run after an operation can only log and are left out.
-/

namespace SdkApi.CrudProviders
open GoStrings SqlEngine Tables TableQueries

variable {V A : Type}

structure ListParams where
  page : ℤ := 1
  size : ℤ := 10
  sort : String := "id"
  filters : GoMap String := []
  cursor : String := ""
  keyset : Bool := false

/-- A body that does not decode is `none`. -/
inductive Request (A : Type) where
  | list (params : ListParams)
  | get (id : String)
  | create (body : Option (Entity A))
  | update (id : String) (patch : Option (GoMap A))
  | delete (id : String)

inductive Reply (V A : Type) where
  | list (rows : List (Row V)) (nextCursor : String) (total : ℕ)
  | row (status : ℕ) (r : Row V)
  | entity (status : ℕ) (en : Entity A)
  | noContent
  | notFound (id : String)
  | invalid (field rule : String)
  | failed

structure Hooks (A : Type) where
  beforeCreate : Entity A → Except String (Entity A) := fun en => .ok en
  beforeUpdate : String → GoMap A → Except String (GoMap A) := fun _ patch => .ok patch
  beforeDelete : String → Except String Unit := fun _ => .ok ()

/-- The locals `tenant_field` and `tenant_id`, empty when they are not set. -/
structure Scope where
  field : String
  id : String

def tenantInfo (locals : Option (String × String)) : Scope :=
  match locals with
  | some (f,i) => if f ≠ "" ∧ i ≠ "" then ⟨f,i⟩ else ⟨"",""⟩
  | none => ⟨"",""⟩

def Scope.scoped (s : Scope) : Bool := s.field ≠ "" && s.id ≠ ""

structure Provider (V A : Type) where
  backend : Backend V A
  info : TableInfo
  driver : Driver
  hooks : Hooks A

def errReply (id : String) : DbError → Reply V A
  | .notFound => .notFound id
  | _ => .failed

def finish {α : Type} (onError : DbError → Reply V A) (onOk : α → Reply V A)
    (s : Step V α) : Table V × Reply V A :=
  match s with
  | (t,.error e) => (t,onError e)
  | (t,.ok a) => (t,onOk a)

section

variable (p : Provider V A) (s : Scope)

def makeFiltersMap (filters : GoMap String) : GoMap A :=
  filters.map fun e => (e.1,p.backend.text e.2)

def addTenant (where_ : GoMap A) : GoMap A :=
  if s.scoped then set where_ s.field (p.backend.text s.id) else where_

def offsetFilteredWhere (filters : GoMap String) : GoMap A :=
  addTenant p s (makeFiltersMap p (resolvePatchColumns p.info (p.backend.iterate filters)))

def keysetList (where_ : GoMap A) (q : ListParams) (tbl : Table V) : Table V × Reply V A :=
  finish (fun _ => .failed) (fun pg => .list pg.rows pg.nextCursor 0)
    (queryKeyset p.backend p.info p.driver q.cursor q.size q.sort where_ tbl)

/-- The total of a filtered page counts with the first condition only. Offsets are unbounded;
`sqlWindow` has those of an `int`. -/
def tableList (q : ListParams) (tbl : Table V) : Table V × Reply V A :=
  let filters := resolvePatchColumns p.info (p.backend.iterate q.filters)
  let where_ := addTenant p s (makeFiltersMap p filters)
  if q.keyset then keysetList p where_ q tbl
  else if filters ≠ [] ∨ s.scoped then
    match queryWhere p.backend p.info where_ q.sort q.size ((q.page-1)*q.size) tbl with
    | (t,.error _) => (t,.failed)
    | (t,.ok rows) =>
      finish (fun _ => .failed) (fun total => .list rows "" total)
        (count p.backend p.info
          (p.backend.iterate (makeFiltersMap p filters)++
            (if s.scoped then [(s.field,p.backend.text s.id)] else [])) t)
  else
    finish (fun _ => .failed) (fun r => .list r.1 "" r.2)
      (queryPaginated p.backend p.info q.page q.size q.sort tbl)

/-- The list of MySQL and Turso. Its keyset filters are not resolved. -/
def sqlList (q : ListParams) (tbl : Table V) : Table V × Reply V A :=
  if q.keyset then keysetList p (addTenant p s (makeFiltersMap p q.filters)) q tbl
  else
    let limit := if q.size ≤ 0 then 10 else q.size
    let offset := max ((q.page-1)*limit) 0
    if q.filters ≠ [] ∨ s.scoped then
      let where_ := offsetFilteredWhere p s q.filters
      match countWhere p.backend p.info where_ tbl with
      | (t,.error _) => (t,.failed)
      | (t,.ok total) =>
        finish (fun _ => .failed) (fun rows => .list rows "" total)
          (queryWhere p.backend p.info where_ q.sort limit offset t)
    else
      match count p.backend p.info [] tbl with
      | (t,.error _) => (t,.failed)
      | (t,.ok total) =>
        finish (fun _ => .failed) (fun rows => .list rows "" total)
          (listPaginated p.backend p.info limit offset t)

def serveList (q : ListParams) (tbl : Table V) : Table V × Reply V A :=
  match p.driver with
  | .postgres => tableList p s q tbl
  | _ => sqlList p s q tbl

def serveGet (id : String) (tbl : Table V) : Table V × Reply V A :=
  finish (errReply id) (fun r => .row 200 r)
    (if s.scoped then getScoped p.backend p.info p.driver id s.field s.id tbl
      else get p.backend p.info p.driver id tbl)

def createdReply : Created V A → Reply V A
  | .row r => .row 201 r
  | .entity en => .entity 201 en

def serveCreate (body : Option (Entity A)) (tbl : Table V) : Table V × Reply V A :=
  match body with
  | none => (tbl,.invalid "body" "json")
  | some req =>
    match p.hooks.beforeCreate req with
    | .error _ => (tbl,.invalid "hook" "rejected")
    | .ok en => finish (fun _ => .failed) createdReply
        (if s.scoped then createScoped p.backend p.info p.driver en s.field s.id tbl
          else create p.backend p.info p.driver en tbl)

def resolveBody (patch : GoMap A) : GoMap A :=
  match p.driver with
  | .postgres => resolvePatchColumns p.info (p.backend.iterate patch)
  | _ => patch

lemma resolved_nil_iff {α : Type} (m : GoMap α) :
    resolvePatchColumns p.info (p.backend.iterate m) = [] ↔ m = [] := by
  have hn : ∀ l : GoMap α, resolvePatchColumns p.info l = [] ↔ l = [] := by
    intro l
    induction l using List.reverseRecOn with
    | nil => exact iff_of_true rfl rfl
    | append_singleton l e _ => simp [resolvePatchColumns, Tables.set]
  rw [hn]
  exact ⟨fun h => (h ▸ p.backend.iterate_perm m).nil_eq.symm,
    fun h => h ▸ (p.backend.iterate_perm []).eq_nil⟩

def serveUpdate (id : String) (body : Option (GoMap A)) (tbl : Table V) : Table V × Reply V A :=
  match body with
  | none => (tbl,.invalid "body" "json")
  | some req =>
    match p.hooks.beforeUpdate id req with
    | .error _ => (tbl,.invalid "hook" "rejected")
    | .ok patch => finish (errReply id) (fun r => .row 200 r)
        (if s.scoped then
          updateScoped p.backend p.info p.driver id (resolveBody p patch) s.field s.id tbl
          else update p.backend p.info p.driver id (resolveBody p patch) tbl)

def serveDelete (id : String) (tbl : Table V) : Table V × Reply V A :=
  match p.hooks.beforeDelete id with
  | .error _ => (tbl,.invalid "hook" "rejected")
  | .ok () => finish (errReply id) (fun _ => .noContent)
      (if s.scoped then deleteScoped p.backend p.info id s.field s.id tbl
        else delete p.backend p.info id tbl)

def serve (req : Request A) (tbl : Table V) : Table V × Reply V A :=
  match req with
  | .list q => serveList p s q tbl
  | .get id => serveGet p s id tbl
  | .create body => serveCreate p s body tbl
  | .update id body => serveUpdate p s id body tbl
  | .delete id => serveDelete p s id tbl

end

end SdkApi.CrudProviders
