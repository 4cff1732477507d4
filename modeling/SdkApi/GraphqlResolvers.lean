import SdkApi.CrudProviders

/-!
# GraphQL resolvers

The schema has a query for one record, a query for a page and three mutations
per model. Their resolvers call the provider of the model with a context that
they make up, in which no middleware has left anything. The objects of the
schema show what the JSON of a record has under the names of their fields.
-/

namespace SdkApi.GraphqlResolvers
open GoStrings SqlEngine Tables CrudProviders

variable {V A : Type}

def capitalize : List Char → List Char
  | [] => []
  | c::cs => c.toUpper::cs

/-- `org_id` becomes `OrgId`. -/
def toCamel (s : String) : String :=
  String.ofList ((s.toList.splitOnP fun c => c = '_').flatMap capitalize)

example : toCamel "org_id" = "OrgId" := by decide

/-- The field names of the input type: no keys and no generated columns. -/
def inputNames (info : TableInfo) : List String :=
  (info.fields.filter fun f => !f.skip && !f.auto && !f.primary).map fun f => toCamel f.column

def fits (info : TableInfo) (input : GoMap A) : Bool :=
  input.all fun e => (inputNames info).contains e.1

inductive Op (A : Type) where
  | get (id : String)
  | list (page size : Option ℤ) (sort : Option String)
  | create (input : GoMap A)
  | update (id : String) (input : GoMap A)
  | delete (id : String)

def positiveOr (v : Option ℤ) (default_ : ℤ) : ℤ :=
  match v with
  | some n => if 0 < n then n else default_
  | none => default_

/-- There is no upper bound on the size and no whitelist for the sort column. -/
def listParams (page size : Option ℤ) (sort : Option String) : ListParams where
  page := positiveOr page 1
  size := positiveOr size 10
  sort := match sort with
    | some c => if c = "" then "id" else c
    | none => "id"

/-- `decode` unmarshals an input into the model; a patch comes back as it is. -/
def request (decode : GoMap A → Option (Entity A)) : Op A → Request A
  | .get id => .get id
  | .list page size sort => .list (listParams page size sort)
  | .create input => .create (decode input)
  | .update id input => .update id (some input)
  | .delete id => .delete id

def Op.input : Op A → GoMap A
  | .create input => input
  | .update _ input => input
  | _ => []

def resolve (p : Provider V A) (decode : GoMap A → Option (Entity A)) (op : Op A) (tbl : Table V) :
    Table V × Reply V A :=
  if fits p.info op.input then serve p (tenantInfo none) (request decode op) tbl
  else (tbl,.invalid "input" "schema")

/-- The name under which `encoding/json` writes a field. -/
def jsonKey (f : FieldInfo) : String :=
  if (cut f.jsonTag ',').1 = "" then f.goName else (cut f.jsonTag ',').1

def gqlObject (info : TableInfo) (r : Row V) : List (String × Option V) :=
  let columns := info.fields.filter fun f => !f.skip
  columns.map fun f => (toCamel f.column,
    (columns.find? fun g => jsonKey g = toCamel f.column).map fun g => r (toLower g.column))

def shown : Reply V A → List (Row V)
  | .list rows _ _ => rows
  | .row _ r => [r]
  | _ => []

end SdkApi.GraphqlResolvers
