import SdkApi.CrudProviders
import SdkApi.RequestContext

/-!
# The HTTP routes of a crud entry

`registerCRUD` puts the tenant middleware behind the middlewares of the entry
and the same chain in front of all five routes. A route may be disabled or
handed to a handler of the application; otherwise it calls the provider with
the tenant that the chain has left in the locals.
-/

namespace SdkApi.CrudEntry
open HandlerChain RequestContext Tables CrudProviders

inductive Operation where
  | list
  | get
  | create
  | update
  | delete
  deriving DecidableEq

/-- An override is empty, `-` or the name of a handler. -/
structure Entry where
  tenantField : String
  tenantScope : String := ""
  overrides : Operation → String := fun _ => ""
  pageSize : ℤ := 0
  maxPageSize : ℤ := 0
  sortable : List String := []
  pagination : String := ""

variable (entry : Entry)

def isDisabled (op : Operation) : Bool := entry.overrides op = "-"

def isOverridden (op : Operation) : Bool := entry.overrides op ≠ "" && entry.overrides op ≠ "-"

def Served (op : Operation) : Prop := isDisabled entry op = false ∧ isOverridden entry op = false

def tenantScopeName : String := if entry.tenantScope = "" then "org_id" else entry.tenantScope

def tenantID (c : Ctx) : String :=
  let claimed := match c.claims with
    | some claims => stringOr claims (tenantScopeName entry)
    | none => ""
  if claimed = "" then (c.auth.map AuthContext.orgID).getD "" else claimed

def buildTenantMiddleware : Handler := fun c =>
  if tenantID entry c = "" then
    respond c 403 ("tenant scope \"" ++ tenantScopeName entry ++ "\" not found in token claims")
  else next { c with tenant := some (entry.tenantField,tenantID entry c) }

def httpScope (mws : List Handler) (c : Ctx) : Option Scope :=
  match run (mws++[buildTenantMiddleware entry]) c with
  | .next d => some (tenantInfo d.tenant)
  | .stop _ _ => none

structure ListQuery where
  page : Option ℤ := none
  size : Option ℤ := none
  sort : String := ""
  cursor : String := ""
  filters : GoMap String := []

def effectivePageSize : ℤ := if entry.pageSize < 1 then 10 else entry.pageSize

def effectiveMaxPageSize : ℤ :=
  let m := if entry.maxPageSize < 1 then 100 else entry.maxPageSize
  if m < effectivePageSize entry then effectivePageSize entry else m

def parseListParams (q : ListQuery) : Option ListParams :=
  let sort := if q.sort = "" then "id" else q.sort
  if entry.sortable ≠ [] ∧ sort ∉ entry.sortable then none
  else some {
    page := max (q.page.getD 1) 1
    size := min (max (q.size.getD (effectivePageSize entry)) (effectivePageSize entry))
      (effectiveMaxPageSize entry)
    sort := sort
    filters := q.filters
    cursor := q.cursor
    keyset := entry.pagination = "keyset" }

variable {entry}

lemma httpScope_some (hi : entry.tenantField ≠ "") {mws : List Handler} {c : Ctx} {s : Scope}
    (h : httpScope entry mws c = some s) : s.field = entry.tenantField ∧ s.id ≠ "" := by
  rw [httpScope] at h
  split at h
  · rename_i d hd
    obtain ⟨u,-,hu⟩ := (reaches_append mws [buildTenantMiddleware entry] c d).mp hd
    have hv : buildTenantMiddleware entry u = .next d := by
      obtain ⟨v,hv,hd'⟩ := (reaches_cons _ [] u d).mp hu
      rw [(reaches_nil v d).mp hd']
      exact hv
    rw [buildTenantMiddleware] at hv
    split_ifs at hv with hid
    · simp at hv
    · rw [next_eq] at hv
      cases h
      rw [← hv]
      simp [tenantInfo, hi, hid]
  · simp at h

end SdkApi.CrudEntry
