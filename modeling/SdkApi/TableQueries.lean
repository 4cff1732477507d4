import SdkApi.Tables

/-!
# Offset and keyset queries

Offset queries check every name on all drivers. The keyset query of MySQL and
Turso does not: filter keys and the sort column become part of the text.
-/

namespace SdkApi.TableQueries
open GoStrings SqlEngine Tables

variable {V A : Type} (b : Backend V A) (info : TableInfo) (d : Driver)

def positive (n : ℤ) : Option ℕ := if 0 < n then some n.toNat else none

def firstInvalid {α : Type} (m : GoMap α) : Option String :=
  (m.find? fun e => !validColumn info e.1).map Prod.fst

def rowsOf (s : Step V (Result V)) : Step V (List (Row V)) :=
  match s with
  | (t,.error e) => (t,.error e)
  | (t,.ok r) => (t,.ok r.rows)

def countOf (s : Step V (Result V)) : Step V ℕ :=
  match s with
  | (t,.error e) => (t,.error e)
  | (t,.ok r) => (t,.ok r.affected)

def offsetOrder (orderBy : String) : Except DbError String :=
  if orderBy = "" then .ok info.primaryKey
  else if validColumn info orderBy then .ok orderBy
  else .error (.invalidColumn orderBy)

def queryWhere (where_ : GoMap A) (orderBy : String) (limit offset : ℤ) (tbl : Table V) :
    Step V (List (Row V)) :=
  match offsetOrder info orderBy with
  | .error e => (tbl,.error e)
  | .ok col =>
    match firstInvalid info (b.iterate where_) with
    | some k => (tbl,.error (.invalidColumn k))
    | none => rowsOf (query b
        (.select (whereConds b where_) [col] (positive limit) (positive offset)) tbl)

def countWhere (where_ : GoMap A) (tbl : Table V) : Step V ℕ :=
  match firstInvalid info (b.iterate where_) with
  | some k => (tbl,.error (.invalidColumn k))
  | none => countOf (query b (.count (whereConds b where_)) tbl)

/-- `Table.Count` looks at the first of its conditions only. -/
def count (conds : List (String × A)) (tbl : Table V) : Step V ℕ :=
  match conds with
  | [] => countOf (query b (.count []) tbl)
  | (k,a)::_ =>
    if validColumn info k then countOf (query b (.count [eqCond k a]) tbl)
    else (tbl,.error (.invalidColumn k))

def listPaginated (limit offset : ℤ) (tbl : Table V) : Step V (List (Row V)) :=
  rowsOf (query b (.select [] [info.primaryKey] (some limit.toNat) (some offset.toNat)) tbl)

def queryPaginated (page size : ℤ) (orderBy : String) (tbl : Table V) :
    Step V (List (Row V) × ℕ) :=
  let page := if page < 1 then 1 else page
  let size := if size < 1 then 10 else size
  match offsetOrder info orderBy with
  | .error e => (tbl,.error e)
  | .ok col =>
    match count b info [] tbl with
    | (t,.error e) => (t,.error e)
    | (t,.ok total) =>
      match rowsOf (query b (.select [] [col] (some size.toNat)
          (some ((page-1)*size).toNat)) t) with
      | (u,.error e) => (u,.error e)
      | (u,.ok rows) => (u,.ok (rows,total))

structure KeysetPage (V : Type) where
  rows : List (Row V)
  nextCursor : String

def keysetStmt (cursor : String) (size : ℤ) (orderBy : String) (where_ : GoMap A) : Stmt A :=
  .select ((if cursor = "" then [] else [⟨orderBy,.gt,b.text cursor⟩])++whereConds b where_)
    (if orderBy = info.primaryKey then [orderBy] else [orderBy,info.primaryKey])
    (some (size+1).toNat) none

/-- One row more than the page size is read, for the cursor. -/
def cutPage (size : ℤ) (orderBy : String) (rows : List (Row V)) : KeysetPage V :=
  if size < rows.length then
    ⟨rows.take size.toNat,
      match rows[size.toNat-1]?, columnField info orderBy with
      | some r, some f => b.format (r (toLower f.column))
      | _, _ => ""⟩
  else ⟨rows,""⟩

def runKeyset (cursor : String) (size : ℤ) (orderBy : String) (where_ : GoMap A)
    (tbl : Table V) : Step V (KeysetPage V) :=
  match rowsOf (query b (keysetStmt b info cursor size orderBy where_) tbl) with
  | (t,.error e) => (t,.error e)
  | (t,.ok rows) => (t,.ok (cutPage b info size orderBy rows))

def queryKeyset (cursor : String) (size : ℤ) (orderBy : String) (where_ : GoMap A)
    (tbl : Table V) : Step V (KeysetPage V) :=
  match d with
  | .postgres =>
    match offsetOrder info orderBy with
    | .error e => (tbl,.error e)
    | .ok col =>
      match firstInvalid info (b.iterate where_) with
      | some k => (tbl,.error (.invalidColumn k))
      | none => runKeyset b info cursor (if size < 1 then 10 else size) col where_ tbl
  | _ => runKeyset b info cursor size (if orderBy = "" then info.primaryKey else orderBy) where_ tbl

variable {b info}

lemma iterate_nil {α : Type} : b.iterate ([] : GoMap α) = [] := (b.iterate_perm []).eq_nil

lemma valid_of_firstInvalid {where_ : GoMap A} (h : firstInvalid info (b.iterate where_) = none)
    {x : String} (hx : x ∈ (whereConds b where_).map Cond.ident) : validColumn info x := by
  simp only [firstInvalid, Option.map_eq_none_iff, List.find?_eq_none] at h
  simp only [whereConds, List.map_map, List.mem_map] at hx
  obtain ⟨e,he,rfl⟩ := hx
  simpa [eqCond] using h e he

variable {orderBy col : String} (h : offsetOrder info orderBy = .ok col)
include h

lemma order_column : validColumn info col ∨ col = info.primaryKey := by
  rw [offsetOrder] at h
  split_ifs at h with _ ha <;> cases h
  · exact .inr rfl
  · exact .inl ha

lemma order_plain (hn : ∀ f ∈ info.fields, b.plain f.column) (hk : b.plain info.primaryKey) :
    b.plain col := by
  rcases order_column h with hc | rfl
  · exact plain_of_column hn hc
  · exact hk

end SdkApi.TableQueries
