import SdkApi.AssocLists
import SdkApi.SqlEngine

/-!
# Typed tables over three drivers

A table is read and written through statements that each driver builds on
its own. PostgreSQL checks every column name against the model. MySQL and
Turso check names only in offset queries, and splice the keys of a patch and
of a keyset query as they are.
-/

namespace SdkApi.Tables
open GoStrings SqlEngine List

variable {V A : Type}

inductive Driver where
  | postgres
  | mysql
  | turso
  deriving DecidableEq

structure FieldInfo where
  column : String
  goName : String
  primary : Bool := false
  auto : Bool := false
  skip : Bool := false
  hasDefault : Bool := false
  stringKind : Bool := true
  jsonTag : String := ""
  deriving DecidableEq

structure TableInfo where
  fields : List FieldInfo
  primaryKey : String

abbrev Entity (A : Type) := String → A

abbrev GoMap (α : Type) := List (String × α)

/-- An engine together with what Go adds. -/
structure Backend (V A : Type) extends Engine V A where
  zero : A → Bool
  zero_text : ∀ s, zero (text s) = decide (s = "")
  format : V → String
  newID : Table V → A
  lastInsertID : Table V → A
  iterate : ∀ {α : Type}, GoMap α → GoMap α
  iterate_perm : ∀ {α : Type} (m : GoMap α), (iterate m).Perm m

inductive DbError where
  | notFound
  | noFields
  | invalidColumn (col : String)
  | query
  deriving DecidableEq

abbrev Step (V α : Type) := Table V × Except DbError α

def set {α : Type} (m : GoMap α) (k : String) (v : α) : GoMap α :=
  (k,v)::m.filter (fun e => e.1 ≠ k)

def resolveColumn (info : TableInfo) (jsonKey : String) : String :=
  match info.fields.find? (fun f =>
    if f.jsonTag = "" then f.column = jsonKey else (cut f.jsonTag ',').1 = jsonKey) with
  | some f => f.column
  | none => jsonKey

/-- Two keys may resolve to one column; the later of the iteration stays. -/
def resolvePatchColumns {α : Type} (info : TableInfo) (patch : GoMap α) : GoMap α :=
  patch.foldl (fun m e => set m (resolveColumn info e.1) e.2) []

def columnField (info : TableInfo) (col : String) : Option FieldInfo :=
  info.fields.find? (fun f => f.column = col)

def validColumn (info : TableInfo) (col : String) : Bool := (columnField info col).isSome

section

variable (b : Backend V A) (info : TableInfo) (d : Driver)

def query (stmt : Stmt A) (tbl : Table V) : Step V (Result V) :=
  match b.exec stmt tbl with
  | none => (tbl,.error .query)
  | some r => (r.table,.ok r)

/-- `CollectExactlyOneRow` refuses a second row, `QueryRow` drops it. -/
def oneRow : Driver → List (Row V) → Except DbError (Row V)
  | _, [] => .error .notFound
  | _, [r] => .ok r
  | .postgres, _ => .error .query
  | _, r::_ => .ok r

def eqCond (ident : String) (arg : A) : Cond A := ⟨ident,.eq,arg⟩

def whereConds (m : GoMap A) : List (Cond A) := (b.iterate m).map fun e => eqCond e.1 e.2

def fetch (conds : List (Cond A)) (tbl : Table V) : Step V (Row V) :=
  match query b (.select conds [] none none) tbl with
  | (t,.error e) => (t,.error e)
  | (t,.ok r) => (t,oneRow d r.rows)

def get (id : String) (tbl : Table V) : Step V (Row V) :=
  fetch b d [eqCond info.primaryKey (b.text id)] tbl

/-- `WHERE <primary key> = ? AND <tenant column> = ?` -/
def scopedConds (id tenantField tenantID : String) : List (Cond A) :=
  [eqCond info.primaryKey (b.text id),eqCond tenantField (b.text tenantID)]

def getScoped (id tenantField tenantID : String) (tbl : Table V) : Step V (Row V) :=
  if validColumn info tenantField then
    fetch b d (scopedConds b info id tenantField tenantID) tbl
  else (tbl,.error (.invalidColumn tenantField))

/-- MySQL writes a string key although the field is marked as generated. -/
def insertColumns (entity : Entity A) : List (String × A) :=
  (info.fields.filter fun f =>
    let stringPK := d = .mysql && f.primary && f.stringKind && !b.zero (entity f.goName)
    !f.skip && (!f.auto || stringPK) && !(f.hasDefault && b.zero (entity f.goName))).map
    fun f => (f.column,entity f.goName)

def stringPrimary : Option FieldInfo := info.fields.find? fun f => f.primary && f.stringKind

def ensureStringPK (entity : Entity A) (tbl : Table V) : Entity A :=
  match stringPrimary info with
  | some f => if b.zero (entity f.goName) then Function.update entity f.goName (b.newID tbl) else entity
  | none => entity

/-- MySQL hands back the entity itself, with its generated number. -/
inductive Created (V A : Type) where
  | row (r : Row V)
  | entity (en : Entity A)

def create (entity : Entity A) (tbl : Table V) : Step V (Created V A) :=
  match d with
  | .mysql =>
    let en := ensureStringPK b info entity tbl
    let vals := insertColumns b info d en
    if vals = [] then (tbl,.error .noFields)
    else
      match query b (.insert vals) tbl with
      | (t,.error e) => (t,.error e)
      | (t,.ok _) =>
        match stringPrimary info, info.fields.find? FieldInfo.primary with
        | none, some f => (t,.ok (.entity (Function.update en f.goName (b.lastInsertID t))))
        | _, _ => (t,.ok (.entity en))
  | _ =>
    match query b (.insert (insertColumns b info d entity)) tbl with
    | (t,.error e) => (t,.error e)
    | (t,.ok r) =>
      match r.rows with
      | [] => (t,.error .query)
      | row::_ => (t,.ok (.row row))

def createScoped (entity : Entity A) (tenantField tenantID : String) (tbl : Table V) :
    Step V (Created V A) :=
  match columnField info tenantField with
  | none => (tbl,.error (.invalidColumn tenantField))
  | some f => create b info d (Function.update entity f.goName (b.text tenantID)) tbl

/-- The assignments of an update. Only PostgreSQL checks their names. -/
def patchSets (patch : GoMap A) : Except DbError (List (String × A)) :=
  let sets := b.iterate (resolvePatchColumns info (b.iterate patch))
  match d with
  | .postgres =>
    match sets.find? fun s => !validColumn info s.1 with
    | some s => .error (.invalidColumn s.1)
    | none => .ok sets
  | _ => .ok sets

def update (id : String) (patch : GoMap A) (tbl : Table V) : Step V (Row V) :=
  if patch = [] then (tbl,.error .noFields)
  else
    match patchSets b info d patch with
    | .error e => (tbl,.error e)
    | .ok sets =>
      match query b (.update sets [eqCond info.primaryKey (b.text id)]) tbl with
      | (t,.error e) => (t,.error e)
      | (t,.ok r) =>
        match d with
        | .mysql => get b info d id t
        | _ => (t,oneRow d r.rows)

/-- Turso reads the row again unless nothing was changed, MySQL always. -/
def updateScoped (id : String) (patch : GoMap A) (tenantField tenantID : String) (tbl : Table V) :
    Step V (Row V) :=
  if validColumn info tenantField = false then (tbl,.error (.invalidColumn tenantField))
  else if patch = [] then (tbl,.error .noFields)
  else
    match patchSets b info d patch with
    | .error e => (tbl,.error e)
    | .ok sets =>
      match query b (.update sets (scopedConds b info id tenantField tenantID)) tbl with
      | (t,.error e) => (t,.error e)
      | (t,.ok r) =>
        match d with
        | .postgres => (t,oneRow d r.rows)
        | .mysql => getScoped b info d id tenantField tenantID t
        | .turso =>
          if r.affected = 0 then (t,.error .notFound)
          else getScoped b info d id tenantField tenantID t

def remove (conds : List (Cond A)) (tbl : Table V) : Step V Unit :=
  match query b (.delete conds) tbl with
  | (t,.error e) => (t,.error e)
  | (t,.ok r) => if r.affected = 0 then (t,.error .notFound) else (t,.ok ())

def delete (id : String) (tbl : Table V) : Step V Unit :=
  remove b [eqCond info.primaryKey (b.text id)] tbl

def deleteScoped (id tenantField tenantID : String) (tbl : Table V) : Step V Unit :=
  if validColumn info tenantField then
    remove b (scopedConds b info id tenantField tenantID) tbl
  else (tbl,.error (.invalidColumn tenantField))

end

def textBackend (columns : List String) : Backend String String where
  columns := columns
  reserved _ := false
  text := id
  holds c _ v a := match c with
    | .eq => v = a
    | .gt => a < v
  store _ a := a
  before _ v w := decide (v ≤ w)
  fill _ _ _ := ""
  fails _ _ := false
  raw _ _ := none
  zero a := a = ""
  zero_text _ := rfl
  format := id
  newID _ := "generated"
  lastInsertID _ := "generated"
  iterate m := m
  iterate_perm _ := .refl _

variable {α : Type}

lemma mem_set {m : GoMap α} {k : String} {v : α} {e : String × α}
    (h : e ∈ set m k v) : e = (k,v) ∨ e ∈ m := by
  rcases mem_cons.mp h with h | h
  · exact .inl h
  · exact .inr (mem_filter.mp h).1

lemma lookup_set (m : GoMap α) (k : String) (v : α) (c : String) :
    (set m k v).lookup c = if c = k then some v else m.lookup c := by
  rw [set, lookup_cons]
  by_cases hc : c = k
  · simp [hc]
  · rw [beq_eq_false_iff_ne.mpr hc, if_neg hc]
    exact AssocLists.lookup_drop_key_ne hc m

variable (info : TableInfo)

lemma mem_resolve_fold (patch m : GoMap α) (e : String × α)
    (h : e ∈ patch.foldl (fun m e => set m (resolveColumn info e.1) e.2) m) :
    e ∈ m ∨ ∃ e0 ∈ patch, e = (resolveColumn info e0.1,e0.2) := by
  induction patch generalizing m with
  | nil => exact .inl h
  | cons x patch ih =>
    rcases ih _ h with hx | ⟨e0,he,rfl⟩
    · rcases mem_set hx with rfl | hx
      · exact .inr ⟨x,by simp,rfl⟩
      · exact .inl hx
    · exact .inr ⟨e0,by simp [he],rfl⟩

lemma mem_resolvePatchColumns {patch : GoMap α} {e : String × α}
    (h : e ∈ resolvePatchColumns info patch) :
    ∃ e0 ∈ patch, e = (resolveColumn info e0.1,e0.2) := by
  rcases mem_resolve_fold info patch [] e h with h | h
  · simp at h
  · exact h

lemma columnField_some {col : String} {f : FieldInfo}
    (h : columnField info col = some f) : f ∈ info.fields ∧ f.column = col :=
  ⟨mem_of_find?_eq_some h,by simpa using find?_some h⟩

lemma validColumn_iff (col : String) :
    validColumn info col ↔ ∃ f ∈ info.fields, f.column = col := by
  simp [validColumn, columnField]

variable {info} in
lemma plain_of_column {b : Backend V A} (h : ∀ f ∈ info.fields, b.plain f.column) {col : String}
    (hc : validColumn info col) : b.plain col := by
  obtain ⟨f,hf,rfl⟩ := (validColumn_iff info col).mp hc
  exact h f hf

lemma mem_patchSets {b : Backend V A} {info : TableInfo} {d : Driver} {patch : GoMap A}
    {sets : List (String × A)} (h : patchSets b info d patch = .ok sets) {x : String × A}
    (hx : x ∈ sets) :
    (∃ e ∈ patch, x = (resolveColumn info e.1,e.2)) ∧
      (d = .postgres → validColumn info x.1) := by
  have ht : sets = b.iterate (resolvePatchColumns info (b.iterate patch)) ∧
      (d = .postgres → ∀ y ∈ sets, validColumn info y.1) := by
    cases d with
    | postgres =>
      simp only [patchSets] at h
      split at h
      · simp at h
      · rename_i hn
        cases h
        exact ⟨rfl,fun _ y hy => by simpa using find?_eq_none.mp hn y hy⟩
    | mysql | turso =>
      cases h
      exact ⟨rfl,by simp⟩
  obtain ⟨rfl,ha⟩ := ht
  have hm := (b.iterate_perm _).mem_iff.mp hx
  obtain ⟨e,he,rfl⟩ := mem_resolvePatchColumns info hm
  exact ⟨⟨e,(b.iterate_perm _).mem_iff.mp he,rfl⟩,fun hd => ha hd _ hx⟩

lemma oneRow_mem {d : Driver} {rows : List (Row V)} {r : Row V}
    (h : oneRow d rows = .ok r) : r ∈ rows := by
  match d, rows, h with
  | d, [], h => cases d <;> simp [oneRow] at h
  | d, [x], h =>
    have hx : x = r := by cases d <;> simpa [oneRow] using h
    simp [hx]
  | .postgres, x::y::zs, h => simp [oneRow] at h
  | .mysql, x::y::zs, h => simp_all [oneRow]
  | .turso, x::y::zs, h => simp_all [oneRow]

end SdkApi.Tables
