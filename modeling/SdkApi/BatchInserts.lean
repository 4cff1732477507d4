import SdkApi.Tables

/-!
# Inserts in one batch

`BatchInsert` copies all rows with one list of columns. Where `Create` leaves a
column with a default out, the batch writes `NULL` into it, and it puts the
names of the table and of the columns into quotes.
-/

namespace SdkApi.BatchInserts
open GoStrings SqlEngine Tables List

variable {V A : Type} (b : Backend V A) (null : A) (info : TableInfo)

/-- `Table.insertColumns` -/
def copyColumns : List String := (info.fields.filter fun f => !f.skip && !f.auto).map (·.column)

def copyRow (entity : Entity A) : List (String × A) :=
  (copyColumns info).filterMap fun col =>
    (columnField info col).map fun f =>
      (col,if f.hasDefault && b.zero (entity f.goName) then null else entity f.goName)

/-- The rows of a copy are inserted in their order; if one is refused, none of them stays. -/
def copyFrom : List (List (String × A)) → Table V → Option (Table V)
  | [], tbl => some tbl
  | row::rows, tbl => (b.exec (.insert row) tbl).bind fun r => copyFrom rows r.table

/-- The names denote the table and its columns also in quotes, where letters
keep their case and a dot is part of the name. -/
def Quotable (quoted : String → Bool) (tableName : String) : Prop :=
  quoted tableName = true ∧ (copyColumns info).all quoted = true

instance (quoted : String → Bool) (tableName : String) :
    Decidable (Quotable info quoted tableName) := inferInstanceAs (Decidable (_ ∧ _))

def batchInsert (quoted : String → Bool) (tableName : String) (entities : List (Entity A))
    (tbl : Table V) : Step V Unit :=
  if entities = [] then (tbl, .ok ())
  else
    match if Quotable info quoted tableName
      then copyFrom b (entities.map (copyRow b null info)) tbl else none with
    | none => (tbl, .error .query)
    | some t => (t, .ok ())

/-- `Create` for one entity after the other, up to the first that fails. -/
def createAll : List (Entity A) → Table V → Step V Unit
  | [], tbl => (tbl,.ok ())
  | e::es, tbl =>
    match create b info .postgres e tbl with
    | (t,.error err) => (t,.error err)
    | (t,.ok _) => createAll es t

variable {b null info}

/-- No column of the entity is left to its default. -/
def Complete (b : Backend V A) (info : TableInfo) (e : Entity A) : Prop :=
  ∀ f ∈ info.fields, f.skip = false → f.auto = false → f.hasDefault = true →
    b.zero (e f.goName) = false

lemma columnField_of_mem (ho : (info.fields.map (·.column)).Nodup) {f : FieldInfo}
    (hf : f ∈ info.fields) : columnField info f.column = some f := by
  cases hi : columnField info f.column with
  | none =>
    have hno := find?_eq_none.mp hi f hf
    simp at hno
  | some g =>
    obtain ⟨hg,hl⟩ := columnField_some info hi
    rw [inj_on_of_nodup_map ho hg hf hl]

lemma copyRow_eq (ho : (info.fields.map (·.column)).Nodup) {e : Entity A}
    (he : Complete b info e) : copyRow b null info e = insertColumns b info .postgres e := by
  have hi : (info.fields.filter fun f => !f.skip && !f.auto) = info.fields.filter fun f =>
      let stringPK := Driver.postgres = .mysql && f.primary && f.stringKind && !b.zero (e f.goName)
      !f.skip && (!f.auto || stringPK) && !(f.hasDefault && b.zero (e f.goName)) := by
    refine filter_congr fun f hf => ?_
    have hz := he f hf
    cases hs : f.skip <;> cases ha : f.auto <;> cases hd : f.hasDefault <;> simp_all
  rw [copyRow, copyColumns, insertColumns, ← hi, filterMap_map, ← filterMap_eq_map]
  refine filterMap_congr fun f hf => ?_
  obtain ⟨hm,hk⟩ := mem_filter.mp hf
  have hz : (f.hasDefault && b.zero (e f.goName)) = false := by
    rw [Bool.and_eq_true, Bool.not_eq_true', Bool.not_eq_true'] at hk
    cases hd : f.hasDefault with
    | false => rfl
    | true => exact he f hm hk.1 hk.2 hd
  rw [Function.comp_apply, columnField_of_mem ho hm, Option.map_some, hz]
  rfl

lemma create_cases (hk : ∀ f ∈ info.fields, b.known f.column) (e : Entity A) (tbl : Table V) :
    (b.exec (.insert (insertColumns b info .postgres e)) tbl = none ∧
      create b info .postgres e tbl = (tbl,.error .query)) ∨
    ∃ r row, b.exec (.insert (insertColumns b info .postgres e)) tbl = some r ∧
      create b info .postgres e tbl = (r.table,.ok (.row row)) := by
  have hi : (Stmt.insert (insertColumns b info .postgres e)).idents.all b.known := by
    rw [all_eq_true]
    intro x hx
    obtain ⟨p,hp,rfl⟩ := mem_map.mp hx
    obtain ⟨f,hf,rfl⟩ := mem_map.mp hp
    exact hk f (mem_filter.mp hf).1
  have he := exec_known tbl hi
  by_cases ha : b.fails (.insert (insertColumns b info .postgres e)) tbl
  · rw [if_pos ha] at he
    exact .inl ⟨he,by simp [create, query, he]⟩
  · rw [if_neg ha] at he
    exact .inr ⟨_,_,he,by simp [create, query, he, Engine.meaning]; rfl⟩

lemma copyFrom_creates (ho : (info.fields.map (·.column)).Nodup)
    (hk : ∀ f ∈ info.fields, b.known f.column) {es : List (Entity A)}
    (hes : ∀ e ∈ es, Complete b info e) (tbl : Table V) :
    (∃ t, copyFrom b (es.map (copyRow b null info)) tbl = some t ∧
      createAll b info es tbl = (t,.ok ())) ∨
    (∃ t, copyFrom b (es.map (copyRow b null info)) tbl = none ∧
      createAll b info es tbl = (t,.error .query)) := by
  induction es generalizing tbl with
  | nil => exact .inl ⟨tbl,rfl,rfl⟩
  | cons e es ih =>
    rw [forall_mem_cons] at hes
    rw [map_cons, copyFrom, copyRow_eq ho hes.1, createAll]
    rcases create_cases hk e tbl with ⟨hx,he⟩ | ⟨r,row,hx,he⟩
    · rw [hx, he]
      exact .inr ⟨tbl,rfl,rfl⟩
    · rw [hx, he]
      exact ih hes.2 r.table

lemma mem_copyRow (ho : (info.fields.map (·.column)).Nodup) {e : Entity A} {x : String × A} :
    x ∈ copyRow b null info e ↔ ∃ f ∈ info.fields, (f.skip = false ∧ f.auto = false) ∧
      x = (f.column, if f.hasDefault && b.zero (e f.goName) then null else e f.goName) := by
  rw [copyRow, mem_filterMap]
  constructor
  · rintro ⟨col, hc, hx⟩
    obtain ⟨f, hf, rfl⟩ := mem_map.mp hc
    rw [mem_filter, Bool.and_eq_true, Bool.not_eq_true', Bool.not_eq_true'] at hf
    rw [columnField_of_mem ho hf.1] at hx
    exact ⟨f, hf.1, hf.2, (Option.some.inj hx).symm⟩
  · rintro ⟨f, hf, hk, rfl⟩
    refine ⟨f.column, mem_map_of_mem (mem_filter.mpr ⟨hf, by simp [hk]⟩), ?_⟩
    rw [columnField_of_mem ho hf, Option.map_some]

section

variable (ha : ∀ stmt tbl, b.fails stmt tbl = false) (hk : ∀ f ∈ info.fields, b.known f.column)
include ha hk

omit hk in
lemma exec_insert {vals : List (String × A)} (hv : ∀ e ∈ vals, b.known e.1) (tbl : Table V) :
    b.exec (.insert vals) tbl = some (b.meaning tbl (.insert vals)) := by
  rw [exec_known _ (all_eq_true.mpr (forall_mem_map.mpr hv)), ha]
  rfl

lemma createAll_cons (e : Entity A) (es : List (Entity A)) (tbl : Table V) :
    createAll b info (e::es) tbl = createAll b info es
      (b.meaning tbl (.insert (insertColumns b info .postgres e))).table := by
  have hv : ∀ x ∈ insertColumns b info .postgres e, b.known x.1 := by
    rintro x hx
    obtain ⟨f, hf, rfl⟩ := mem_map.mp hx
    exact hk f (mem_filter.mp hf).1
  have hx := exec_insert ha hv tbl
  rcases create_cases hk e tbl with ⟨hn, -⟩ | ⟨r, row, hr, he⟩
  · rw [hx] at hn
    cases hn
  · obtain rfl := Option.some.inj (hx.symm.trans hr)
    rw [createAll, he]

lemma createAll_extends (es : List (Entity A)) (tbl : Table V) :
    ∃ t, createAll b info es tbl = (t, .ok ()) ∧ tbl <+: t := by
  induction es generalizing tbl with
  | nil => exact ⟨tbl, rfl, prefix_rfl⟩
  | cons e es ih =>
    obtain ⟨t, ht, hp⟩ := ih (b.meaning tbl (.insert (insertColumns b info .postgres e))).table
    exact ⟨t, (createAll_cons ha hk e es tbl).trans ht, (prefix_append _ _).trans hp⟩

omit hk in
lemma copyFrom_extends {rows : List (List (String × A))} {tbl t : Table V}
    (hr : ∀ row ∈ rows, ∀ e ∈ row, b.known e.1) (h : copyFrom b rows tbl = some t) : tbl <+: t := by
  induction rows generalizing tbl with
  | nil => exact Option.some.inj h ▸ prefix_rfl
  | cons row rows ih =>
    rw [forall_mem_cons] at hr
    rw [copyFrom, exec_insert ha hr.1] at h
    exact (prefix_append _ _).trans (ih hr.2 h)

lemma complete_of_batch (ho : (info.fields.map fun f => toLower f.column).Nodup)
    (hi : (info.fields.map (·.column)).Nodup)
    (hd : ∀ f ∈ info.fields, f.hasDefault = true → ∀ vals tbl,
      b.fill vals tbl (toLower f.column) ≠ b.store (toLower f.column) null)
    {es : List (Entity A)} {tbl t : Table V}
    (hb : copyFrom b (es.map (copyRow b null info)) tbl = some t)
    (hc : createAll b info es tbl = (t, .ok ())) : ∀ e ∈ es, Complete b info e := by
  have hv : ∀ e, ∀ x ∈ copyRow b null info e, b.known x.1 := by
    rintro e x hx
    obtain ⟨f, hf, -, rfl⟩ := (mem_copyRow hi).mp hx
    exact hk f hf
  induction es generalizing tbl with
  | nil => simp
  | cons e es ih =>
    rw [map_cons, copyFrom, exec_insert ha (hv e)] at hb
    rw [createAll_cons ha hk] at hc
    obtain ⟨u, hu, hp⟩ := createAll_extends ha hk es
      (b.meaning tbl (.insert (insertColumns b info .postgres e))).table
    obtain rfl : u = t := congrArg Prod.fst (hu.symm.trans hc)
    have hq := copyFrom_extends ha (forall_mem_map.mpr fun e _ => hv e) hb
    have he := (prefix_of_prefix_length_le hq hp (by simp [Engine.meaning])).eq_of_length
      (by simp [Engine.meaning])
    refine forall_mem_cons.mpr ⟨fun f hf hs hau hde => ?_, ih (he ▸ hb) hc⟩
    -- the batch has `NULL` in the row where the insert has the default
    by_contra hz
    rw [Bool.not_eq_false] at hz
    have hrow := congrFun (singleton_inj.mp (append_cancel_left he)) (toLower f.column)
    rw [assign_of_forall (v := b.store (toLower f.column) null) ?_ (.inr ⟨(f.column, null),
      (mem_copyRow hi).mpr ⟨f, hf, ⟨hs, hau⟩, by simp [hde, hz]⟩, rfl⟩),
      assign_of_forall ?_ (.inl rfl)] at hrow
    · exact hd f hf hde _ _ hrow.symm
    · intro x hx hl
      obtain ⟨g, hg, rfl⟩ := mem_map.mp hx
      obtain rfl := inj_on_of_nodup_map ho (mem_filter.mp hg).1 hf hl
      simp [hde, hz] at hg
    · intro x hx hl
      obtain ⟨g, hg, -, rfl⟩ := (mem_copyRow hi).mp hx
      obtain rfl := inj_on_of_nodup_map ho hg hf hl
      simp [hde, hz]

end

/-- A table with a default for one of its two columns, which in `strict` may not be `NULL`. -/
def accounts (strict : Bool) : Backend String String :=
  { textBackend ["id","status"] with
    fill := fun _ _ _ => "active"
    fails := fun stmt _ => match stmt with
      | .insert vals => strict && vals.any (·.2 = "NULL")
      | _ => false }

def accountInfo : TableInfo where
  fields := [{ column := "id", goName := "ID", primary := true },
    { column := "status", goName := "Status", hasDefault := true }]
  primaryKey := "id"

def account (status : String) : Entity String := fun f => if f = "ID" then "1" else status

def quotedNames (name : String) : Bool := name ∈ ["accounts", "id", "status"]

def statuses (s : Step String Unit) : List String × Bool := (s.1.map (· "status"),s.2.toBool)

def batched (strict : Bool) (tableName status : String) : List String × Bool :=
  statuses (batchInsert (accounts strict) "NULL" accountInfo quotedNames tableName
    [account status] [])

def created (strict : Bool) (status : String) : List String × Bool :=
  statuses (createAll (accounts strict) accountInfo [account status] [])

end SdkApi.BatchInserts
