import SdkApi.CrudProviders

/-!
# Statements that carry the tenant condition

A scoped statement reads and hits rows of the tenant only, and an insert
writes the tenant into its row. Whether an update keeps the rows it hits
depends on what its patch assigns to the tenant column.
-/

namespace SdkApi.TenantScope
open GoStrings SqlEngine Tables TableQueries CrudProviders List

variable {V A : Type} (p : Provider V A) (s : Scope)

def column : String := toLower s.field

def own : V := p.backend.store (column s) (p.backend.text s.id)

/-- The tenant field is a string column that inserts write. -/
structure TenantColumn (f : FieldInfo) : Prop where
  active : s.scoped = true
  field : columnField p.info s.field = some f
  stored : f.skip = false ∧ f.auto = false
  string : f.stringKind = true
  unique : ∀ g ∈ p.info.fields, g.skip = false → toLower g.column = column s → g.goName = f.goName
  goNames : ∀ g ∈ p.info.fields, g.goName = f.goName → g = f
  names : ∀ g ∈ p.info.fields, p.backend.plain g.column = true
  primaryKey : p.backend.plain p.info.primaryKey = true

def ownedBy (r : Row V) : Bool :=
  p.backend.holds .eq (column s) (r (column s)) (p.backend.text s.id)

/-- No row of another tenant compares equal to this tenant's id. -/
def Exact (tbl : Table V) : Prop :=
  ∀ r ∈ tbl, p.backend.holds .eq (column s) (r (column s)) (p.backend.text s.id) = true →
    r (column s) = own p s

def patchColumn (k : String) : String :=
  match p.driver with
  | .postgres => resolveColumn p.info (resolveColumn p.info k)
  | _ => resolveColumn p.info k

/-- A key that reaches the tenant column carries the tenant itself. -/
def HarmlessEntry (e : String × A) : Prop :=
  match p.driver with
  | .postgres => validColumn p.info (patchColumn p e.1) = true →
      toLower (patchColumn p e.1) = column s → p.backend.store (column s) e.2 = own p s
  | _ => p.backend.plain (patchColumn p e.1) = true ∧
      (toLower (patchColumn p e.1) = column s → p.backend.store (column s) e.2 = own p s)

def HarmlessRequest : Request A → Prop
  | .list q => q.keyset = true → p.driver ≠ .postgres →
      p.backend.plain q.sort = true ∧ ∀ e ∈ q.filters, p.backend.plain e.1 = true
  | .update id (some body) => ∀ patch, p.hooks.beforeUpdate id body = .ok patch →
      ∀ e ∈ patch, HarmlessEntry p s e
  | _ => True

variable {p s} {conds : List (Cond A)} {r : Row V}

lemma ownedBy_of_satisfies (hc : eqCond s.field (p.backend.text s.id) ∈ conds)
    (hs : p.backend.satisfies conds r) : ownedBy p s r :=
  satisfies_mem hs hc

lemma own_of_satisfies {tbl : Table V} (hx : Exact p s tbl)
    (hc : eqCond s.field (p.backend.text s.id) ∈ conds) (hr : r ∈ tbl)
    (hs : p.backend.satisfies conds r) : r (column s) = own p s :=
  hx r hr (ownedBy_of_satisfies hc hs)

variable {f : FieldInfo} {where_ : GoMap A}

lemma plain_field (ht : TenantColumn p s f) : p.backend.plain s.field := by
  obtain ⟨hf,hc⟩ := columnField_some p.info ht.field
  exact hc ▸ ht.names f hf

abbrev ownConds (p : Provider V A) (s : Scope) (id : String) : List (Cond A) :=
  scopedConds p.backend p.info id s.field s.id

lemma tenant_mem_scopedConds (id : String) :
    eqCond s.field (p.backend.text s.id) ∈ ownConds p s id := by
  simp [scopedConds]

lemma plain_scopedConds (ht : TenantColumn p s f) (id : String) :
    ∀ x ∈ (ownConds p s id).map Cond.ident, p.backend.plain x := by
  intro x hx
  simp only [scopedConds, eqCond, map_cons, map_nil, mem_cons, not_mem_nil,
    or_false] at hx
  rcases hx with rfl | rfl
  · exact ht.primaryKey
  · exact plain_field ht

def updated (p : Provider V A) (s : Scope) (id : String) (sets : List (String × A))
    (tbl : Table V) : Table V :=
  tbl.map fun r => if p.backend.satisfies (scopedConds p.backend p.info id s.field s.id) r then
    p.backend.assign sets r else r

def Harmless (p : Provider V A) (s : Scope) (sets : List (String × A)) : Prop :=
  ∀ x ∈ sets, p.backend.plain x.1 = true ∧
    (toLower x.1 = column s → p.backend.store (column s) x.2 = own p s)

section

variable {sets : List (String × A)} (hs : Harmless p s sets) {tbl : Table V} (hx : Exact p s tbl)
  (id : String)
include hs hx

lemma assign_own {r : Row V} (hr : r ∈ tbl)
    (ha : p.backend.satisfies (ownConds p s id) r) :
    r (column s) = own p s ∧ p.backend.assign sets r (column s) = own p s := by
  have ho := own_of_satisfies hx (tenant_mem_scopedConds id) hr ha
  exact ⟨ho,assign_of_forall
    (fun x hxs => (hs x hxs).2) (.inl ho)⟩

lemma exact_updated : Exact p s (updated p s id sets tbl) := by
  intro r hr hh
  obtain ⟨r0,hr0,rfl⟩ := mem_map.mp hr
  split_ifs at hh ⊢ with ha
  · exact (assign_own hs hx id hr0 ha).2
  · exact hx r0 hr0 hh

end

section

variable (ht : TenantColumn p s f)
include ht

lemma TenantColumn.id_ne : s.id ≠ "" := by
  have h := ht.active
  simp only [Scope.scoped, Bool.and_eq_true, decide_eq_true_eq] at h
  exact h.2

lemma insertColumns_tenant {en : Entity A} (he : en f.goName = p.backend.text s.id) :
    (∀ x ∈ insertColumns p.backend p.info p.driver en, p.backend.plain x.1 ∧
      (toLower x.1 = column s → x.2 = p.backend.text s.id)) ∧
    ∃ x ∈ insertColumns p.backend p.info p.driver en, toLower x.1 = column s := by
  obtain ⟨hf,hc⟩ := columnField_some p.info ht.field
  constructor
  · intro x hx
    simp only [insertColumns, mem_map, mem_filter] at hx
    obtain ⟨g,⟨hg,ho⟩,rfl⟩ := hx
    refine ⟨ht.names g hg,fun hl => ?_⟩
    have hk : g.skip = false := by
      cases hs : g.skip <;> simp [hs] at ho ⊢
    simp only [ht.unique g hg hk hl, he]
  · refine ⟨(f.column,en f.goName),mem_map.mpr ⟨f,mem_filter.mpr ⟨hf,?_⟩,rfl⟩,?_⟩
    · simp [ht.stored.1, ht.stored.2, he, p.backend.zero_text, ht.id_ne]
    · rw [hc, column]

lemma ensureStringPK_tenant {en : Entity A}
    (tbl : Table V) (he : en f.goName = p.backend.text s.id) :
    ensureStringPK p.backend p.info en tbl f.goName = p.backend.text s.id := by
  rw [ensureStringPK]
  cases hs : stringPrimary p.info with
  | none => exact he
  | some g =>
    dsimp only
    split_ifs with hz
    · -- the tenant field is not empty, so the generated key belongs to another field
      rw [Function.update_of_ne, he]
      intro hname
      rw [← hname, he, p.backend.zero_text] at hz
      simp [ht.id_ne] at hz
    · exact he

lemma tenant_mem_addTenant {where_ : GoMap A} :
    (s.field,p.backend.text s.id) ∈ addTenant p s where_ := by
  simp [addTenant, ht.active, Tables.set]

end

lemma mem_addTenant {where_ : GoMap A} {e : String × A} (h : e ∈ addTenant p s where_) :
    e = (s.field,p.backend.text s.id) ∨ e ∈ where_ := by
  rw [addTenant] at h
  split_ifs at h
  · exact mem_set h
  · exact .inr h

lemma tenant_mem_whereConds (h : (s.field,p.backend.text s.id) ∈ where_) :
    eqCond s.field (p.backend.text s.id) ∈ whereConds p.backend where_ :=
  mem_map.mpr ⟨_,(p.backend.iterate_perm where_).mem_iff.mpr h,rfl⟩

lemma mem_whereConds_ident {x : String}
    (h : x ∈ (whereConds p.backend where_).map Cond.ident) : ∃ e ∈ where_, e.1 = x := by
  simp only [whereConds, map_map, mem_map] at h
  obtain ⟨e,he,rfl⟩ := h
  exact ⟨e,(p.backend.iterate_perm where_).mem_iff.mp he,rfl⟩

lemma harmless_patchSets (ht : TenantColumn p s f) (patch : GoMap A)
    (hp : ∀ e ∈ patch, HarmlessEntry p s e) (sets : List (String × A))
    (h : patchSets p.backend p.info p.driver (resolveBody p patch) = .ok sets) :
    Harmless p s sets := by
  intro x hx
  obtain ⟨⟨e,he,rfl⟩,ha⟩ := mem_patchSets h hx
  cases hd : p.driver with
  | postgres =>
    simp only [resolveBody, hd] at he
    obtain ⟨e0,he0,rfl⟩ := mem_resolvePatchColumns p.info he
    have hn := hp e0 ((p.backend.iterate_perm _).mem_iff.mp he0)
    simp only [HarmlessEntry, patchColumn, hd] at hn
    exact ⟨plain_of_column ht.names (ha hd),hn (ha hd)⟩
  | mysql | turso =>
    simp only [resolveBody, hd] at he
    simpa only [HarmlessEntry, patchColumn, hd] using hp e he

lemma countWhere_table (b : Backend V A) (info : TableInfo) (where_ : GoMap A) (tbl : Table V)
    (hp : ∀ x, validColumn info x → b.plain x) : (countWhere b info where_ tbl).1 = tbl := by
  rw [countWhere]
  cases hi : firstInvalid info (b.iterate where_) with
  | some k => rfl
  | none =>
    simp only [countOf, query]
    cases he : b.exec (.count (whereConds b where_)) tbl with
    | none => rfl
    | some r =>
      obtain ⟨rfl,-⟩ := exec_plain he (fun x hx => hp x (valid_of_firstInvalid hi hx))
      rfl

end SdkApi.TenantScope
