import Mathlib.Data.Multiset.Filter
import SdkApi.TenantScope

/-!
# The table operations of one tenant

Each scoped operation leaves the rows of other tenants as they are and
returns rows of the tenant only, provided that its assignments keep the
tenant column and that the names it splices are names.
-/

namespace SdkApi.TenantOperations
open GoStrings SqlEngine Tables TableQueries CrudProviders TenantScope
open List hiding count

variable {V A : Type} [DecidableEq V] (p : Provider V A) (s : Scope)

def foreign (tbl : Table V) : Multiset (Row V) := (tbl : Multiset (Row V)).filter fun r =>
  r (column s) ≠ own p s

/-- The reply shows nothing but rows of the table, each as `good` allows. -/
def Shows (good : Row V → Prop) : Reply V A → Prop
  | .list rows _ _ => ∀ r ∈ rows, good r
  | .row _ r => good r
  | .entity _ _ => False
  | _ => True

def Within (f : FieldInfo) : Reply V A → Prop
  | .list rows _ _ => ∀ r ∈ rows, r (column s) = own p s
  | .row _ r => r (column s) = own p s
  | .entity _ en => en f.goName = p.backend.text s.id
  | _ => True

/-- Rows of other tenants stay, and `good` allows what is returned. -/
def Isolated {α : Type} (good : α → Prop) (tbl : Table V) (st : Step V α) : Prop :=
  foreign p s st.1 = foreign p s tbl ∧ ∀ a, st.2 = .ok a → good a

variable {p s}

lemma isolated_error {α : Type} (good : α → Prop) (tbl : Table V) {e : DbError} :
    Isolated p s good tbl (tbl,.error e) := ⟨rfl,by simp⟩

variable {tbl : Table V} {f : FieldInfo} {st : Step V (Result V)}

lemma isolated_finish {α : Type} {allowed : Reply V A → Prop} {good : α → Prop} {st : Step V α}
    {onError : DbError → Reply V A} {onOk : α → Reply V A} (h : Isolated p s good tbl st)
    (he : ∀ e, allowed (onError e)) (ho : ∀ a, good a → allowed (onOk a)) :
    foreign p s (finish onError onOk st).1 = foreign p s tbl ∧
      allowed (finish onError onOk st).2 := by
  obtain ⟨t,r⟩ := st
  cases r with
  | error e => exact ⟨h.1,he e⟩
  | ok a => exact ⟨h.1,ho a (h.2 a rfl)⟩

lemma query_read {stmt : Stmt A} (tbl : Table V) (hp : ∀ x ∈ stmt.idents, p.backend.plain x)
    (hre : (p.backend.meaning tbl stmt).table = tbl) {good : Result V → Prop}
    (hg : good (p.backend.meaning tbl stmt)) : Isolated p s good tbl (query p.backend stmt tbl) := by
  rw [query]
  cases he : p.backend.exec stmt tbl with
  | none => exact isolated_error good tbl
  | some r =>
    obtain ⟨rfl,-⟩ := exec_plain he hp
    refine ⟨congrArg (foreign p s) hre,fun a ha => ?_⟩
    cases ha
    exact hg

lemma query_select (tbl : Table V) (conds : List (Cond A))
    (order : List String) (limit offset : Option ℕ)
    (hp : ∀ x ∈ (Stmt.select conds order limit offset).idents, p.backend.plain x)
    (hc : eqCond s.field (p.backend.text s.id) ∈ conds) :
    Isolated p s (fun r => ∀ x ∈ r.rows, x ∈ tbl ∧ ownedBy p s x) tbl
      (query p.backend (.select conds order limit offset) tbl) := by
  refine query_read tbl hp rfl fun x hx => ?_
  obtain ⟨hm,ha⟩ := mem_select hx
  exact ⟨hm,ownedBy_of_satisfies hc ha⟩

lemma query_count (conds : List (Cond A)) (tbl : Table V)
    (hp : ∀ x ∈ (Stmt.count conds).idents, p.backend.plain x) :
    Isolated p s (fun _ => True) tbl (query p.backend (.count conds) tbl) :=
  query_read tbl hp rfl trivial

lemma foreign_map (tbl : Table V) (g : Row V → Row V)
    (h : ∀ r ∈ tbl, g r = r ∨ r (column s) = own p s ∧ g r (column s) = own p s) :
    foreign p s (tbl.map g) = foreign p s tbl := by
  simp only [foreign, Multiset.filter_coe, Multiset.coe_eq_coe]
  refine List.Perm.of_eq ?_
  induction tbl with
  | nil => rfl
  | cons r tbl ih =>
    have hr := h r (by simp)
    have hi := ih fun x hx => h x (by simp [hx])
    rcases hr with hr | ⟨h1,h2⟩
    · simp only [map_cons, filter_cons, hr, hi]
    · simpa [filter_cons, h1, h2] using hi

lemma foreign_filter (tbl : Table V) (keep : Row V → Bool)
    (h : ∀ r ∈ tbl, keep r = false → r (column s) = own p s) :
    foreign p s (tbl.filter keep) = foreign p s tbl := by
  simp only [foreign, Multiset.filter_coe, Multiset.coe_eq_coe, filter_filter]
  refine List.Perm.of_eq (filter_congr fun r hr => ?_)
  cases hk : keep r with
  | true => simp
  | false => simp [h r hr hk]

lemma foreign_append (tbl : Table V) (r : Row V) (h : r (column s) = own p s) :
    foreign p s (tbl++[r]) = foreign p s tbl := by
  simp [foreign, h]

lemma isolated_getScoped (ht : TenantColumn p s f) (tbl : Table V) (id : String) :
    Isolated p s (fun r => r ∈ tbl ∧ ownedBy p s r) tbl
      (getScoped p.backend p.info p.driver id s.field s.id tbl) := by
  have hq := query_select tbl (ownConds p s id) [] none none
    (by simpa [Stmt.idents] using plain_scopedConds ht id) (tenant_mem_scopedConds id)
  rw [getScoped]
  split_ifs
  · rw [fetch]
    generalize query p.backend _ tbl = st at hq ⊢
    obtain ⟨t,r⟩ := st
    cases r with
    | error e => exact ⟨hq.1,by simp⟩
    | ok res => exact ⟨hq.1,fun a ha => hq.2 res rfl a (oneRow_mem ha)⟩
  · exact isolated_error _ _

lemma isolated_deleteScoped (ht : TenantColumn p s f) (hx : Exact p s tbl) (id : String) :
    Isolated p s (fun _ => True) tbl (deleteScoped p.backend p.info id s.field s.id tbl) := by
  rw [deleteScoped]
  split_ifs
  · simp only [remove, query]
    cases he : p.backend.exec (.delete (ownConds p s id)) tbl with
    | none => exact isolated_error _ _
    | some r =>
      obtain ⟨rfl,-⟩ := exec_plain he (plain_scopedConds ht id)
      have hke := foreign_filter tbl
        (fun r => !p.backend.satisfies (ownConds p s id) r)
        fun r hr hk => own_of_satisfies hx (tenant_mem_scopedConds id) hr (by simpa using hk)
      dsimp only
      split_ifs
      · exact ⟨hke,by simp⟩
      · exact ⟨hke,fun _ _ => trivial⟩
  · exact isolated_error _ _

lemma foreign_updated {sets : List (String × A)} (hs : Harmless p s sets) (hx : Exact p s tbl)
    (id : String) : foreign p s (updated p s id sets tbl) = foreign p s tbl := by
  refine foreign_map tbl _ fun r hr => ?_
  split_ifs with ha
  · exact .inr (assign_own hs hx id hr ha)
  · exact .inl rfl

lemma isolated_updateScoped (ht : TenantColumn p s f)
    (hx : Exact p s tbl) (id : String) (patch : GoMap A)
    (hse : ∀ sets, patchSets p.backend p.info p.driver patch = .ok sets → Harmless p s sets) :
    Isolated p s (fun r => r (column s) = own p s) tbl
      (updateScoped p.backend p.info p.driver id patch s.field s.id tbl) := by
  rw [updateScoped]
  split_ifs
  · exact isolated_error _ _
  · exact isolated_error _ _
  cases hp : patchSets p.backend p.info p.driver patch with
  | error e => exact isolated_error _ _
  | ok sets =>
    have hs := hse sets hp
    simp only [query]
    cases he : p.backend.exec (.update sets (ownConds p s id)) tbl with
    | none => exact isolated_error _ _
    | some r =>
      obtain ⟨rfl,-⟩ := exec_plain he (by
          intro x hxm
          rcases mem_append.mp hxm with h | h
          · obtain ⟨y,hy,rfl⟩ := mem_map.mp h
            exact (hs y hy).1
          · exact plain_scopedConds ht id x h)
      have ho := foreign_updated hs hx id
      have hx' := exact_updated hs hx id
      have hb := isolated_getScoped ht (updated p s id sets tbl) id
      cases hd : p.driver with
      | postgres =>
        refine ⟨ho,fun a ha => ?_⟩
        have hm := oneRow_mem ha
        simp only [Engine.meaning, mem_map, mem_filter] at hm
        obtain ⟨r0,⟨hr0,hsa⟩,rfl⟩ := hm
        exact (assign_own hs hx id hr0 hsa).2
      | mysql =>
        rw [hd] at hb
        exact ⟨hb.1.trans ho,fun a ha => hx' a (hb.2 a ha).1 (hb.2 a ha).2⟩
      | turso =>
        rw [hd] at hb
        dsimp only
        split_ifs
        · exact ⟨ho,by simp⟩
        · exact ⟨hb.1.trans ho,fun a ha => hx' a (hb.2 a ha).1 (hb.2 a ha).2⟩

lemma query_insert {vals : List (String × A)} (tbl : Table V)
    (hv : ∀ x ∈ vals, p.backend.plain x.1 ∧ (toLower x.1 = column s → x.2 = p.backend.text s.id))
    (ht : ∃ x ∈ vals, toLower x.1 = column s) :
    Isolated p s (fun r => ∀ x ∈ r.rows, x (column s) = own p s) tbl
      (query p.backend (.insert vals) tbl) := by
  rw [query]
  cases he : p.backend.exec (.insert vals) tbl with
  | none => exact isolated_error _ _
  | some r =>
    obtain ⟨rfl,-⟩ := exec_plain he (by
        intro x hx
        obtain ⟨y,hy,rfl⟩ := mem_map.mp hx
        exact (hv y hy).1)
    have ho : p.backend.assign vals (p.backend.fill vals tbl) (column s) = own p s :=
      assign_of_forall
        (fun x hx hl => by rw [(hv x hx).2 hl, own]) (.inr ht)
    refine ⟨foreign_append tbl _ ho,fun a ha => ?_⟩
    cases ha
    simpa [Engine.meaning] using ho

def CreatedWithin (p : Provider V A) (s : Scope) (f : FieldInfo) : Created V A → Prop
  | .row r => r (column s) = own p s
  | .entity en => en f.goName = p.backend.text s.id

lemma isolated_create (ht : TenantColumn p s f) (en : Entity A) (tbl : Table V)
    (he : en f.goName = p.backend.text s.id) :
    Isolated p s (CreatedWithin p s f) tbl (create p.backend p.info p.driver en tbl) := by
  have hro : ∀ d, d ≠ .mysql → p.driver = d →
      Isolated p s (CreatedWithin p s f) tbl (create p.backend p.info p.driver en tbl) := by
    intro d hd hpd
    obtain ⟨hv,hm⟩ := insertColumns_tenant ht he
    have hq := query_insert tbl hv hm
    rw [hpd] at hq ⊢
    cases d with
    | mysql => exact absurd rfl hd
    | _ =>
      simp only [create]
      generalize query p.backend _ tbl = st at hq ⊢
      obtain ⟨t,r⟩ := st
      cases r with
      | error e => exact ⟨hq.1,by simp⟩
      | ok res =>
        dsimp only
        cases hr : res.rows with
        | nil => exact ⟨hq.1,by simp⟩
        | cons x xs =>
          refine ⟨hq.1,fun a ha => ?_⟩
          cases ha
          exact hq.2 res rfl x (by simp [hr])
  cases hd : p.driver with
  | postgres => exact hd ▸ hro .postgres (by decide) hd
  | turso => exact hd ▸ hro .turso (by decide) hd
  | mysql =>
    have he' := ensureStringPK_tenant ht tbl he
    obtain ⟨hv,hm⟩ := insertColumns_tenant ht he'
    have hq := query_insert tbl hv hm
    rw [hd] at hq
    simp only [create]
    split_ifs
    · exact isolated_error _ _
    generalize query p.backend _ tbl = st at hq ⊢
    obtain ⟨t,r⟩ := st
    cases r with
    | error e => exact ⟨hq.1,by simp⟩
    | ok res =>
      dsimp only
      split
      · rename_i g hn ho
        refine ⟨hq.1,fun a ha => ?_⟩
        cases ha
        -- a number is generated only for a key that is not a string
        have hg := find?_some ho
        have hgm := mem_of_find?_eq_some ho
        have hne : f.goName ≠ g.goName := by
          intro hname
          have hgf := ht.goNames g hgm hname.symm
          have hno := find?_eq_none.mp hn g hgm
          rw [hgf] at hg
          simp [hg, hgf, ht.string] at hno
        simpa [CreatedWithin, Function.update_of_ne hne] using he'
      · refine ⟨hq.1,fun a ha => ?_⟩
        cases ha
        exact he'

lemma isolated_rowsOf {good : Row V → Prop}
    (h : Isolated p s (fun r => ∀ x ∈ r.rows, good x) tbl st) :
    Isolated p s (fun rows => ∀ x ∈ rows, good x) tbl (rowsOf st) := by
  obtain ⟨t,r⟩ := st
  cases r with
  | error e => exact ⟨h.1,by simp [rowsOf]⟩
  | ok res =>
    refine ⟨h.1,fun a ha => ?_⟩
    cases ha
    exact h.2 res rfl

lemma isolated_countOf (h : Isolated p s (fun _ => True) tbl st) :
    Isolated p s (fun _ => True) tbl (countOf st) := by
  obtain ⟨t,r⟩ := st
  cases r with
  | error e => exact ⟨h.1,by simp [countOf]⟩
  | ok res => exact ⟨h.1,fun _ _ => trivial⟩

section

variable (ht : TenantColumn p s f) (tbl : Table V)
include ht

lemma isolated_queryWhere (where_ : GoMap A) (hw : (s.field,p.backend.text s.id) ∈ where_)
    (orderBy : String) (limit offset : ℤ) :
    Isolated p s (fun rows => ∀ r ∈ rows, r ∈ tbl ∧ ownedBy p s r) tbl
      (queryWhere p.backend p.info where_ orderBy limit offset tbl) := by
  rw [queryWhere]
  cases ho : offsetOrder p.info orderBy with
  | error e => exact isolated_error _ _
  | ok col =>
    cases hi : firstInvalid p.info (p.backend.iterate where_) with
    | some k => exact isolated_error _ _
    | none =>
      refine isolated_rowsOf (query_select tbl _ _ _ _ ?_ (tenant_mem_whereConds hw))
      intro x hx
      rcases mem_append.mp hx with h | h
      · exact plain_of_column ht.names (valid_of_firstInvalid hi h)
      · rw [mem_singleton.mp h]
        exact order_plain ho ht.names ht.primaryKey

lemma isolated_count (conds : List (String × A)) :
    Isolated p s (fun _ => True) tbl (count p.backend p.info conds tbl) := by
  cases conds with
  | nil => exact isolated_countOf (query_count [] tbl (by simp [Stmt.idents]))
  | cons c cs =>
    obtain ⟨k,a⟩ := c
    rw [count]
    split_ifs with hk
    · exact isolated_countOf (query_count _ tbl (by
        simpa [Stmt.idents, eqCond] using plain_of_column ht.names hk))
    · exact isolated_error _ _

variable (cursor : String) (size : ℤ) (orderBy : String) (where_ : GoMap A)
    (hw : (s.field,p.backend.text s.id) ∈ where_)
include hw

lemma isolated_runKeyset (ho : p.backend.plain orderBy) (hk : ∀ e ∈ where_, p.backend.plain e.1) :
    Isolated p s (fun pg => ∀ r ∈ pg.rows, r ∈ tbl ∧ ownedBy p s r) tbl
      (runKeyset p.backend p.info cursor size orderBy where_ tbl) := by
  have hq := isolated_rowsOf (query_select tbl
    ((if cursor = "" then [] else [⟨orderBy,.gt,p.backend.text cursor⟩])++
      whereConds p.backend where_)
    (if orderBy = p.info.primaryKey then [orderBy] else [orderBy,p.info.primaryKey])
    (some (size+1).toNat) none
    (by
      intro x hx
      simp only [Stmt.idents, map_append, mem_append] at hx
      rcases hx with (h | h) | h
      · split_ifs at h <;> simp at h
        exact h ▸ ho
      · obtain ⟨e,he,rfl⟩ := mem_whereConds_ident h
        exact hk e he
      · split_ifs at h <;> simp at h
        · exact h ▸ ho
        · rcases h with rfl | rfl
          · exact ho
          · exact ht.primaryKey)
    (mem_append_right _ (tenant_mem_whereConds hw)))
  rw [runKeyset, keysetStmt]
  generalize rowsOf _ = st at hq ⊢
  obtain ⟨t,r⟩ := st
  cases r with
  | error e => exact ⟨hq.1,by simp⟩
  | ok rows =>
    refine ⟨hq.1,fun a ha => ?_⟩
    cases ha
    intro r hr
    refine hq.2 rows rfl r ?_
    rw [cutPage] at hr
    split_ifs at hr
    · exact mem_of_mem_take hr
    · exact hr

lemma isolated_queryKeyset (hk : p.driver ≠ .postgres →
      p.backend.plain orderBy ∧ ∀ e ∈ where_, p.backend.plain e.1) :
    Isolated p s (fun pg => ∀ r ∈ pg.rows, r ∈ tbl ∧ ownedBy p s r) tbl
      (queryKeyset p.backend p.info p.driver cursor size orderBy where_ tbl) := by
  have hl : p.driver ≠ .postgres →
      Isolated p s (fun pg => ∀ r ∈ pg.rows, r ∈ tbl ∧ ownedBy p s r) tbl
        (runKeyset p.backend p.info cursor size
          (if orderBy = "" then p.info.primaryKey else orderBy) where_ tbl) := by
    intro hd
    refine isolated_runKeyset ht tbl cursor size _ where_ hw ?_ (hk hd).2
    split_ifs
    · exact ht.primaryKey
    · exact (hk hd).1
  cases hd : p.driver with
  | mysql | turso => exact hl (by simp [hd])
  | postgres =>
    simp only [queryKeyset]
    cases ho : offsetOrder p.info orderBy with
    | error e => exact isolated_error _ _
    | ok col =>
      cases hi : firstInvalid p.info (p.backend.iterate where_) with
      | some k => exact isolated_error _ _
      | none =>
        refine isolated_runKeyset ht tbl cursor _ col where_ hw
          (order_plain ho ht.names ht.primaryKey) ?_
        intro e he
        have hm := (p.backend.iterate_perm where_).mem_iff.mpr he
        exact plain_of_column ht.names (valid_of_firstInvalid hi
          (mem_map.mpr ⟨eqCond e.1 e.2,mem_map.mpr ⟨e,hm,rfl⟩,rfl⟩))

end

end SdkApi.TenantOperations
