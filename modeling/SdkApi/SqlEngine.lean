import Mathlib.Data.List.Sort
import Mathlib.Logic.Function.Basic
import SdkApi.GoStrings

/-!
# One table of an SQL engine

Statements are syntax trees in which a column is the text that has been
spliced into the query. The engine looks a name up without regard to case. A
name that no column has is an error; any text that is not a plain name gives
the statement an unknown meaning, which is a parameter. Values, arguments and
comparisons are arbitrary.
-/

namespace SdkApi.SqlEngine
open GoStrings List Function

variable {V A : Type}

abbrev Row (V : Type) := String → V
abbrev Table (V : Type) := List (Row V)

inductive Cmp where
  | eq
  | gt

structure Cond (A : Type) where
  ident : String
  cmp : Cmp
  arg : A

inductive Stmt (A : Type) where
  | select (conds : List (Cond A)) (order : List String) (limit offset : Option ℕ)
  | count (conds : List (Cond A))
  | insert (vals : List (String × A))
  | update (sets : List (String × A)) (conds : List (Cond A))
  | delete (conds : List (Cond A))

structure Result (V : Type) where
  table : Table V
  rows : List (Row V)
  affected : ℕ

/-- `holds` compares with an argument, `store` converts one, `fill` completes a row. -/
structure Engine (V A : Type) where
  columns : List String
  reserved : String → Bool
  text : String → A
  holds : Cmp → String → V → A → Bool
  store : String → A → V
  before : String → V → V → Bool
  fill : List (String × A) → Table V → Row V
  fails : Stmt A → Table V → Bool
  raw : Stmt A → Table V → Option (Result V)

def Stmt.idents : Stmt A → List String
  | .select conds order _ _ => conds.map Cond.ident++order
  | .count conds => conds.map Cond.ident
  | .insert vals => vals.map Prod.fst
  | .update sets conds => sets.map Prod.fst++conds.map Cond.ident
  | .delete conds => conds.map Cond.ident

lemma update_idents (q : String → Bool) {sets : List (String × A)} {conds : List (Cond A)}
    (ht : ∀ e ∈ sets, q e.1) (ho : ∀ c ∈ conds, q c.ident) :
    ∀ x ∈ (Stmt.update sets conds).idents, q x := by
  intro x hx
  rcases mem_append.mp hx with hx | hx
  · obtain ⟨e,he,rfl⟩ := mem_map.mp hx
    exact ht e he
  · obtain ⟨c,hc,rfl⟩ := mem_map.mp hx
    exact ho c hc

def identChar (c : Char) : Bool :=
  ('a' ≤ c && c ≤ 'z') || ('A' ≤ c && c ≤ 'Z') || ('0' ≤ c && c ≤ '9') || c = '_'

def Engine.known (e : Engine V A) (x : String) : Bool := e.columns.contains (toLower x)

/-- A text that stands for a single name. -/
def Engine.plain (e : Engine V A) (x : String) : Bool :=
  e.known x || x = "" || (x.toList.all identChar && !e.reserved x)

def Engine.satisfies (e : Engine V A) (conds : List (Cond A)) (r : Row V) : Bool :=
  conds.all fun c => e.holds c.cmp (toLower c.ident) (r (toLower c.ident)) c.arg

def Engine.assign (e : Engine V A) : List (String × A) → Row V → Row V
  | [], r => r
  | (k,a)::sets, r => e.assign sets (Function.update r (toLower k) (e.store (toLower k) a))

/-- The lexicographic order of `ORDER BY`. -/
def Engine.le (e : Engine V A) : List String → Row V → Row V → Bool
  | [], _, _ => true
  | c::cs, r, s =>
    if e.before (toLower c) (r (toLower c)) (s (toLower c)) then
      if e.before (toLower c) (s (toLower c)) (r (toLower c)) then e.le cs r s else true
    else false

def page (limit offset : Option ℕ) (rows : List (Row V)) : List (Row V) :=
  match limit with
  | some n => (rows.drop (offset.getD 0)).take n
  | none => rows.drop (offset.getD 0)

def Engine.meaning (e : Engine V A) (tbl : Table V) : Stmt A → Result V
  | .select conds order limit offset =>
    let rows := page limit offset ((tbl.filter (e.satisfies conds)).mergeSort (e.le order))
    ⟨tbl,rows,rows.length⟩
  | .count conds => ⟨tbl,[],(tbl.filter (e.satisfies conds)).length⟩
  | .insert vals =>
    let row := e.assign vals (e.fill vals tbl)
    ⟨tbl++[row],[row],1⟩
  | .update sets conds =>
    let hit := tbl.filter (e.satisfies conds)
    ⟨tbl.map fun r => if e.satisfies conds r then e.assign sets r else r,
      hit.map (e.assign sets),hit.length⟩
  | .delete conds =>
    ⟨tbl.filter fun r => !e.satisfies conds r,[],(tbl.filter (e.satisfies conds)).length⟩

def Engine.exec (e : Engine V A) (stmt : Stmt A) (tbl : Table V) : Option (Result V) :=
  if stmt.idents.all e.plain then
    if stmt.idents.all e.known && !e.fails stmt tbl then some (e.meaning tbl stmt) else none
  else e.raw stmt tbl

variable {e : Engine V A}

lemma exec_plain {stmt : Stmt A} {tbl : Table V} {r : Result V} (h : e.exec stmt tbl = some r)
    (hp : ∀ x ∈ stmt.idents, e.plain x) : r = e.meaning tbl stmt ∧ ∀ x ∈ stmt.idents, e.known x := by
  have ha : stmt.idents.all e.plain := all_eq_true.mpr hp
  simp only [Engine.exec, ha, if_true] at h
  split_ifs at h with hk
  · simp only [Bool.and_eq_true, all_eq_true] at hk
    exact ⟨(Option.some.inj h).symm,hk.1⟩

lemma plain_of_known {x : String} (h : e.known x) : e.plain x := by
  simp [Engine.plain, h]

lemma exec_known {stmt : Stmt A} (tbl : Table V) (hk : stmt.idents.all e.known) :
    e.exec stmt tbl = if e.fails stmt tbl then none else some (e.meaning tbl stmt) := by
  have hl : stmt.idents.all e.plain := by
    rw [all_eq_true] at hk ⊢
    exact fun x hx => plain_of_known (hk x hx)
  cases hf : e.fails stmt tbl <;> simp [Engine.exec, hl, hk, hf]

lemma mem_page {limit offset : Option ℕ} {rows : List (Row V)} {r : Row V}
    (h : r ∈ page limit offset rows) : r ∈ rows := by
  cases limit with
  | none => exact mem_of_mem_drop h
  | some n => exact mem_of_mem_drop (mem_of_mem_take h)

lemma mem_select {tbl : Table V} {conds : List (Cond A)} {order : List String}
    {limit offset : Option ℕ} {r : Row V}
    (h : r ∈ (e.meaning tbl (.select conds order limit offset)).rows) :
    r ∈ tbl ∧ e.satisfies conds r := by
  have h1 := mem_page h
  rw [mem_mergeSort, mem_filter] at h1
  exact h1

lemma satisfies_mem {conds : List (Cond A)} {r : Row V} (h : e.satisfies conds r) {c : Cond A}
    (hc : c ∈ conds) : e.holds c.cmp (toLower c.ident) (r (toLower c.ident)) c.arg :=
  all_eq_true.mp h c hc

lemma assign_perm {sets sets' : List (String × A)} (h : sets.Perm sets')
    (hn : (sets.map fun x => toLower x.1).Nodup) (r : Row V) :
    e.assign sets r = e.assign sets' r := by
  induction h generalizing r with
  | nil => rfl
  | cons x _ ih => exact ih (nodup_cons.mp hn).2 _
  | swap x y l =>
    have hne : toLower x.1 ≠ toLower y.1 := by
      intro he
      simp [he] at hn
    simp only [Engine.assign]
    rw [update_comm hne]
  | trans h1 _ ih1 ih2 =>
    exact (ih1 hn r).trans (ih2 ((h1.map _).nodup_iff.mp hn) r)

lemma assign_of_forall {sets : List (String × A)} {r : Row V} {col : String}
    {v : V} (h : ∀ s ∈ sets, toLower s.1 = col → e.store col s.2 = v)
    (hv : r col = v ∨ ∃ s ∈ sets, toLower s.1 = col) : e.assign sets r col = v := by
  induction sets generalizing r with
  | nil => simpa [Engine.assign] using hv
  | cons s sets ih =>
    rw [Engine.assign]
    refine ih (fun x hx => h x (by simp [hx])) ?_
    by_cases hs : toLower s.1 = col
    · left
      rw [← hs, update_self, hs]
      exact h s (by simp) hs
    · rcases hv with hv | ⟨x,hx,hxc⟩
      · left
        rw [update_of_ne (Ne.symm hs), hv]
      · rcases mem_cons.mp hx with rfl | hx
        · exact absurd hxc hs
        · exact .inr ⟨x,hx,hxc⟩

structure Engine.Ordered (e : Engine V A) : Prop where
  total : ∀ c v w, e.before c v w = true ∨ e.before c w v = true
  trans : ∀ c u v w, e.before c u v = true → e.before c v w = true → e.before c u w = true

lemma le_cons (c : String) (cs : List String) (r s : Row V) :
    e.le (c::cs) r s ↔ e.before (toLower c) (r (toLower c)) (s (toLower c)) ∧
      (e.before (toLower c) (s (toLower c)) (r (toLower c)) → e.le cs r s) := by
  rw [Engine.le]
  by_cases h1 : e.before (toLower c) (r (toLower c)) (s (toLower c)) <;>
    by_cases h2 : e.before (toLower c) (s (toLower c)) (r (toLower c)) <;> simp [h1, h2]

lemma le_total (h : e.Ordered) (order : List String) (r s : Row V) :
    (e.le order r s || e.le order s r) := by
  induction order with
  | nil => rfl
  | cons c cs ih =>
    simp only [Bool.or_eq_true, le_cons] at ih ⊢
    have ht := h.total (toLower c) (r (toLower c)) (s (toLower c))
    tauto

lemma le_trans (h : e.Ordered) (order : List String) (r s t : Row V)
    (hrs : e.le order r s) (hst : e.le order s t) : e.le order r t := by
  induction order with
  | nil => rfl
  | cons c cs ih =>
    have ht := h.trans (toLower c)
    rw [le_cons] at hrs hst ⊢
    refine ⟨ht _ _ _ hrs.1 hst.1,fun hb => ?_⟩
    -- the three values are equivalent in this column
    exact ih (hrs.2 (ht _ _ _ hst.1 hb)) (hst.2 (ht _ _ _ hb hrs.1))

lemma le_antisymm_last (order : List String) (c : String) {r s : Row V}
    (hrs : e.le (order++[c]) r s) (hsr : e.le (order++[c]) s r) :
    e.before (toLower c) (r (toLower c)) (s (toLower c)) ∧
      e.before (toLower c) (s (toLower c)) (r (toLower c)) := by
  induction order with
  | nil =>
    rw [nil_append, le_cons] at hrs hsr
    exact ⟨hrs.1,hsr.1⟩
  | cons d ds ih =>
    rw [cons_append, le_cons] at hrs hsr
    exact ih (hrs.2 hsr.1) (hsr.2 hrs.1)

lemma le_twice (c : String) : e.le [c,c] = e.le [c] := by
  funext r s
  rw [Bool.eq_iff_iff, le_cons, le_cons]
  tauto

lemma sort_filter (h : e.Ordered) (order : List String) (rows : List (Row V)) (q : Row V → Bool)
    (ha : ∀ r ∈ rows, ∀ s ∈ rows, e.le order r s → e.le order s r → r = s) :
    (rows.filter q).mergeSort (e.le order) = (rows.mergeSort (e.le order)).filter q := by
  have ho := pairwise_mergeSort (le_trans h order) (le_total h order)
  refine @List.Perm.eq_of_pairwise _ (fun r s => e.le order r s) _ _ ?_ (ho _)
    ((ho rows).filter q) ?_
  · intro r s hr hs
    rw [mem_mergeSort, mem_filter] at hr
    rw [mem_filter, mem_mergeSort] at hs
    exact ha r hr.1 s hs.1
  · exact (mergeSort_perm _ _).trans ((mergeSort_perm rows _).symm.filter q)

lemma sort_nil (rows : List (Row V)) : rows.mergeSort (e.le []) = rows :=
  mergeSort_of_pairwise (pairwise_of_forall (by simp [Engine.le]))

end SdkApi.SqlEngine
