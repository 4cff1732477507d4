import SdkApi.CrudProviders
import SdkApi.SortedPages

/-!
# What an offset list returns

The rows of a page are cut from the rows that meet the filters and the tenant
condition, in the order of the sort column alone. The total comes from another
query.
-/

namespace SdkApi.OffsetPages
open GoStrings SqlEngine Tables TableQueries CrudProviders SortedPages
open List hiding count

variable {V A : Type}

section

variable (p : Provider V A) (s : Scope)

structure ModelColumns (p : Provider V A) : Prop where
  columns : ∀ f ∈ p.info.fields, p.backend.plain f.column = true
  primaryKey : p.backend.plain p.info.primaryKey = true

def dataConds (filters : GoMap String) : List (Cond A) :=
  whereConds p.backend (offsetFilteredWhere p s filters)

def listed (q : ListParams) (tbl : Table V) : List (Row V) :=
  tbl.filter (p.backend.satisfies (dataConds p s q.filters))

def orderColumn (orderBy : String) : String :=
  if orderBy = "" then p.info.primaryKey else orderBy

def sortColumn (q : ListParams) : String :=
  if p.driver = .postgres ∨ q.filters ≠ [] ∨ s.scoped then orderColumn p q.sort
  else p.info.primaryKey

/-- The conditions that `tableCRUD.List` passes to `Count`, in its order. -/
def countArgs (filters : GoMap String) : List (String × A) :=
  p.backend.iterate (makeFiltersMap p (resolvePatchColumns p.info (p.backend.iterate filters)))++
    (if s.scoped then [(s.field,p.backend.text s.id)] else [])

def countConds (filters : GoMap String) : List (Cond A) :=
  match p.driver with
  | .postgres => ((countArgs p s filters).take 1).map fun e => eqCond e.1 e.2
  | _ => dataConds p s filters

end

section

variable {p : Provider V A} {tbl t : Table V} {rows : List (Row V)} {conds : List (Cond A)}

lemma query_plain {stmt : Stmt A} (hi : ∀ x ∈ stmt.idents, p.backend.plain x) :
    query p.backend stmt tbl = (tbl,.error .query) ∨
      query p.backend stmt tbl =
        ((p.backend.meaning tbl stmt).table,.ok (p.backend.meaning tbl stmt)) := by
  unfold query
  cases hx : p.backend.exec stmt tbl with
  | none => exact .inl rfl
  | some r =>
    obtain ⟨he,-⟩ := exec_plain hx hi
    exact .inr (by rw [he])

lemma rowsOf_query {order : List String} {limit offset : Option ℕ}
    (ho : ∀ c ∈ conds, p.backend.plain c.ident) (he : ∀ x ∈ order, p.backend.plain x)
    (h : rowsOf (query p.backend (.select conds order limit offset) tbl) = (t,.ok rows)) :
    t = tbl ∧ rows =
      page limit offset
        ((tbl.filter (p.backend.satisfies conds)).mergeSort (p.backend.le order)) := by
  have hi : ∀ x ∈ (Stmt.select conds order limit offset).idents, p.backend.plain x := by
    intro x hx
    rcases mem_append.mp hx with hx | hx
    · obtain ⟨c,hc,rfl⟩ := mem_map.mp hx
      exact ho c hc
    · exact he x hx
  rcases @query_plain V A p tbl _ hi with hq | hq
  · rw [hq] at h
    cases h
  · rw [hq] at h
    cases h
    exact ⟨rfl,rfl⟩

lemma countOf_query {n : ℕ} (ho : ∀ c ∈ conds, p.backend.plain c.ident)
    (h : countOf (query p.backend (.count conds) tbl) = (t,.ok n)) :
    t = tbl ∧ n = (tbl.filter (p.backend.satisfies conds)).length := by
  have hi : ∀ x ∈ (Stmt.count conds).idents, p.backend.plain x := by
    intro x hx
    obtain ⟨c,hc,rfl⟩ := mem_map.mp hx
    exact ho c hc
  rcases @query_plain V A p tbl _ hi with hq | hq
  · rw [hq] at h
    cases h
  · rw [hq] at h
    cases h
    exact ⟨rfl,rfl⟩

section

variable (hm : ModelColumns p)
include hm

variable {where_ : GoMap A} {orderBy : String} {limit offset : ℤ} {n : ℕ}

lemma plain_whereConds (h : firstInvalid p.info (p.backend.iterate where_) = none) :
    ∀ c ∈ whereConds p.backend where_, p.backend.plain c.ident :=
  fun _ hc => plain_of_column hm.columns (valid_of_firstInvalid h (mem_map_of_mem hc))

lemma offsetOrder_ok {orderBy col : String} (h : offsetOrder p.info orderBy = .ok col) :
    col = orderColumn p orderBy ∧ p.backend.plain col := by
  refine ⟨?_,order_plain h hm.columns hm.primaryKey⟩
  rw [offsetOrder] at h
  rw [orderColumn]
  split_ifs at h ⊢ <;> cases h <;> rfl

lemma queryWhere_ok
    (h : queryWhere p.backend p.info where_ orderBy limit offset tbl = (t,.ok rows)) :
    t = tbl ∧ rows = page (positive limit) (positive offset)
      ((tbl.filter (p.backend.satisfies (whereConds p.backend where_))).mergeSort
        (p.backend.le [orderColumn p orderBy])) := by
  rw [queryWhere] at h
  cases ho : offsetOrder p.info orderBy with
  | error e =>
    rw [ho] at h
    cases h
  | ok col =>
    obtain ⟨rfl,hl⟩ := offsetOrder_ok hm ho
    rw [ho] at h
    cases hi : firstInvalid p.info (p.backend.iterate where_) with
    | some k =>
      simp only [hi] at h
      cases h
    | none =>
      simp only [hi] at h
      exact rowsOf_query (plain_whereConds hm hi) (forall_mem_singleton.mpr hl) h

lemma countWhere_ok (h : countWhere p.backend p.info where_ tbl = (t,.ok n)) :
    t = tbl ∧ n = (tbl.filter (p.backend.satisfies (whereConds p.backend where_))).length := by
  rw [countWhere] at h
  cases hi : firstInvalid p.info (p.backend.iterate where_) with
  | some k =>
    simp only [hi] at h
    cases h
  | none =>
    simp only [hi] at h
    exact countOf_query (plain_whereConds hm hi) h

lemma count_ok {conds : List (String × A)} (h : count p.backend p.info conds tbl = (t,.ok n)) :
    t = tbl ∧ n = (tbl.filter
      (p.backend.satisfies ((conds.take 1).map fun e => eqCond e.1 e.2))).length := by
  cases conds with
  | nil => exact countOf_query (fun c hc => by cases hc) h
  | cons e rest =>
    rw [count] at h
    split_ifs at h with ha
    · exact countOf_query (forall_mem_singleton.mpr (plain_of_column hm.columns ha)) h
    · cases h

lemma queryPaginated_ok {pg size : ℤ}
    (h : queryPaginated p.backend p.info pg size orderBy tbl = (t,.ok (rows,n))) :
    t = tbl ∧ n = (tbl.filter (p.backend.satisfies [])).length ∧
      (1 ≤ size → 1 ≤ pg → rows = (((tbl.filter (p.backend.satisfies [])).mergeSort
        (p.backend.le [orderColumn p orderBy])).drop ((pg-1)*size).toNat).take size.toNat) := by
  rw [queryPaginated] at h
  cases ho : offsetOrder p.info orderBy with
  | error e =>
    simp only [ho] at h
    cases h
  | ok col =>
    obtain ⟨rfl,hco⟩ := offsetOrder_ok hm ho
    simp only [ho] at h
    obtain ⟨u,counted⟩ : ∃ u, count p.backend p.info [] tbl = u := ⟨_,rfl⟩
    rw [counted] at h
    obtain ⟨t1,res⟩ := u
    cases res with
    | error e => cases h
    | ok total =>
      obtain ⟨rfl,ht⟩ := count_ok hm counted
      obtain ⟨w,hro⟩ : ∃ w, rowsOf (query p.backend (.select [] [orderColumn p orderBy]
          (some (if size < 1 then 10 else size).toNat)
          (some (((if pg < 1 then 1 else pg)-1)*(if size < 1 then 10 else size)).toNat)) t1) = w :=
        ⟨_,rfl⟩
      simp only [hro] at h
      obtain ⟨t2,res⟩ := w
      cases res with
      | error e => cases h
      | ok found =>
        cases h
        have hl : ∀ x ∈ [orderColumn p orderBy], p.backend.plain x :=
          forall_mem_singleton.mpr hco
        obtain ⟨rfl,hu⟩ := rowsOf_query (fun c hc => by cases hc) hl hro
        refine ⟨rfl,ht,?_⟩
        intro hi ha
        rw [hu, if_neg (by omega), if_neg (by omega)]
        rfl

lemma listPaginated_ok (h : listPaginated p.backend p.info limit offset tbl = (t,.ok rows)) :
    t = tbl ∧ rows = (((tbl.filter (p.backend.satisfies [])).mergeSort
      (p.backend.le [p.info.primaryKey])).drop offset.toNat).take limit.toNat := by
  apply rowsOf_query _ (forall_mem_singleton.mpr hm.primaryKey) h
  intro c hc
  cases hc

end

lemma page_positive {size : ℤ} (hi : 1 ≤ size) (offset : ℤ) (l : List (Row V)) :
    page (positive size) (positive offset) l = (l.drop offset.toNat).take size.toNat := by
  rw [positive, if_pos (by omega), positive]
  split_ifs with h
  · rfl
  · have hz : offset.toNat = 0 := by omega
    rw [hz]
    rfl

end

section

variable {p : Provider V A} {s : Scope} {q : ListParams} {tbl t : Table V} {rows : List (Row V)}
  {cursor : String} {total : ℕ}

lemma finish_list {α : Type} {onOk : α → Reply V A} {st : Step V α}
    (h : finish (fun _ => .failed) onOk st = (t,.list rows cursor total)) :
    ∃ a, st = (t,.ok a) ∧ onOk a = .list rows cursor total := by
  obtain ⟨u,res⟩ := st
  cases res with
  | error e => cases h
  | ok a =>
    rw [finish, Prod.mk.injEq] at h
    exact ⟨a,by rw [h.1],h.2⟩

lemma dataConds_nil (p : Provider V A) (hs : s.scoped = false) : dataConds p s [] = [] := by
  rw [dataConds, offsetFilteredWhere, addTenant, hs, whereConds, iterate_nil]
  simp only [resolvePatchColumns, foldl_nil, makeFiltersMap, map_nil, Bool.false_eq_true,
    if_false, iterate_nil]

lemma countArgs_nil (p : Provider V A) (hs : s.scoped = false) : countArgs p s [] = [] := by
  rw [countArgs, hs, iterate_nil]
  simp only [resolvePatchColumns, foldl_nil, makeFiltersMap, map_nil, Bool.false_eq_true,
    if_false, iterate_nil, append_nil]

structure Answered (p : Provider V A) (s : Scope) (q : ListParams) (tbl t : Table V)
    (rows : List (Row V)) (total : ℕ) : Prop where
  table : t = tbl
  total : total = (tbl.filter (p.backend.satisfies (countConds p s q.filters))).length
  rows : 1 ≤ q.size → 1 ≤ q.page → rows =
    (((listed p s q tbl).mergeSort (p.backend.le [sortColumn p s q])).drop
      ((q.page-1)*q.size).toNat).take q.size.toNat

lemma tableList_ok (hm : ModelColumns p) (hd : p.driver = .postgres) (hk : q.keyset = false)
    (h : tableList p s q tbl = (t,.list rows cursor total)) : Answered p s q tbl t rows total := by
  simp only [tableList, hk, Bool.false_eq_true, if_false] at h
  by_cases hf : resolvePatchColumns p.info (p.backend.iterate q.filters) ≠ [] ∨ s.scoped
  · rw [if_pos hf] at h
    cases hq : queryWhere p.backend p.info (addTenant p s (makeFiltersMap p
        (resolvePatchColumns p.info (p.backend.iterate q.filters)))) q.sort q.size
        ((q.page-1)*q.size) tbl with
    | mk u res =>
      cases res with
      | error e =>
        rw [hq] at h
        cases h
      | ok found =>
        rw [hq] at h
        obtain ⟨n,hu,he⟩ := finish_list h
        cases he
        obtain ⟨rfl,ho⟩ := queryWhere_ok hm hq
        obtain ⟨rfl,ht⟩ := count_ok hm hu
        refine ⟨rfl,?_,?_⟩
        · rw [countConds, hd]
          exact ht
        · intro hi ha
          rw [ho, page_positive hi, sortColumn, if_pos (.inl hd)]
          rfl
  · rw [if_neg hf] at h
    simp only [not_or, not_not, Bool.not_eq_true] at hf
    have hy := (resolved_nil_iff p q.filters).mp hf.1
    obtain ⟨⟨found,n⟩,hq,he⟩ := finish_list h
    cases he
    obtain ⟨rfl,ht,ho⟩ := queryPaginated_ok hm hq
    refine ⟨rfl,?_,?_⟩
    · rw [countConds, hd, hy]
      simp only [countArgs_nil p hf.2]
      exact ht
    · intro hi ha
      rw [ho hi ha, listed, hy, dataConds_nil p hf.2, sortColumn, if_pos (.inl hd)]

lemma sqlList_ok (hm : ModelColumns p) (hd : p.driver ≠ .postgres) (hk : q.keyset = false)
    (h : sqlList p s q tbl = (t,.list rows cursor total)) : Answered p s q tbl t rows total := by
  have hu : countConds p s q.filters = dataConds p s q.filters := by
    rw [countConds]
    split
    · rename_i hg
      exact absurd hg hd
    · rfl
  have hl : 1 ≤ q.size → (if q.size ≤ 0 then 10 else q.size) = q.size := by
    intro hi
    rw [if_neg (by omega)]
  have hof : ∀ limit : ℤ, (max ((q.page-1)*limit) 0).toNat = ((q.page-1)*limit).toNat := by
    intro limit
    omega
  simp only [sqlList, hk, Bool.false_eq_true, if_false] at h
  by_cases hf : q.filters ≠ [] ∨ s.scoped
  · rw [if_pos hf] at h
    obtain ⟨u,ho⟩ :
        ∃ u, countWhere p.backend p.info (offsetFilteredWhere p s q.filters) tbl = u :=
      ⟨_,rfl⟩
    rw [ho] at h
    obtain ⟨t1,res⟩ := u
    cases res with
    | error e => cases h
    | ok n =>
      obtain ⟨rfl,ht⟩ := countWhere_ok hm ho
      obtain ⟨found,hq,he⟩ := finish_list h
      cases he
      obtain ⟨rfl,hro⟩ := queryWhere_ok hm hq
      refine ⟨rfl,?_,?_⟩
      · rw [hu]
        exact ht
      · intro hi ha
        rw [hro, hl hi, page_positive hi, hof, sortColumn, if_pos (.inr hf)]
        rfl
  · rw [if_neg hf] at h
    simp only [not_or, not_not, Bool.not_eq_true] at hf
    obtain ⟨u,ho⟩ : ∃ u, count p.backend p.info [] tbl = u := ⟨_,rfl⟩
    rw [ho] at h
    obtain ⟨t1,res⟩ := u
    cases res with
    | error e => cases h
    | ok n =>
      obtain ⟨rfl,ht⟩ := count_ok hm ho
      obtain ⟨found,hq,he⟩ := finish_list h
      cases he
      obtain ⟨rfl,hro⟩ := listPaginated_ok hm hq
      refine ⟨rfl,?_,?_⟩
      · rw [hu, hf.1, dataConds_nil p hf.2]
        exact ht
      · intro hi ha
        have hco : sortColumn p s q = p.info.primaryKey := by
          rw [sortColumn, if_neg]
          simp [hd, hf.1, hf.2]
        rw [hro, hl hi, hof, listed, hf.1, dataConds_nil p hf.2, hco]

lemma serveList_ok (hm : ModelColumns p) (hk : q.keyset = false)
    (h : serveList p s q tbl = (t,.list rows cursor total)) : Answered p s q tbl t rows total := by
  rw [serveList] at h
  split at h
  · rename_i hd
    exact tableList_ok hm hd hk h
  · rename_i hd
    exact sqlList_ok hm hd hk h

lemma served_page (hm : ModelColumns p) (hk : q.keyset = false) (hz : 1 ≤ q.size) {i : ℕ}
    (h : serveList p s { q with page := (i : ℤ)+1 } tbl = (t,.list rows cursor total)) :
    rows = pageAt q.size.toNat i
      ((listed p s q tbl).mergeSort (p.backend.le [sortColumn p s q])) := by
  have hr := (serveList_ok (q := { q with page := (i : ℤ)+1 }) hm hk h).rows hz
    (by dsimp only; omega)
  have he : (((i : ℤ)+1-1)*q.size).toNat = i*q.size.toNat := by
    rw [add_sub_cancel_right, Int.toNat_mul (by omega) (by omega), Int.toNat_natCast]
  rw [he] at hr
  exact hr

end

def tickets (d : Driver) : Provider String String where
  backend := textBackend ["id","state","owner"]
  info := ⟨[⟨"id","ID",true,false,false,false,true,"id"⟩,
    ⟨"state","State",false,false,false,false,true,"state"⟩,
    ⟨"owner","Owner",false,false,false,false,true,"owner"⟩],"id"⟩
  driver := d
  hooks := {}

def ticket (id state owner : String) : Row String := fun col =>
  if col = "id" then id else if col = "state" then state else owner

lemma tickets_columns (d : Driver) : ModelColumns (tickets d) where
  columns := by
    show ∀ f ∈ (tickets .postgres).info.fields, (tickets .postgres).backend.plain f.column
    decide
  primaryKey := by
    show (tickets .postgres).backend.plain (tickets .postgres).info.primaryKey
    decide

end SdkApi.OffsetPages
