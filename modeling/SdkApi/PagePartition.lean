import SdkApi.OffsetPages

/-!
# Offset pages of an engine that breaks ties as it likes

Each page is a query of its own. The engine sorts by the sort column and may
arrange rows that tie on it differently every time; here it comes across the
rows of the table in another order for each query. No page adds a tie-breaker,
so the pages are a partition exactly when none of them ends among different
rows that tie.
-/

namespace SdkApi.PagePartition
open GoStrings SqlEngine Tables TableQueries CrudProviders OffsetPages SortedPages
open List hiding count

variable {V A : Type} {p : Provider V A} {s : Scope} {q : ListParams} {tbl : Table V}
  {order : Table V}

/-- The rows of page `i`, counted from 0. -/
def pageRows (p : Provider V A) (s : Scope) (q : ListParams) (i : ℕ) (tbl : Table V) :
    List (Row V) :=
  match (serveList p s { q with page := (i : ℤ)+1 } tbl).2 with
  | .list rows _ _ => rows
  | _ => []

/-- The pages have every matching row once, whatever the order. -/
def Partitions (p : Provider V A) (s : Scope) (q : ListParams) (tbl : Table V) : Prop :=
  ∀ orders : ℕ → Table V, (∀ i, (orders i).Perm tbl) →
    ∀ k, (listed p s q tbl).length ≤ k*q.size.toNat →
      ((range k).flatMap fun i => pageRows p s q i (orders i)).Perm (listed p s q tbl)

structure Pageable (p : Provider V A) (s : Scope) (q : ListParams) (tbl : Table V) : Prop where
  columns : ModelColumns p
  ordered : p.backend.toEngine.Ordered
  offset : q.keyset = false
  size : 1 ≤ q.size
  answers : ∀ order : Table V, order.Perm tbl → ∀ i : ℕ, ∃ t rows cursor total,
    serveList p s { q with page := (i : ℤ)+1 } order = (t,.list rows cursor total)

lemma preorder_le (h : p.backend.toEngine.Ordered) (order : List String) :
    TotalPreorder (p.backend.le order) where
  total r s := by
    have ht := le_total h order r s
    rwa [Bool.or_eq_true] at ht
  trans := le_trans h order

lemma pageRows_eq (h : Pageable p s q tbl) (hor : order.Perm tbl) (i : ℕ) :
    pageRows p s q i order = pageAt q.size.toNat i
      ((listed p s q order).mergeSort (p.backend.le [sortColumn p s q])) := by
  obtain ⟨t,rows,cursor,total,he⟩ := h.answers order hor i
  rw [pageRows, he]
  exact served_page h.columns h.offset h.size he

lemma arranged_sort (h : Pageable p s q tbl) (ho : order.Perm tbl) :
    Arranged (p.backend.le [sortColumn p s q]) (listed p s q tbl)
      ((listed p s q order).mergeSort (p.backend.le [sortColumn p s q])) where
  perm := (mergeSort_perm _ _).trans (ho.filter _)
  sorted := pairwise_mergeSort (le_trans h.ordered _)
    (le_total h.ordered _) _

lemma exists_order {S : List (Row V)}
    (hS : Arranged (p.backend.le [sortColumn p s q]) (listed p s q tbl) S) :
    ∃ order : Table V, order.Perm tbl ∧
      (listed p s q order).mergeSort (p.backend.le [sortColumn p s q]) = S := by
  refine ⟨S++tbl.filter (fun r => !p.backend.satisfies (dataConds p s q.filters) r),?_,?_⟩
  · exact (hS.perm.append_right _).trans (filter_append_perm _ _)
  · have hm : S.filter (p.backend.satisfies (dataConds p s q.filters)) = S := by
      rw [filter_eq_self]
      intro r hr
      exact (mem_filter.mp (hS.perm.mem_iff.mp hr)).2
    have ho : (tbl.filter (fun r => !p.backend.satisfies (dataConds p s q.filters) r)).filter
        (p.backend.satisfies (dataConds p s q.filters)) = [] := by
      rw [filter_eq_nil_iff]
      intro r hr
      have hr' := (mem_filter.mp hr).2
      simpa using hr'
    rw [listed, filter_append, hm, ho, append_nil]
    exact mergeSort_of_pairwise hS.sorted

theorem offset_pages_partition_iff (h : Pageable p s q tbl) :
    Partitions p s q tbl ↔
      ∀ j, Uniform (p.backend.le [sortColumn p s q]) (listed p s q tbl) (j*q.size.toNat) := by
  have hi : 1 ≤ q.size.toNat := by
    have := h.size
    omega
  rw [← pages_partition_iff (preorder_le h.ordered _) (arranged_sort h (.refl tbl)) hi]
  constructor
  · intro ht S hS k hk
    choose orders he hso using fun i => exists_order (hS i)
    have ha := ht orders he k hk
    have hu : (fun i => pageRows p s q i (orders i)) = fun i => pageAt q.size.toNat i (S i) := by
      funext i
      rw [pageRows_eq h (he i), hso i]
    rwa [hu] at ha
  · intro hl orders ho k hk
    have ha := hl _ (fun i => arranged_sort h (ho i)) k hk
    have hu : (fun i => pageRows p s q i (orders i)) = fun i => pageAt q.size.toNat i
        ((listed p s q (orders i)).mergeSort (p.backend.le [sortColumn p s q])) := by
      funext i
      exact pageRows_eq h (ho i) i
    rwa [hu]

lemma query_known {stmt : Stmt A} {hk : ∀ x ∈ stmt.idents, p.backend.known x}
    (ha : p.backend.fails stmt tbl = false) :
    query p.backend stmt tbl =
      ((p.backend.meaning tbl stmt).table,.ok (p.backend.meaning tbl stmt)) := by
  have hl : stmt.idents.all p.backend.plain :=
    all_eq_true.mpr fun x hx => plain_of_known (hk x hx)
  have hal : stmt.idents.all p.backend.known := all_eq_true.mpr hk
  have he : p.backend.exec stmt tbl = some (p.backend.meaning tbl stmt) := by
    rw [Engine.exec, if_pos hl, if_pos (by rw [hal, ha]; rfl)]
  rw [query, he]

lemma serveList_answers (ha : ∀ stmt, p.backend.fails stmt tbl = false)
    (hy : p.backend.known p.info.primaryKey)
    (ht : validColumn p.info q.sort ∧ p.backend.known q.sort)
    (hi : q.filters = []) (hsc : s.scoped = false) (hk : q.keyset = false) :
    ∃ rows total, serveList p s q tbl = (tbl,.list rows "" total) := by
  have he : ∀ col, p.backend.known col → ∀ limit offset,
      rowsOf (query p.backend (.select [] [col] limit offset) tbl) =
        (tbl,.ok (p.backend.meaning tbl (.select [] [col] limit offset)).rows) := by
    intro col hl limit offset
    rw [query_known (ha _)]
    · rfl
    · intro x hx
      rw [mem_singleton.mp hx]
      exact hl
  have hu : count p.backend p.info [] tbl =
      (tbl,.ok (p.backend.meaning tbl (.count [])).affected) := by
    rw [count, query_known (ha _)]
    · rfl
    · intro x hx
      cases hx
  have hor : ∃ col, offsetOrder p.info q.sort = .ok col ∧ p.backend.known col := by
    rw [offsetOrder]
    split_ifs
    · exact ⟨_,rfl,hy⟩
    · exact ⟨_,rfl,ht.2⟩
    · rename_i hne
      exact absurd ht.1 hne
  obtain ⟨col,hl,hn⟩ := hor
  have ho := (resolved_nil_iff p q.filters).mpr hi
  rw [serveList]
  split
  · simp only [tableList, hk, ho, hsc, Bool.false_eq_true, if_false, ne_eq, not_true,
      or_self, queryPaginated, hl, hu, he col hn, finish]
    exact ⟨_,_,rfl⟩
  · simp only [sqlList, hk, hi, hsc, Bool.false_eq_true, if_false, ne_eq, not_true,
      or_self, hu, listPaginated, he p.info.primaryKey hy, finish]
    exact ⟨_,_,rfl⟩

def byColumn (col : String) : ListParams := { size := 1, sort := col }

lemma tickets_pageable (d : Driver) (col : String) (hco : col = "id" ∨ col = "state")
    (tbl : Table String) : Pageable (tickets d) ⟨"",""⟩ (byColumn col) tbl where
  columns := tickets_columns d
  ordered := ⟨fun _ v w => by simpa [tickets, textBackend] using Std.le_total,
    fun _ u v w h1 h2 => by
      simp only [tickets, textBackend, decide_eq_true_eq] at *
      exact h1.trans h2⟩
  offset := rfl
  size := le_refl _
  answers order _ i := by
    have ho : validColumn (tickets d).info col ∧ (tickets d).backend.known col := by
      rcases hco with rfl | rfl
      · exact ⟨rfl,rfl⟩
      · exact ⟨rfl,rfl⟩
    have hk : (tickets d).backend.known (tickets d).info.primaryKey := by
      show (tickets .postgres).backend.known (tickets .postgres).info.primaryKey
      decide
    have ha := @serveList_answers _ _ (tickets d) ⟨"",""⟩
      { byColumn col with page := (i : ℤ)+1 } order (fun _ => rfl) hk ho rfl rfl rfl
    obtain ⟨rows,total,hl⟩ := ha
    exact ⟨_,_,_,_,hl⟩

def twoTickets : Table String := [ticket "1" "open" "ann",ticket "2" "open" "bob"]

theorem tickets_partition_by_id :
    Partitions (tickets .postgres) ⟨"",""⟩ (byColumn "id") twoTickets := by
  refine (offset_pages_partition_iff (tickets_pageable .postgres "id" (.inl rfl) twoTickets)).mpr ?_
  intro j x hx _ _ y hy ht
  have ho : ∀ r ∈ listed (tickets .postgres) ⟨"",""⟩ (byColumn "id") twoTickets,
      r = ticket "1" "open" "ann" ∨ r = ticket "2" "open" "bob" := by
    intro r hr
    simpa [twoTickets] using (mem_filter.mp hr).1
  rcases ho x hx with rfl | rfl <;> rcases ho y hy with rfl | rfl
  · rfl
  · exact absurd ht (by decide)
  · exact absurd ht (by decide)
  · rfl

def shuffled (i : ℕ) : Table String := if i = 0 then twoTickets else twoTickets.reverse

lemma shuffled_perm (i : ℕ) : (shuffled i).Perm twoTickets := by
  rw [shuffled]
  split_ifs
  · exact .refl _
  · exact reverse_perm _

/-- Two tickets in the same state, one per page: an engine that changes their
order between the queries returns the first of them twice. -/
theorem tied_ticket_returned_twice :
    ((range 2).flatMap fun i =>
        pageRows (tickets .postgres) ⟨"",""⟩ (byColumn "state") i (shuffled i)) =
      [ticket "1" "open" "ann",ticket "1" "open" "ann"] ∧
    ¬Partitions (tickets .postgres) ⟨"",""⟩ (byColumn "state") twoTickets := by
  have hg := tickets_pageable .postgres "state" (.inr rfl) twoTickets
  have hi : pageRows (tickets .postgres) ⟨"",""⟩ (byColumn "state") 0 (shuffled 0) =
      [ticket "1" "open" "ann"] := by
    rw [pageRows_eq hg (shuffled_perm 0), mergeSort_of_pairwise (by decide)]
    rfl
  have he : pageRows (tickets .postgres) ⟨"",""⟩ (byColumn "state") 1 (shuffled 1) =
      [ticket "1" "open" "ann"] := by
    rw [pageRows_eq hg (shuffled_perm 1), mergeSort_of_pairwise (by decide)]
    rfl
  have ha : ((range 2).flatMap fun i =>
      pageRows (tickets .postgres) ⟨"",""⟩ (byColumn "state") i (shuffled i)) =
      [ticket "1" "open" "ann",ticket "1" "open" "ann"] := by simp [range_succ, hi, he]
  refine ⟨ha,?_⟩
  intro ht
  have hm := ht shuffled shuffled_perm 2 (by decide)
  rw [ha] at hm
  have hme : ticket "2" "open" "bob" ∈ [ticket "1" "open" "ann",ticket "1" "open" "ann"] :=
    hm.mem_iff.mpr (.tail _ (.head _))
  have ho : ticket "2" "open" "bob" = ticket "1" "open" "ann" := by simpa using hme
  exact absurd (congrFun ho "id") (by decide)

end SdkApi.PagePartition
