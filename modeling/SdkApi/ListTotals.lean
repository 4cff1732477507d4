import SdkApi.OffsetPages

/-!
# The total of an offset list

On MySQL and Turso the total is counted with the conditions of the rows. On
PostgreSQL `Count` uses the first of its conditions only, so the total is
right exactly when this condition alone decides which rows are listed.
-/

namespace SdkApi.ListTotals
open GoStrings SqlEngine Tables CrudProviders OffsetPages SortedPages List

variable {V A : Type} {p : Provider V A} {s : Scope} {q : ListParams} {tbl t : Table V}
  {rows : List (Row V)} {cursor : String} {total : ℕ}

/-- The total is the number of rows on all pages together. -/
structure TotalCounts (p : Provider V A) (s : Scope) (q : ListParams) (tbl : Table V) (total : ℕ) :
    Prop where
  counted : total = (listed p s q tbl).length
  summed : ∀ k : ℕ, 1 ≤ q.size → (listed p s q tbl).length ≤ k*q.size.toNat →
    ∀ pages : ℕ → List (Row V), (∀ i < k, ∃ t cursor n,
      serveList p s { q with page := (i : ℤ)+1 } tbl = (t,.list (pages i) cursor n)) →
    ((List.range k).map fun i => (pages i).length).sum = total

/-- On PostgreSQL, the first condition of the count decides alone. -/
def FirstDecides (p : Provider V A) (s : Scope) (filters : GoMap String) (tbl : Table V) : Prop :=
  p.driver = .postgres → ∀ e rest, countArgs p s filters = e::rest →
    (eqCond e.1 e.2 ∈ dataConds p s filters → ∀ r ∈ tbl,
      p.backend.satisfies [eqCond e.1 e.2] r = true →
        p.backend.satisfies (dataConds p s filters) r = true) ∧
    (eqCond e.1 e.2 ∉ dataConds p s filters →
      tbl.countP (p.backend.satisfies [eqCond e.1 e.2]) =
        tbl.countP (p.backend.satisfies (dataConds p s filters)))

lemma length_eq_iff {conds : List (Cond A)} {c : Cond A} (hc : c ∈ conds) (tbl : Table V) :
    (tbl.filter (p.backend.satisfies [c])).length =
        (tbl.filter (p.backend.satisfies conds)).length ↔
      ∀ r ∈ tbl, p.backend.satisfies [c] r → p.backend.satisfies conds r := by
  have hu : tbl.filter (p.backend.satisfies conds) =
      (tbl.filter (p.backend.satisfies [c])).filter (p.backend.satisfies conds) := by
    rw [filter_filter]
    apply filter_congr
    intro r _
    cases ha : p.backend.satisfies conds r with
    | false => rfl
    | true =>
      have ho := satisfies_mem ha hc
      simp [Engine.satisfies, ho]
  rw [hu, eq_comm, length_filter_eq_length_iff]
  simp only [mem_filter, and_imp]

lemma countArgs_eq_nil (h : countArgs p s q.filters = []) : dataConds p s q.filters = [] := by
  rw [countArgs, append_eq_nil_iff] at h
  have he := p.backend.iterate_perm
    (makeFiltersMap p (resolvePatchColumns p.info (p.backend.iterate q.filters)))
  rw [h.1] at he
  have hi : q.filters = [] := by
    apply (resolved_nil_iff p q.filters).mp
    have hm := he.nil_eq.symm
    rw [makeFiltersMap, map_eq_nil_iff] at hm
    exact hm
  have ho : s.scoped = false := by
    by_contra hs
    rw [if_pos (by simpa using hs)] at h
    exact absurd h.2 (cons_ne_nil _ _)
  rw [hi]
  exact dataConds_nil p ho

lemma counted_iff : (tbl.filter (p.backend.satisfies (countConds p s q.filters))).length =
    (listed p s q tbl).length ↔ FirstDecides p s q.filters tbl := by
  by_cases hd : p.driver = .postgres
  · rw [listed, countConds, hd]
    cases ha : countArgs p s q.filters with
    | nil =>
      rw [countArgs_eq_nil ha]
      refine iff_of_true rfl ?_
      intro _ e rest he
      rw [ha] at he
      cases he
    | cons e rest =>
      have ho : FirstDecides p s q.filters tbl ↔
          (eqCond e.1 e.2 ∈ dataConds p s q.filters → ∀ r ∈ tbl,
            p.backend.satisfies [eqCond e.1 e.2] r →
              p.backend.satisfies (dataConds p s q.filters) r) ∧
          (eqCond e.1 e.2 ∉ dataConds p s q.filters →
            tbl.countP (p.backend.satisfies [eqCond e.1 e.2]) =
              tbl.countP (p.backend.satisfies (dataConds p s q.filters))) := by
        constructor
        · intro h
          exact h hd e rest ha
        · intro h _ e' rest' he'
          rw [ha, cons.injEq] at he'
          exact he'.1 ▸ h
      rw [ho]
      show (tbl.filter (p.backend.satisfies [eqCond e.1 e.2])).length = _ ↔ _
      by_cases hm : eqCond e.1 e.2 ∈ dataConds p s q.filters
      · rw [length_eq_iff hm]
        simp [hm]
      · simp [hm, countP_eq_length_filter]
  · refine iff_of_true ?_ fun hg => absurd hg hd
    rw [listed, countConds]
    split
    · rename_i hg
      exact absurd hg hd
    · rfl

lemma sum_pages (hm : ModelColumns p) (hk : q.keyset = false) {k : ℕ} (hz : 1 ≤ q.size)
    (hl : (listed p s q tbl).length ≤ k*q.size.toNat) {pages : ℕ → List (Row V)}
    (ha : ∀ i < k, ∃ t cursor n,
      serveList p s { q with page := (i : ℤ)+1 } tbl = (t,.list (pages i) cursor n)) :
    ((range k).map fun i => (pages i).length).sum = (listed p s q tbl).length := by
  have hu : ∀ i ∈ range k, (pages i).length = (pageAt q.size.toNat i
      ((listed p s q tbl).mergeSort (p.backend.le [sortColumn p s q]))).length := by
    intro i hi
    obtain ⟨t,cursor,n,hse⟩ := ha i (mem_range.mp hi)
    rw [served_page hm hk hz hse]
  rw [map_congr_left hu, ← length_flatMap, flatMap_pages, length_take, length_mergeSort]
  exact min_eq_right hl

theorem total_counts_listed_iff (hm : ModelColumns p) (hk : q.keyset = false)
    (h : serveList p s q tbl = (t,.list rows cursor total)) :
    TotalCounts p s q tbl total ↔ FirstDecides p s q.filters tbl := by
  have ht := (serveList_ok hm hk h).total
  rw [← counted_iff]
  constructor
  · intro hu
    rw [← ht, hu.counted]
  · intro ho
    refine ⟨ht.trans ho,?_⟩
    intro k hi hl pages ha
    rw [sum_pages hm hk hi hl ha, ht, ho]

def openOfAnn : ListParams := { filters := [("owner","ann"),("state","open")] }

def annsTickets : Table String := [ticket "1" "open" "ann",ticket "2" "open" "bob"]

theorem mysql_total_counts : TotalCounts (tickets .mysql) ⟨"",""⟩ openOfAnn annsTickets 1 := by
  have h : ∃ rows, serveList (tickets .mysql) ⟨"",""⟩ openOfAnn annsTickets =
      (annsTickets,.list rows "" 1) := ⟨_,rfl⟩
  obtain ⟨rows,ho⟩ := h
  refine (total_counts_listed_iff (tickets_columns .mysql) rfl ho).mpr ?_
  intro hd
  cases hd

/-- Two filters on PostgreSQL: one row is listed, and the total is two. -/
theorem postgres_counts_too_many :
    (∃ rows, serveList (tickets .postgres) ⟨"",""⟩ openOfAnn annsTickets =
      (annsTickets,.list rows "" 2)) ∧
    (listed (tickets .postgres) ⟨"",""⟩ openOfAnn annsTickets).length = 1 :=
  ⟨⟨_,rfl⟩,by decide⟩

end SdkApi.ListTotals
