import Mathlib.Data.List.Pairwise
import SdkApi.TableQueries
import SdkApi.OrderedPages

/-!
# Following the cursors of a keyset query

A page is ordered by the sort column and then by the primary key, but its
cursor is only the formatted sort value of its last row, and the next page
starts strictly after that value. The walk returns every matching row once
exactly when at each page boundary this text separates the rows of the table
in the way the order does.
-/

namespace SdkApi.KeysetPagination
open GoStrings SqlEngine Tables TableQueries OrderedPages List Option

variable {V A : Type} (b : Backend V A) (info : TableInfo) (d : Driver)

def follow (n : ℤ) (orderBy : String) (where_ : GoMap A) :
    ℕ → String → Table V → Option (List (List (Row V)))
  | 0, _, _ => none
  | fuel+1, cursor, tbl =>
    match queryKeyset b info d cursor n orderBy where_ tbl with
    | (_,.error _) => none
    | (t,.ok pg) =>
      if pg.nextCursor = "" then some [pg.rows]
      else (follow n orderBy where_ fuel pg.nextCursor t).map (pg.rows :: ·)

def matching (orderBy : String) (where_ : GoMap A) (tbl : Table V) : List (Row V) :=
  (tbl.filter (b.satisfies (whereConds b where_))).mergeSort (b.le [orderBy,info.primaryKey])

def SameKey (r s : Row V) : Prop :=
  b.before (toLower info.primaryKey) (r (toLower info.primaryKey)) (s (toLower info.primaryKey)) = true ∧
    b.before (toLower info.primaryKey) (s (toLower info.primaryKey)) (r (toLower info.primaryKey)) = true

structure KeysetInput (orderBy : String) (where_ : GoMap A) (tbl : Table V) : Prop where
  ordered : b.toEngine.Ordered
  column : orderBy ≠ "" ∧ validColumn info orderBy = true ∧ b.known orderBy = true
  filters : ∀ e ∈ where_, validColumn info e.1 = true ∧ b.known e.1 = true
  primaryKey : b.known info.primaryKey = true
  distinct : tbl.Pairwise fun r s => ¬ SameKey b info r s

/-- The cursor condition `orderBy > cursor` on a row. -/
def after (orderBy cursor : String) (r : Row V) : Bool :=
  b.holds .gt (toLower orderBy) (r (toLower orderBy)) (b.text cursor)

def cursorOf (orderBy : String) (r : Row V) : String := b.format (r (toLower orderBy))

/-- At the end of page `k` the cursor separates the pages. -/
def Separates (n : ℕ) (orderBy : String) (where_ : GoMap A) (tbl : Table V) (k : ℕ) : Prop :=
  ∃ r, (matching b info orderBy where_ tbl)[k*n-1]? = some r ∧ cursorOf b orderBy r ≠ "" ∧
    b.fails (keysetStmt b info (cursorOf b orderBy r) n orderBy where_) tbl = false ∧
    (∀ x ∈ (matching b info orderBy where_ tbl).take (k*n),
      after b orderBy (cursorOf b orderBy r) x = false) ∧
    (∀ x ∈ ((matching b info orderBy where_ tbl).drop (k*n)).take n,
      after b orderBy (cursorOf b orderBy r) x = true) ∧
    (n < ((matching b info orderBy where_ tbl).drop (k*n)).length →
      ∃ x ∈ (matching b info orderBy where_ tbl).drop (k*n+n),
        after b orderBy (cursorOf b orderBy r) x = true)

section

variable {b info} {orderBy : String} {where_ : GoMap A} {tbl : Table V}

lemma no_tie (h : KeysetInput b info orderBy where_ tbl) (r s : Row V) (hr : r ∈ tbl)
    (hs : s ∈ tbl) (hrs : b.le [orderBy,info.primaryKey] r s)
    (hsr : b.le [orderBy,info.primaryKey] s r) : r = s := by
  by_contra he
  have : Std.Symm fun r s => ¬ SameKey b info r s := ⟨fun _ _ hn hk => hn ⟨hk.2,hk.1⟩⟩
  exact h.distinct.forall hr hs he
    (le_antisymm_last [orderBy] info.primaryKey hrs hsr)

lemma nodup_matching (h : KeysetInput b info orderBy where_ tbl) :
    (matching b info orderBy where_ tbl).Nodup := by
  have ht : tbl.Nodup := h.distinct.imp fun {r s} hn he => by
    subst he
    exact hn ((h.ordered.total _ _ _).elim (fun hb => ⟨hb,hb⟩) fun hb => ⟨hb,hb⟩)
  exact (mergeSort_perm _ _).nodup_iff.mpr (ht.filter _)

def fetched (b : Backend V A) (info : TableInfo) (n : ℕ) (orderBy : String) (where_ : GoMap A)
    (tbl : Table V) (cursor : String) : Option (List (Row V)) :=
  if b.fails (keysetStmt b info cursor n orderBy where_) tbl then none
  else some (((matching b info orderBy where_ tbl).filter fun r =>
    cursor = "" || after b orderBy cursor r).take (n+1))

section

variable (h : KeysetInput b info orderBy where_ tbl)
include h

lemma keysetStmt_known (cursor : String) (n : ℤ) :
    ∀ x ∈ (keysetStmt b info cursor n orderBy where_).idents, b.known x := by
  intro x hx
  simp only [keysetStmt, Stmt.idents, map_append, mem_append] at hx
  rcases hx with (hx | hx) | hx
  · split_ifs at hx <;> simp at hx
    exact hx ▸ h.column.2.2
  · simp only [whereConds, List.map_map, List.mem_map] at hx
    obtain ⟨e,he,rfl⟩ := hx
    exact (h.filters e ((b.iterate_perm where_).mem_iff.mp he)).2
  · split_ifs at hx <;> simp at hx
    · exact hx ▸ h.column.2.2
    · rcases hx with rfl | rfl
      · exact h.column.2.2
      · exact h.primaryKey

lemma keyset_rows (cursor : String) (n : ℕ) :
    (b.meaning tbl (keysetStmt b info cursor n orderBy where_)).rows =
      ((matching b info orderBy where_ tbl).filter fun r =>
        cursor = "" || after b orderBy cursor r).take (n+1) := by
  have ho : b.le (if orderBy = info.primaryKey then [orderBy]
      else [orderBy,info.primaryKey]) = b.le [orderBy,info.primaryKey] := by
    split_ifs with hk
    · rw [← hk, le_twice]
    · rfl
  have hco : b.satisfies ((if cursor = "" then [] else [⟨orderBy,.gt,b.text cursor⟩])++
      whereConds b where_) = fun r => (decide (cursor = "") || after b orderBy cursor r) &&
        b.satisfies (whereConds b where_) r := by
    funext r
    by_cases hc : cursor = "" <;> simp [Engine.satisfies, hc, after]
  have hn : ((n : ℤ)+1).toNat = n+1 := by omega
  simp only [keysetStmt, Engine.meaning, page, ho, hco, hn, getD_none, drop_zero, matching]
  rw [← List.filter_filter, sort_filter h.ordered]
  intro r hr s hs
  exact no_tie h r s (mem_filter.mp hr).1 (mem_filter.mp hs).1

lemma queryKeyset_eq (n : ℕ) (hn : 1 ≤ n) (cursor : String) :
    queryKeyset b info d cursor n orderBy where_ tbl =
      match fetched b info n orderBy where_ tbl cursor with
      | none => (tbl,.error .query)
      | some rows => (tbl,.ok (cutPage b info n orderBy rows)) := by
  have hrun : runKeyset b info cursor n orderBy where_ tbl =
      match fetched b info n orderBy where_ tbl cursor with
      | none => (tbl,.error .query)
      | some rows => (tbl,.ok (cutPage b info n orderBy rows)) := by
    have hk := keysetStmt_known h cursor n
    have hl : (keysetStmt b info cursor n orderBy where_).idents.all b.plain :=
      all_eq_true.mpr fun x hx => plain_of_known (hk x hx)
    simp only [runKeyset, query, Engine.exec, hl, if_true, all_eq_true.mpr hk,
      Bool.true_and, fetched]
    cases hf : b.fails (keysetStmt b info cursor n orderBy where_) tbl with
    | true => simp [rowsOf]
    | false =>
      simp only [Bool.not_false, if_true, rowsOf, keyset_rows h cursor n, if_false,
        Bool.false_eq_true]
      simp [keysetStmt, Engine.meaning]
  cases d with
  | postgres =>
    have hin : firstInvalid info (b.iterate where_) = none := by
      simp only [firstInvalid, map_eq_none_iff, find?_eq_none]
      intro e he
      simp [(h.filters e ((b.iterate_perm where_).mem_iff.mp he)).1]
    have hi : (if (n : ℤ) < 1 then 10 else (n : ℤ)) = n := by rw [if_neg (by omega)]
    simp only [queryKeyset, offsetOrder, h.column.1, h.column.2.1, if_false, if_true, hin, hi]
    exact hrun
  | mysql | turso => simpa only [queryKeyset, h.column.1, if_false] using hrun

end

def resume (b : Backend V A) (info : TableInfo) (n : ℕ) (orderBy : String) (where_ : GoMap A)
    (tbl : Table V) (r : Row V) : Option (Option (List (Row V))) :=
  if cursorOf b orderBy r = "" then none
  else some (fetched b info n orderBy where_ tbl (cursorOf b orderBy r))

lemma cutPage_short {n : ℕ} {rows : List (Row V)} (hl : rows.length ≤ n) :
    cutPage b info n orderBy rows = ⟨rows,""⟩ := by
  rw [cutPage, if_neg (by omega)]

lemma cutPage_long (ho : validColumn info orderBy) {n : ℕ} {rows : List (Row V)}
    (hl : n < rows.length) {r : Row V} (hr : rows[n-1]? = some r) :
    cutPage b info n orderBy rows = ⟨rows.take n,cursorOf b orderBy r⟩ := by
  obtain ⟨f,hf⟩ := isSome_iff_exists.mp ho
  obtain ⟨-,hname⟩ := columnField_some info hf
  rw [cutPage, if_pos (by omega)]
  simp only [Int.toNat_natCast, hr, hf, hname, cursorOf]

lemma follow_eq_walk (h : KeysetInput b info orderBy where_ tbl) (n : ℕ) (hn : 1 ≤ n)
    (fuel : ℕ) (cursor : String) :
    follow b info d n orderBy where_ fuel cursor tbl =
      (fetched b info n orderBy where_ tbl cursor).bind
        (walk n (resume b info n orderBy where_ tbl) fuel) := by
  induction fuel generalizing cursor with
  | zero => cases fetched b info n orderBy where_ tbl cursor <;> rfl
  | succ fuel ih =>
    rw [follow, queryKeyset_eq d h n hn cursor]
    cases fetched b info n orderBy where_ tbl cursor with
    | none => rfl
    | some rows =>
      by_cases hl : rows.length ≤ n
      · simp [walk, hl, cutPage_short hl]
      · obtain ⟨r,hr⟩ : ∃ r, rows[n-1]? = some r := ⟨_,getElem?_eq_getElem (by omega)⟩
        simp only [bind_some, walk, if_neg hl, hr,
          cutPage_long h.column.2.1 (by omega) hr, ih]
        by_cases hc : cursorOf b orderBy r = ""
        · simp [resume, hc]
        · simp only [resume, hc, if_false]
          cases fetched b info n orderBy where_ tbl (cursorOf b orderBy r) <;> rfl

lemma fetched_sublist {n : ℕ} {cursor : String} {rows : List (Row V)}
    (h : fetched b info n orderBy where_ tbl cursor = some rows) :
    rows.Sublist (matching b info orderBy where_ tbl) := by
  rw [fetched] at h
  split_ifs at h
  cases h
  exact (take_sublist _ _).trans filter_sublist

lemma separates_iff (h : KeysetInput b info orderBy where_ tbl) (n : ℕ) (hn : 1 ≤ n) (k : ℕ) :
    Separates b info n orderBy where_ tbl k ↔
      ∃ rest, ((matching b info orderBy where_ tbl)[k*n-1]?).bind
          (resume b info n orderBy where_ tbl) = some (some rest) ∧
        Head n (matching b info orderBy where_ tbl) (k*n) rest := by
  have hi := fun q => head_filter_iff n hn _ (nodup_matching h) (k*n) q
  constructor
  · rintro ⟨r,hr,hc,ha,hse⟩
    refine ⟨_,?_,(hi _).mpr (by simpa [hc] using hse)⟩
    simp [hr, resume, hc, fetched, ha]
  · rintro ⟨rest,hre,he⟩
    obtain ⟨r,hr,hrr⟩ := bind_eq_some_iff.mp hre
    rw [resume] at hrr
    split_ifs at hrr with hc
    rw [some.injEq, fetched] at hrr
    split_ifs at hrr with ha
    cases hrr
    refine ⟨r,hr,hc,by simpa using ha,?_⟩
    simpa [hc] using (hi _).mp he

end

/-- On every driver, following the cursors ends and returns each matching row
once and in order exactly when the first query is answered and each page
boundary is separated by its cursor. -/
theorem queryKeyset_visits_once_iff (orderBy : String) (where_ : GoMap A) (tbl : Table V)
    (h : KeysetInput b info orderBy where_ tbl) (n : ℕ) (hn : 1 ≤ n) :
    (∃ fuel pages, follow b info d n orderBy where_ fuel "" tbl = some pages ∧
      pages.flatten = matching b info orderBy where_ tbl) ↔
    b.fails (keysetStmt b info "" n orderBy where_) tbl = false ∧
      ∀ k, 1 ≤ k → k*n < (matching b info orderBy where_ tbl).length →
        Separates b info n orderBy where_ tbl k := by
  have hl := walk_iff n hn (matching b info orderBy where_ tbl) (nodup_matching h)
    (resume b info n orderBy where_ tbl) fun r rows hr => by
      rw [resume] at hr
      split_ifs at hr
      exact fetched_sublist (some.inj hr)
  simp only [follow_eq_walk d h n hn]
  cases ha : b.fails (keysetStmt b info "" n orderBy where_) tbl with
  | true => simp [fetched, ha]
  | false =>
    have hi : fetched b info n orderBy where_ tbl "" =
        some ((matching b info orderBy where_ tbl).take (n+1)) := by simp [fetched, ha]
    simp only [hi, bind_some, true_and]
    rw [hl]
    constructor
    · exact fun hal k hk hkl => (separates_iff h n hn k).mpr (hal k hk hkl)
    · exact fun hal k hk hkl => (separates_iff h n hn k).mp (hal k hk hkl)

def notes : TableInfo :=
  ⟨[⟨"id","ID",true,false,false,false,true,"id"⟩,
    ⟨"note","Note",false,false,false,false,true,"note"⟩],"id"⟩

def noteRow (id note : String) : Row String := fun col => if col = "id" then id else note

def notesBackend : Backend String String := textBackend ["id","note"]

lemma notes_input (x y : String) {tbl : Table String} (ht : tbl = [noteRow "1" x,noteRow "2" y]) :
    KeysetInput notesBackend notes "note" [] tbl where
  ordered := ⟨fun _ v w => by simpa [notesBackend, textBackend] using le_total v w,
    fun _ u v w h1 h2 => by
      simp only [notesBackend, textBackend, decide_eq_true_eq] at *
      exact h1.trans h2⟩
  column := by decide
  filters := by simp
  primaryKey := by decide
  distinct := by
    subst ht
    simp only [pairwise_cons, mem_singleton, not_mem_nil, false_imp_iff,
      implies_true, Pairwise.nil, and_true, forall_eq]
    rintro ⟨-,h⟩
    have hi : toLower notes.primaryKey = "id" := by decide
    simp only [hi, noteRow, if_true] at h
    exact absurd h (by decide)

theorem visits_once_iff_for_two_notes :
    KeysetInput notesBackend notes "note" [] [noteRow "1" "a",noteRow "2" "b"] ∧
    ((∃ fuel pages, follow notesBackend notes .turso (1 : ℕ) "note" [] fuel ""
        [noteRow "1" "a",noteRow "2" "b"] = some pages ∧
      pages.flatten = matching notesBackend notes "note" [] [noteRow "1" "a",noteRow "2" "b"]) ↔
    notesBackend.fails (keysetStmt notesBackend notes "" (1 : ℕ) "note" [])
        [noteRow "1" "a",noteRow "2" "b"] = false ∧
      ∀ k, 1 ≤ k → k*1 < (matching notesBackend notes "note" []
          [noteRow "1" "a",noteRow "2" "b"]).length →
        Separates notesBackend notes 1 "note" [] [noteRow "1" "a",noteRow "2" "b"] k) :=
  ⟨notes_input "a" "b" rfl,
    queryKeyset_visits_once_iff notesBackend notes .turso "note" [] _ (notes_input "a" "b" rfl) 1 le_rfl⟩

/-- Two equal sort values on either side of a page boundary: the second row
is never returned. -/
theorem tie_at_boundary_lost :
    KeysetInput notesBackend notes "note" [] [noteRow "1" "a",noteRow "2" "a"] ∧
    ¬ ∃ fuel pages, follow notesBackend notes .postgres (1 : ℕ) "note" [] fuel ""
        [noteRow "1" "a",noteRow "2" "a"] = some pages ∧
      pages.flatten = matching notesBackend notes "note" [] [noteRow "1" "a",noteRow "2" "a"] := by
  have hin := notes_input "a" "a" rfl
  refine ⟨hin,?_⟩
  rintro ⟨fuel,pages,hf,hl⟩
  have hle : (matching notesBackend notes "note" [] [noteRow "1" "a",noteRow "2" "a"]).length = 2 := by
    rw [matching, length_mergeSort]
    rfl
  have ha : ∀ r ∈ matching notesBackend notes "note" [] [noteRow "1" "a",noteRow "2" "a"],
      r "note" = "a" := by
    intro r hr
    rw [matching, mem_mergeSort, mem_filter] at hr
    rcases hr.1 with _ | ⟨_,_ | ⟨_,h⟩⟩
    · rfl
    · rfl
    · cases h
  -- the second query asks for values after "a" and finds none
  have hn : fetched notesBackend notes 1 "note" [] [noteRow "1" "a",noteRow "2" "a"] "a" =
      some [] := by
    have he : (matching notesBackend notes "note" [] [noteRow "1" "a",noteRow "2" "a"]).filter
        (fun r => decide ("a" = "") || after notesBackend "note" "a" r) = [] := by
      rw [filter_eq_nil_iff]
      intro r hr
      change ¬ (decide ("a" = "") || decide ("a" < r "note"))
      rw [ha r hr]
      decide
    rw [fetched, he]
    rfl
  rw [follow_eq_walk .postgres hin 1 le_rfl] at hf
  have hi : fetched notesBackend notes 1 "note" [] [noteRow "1" "a",noteRow "2" "a"] "" =
      some (matching notesBackend notes "note" [] [noteRow "1" "a",noteRow "2" "a"]) := by
    rw [fetched, if_neg (by decide), some.injEq]
    simp [take_of_length_le, hle]
  rw [hi, bind_some] at hf
  obtain ⟨r,s,hL⟩ := length_eq_two.mp hle
  have hr : r "note" = "a" := ha r (by simp [hL])
  rw [hL] at hf hl
  have hre : resume notesBackend notes 1 "note" [] [noteRow "1" "a",noteRow "2" "a"] r =
      some (some []) := by
    have hc : cursorOf notesBackend "note" r = "a" := hr
    rw [resume, hc, hn]
    rfl
  cases fuel with
  | zero => simp [walk] at hf
  | succ fuel =>
    have hstep : ([r,s][1-1]?).bind (resume notesBackend notes 1 "note" []
        [noteRow "1" "a",noteRow "2" "a"]) = some (some []) := hre
    rw [walk, if_neg (by simp), hstep] at hf
    obtain ⟨tail,ht,rfl⟩ := map_eq_some_iff.mp hf
    have := walk_short 1 _ fuel [] tail (by simp) ht
    simp [this] at hl

end SdkApi.KeysetPagination
