import SdkApi.CrudEntry

/-!
# The query of a list request

A CRUD entry reads numbers with `fiber.Query`, which leaves the text as it is,
and `ParseListParams` trims it first. The offset of a page is a product of
64-bit integers.
-/

namespace SdkApi.ListQueries
open GoStrings Tables CrudProviders CrudEntry
open List hiding set lookup filter

/-- The first value of a key, empty if there is none. -/
def queryArg (args : GoMap String) (key : String) : String := (args.lookup key).getD ""

def reserved (key : String) : Bool := key ∈ ["page","size","sort","cursor"]

/-- The query arguments of a CRUD entry; a later value replaces an earlier one. -/
def listQuery (args : GoMap String) : ListQuery where
  page := atoi (queryArg args "page").toList
  size := atoi (queryArg args "size").toList
  sort := queryArg args "sort"
  cursor := queryArg args "cursor"
  filters := args.foldl (fun m e => if reserved e.1 then m else set m e.1 e.2) []

def queryInt (args : GoMap String) (key : String) (def_ : ℤ) : ℤ :=
  let v := trimSpace (queryArg args key)
  if v = "" then def_ else (atoi v.toList).getD def_

/-- `RestCtx.QueryArgs` -/
def queryArgs (args : GoMap String) : GoMap String := args.foldl (fun m e => set m e.1 e.2) []

/-- `ParseListParams` -/
def restListParams (pageSize maxPageSize : ℤ) (sortable : List String) (pagination : String)
    (args : GoMap String) : Option ListParams :=
  let pageSize := if pageSize < 1 then 10 else pageSize
  let maxPageSize := if maxPageSize < 1 then 100 else maxPageSize
  let maxPageSize := if maxPageSize < pageSize then pageSize else maxPageSize
  let sort := if queryArg args "sort" = "" then "id" else queryArg args "sort"
  if sortable ≠ [] ∧ sort ∉ sortable then none
  else some {
    page := max (queryInt args "page" 1) 1
    size := min (max (queryInt args "size" pageSize) pageSize) maxPageSize
    sort := sort
    filters := (queryArgs args).filter fun e => !reserved e.1
    cursor := queryArg args "cursor"
    keyset := pagination = "keyset" }

lemma isSpace_of_isDigit {c : Char} (h : isDigit c) : isSpace c = false := by
  simp only [isDigit, Bool.and_eq_true, decide_eq_true_eq] at h
  have hd : 48 ≤ c.toNat ∧ c.toNat ≤ 57 := h
  have he : ∀ d : Char, d.toNat < 48 ∨ 57 < d.toNat → c ≠ d := fun d ho he => by subst he; omega
  have hlow : ¬c ≤ '\r' := fun hc => by
    have : c.toNat ≤ 13 := hc
    omega
  have hhigh : ¬ '\u2000' ≤ c := fun hc => by
    have : 8192 ≤ c.toNat := hc
    omega
  simp [isSpace, he, hlow, hhigh]

lemma trimSpace_of_atoi {s : String} {n : ℤ} (h : atoi s.toList = some n) : trimSpace s = s := by
  have hs : ∀ c ∈ s.toList, isSpace c = false := by
    revert h
    generalize s.toList = cs
    intro h c hc
    unfold atoi at h
    split at h <;> simp only [Option.ite_none_right_eq_some, all_eq_true] at h
    · rcases mem_cons.mp hc with rfl | hc
      · decide
      · exact isSpace_of_isDigit (h.1.2.1 c hc)
    · rcases mem_cons.mp hc with rfl | hc
      · decide
      · exact isSpace_of_isDigit (h.1.2.1 c hc)
    · exact isSpace_of_isDigit (h.1.2.1 c hc)
  have hd : ∀ l : List Char, (∀ c ∈ l, isSpace c = false) → l.dropWhile isSpace = l := by
    intro l hl
    cases l with
    | nil => rfl
    | cons c l => exact dropWhile_cons_of_neg (by simp [hl c])
  rw [trimSpace, hd _ hs, hd _ (by simpa using hs), reverse_reverse, String.ofList_toList]

/-- The parsers agree on what they make of a number unless it has space around it. -/
lemma queryInt_agrees {α : Type} (f : ℤ → α) (args : GoMap String) (key : String) (d : ℤ) :
    f (queryInt args key d) = f ((atoi (queryArg args key).toList).getD d) ↔
      ∀ n, trimSpace (queryArg args key) ≠ queryArg args key →
        atoi (trimSpace (queryArg args key)).toList = some n → f n = f d := by
  have hq : queryInt args key d = (atoi (trimSpace (queryArg args key)).toList).getD d := by
    rw [queryInt]
    split_ifs with he
    · rw [he]
      rfl
    · rfl
  rw [hq]
  by_cases h : trimSpace (queryArg args key) = queryArg args key
  · simp [h]
  · have hn : atoi (queryArg args key).toList = none :=
      Option.eq_none_iff_forall_ne_some.mpr fun n hn => h (trimSpace_of_atoi hn)
    cases atoi (trimSpace (queryArg args key)).toList <;> simp [h, hn]

lemma filter_set (m : GoMap String) (k v : String) :
    (set m k v).filter (fun e => !reserved e.1) =
      if reserved k then m.filter fun e => !reserved e.1
      else set (m.filter fun e => !reserved e.1) k v := by
  have ho : (m.filter fun e => e.1 ≠ k).filter (fun e => !reserved e.1) =
      (m.filter fun e => !reserved e.1).filter fun e => e.1 ≠ k := filter_comm ..
  rw [Tables.set, filter_cons]
  cases hk : reserved k with
  | false => simp only [Bool.not_false, Bool.false_eq_true, if_true, if_false, Tables.set, ho]
  | true =>
    simp only [Bool.not_true, Bool.false_eq_true, if_false, if_true, ho]
    apply filter_eq_self.mpr
    intro e he
    have hn := (mem_filter.mp he).2
    rw [decide_eq_true_eq]
    rintro rfl
    simp [hk] at hn

lemma filter_queryArgs (args m : GoMap String) :
    (args.foldl (fun m e => set m e.1 e.2) m).filter (fun e => !reserved e.1) =
      args.foldl (fun m e => if reserved e.1 then m else set m e.1 e.2)
        (m.filter fun e => !reserved e.1) := by
  induction args generalizing m with
  | nil => rfl
  | cons e args ih => rw [foldl_cons, ih, filter_set, foldl_cons]

/-- A page or a size with space around it that is no larger than the default,
or a size where no other size is allowed. -/
structure Indifferent (entry : Entry) (args : GoMap String) : Prop where
  page : ∀ n, trimSpace (queryArg args "page") ≠ queryArg args "page" →
    atoi (trimSpace (queryArg args "page")).toList = some n → n ≤ 1
  size : ∀ n, trimSpace (queryArg args "size") ≠ queryArg args "size" →
    atoi (trimSpace (queryArg args "size")).toList = some n →
      n ≤ effectivePageSize entry ∨ effectiveMaxPageSize entry = effectivePageSize entry

/-- The sort column is not among those of the entry. -/
abbrev Refused (entry : Entry) (args : GoMap String) : Prop :=
  entry.sortable ≠ [] ∧ (if queryArg args "sort" = "" then "id" else queryArg args "sort") ∉
    entry.sortable

lemma pageSize_le_max (entry : Entry) :
    effectivePageSize entry ≤ effectiveMaxPageSize entry := by
  simp only [effectiveMaxPageSize]
  split_ifs <;> omega

/-- Both parsers agree exactly on the queries that are refused and on those
whose numbers need no trimming or make no difference. -/
theorem rest_list_eq_iff (entry : Entry) (args : GoMap String) :
    restListParams entry.pageSize entry.maxPageSize entry.sortable entry.pagination args =
        parseListParams entry (listQuery args) ↔ Refused entry args ∨ Indifferent entry args := by
  have hi : (queryArgs args).filter (fun e => !reserved e.1) = _ := filter_queryArgs args []
  have hm := pageSize_le_max entry
  have ha := queryInt_agrees (fun n => max n 1) args "page" 1
  have hb := queryInt_agrees (fun n => min (max n (effectivePageSize entry))
    (effectiveMaxPageSize entry)) args "size" (effectivePageSize entry)
  have hd : ∀ n, min (max n (effectivePageSize entry)) (effectiveMaxPageSize entry) =
      min (max (effectivePageSize entry) (effectivePageSize entry)) (effectiveMaxPageSize entry) ↔
      n ≤ effectivePageSize entry ∨ effectiveMaxPageSize entry = effectivePageSize entry := by omega
  simp only [hd] at hb
  have hp : ∀ n : ℤ, max n 1 = max 1 1 ↔ n ≤ 1 := by omega
  simp only [hp] at ha
  have he : restListParams entry.pageSize entry.maxPageSize entry.sortable entry.pagination args =
      if Refused entry args then none
      else some ⟨max (queryInt args "page" 1) 1, min (max (queryInt args "size" (effectivePageSize
        entry)) (effectivePageSize entry)) (effectiveMaxPageSize entry), _, _, _, _⟩ := rfl
  have hc : parseListParams entry (listQuery args) =
      if Refused entry args then none
      else some ⟨max ((atoi (queryArg args "page").toList).getD 1) 1,
        min (max ((atoi (queryArg args "size").toList).getD (effectivePageSize entry))
          (effectivePageSize entry)) (effectiveMaxPageSize entry), _, _, _, _⟩ := rfl
  rw [he, hc]
  by_cases hr : Refused entry args
  · rw [if_pos hr, if_pos hr]
    exact iff_of_true rfl (.inl hr)
  · rw [if_neg hr, if_neg hr, or_iff_right hr, Option.some_inj, ListParams.mk.injEq, ha, hb, hi]
    exact ⟨fun h => ⟨h.1, h.2.1⟩, fun h => ⟨h.page, h.size, rfl, rfl, rfl, rfl⟩⟩

def plainEntry : Entry := { tenantField := "" }

/-- `?size=+20`: twenty rows for `ParseListParams`, ten for a CRUD entry. -/
theorem rest_list_trims :
    (restListParams 0 0 [] "" [("size"," 20")]).map ListParams.size = some 20 ∧
      (parseListParams plainEntry (listQuery [("size"," 20")])).map ListParams.size = some 10 :=
  ⟨rfl,rfl⟩

section

/-- The value of an `int`. -/
def wrap (n : ℤ) : ℤ := Int.bmod n 0x10000000000000000

/-- Only an unfiltered list of PostgreSQL refuses a negative offset. -/
def sqlWindow (d : Driver) (filtered : Bool) (q : ListParams) : Option (ℤ × ℤ) :=
  let offset := wrap ((q.page-1)*q.size)
  match d, filtered with
  | .postgres, false => if offset < 0 then none else some (q.size,offset)
  | _, _ => some (q.size,max offset 0)

variable {entry : Entry} {args : GoMap String} {q : ListParams}

lemma wrap_lt (n : ℤ) : wrap n < 0x8000000000000000 := by
  have h := @Int.bmod_lt n 0x10000000000000000 (by decide)
  rw [wrap]
  omega

lemma wrap_eq {n : ℤ} (h0 : 0 ≤ n) (h : n < 0x8000000000000000) : wrap n = n := by
  rw [wrap]
  exact Int.bmod_eq_of_le (by omega) (by omega)

lemma parsed_bounds (h : parseListParams entry (listQuery args) = some q) :
    1 ≤ q.page ∧ 1 ≤ q.size ∧ q.size ≤ effectiveMaxPageSize entry := by
  simp only [parseListParams, Option.ite_none_left_eq_some] at h
  obtain ⟨-,h⟩ := h
  cases h
  have ha : 1 ≤ effectivePageSize entry := by
    rw [effectivePageSize]
    split_ifs <;> omega
  have hm := pageSize_le_max entry
  dsimp only
  omega

end

end SdkApi.ListQueries
