import SdkApi.OffsetPages

/-!
# Where the three drivers agree on an update

PostgreSQL checks the columns of a patch and returns the row that it has
changed. The other two leave the check to the database and may read the row
again.
-/

namespace SdkApi.DriverAgreement
open SqlEngine Tables TableQueries CrudProviders OffsetPages List

variable {V A : Type}

section

variable (p : Provider V A) (conds : List (Cond A)) (patch : GoMap A) (tbl : Table V)

def assignments : List (String × A) :=
  p.backend.iterate (resolvePatchColumns p.info (p.backend.iterate patch))

/-- The patch sets columns of the model. The database refuses it, or the row
still meets the conditions afterwards and reading it is not refused. -/
structure Steady : Prop where
  columns : ∀ e ∈ assignments p patch, validColumn p.info e.1 = true
  outcome : p.backend.exec (.update (assignments p patch) conds) tbl = none ∨
    p.backend.fails (.select conds [] none none) (tbl.map fun r =>
        if p.backend.satisfies conds r then p.backend.assign (assignments p patch) r else r) =
      false ∧
    ∀ r ∈ tbl, p.backend.satisfies conds r = true →
      p.backend.satisfies conds (p.backend.assign (assignments p patch) r) = true

def updated : Table V := tbl.map fun r =>
  if p.backend.satisfies conds r then p.backend.assign (assignments p patch) r else r

/-- The row of a successful update. -/
def answer : Except DbError (Row V) :=
  oneRow .postgres ((tbl.filter (p.backend.satisfies conds)).map
    (p.backend.assign (assignments p patch)))

/-- `Update` and `UpdateScoped` behind their checks: `F` gives the answer. -/
def patched (F : Driver → Table V → Result V → Step V (Row V)) (d : Driver) : Step V (Row V) :=
  match patchSets p.backend p.info d patch with
  | .error e => (tbl, .error e)
  | .ok sets =>
    match query p.backend (.update sets conds) tbl with
    | (t, .error e) => (t, .error e)
    | (t, .ok r) => F d t r

variable {p conds patch tbl}

lemma filter_updated (h : ∀ r ∈ tbl, p.backend.satisfies conds r →
      p.backend.satisfies conds (p.backend.assign (assignments p patch) r)) :
    (updated p conds patch tbl).filter (p.backend.satisfies conds) =
      (tbl.filter (p.backend.satisfies conds)).map (p.backend.assign (assignments p patch)) := by
  induction tbl with
  | nil => rfl
  | cons r tbl ih =>
    have ih := ih fun x hx => h x (by simp [hx])
    rw [updated] at ih ⊢
    rw [map_cons, filter_cons, filter_cons, ih]
    cases hr : p.backend.satisfies conds r with
    | true => simp [h r (by simp) hr]
    | false => simp [hr]

lemma oneRow_driver (d : Driver) {rows : List (Row V)} (h : rows.length ≤ 1) :
    oneRow d rows = oneRow .postgres rows := by
  match rows, h with
  | [], _ => cases d <;> rfl
  | [r], _ => cases d <;> rfl

lemma fetch_ne_invalid (d : Driver) (t : Table V) (col : String) :
    (fetch p.backend d conds t).2 ≠ .error (.invalidColumn col) := by
  have ho : ∀ rows : List (Row V), oneRow d rows ≠ .error (.invalidColumn col) := fun rows => by
    unfold oneRow
    split <;> nofun
  rw [fetch, query]
  cases p.backend.exec (.select conds [] none none) t with
  | none => nofun
  | some r => exact ho r.rows

section

variable (hone : (tbl.filter (p.backend.satisfies conds)).length ≤ 1)
include hone

lemma fetch_updated_iff (hn : ∀ c ∈ conds, p.backend.known c.ident) (d : Driver) :
    fetch p.backend d conds (updated p conds patch tbl) =
        (updated p conds patch tbl, answer p conds patch tbl) ↔
      p.backend.fails (.select conds [] none none) (updated p conds patch tbl) = false ∧
      ∀ r ∈ tbl, p.backend.satisfies conds r →
        p.backend.satisfies conds (p.backend.assign (assignments p patch) r) := by
  have hk : (Stmt.select conds [] none none).idents.all p.backend.known := by
    simpa [Stmt.idents] using hn
  have hl : ∀ l : List (Row V), page none none (l.mergeSort (p.backend.le [])) = l := sort_nil
  rw [fetch, query, exec_known _ hk]
  constructor
  · intro he
    cases hf : p.backend.fails (.select conds [] none none) (updated p conds patch tbl) with
    | true =>
      simp only [hf, if_true, answer, Prod.mk.injEq, true_and] at he
      generalize tbl.filter (p.backend.satisfies conds) = hit at hone he
      match hit, hone with
      | [], _ => cases he
      | [r], _ => cases he
    | false =>
      refine ⟨rfl, fun r hr hs => ?_⟩
      have hm : tbl.filter (p.backend.satisfies conds) = [r] := by
        obtain ⟨x, hx⟩ := length_eq_one_iff.mp (hone.antisymm
          (length_pos_of_mem (mem_filter.mpr ⟨hr, hs⟩)))
        have hmem : r ∈ tbl.filter (p.backend.satisfies conds) := mem_filter.mpr ⟨hr, hs⟩
        rw [hx, mem_singleton] at hmem
        rw [hx, hmem]
      simp only [hf, Bool.false_eq_true, if_false, Engine.meaning, hl, answer, hm, Prod.mk.injEq,
        true_and] at he
      exact (mem_filter.mp (oneRow_mem he)).2
  · rintro ⟨hf, hkept⟩
    simp only [hf, Bool.false_eq_true, if_false, Engine.meaning, hl, filter_updated hkept]
    rw [oneRow_driver d (by simpa using hone), answer]

lemma query_updated (hm : ModelColumns p) (hp : ∀ c ∈ conds, p.backend.plain c.ident)
    (hc : ∀ e ∈ assignments p patch, validColumn p.info e.1) :
    p.backend.exec (.update (assignments p patch) conds) tbl = none ∨
      ∃ r : Result V, p.backend.exec (.update (assignments p patch) conds) tbl = some r ∧
        r.table = updated p conds patch tbl ∧ r.rows.length = r.affected ∧ r.affected ≤ 1 ∧
        oneRow .postgres r.rows = answer p conds patch tbl ∧
        ∀ c ∈ conds, p.backend.known c.ident := by
  have hi : ∀ x ∈ (Stmt.update (assignments p patch) conds).idents, p.backend.plain x :=
    update_idents p.backend.plain (fun e he => plain_of_column hm.columns (hc e he)) hp
  cases hx : p.backend.exec (.update (assignments p patch) conds) tbl with
  | none => exact .inl rfl
  | some r =>
    obtain ⟨rfl, hk⟩ := exec_plain hx hi
    exact .inr ⟨_, rfl, rfl, by simp [Engine.meaning], hone, rfl, fun c hc =>
      hk _ (mem_append_right _ (mem_map_of_mem hc))⟩

lemma patched_agree_iff {F : Driver → Table V → Result V → Step V (Row V)} (hm : ModelColumns p)
    (hp : ∀ c ∈ conds, p.backend.plain c.ident)
    (hpg : ∀ t r, F .postgres t r = (t, oneRow .postgres r.rows))
    (hmy : ∀ t r, F .mysql t r = fetch p.backend .mysql conds t)
    (htu : ∀ t r, r.rows.length = r.affected → r.affected ≤ 1 →
      F .turso t r = (t, oneRow .postgres r.rows) ∨ F .turso t r = fetch p.backend .turso conds t) :
    (∀ d, patched p conds patch tbl F d = patched p conds patch tbl F .postgres) ↔
      Steady p conds patch tbl := by
  by_cases hc : ∀ e ∈ assignments p patch, validColumn p.info e.1
  · have hs : ∀ d, patchSets p.backend p.info d patch = .ok (assignments p patch) := fun d => by
      have hn : (assignments p patch).find? (fun e => !validColumn p.info e.1) = none :=
        find?_eq_none.mpr fun e he => by simp [hc e he]
      rw [assignments] at hn
      cases d <;> simp only [patchSets, hn] <;> rfl
    simp only [patched, hs]
    rcases query_updated hone hm hp hc with hx | ⟨r, hx, ht, hl, hle, ho, hk⟩
    · simp only [query, hx]
      exact iff_of_true (fun _ => trivial) ⟨hc, .inl hx⟩
    · have hi := @fetch_updated_iff V A p conds patch tbl hone hk
      simp only [query, hx, hpg, ht, ho]
      constructor
      · exact fun ha => ⟨hc, .inr ((hi .mysql).mp ((hmy _ r).symm.trans (ha .mysql)))⟩
      · rintro ⟨-, hno | ha⟩ d
        · rw [hx] at hno
          cases hno
        cases d with
        | postgres => rw [hpg, ho]
        | mysql => exact (hmy _ _).trans ((hi .mysql).mpr ha)
        | turso =>
          rcases htu (updated p conds patch tbl) r hl hle with he | he
          · rw [he, ho]
          · exact he.trans ((hi .turso).mpr ha)
  · -- PostgreSQL names the column, which no other driver does
    refine iff_of_false (fun ha => ?_) fun h => hc h.columns
    obtain ⟨e, hf⟩ : ∃ e, (assignments p patch).find? (fun e => !validColumn p.info e.1) =
        some e := by simpa [← Option.isSome_iff_exists] using hc
    have ha := ha .mysql
    rw [assignments] at hf
    simp only [patched, patchSets, hf, query, hmy] at ha
    split at ha
    · rename_i t err hq
      split at hq <;> cases hq
      cases ha
    · exact fetch_ne_invalid _ _ _ (congrArg Prod.snd ha)

end

end

end SdkApi.DriverAgreement
