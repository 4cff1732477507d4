import SdkApi.MigrationRuns

/-!
# Names and texts of migration files

The text of a file is split into statements at the semicolons that end a line.
`Down` derives the name of the file that it runs from the version and the name
of a migration, and looks for that migration among the files it has loaded.
-/

namespace SdkApi.MigrationFiles
open GoStrings Migrations MigrationRuns Transactions List Option

section

variable {s t : String}

lemma trimSpace_append_newline (s : String) : trimSpace (s ++ "\n") = trimSpace s := by
  have hl : "\n".toList = ['\n'] := rfl
  rw [trimSpace, trimSpace, String.toList_append, hl, dropWhile_append]
  split_ifs with hb
  · rw [isEmpty_iff.mp hb]
    rfl
  · rw [reverse_append, reverse_singleton, singleton_append,
      dropWhile_cons_of_pos (by decide)]

lemma trimSpace_semicolon (s : String) :
    trimSpace (s ++ ";") = String.ofList (s.toList.dropWhile isSpace) ++ ";" := by
  have he : ";".toList = [';'] := rfl
  have ho : (s ++ ";").toList.dropWhile isSpace = s.toList.dropWhile isSpace++[';'] := by
    rw [String.toList_append, he, dropWhile_append]
    split_ifs with hb
    · rw [isEmpty_iff.mp hb]
      rfl
    · rfl
  rw [trimSpace, ho, reverse_append, reverse_singleton, singleton_append,
    dropWhile_cons_of_neg (by decide), reverse_cons, reverse_reverse]
  exact String.toList_injective (by simp)

lemma trimmed_ends (h : trimSpace s = s) : s.toList.dropWhile isSpace = s.toList ∧
    s.toList.reverse.dropWhile isSpace = s.toList.reverse := by
  have he := congrArg (fun s => s.toList.length) h
  have ho := dropWhile_suffix isSpace (l := s.toList)
  simp only [trimSpace, String.toList_ofList, length_reverse] at he
  have hb := dropWhile_suffix isSpace (l := (s.toList.dropWhile isSpace).reverse)
  have ht := hb.length_le
  rw [length_reverse] at ht
  have hl := ho.eq_of_length (Nat.le_antisymm ho.length_le (by omega))
  rw [hl] at hb he
  exact ⟨hl,hb.eq_of_length (by rw [he, length_reverse])⟩

lemma not_space_of_kept {c : Char} {l : List Char} (h : (c::l).dropWhile isSpace = c::l) :
    isSpace c = false := by
  by_contra ha
  rw [dropWhile_cons_of_pos (by simpa using ha)] at h
  have hl := congrArg length h
  have he := (dropWhile_suffix isSpace (l := l)).length_le
  rw [length_cons] at hl
  omega

lemma trimSpace_of_end (h : s.toList.reverse.dropWhile isSpace = s.toList.reverse) :
    trimSpace s = String.ofList (s.toList.dropWhile isSpace) := by
  obtain ⟨u,hu⟩ := dropWhile_suffix isSpace (l := s.toList)
  rw [trimSpace]
  congr 1
  cases hr : (s.toList.dropWhile isSpace).reverse with
  | nil =>
    rw [reverse_eq_nil_iff.mp hr]
    rfl
  | cons c r =>
    have hc : isSpace c = false := by
      rw [← hu, reverse_append, hr, cons_append] at h
      exact not_space_of_kept h
    rw [dropWhile_cons_of_neg (by simp [hc]), ← hr, reverse_reverse]

def lines (s : String) : List String := (s.toList.splitOnP (· = '\n')).map String.ofList

def Ignored (line : String) : Prop := trimSpace line = "" ∨ hasPrefix (trimSpace line) "--" = true

instance : DecidablePred Ignored := fun line =>
  inferInstanceAs (Decidable (trimSpace line = "" ∨ hasPrefix (trimSpace line) "--" = true))

/-- A statement that a file can hold: only its last line may end in a semicolon. -/
structure Plain (s : String) : Prop where
  ne : s ≠ ""
  trimmed : trimSpace s = s
  inner : ∀ l ∈ (lines s).dropLast, hasSuffix (trimSpace l) ";" = false

variable {s : String} {acc : List String} {l : String}

lemma lines_append (s : List Char) : ∃ inner last, s = inner.flatMap (·++['\n'])++last ∧
    ∀ v, '\n' ∉ v → (s++v).splitOnP (· = '\n') = inner++[last++v] := by
  induction s with
  | nil =>
    refine ⟨[],[],rfl,fun v hv => splitOnP_eq_singleton fun c hc => ?_⟩
    exact decide_eq_false fun h => hv (h ▸ hc)
  | cons c s ih =>
    obtain ⟨inner,last,hs,hl⟩ := ih
    by_cases hc : c = '\n'
    · refine ⟨[]::inner,last,by rw [hc, hs]; rfl,fun v hv => ?_⟩
      rw [cons_append, splitOnP_cons_eq_if_modifyHead, if_pos (by simpa using hc), hl v hv]
      rfl
    · cases inner with
      | nil =>
        refine ⟨[],c::last,by rw [hs]; rfl,fun v hv => ?_⟩
        rw [cons_append, splitOnP_cons_eq_if_modifyHead, if_neg (by simpa using hc),
          hl v hv]
        rfl
      | cons l inner =>
        refine ⟨(c::l)::inner,last,by rw [hs]; rfl,fun v hv => ?_⟩
        rw [cons_append, splitOnP_cons_eq_if_modifyHead, if_neg (by simpa using hc),
          hl v hv]
        rfl

lemma splitLine_ignored (h : Ignored l) (state : List String × String) :
    splitLine state l = state := by
  rw [splitLine]
  exact if_pos h

lemma splitLine_inner (h : ¬Ignored l) (he : hasSuffix (trimSpace l) ";" = false)
    (text : String) : splitLine (acc,text) l = (acc,text ++ l ++ "\n") := by
  rw [splitLine, if_neg (show ¬(_ ∨ _) from h)]
  simp [he]

lemma foldl_ignored (ls : List String) (state : List String × String) :
    (ls.filter fun l => ¬Ignored l).foldl splitLine state = ls.foldl splitLine state := by
  rw [foldl_filter]
  refine congrArg (fun f => ls.foldl f state) ?_
  funext state l
  by_cases h : Ignored l
  · simp [h, splitLine_ignored h]
  · simp [h]

lemma foldl_inner {inner : List (List Char)}
    (h : ∀ l ∈ inner.map String.ofList, ¬Ignored l ∧ hasSuffix (trimSpace l) ";" = false)
    (text : String) : (inner.map String.ofList).foldl splitLine (acc,text) =
      (acc,text ++ String.ofList (inner.flatMap (·++['\n']))) := by
  induction inner generalizing text with
  | nil => simp
  | cons l inner ih =>
    rw [map_cons, forall_mem_cons] at h
    rw [map_cons, foldl_cons, splitLine_inner h.1.1 h.1.2, ih h.2]
    refine congrArg (Prod.mk acc) (String.toList_injective ?_)
    simp

lemma plain_lines (hs : Plain s) : ∃ (inner : List (List Char)) (last : String),
    s = String.ofList (inner.flatMap (·++['\n'])) ++ last ∧
      (∀ l ∈ inner.map String.ofList, hasSuffix (trimSpace l) ";" = false) ∧
      lines s = inner.map String.ofList++[last] ∧
      lines (s ++ ";") = inner.map String.ofList++[last ++ ";"] := by
  obtain ⟨inner,last,hbody,hl⟩ := lines_append s.toList
  have he : lines s = inner.map String.ofList++[String.ofList last] := by
    have hn := hl [] (by simp)
    rw [append_nil, append_nil] at hn
    rw [lines, hn, map_append]
    rfl
  refine ⟨inner,String.ofList last,String.toList_injective (by simpa using hbody),?_,he,?_⟩
  · have hi := hs.inner
    rwa [he, dropLast_concat] at hi
  · have ho := hl [';'] (by decide)
    rw [lines, String.toList_append, show ";".toList = [';'] from rfl, ho, map_append]
    refine congrArg (_++[·]) (String.toList_injective ?_)
    simp

lemma foldl_terminated (hs : Plain s) (hk : ∀ l ∈ lines (s ++ ";"), ¬Ignored l) :
    (lines (s ++ ";")).foldl splitLine (acc,"") = (acc++[s],"") := by
  obtain ⟨inner,last,hbody,hn,-,hi⟩ := plain_lines hs
  rw [hi, forall_mem_append] at hk
  have ha : ¬Ignored (last ++ ";") := hk.2 _ (mem_singleton_self _)
  have he : hasSuffix (trimSpace (last ++ ";")) ";" := by
    rw [trimSpace_semicolon, hasSuffix_iff]
    exact ⟨_,rfl⟩
  have ht : String.ofList (inner.flatMap (·++['\n'])) ++ (last ++ ";") ++ "\n" =
      s ++ ";" ++ "\n" := by simp only [hbody, String.append_assoc]
  have hu : trimSpace (s ++ ";" ++ "\n") = s ++ ";" := by
    rw [trimSpace_append_newline, trimSpace_semicolon, (trimmed_ends hs.trimmed).1,
      String.ofList_toList]
  rw [hi, foldl_append, foldl_inner fun l hl => ⟨hk.1 l hl,hn l hl⟩,
    foldl_cons, foldl_nil, String.empty_append, splitLine,
    if_neg (show ¬(_ ∨ _) from ha)]
  simp only [he, if_true]
  rw [ht, hu, trimSuffix_append, hs.trimmed, if_neg hs.ne]

lemma foldl_open (hs : Plain s) (he : hasSuffix s ";" = false) (hk : ∀ l ∈ lines s, ¬Ignored l) :
    (lines s).foldl splitLine (acc,"") = (acc,s ++ "\n") := by
  obtain ⟨inner,last,hbody,hn,hi,-⟩ := plain_lines hs
  rw [hi, forall_mem_append] at hk
  have ha : ¬Ignored last := hk.2 _ (mem_singleton_self _)
  -- The last line ends as the statement does, so there is no space to cut off at its end.
  have ht : last.toList.reverse.dropWhile isSpace = last.toList.reverse := by
    have hb := (trimmed_ends hs.trimmed).2
    rw [hbody, String.toList_append, reverse_append] at hb
    cases hr : last.toList.reverse with
    | nil => rfl
    | cons c r =>
      rw [hr, cons_append] at hb
      rw [dropWhile_cons_of_neg (by simp [not_space_of_kept hb])]
  have ho : hasSuffix (trimSpace last) ";" = false := by
    rw [trimSpace_of_end ht]
    by_contra hu
    refine absurd ?_ (Bool.eq_false_iff.mp he)
    rw [hasSuffix, isSuffixOf_iff_suffix]
    have hcu : ";".toList <:+ last.toList.dropWhile isSpace := by
      simpa [hasSuffix, isSuffixOf_iff_suffix] using hu
    refine hcu.trans ((dropWhile_suffix _).trans ?_)
    rw [hbody, String.toList_append]
    exact suffix_append _ _
  rw [hi, foldl_append, foldl_inner fun l hl => ⟨hk.1 l hl,hn l hl⟩,
    foldl_cons, foldl_nil, splitLine_inner ha ho, String.empty_append, ← hbody]

lemma foldl_statements {stmts : List String} (hs : ∀ s ∈ stmts, Plain s)
    (hk : ∀ l ∈ stmts.flatMap fun s => lines (s ++ ";"), ¬Ignored l) :
    (stmts.flatMap fun s => lines (s ++ ";")).foldl splitLine (acc,"") = (acc++stmts,"") := by
  induction stmts generalizing acc with
  | nil => simp
  | cons s stmts ih =>
    rw [forall_mem_cons] at hs
    rw [flatMap_cons, forall_mem_append] at hk
    rw [flatMap_cons, foldl_append, foldl_terminated hs.1 hk.1, ih hs.2 hk.2,
      append_assoc]
    rfl

/-- A text whose lines, apart from blank ones and comments, are those of statements that end in
semicolons and perhaps of one more without, is split into these statements. -/
theorem splitStatements_text (stmts : List String) (rest : Option String) (text : String)
    (hs : ∀ s ∈ stmts, Plain s) (hrest : ∀ s ∈ rest, Plain s ∧ hasSuffix s ";" = false)
    (htext : (lines text).filter (fun l => ¬Ignored l) =
      (stmts.flatMap fun s => lines (s ++ ";"))++rest.toList.flatMap lines) :
    splitStatements text = stmts++rest.toList := by
  have hk : ∀ l ∈ (stmts.flatMap fun s => lines (s ++ ";"))++rest.toList.flatMap lines,
      ¬Ignored l := by
    intro l hl
    rw [← htext, mem_filter] at hl
    simpa using hl.2
  rw [forall_mem_append] at hk
  have ho : (lines text).foldl splitLine ([],"") =
      (rest.toList.flatMap lines).foldl splitLine (stmts,"") := by
    rw [← foldl_ignored, htext, foldl_append, foldl_statements hs hk.1, nil_append]
  have hi : splitStatements text = (fun state : List String × String =>
      if trimSpace state.2 = "" then state.1 else state.1++[trimSpace state.2])
        ((lines text).foldl splitLine ([],"")) := rfl
  rw [hi, ho]
  cases rest with
  | none => exact (append_nil stmts).symm
  | some s =>
    obtain ⟨ha,he⟩ := hrest s rfl
    have hn : (some s).toList.flatMap lines = lines s := append_nil _
    rw [hn] at hk ⊢
    rw [foldl_open ha he hk.2]
    simp only [trimSpace_append_newline, ha.trimmed, if_neg ha.ne, toList_some]

theorem splitStatements_text_sample :
    splitStatements "CREATE TABLE t (\n  -- the key\n\n  id TEXT);;\n\nDROP TABLE u" =
      ["CREATE TABLE t (\n  id TEXT);","DROP TABLE u"] := by
  refine splitStatements_text ["CREATE TABLE t (\n  id TEXT);"] (some "DROP TABLE u") _ ?_ ?_
    (by decide)
  · intro s hs
    rw [mem_singleton.mp hs]
    exact ⟨by decide,by decide,by decide⟩
  · intro s hs
    cases hs
    exact ⟨⟨by decide,by decide,by decide⟩,by decide⟩

variable {σ : Type} {d : Database σ} {m : Migrator} {db : Db σ} {rs : List Row}

/-- The name of the file with `.down` in front of `.sql`. -/
def companion (mig : Migration) : String := trimSuffix mig.file ".sql" ++ ".down.sql"

structure Reverted (d : Database σ) (m : Migrator) (db : Db σ) (v : ℤ) (db' : Db σ) : Prop where
  recorded : v ∈ recorded db
  highest : ∀ u ∈ MigrationRuns.recorded db, u ≤ v
  statements : ∃ mig ∈ m.migrations, mig.version = v ∧ ∃ raw,
    readFile m.root (companion mig) = some raw ∧
      d.replay (splitStatements raw) db.content.schema = some db'.content.schema
  removed : MigrationRuns.recorded db' = (MigrationRuns.recorded db).filter (· ≠ v)

/-- What a call of `Down` may do. -/
def Sound (d : Database σ) (w : World) (m : Migrator) (db : Db σ) : Prop :=
  match down d w m db with
  | (.ok v,db') => if recorded db = [] then v = 0 ∧ Same db db' else Reverted d m db v db'
  | (.error err,db') => Same db db' ∧ ∀ v name, err = .noDown v name →
    w.fails .readDown = true ∨
      ∃ mig ∈ m.migrations, mig.version = v ∧ readFile m.root (companion mig) = none

lemma lastApplied_none (h : lastApplied m (rs.map fun r => (r.version,r.checksum)) = none) :
    ∀ mig ∈ m.migrations, mig.version ∉ rs.map (·.version) := by
  intro mig hm
  rw [lastApplied, getLast?_eq_none_iff, filter_eq_nil_iff] at h
  have hn := h mig hm
  rw [isSome_iff_ne_none, not_not] at hn
  exact (lookup_applied_none rs mig.version).mp hn

lemma lastApplied_some (ht : (m.migrations.map (·.version)).Pairwise (· < ·)) {last : Migration}
    (h : lastApplied m (rs.map fun r => (r.version,r.checksum)) = some last) :
    last.version ∈ rs.map (·.version) ∧
      ∀ mig ∈ m.migrations, mig.version ∈ rs.map (·.version) → mig.version ≤ last.version := by
  have hn : ∀ v, ((rs.map fun r => (r.version,r.checksum)).lookup v).isSome ↔
      v ∈ rs.map (·.version) := by
    intro v
    rw [isSome_iff_ne_none, ne_eq, lookup_applied_none, not_not]
  obtain ⟨front,ho⟩ := getLast?_eq_some_iff.mp h
  have hl := mem_filter.mp (ho ▸ mem_append_right front (mem_singleton_self _))
  refine ⟨(hn _).mp hl.2,fun mig hi he => ?_⟩
  have hm : mig ∈ m.migrations.filter fun mig =>
      ((rs.map fun r => (r.version,r.checksum)).lookup mig.version).isSome :=
    mem_filter.mpr ⟨hi,(hn _).mpr he⟩
  have ha := (pairwise_map.mp ht).filter
    fun mig => ((rs.map fun r => (r.version,r.checksum)).lookup mig.version).isSome
  rw [ho] at hm ha
  rcases mem_append.mp hm with hm | hm
  · exact ((pairwise_append.mp ha).2.2 mig hm last (mem_singleton_self _)).le
  · rw [mem_singleton.mp hm]

lemma rollBack_error {w : World} {mig : Migration} {raw : String} {db db' : Db σ}
    {err : MigrateError} (h : rollBack d w mig raw db = (.error err,db')) (v : ℤ) (name : String) :
    err ≠ .noDown v name := by
  unfold rollBack at h
  split at h
  · cases h
  · rename_i p c _
    cases h
    cases p with
    | start => nofun
    | commit => nofun
    | statement i =>
      rw [downError]
      split_ifs <;> nofun

/-- The highest of the recorded versions that have a file. -/
def Topmost (m : Migrator) (db : Db σ) (mig : Migration) : Prop :=
  mig ∈ m.migrations ∧ mig.version ∈ recorded db ∧
    ∀ other ∈ m.migrations, other.version ∈ recorded db → other.version ≤ mig.version

/-- The regenerated name denotes no file only if that of the companion does not
either. The file that it denotes is refused by the database, or no recorded
version is higher and the companion does the same. -/
structure Reverts (d : Database σ) (m : Migrator) (db : Db σ) (mig : Migration) : Prop where
  missing : readFile m.root (downName mig) = none → readFile m.root (companion mig) = none
  found : ∀ raw t, readFile m.root (downName mig) = some raw →
    d.replay (splitStatements raw) db.content.schema = some t →
      (∀ u ∈ recorded db, u ≤ mig.version) ∧ ∃ text,
        readFile m.root (companion mig) = some text ∧
          d.replay (splitStatements text) db.content.schema = some t

def Revertible (d : Database σ) (m : Migrator) (db : Db σ) : Prop :=
  recorded db = [] ∨ ∃ mig, Topmost m db mig ∧ Reverts d m db mig

section

variable (hso : (m.migrations.map (·.version)).Pairwise (· < ·)) (ht : Transactional d m)
include hso

lemma version_inj {mig other : Migration} (hi : mig ∈ m.migrations) (ho : other ∈ m.migrations)
    (h : mig.version = other.version) : mig = other :=
  some.inj ((find_of_mem hso hi).symm.trans (h ▸ find_of_mem hso ho))

lemma topmost_of_last {mig : Migration}
    (h : lastApplied m ((rows db).map fun r => (r.version, r.checksum)) = some mig) :
    Topmost m db mig :=
  ⟨mem_lastApplied h, lastApplied_some hso h⟩

include ht

lemma sound_of_revertible (h : Revertible d m db) (w : World) : Sound d w m db := by
  unfold Sound down
  rcases prepare_cases w db with ⟨err, db', hat, ha, he⟩ | ⟨db', ha, ho, he⟩
  · rw [he]
    refine ⟨ha, fun v name her => ?_⟩
    unfold prepare at he
    cases her
    split at he
    · cases he
    · split at he <;> cases he
  rw [he]
  dsimp only
  cases hla : lastApplied m ((rows db).map fun r => (r.version, r.checksum)) with
  | none =>
    have hy : recorded db = [] := h.resolve_right fun ⟨mig, hg, _⟩ =>
      lastApplied_none hla mig hg.1 hg.2.1
    dsimp only
    rw [if_pos hy]
    exact ⟨rfl, ha⟩
  | some mig =>
    have hg := topmost_of_last hso hla
    have hn : recorded db ≠ [] := ne_nil_of_mem hg.2.1
    obtain ⟨other, hi, hre⟩ := h.resolve_left hn
    obtain rfl := version_inj hso hg.1 hi.1 ((hi.2.2 _ hg.1 hg.2.1).antisymm (hg.2.2 _ hi.1 hi.2.1))
    dsimp only
    cases hraw : if w.fails .readDown then none else readFile m.root (downName mig) with
    | none =>
      refine ⟨ha, fun v name her => ?_⟩
      cases her
      split_ifs at hraw with hfa
      · exact .inl hfa
      · exact .inr ⟨mig, hg.1, rfl, hre.missing hraw⟩
    | some raw =>
      split_ifs at hraw
      dsimp only
      rcases rollBack_cases ht w mig hraw db' with ⟨err, hb⟩ | ⟨s, rs, hl, hrs, hb⟩
      · rw [hb]
        exact ⟨ha, fun v name her => absurd her (rollBack_error hb v name)⟩
      · rw [hb]
        dsimp only
        rw [if_neg hn]
        rw [ho, some.injEq] at hrs
        rw [ha.schema] at hl
        obtain ⟨hhi, text, htext, hsame⟩ := hre.found raw s hraw hl
        refine ⟨hg.2.1, hhi, ⟨mig, hg.1, rfl, text, htext, hsame⟩, ?_⟩
        rw [← hrs]
        change ((rows db).filter _).map _ = ((rows db).map _).filter _
        rw [List.filter_map]
        rfl

omit hso in
/-- Where nothing fails, the file that is found is run. -/
lemma rollBack_succeeds {mig : Migration} {file raw : String} (hr : readFile m.root file = some raw)
    {t : σ} (hl : d.replay (splitStatements raw) db.content.schema = some t)
    (hc : db.content.control = some rs) : rollBack d {} mig raw db = (.ok mig.version,
      ⟨⟨t, some (rs.filter (·.version ≠ mig.version))⟩, db.journal++[.down mig.version]⟩) := by
  have ha : unrecordPlaceholders.all d.accepts := by
    rw [unrecordPlaceholders, all_cons, show "$1" = "$" ++ toString 1 from rfl, ht.accepts]
    rfl
  have he : d.engine.replay (downStatements mig raw) db.content =
      some ⟨t, some (rs.filter (·.version ≠ mig.version))⟩ := by
    rw [downStatements, Transactions.replay_append, engine_replay_texts (ht.down _ _ hr), hl]
    simp [Engine.replay, Database.engine, Database.exec, ha, hc]
  rw [rollBack, transact_of_replay (engine_atomic ht) he]

lemma revertible_of_sound (h : Sound d {} m db) : Revertible d m db := by
  by_cases hn : recorded db = []
  · exact .inl hn
  have hp : prepare {} db = .ok ((rows db).map fun r => (r.version, r.checksum),
      { db with content := { db.content with control := some (rows db) } }) := rfl
  unfold Sound down at h
  rw [hp] at h
  dsimp only at h
  cases hla : lastApplied m ((rows db).map fun r => (r.version, r.checksum)) with
  | none =>
    simp only [hla, if_neg hn] at h
    obtain ⟨mig, hg, hv, -⟩ := h.statements
    exact absurd (hv ▸ h.recorded) (lastApplied_none hla mig hg)
  | some mig =>
    have hg := topmost_of_last hso hla
    simp only [hla, Bool.false_eq_true, if_false] at h
    refine .inr ⟨mig, hg, fun hre => ?_, fun raw t hre hl => ?_⟩
    · simp only [hre] at h
      rcases h.2 _ _ rfl with hf | ⟨other, ho, hv, hno⟩
      · cases hf
      · rwa [version_inj hso hg.1 ho hv.symm]
    · have hb := @rollBack_succeeds σ d m ⟨⟨db.content.schema, some (rows db)⟩, db.journal⟩
        (rows db)
        ht mig _ raw hre t hl rfl
      simp only [hre, hb, if_neg hn] at h
      obtain ⟨other, ho, hv, text, hte, hsame⟩ := h.statements
      rw [version_inj hso hg.1 ho hv.symm]
      exact ⟨hv ▸ h.highest, text, hte, hsame⟩

end

def recordedAt (versions : List ℤ) : Db (List String) where
  content := { schema := [], control := some (versions.map fun v => ⟨v,"","",""⟩) }

def shortDir : List DirEntry :=
  [{ name := "1_init.sql", content := some "CREATE TABLE a;" },
    { name := "1_init.down.sql", content := some "DROP TABLE a;" }]

def shortMigrator : Migrator :=
  ⟨shortDir,[⟨1,"init","1_init.sql","CREATE TABLE a;","CREATE TABLE a;"⟩]⟩

def naming (accepts : String → Bool) (ddl : Bool) : Database (List String) where
  run stmt c :=
    if stmt ∈ c.schema then none else some { c with schema := c.schema++[stmt] }
  accepts := accepts
  ddl _ := ddl

end

end SdkApi.MigrationFiles
