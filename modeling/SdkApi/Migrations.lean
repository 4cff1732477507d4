import Mathlib.Data.List.Sort
import SdkApi.GoStrings
import SdkApi.Transactions

/-!
# Versioned migrations

A migrator loads the SQL files of a directory and applies the pending ones in
the order of their versions, each in a transaction that also writes a row of
the control table. Any call to the database may fail. The paths of the files
and the handle of the directory are left out.
-/

namespace SdkApi.Migrations
open GoStrings Transactions List

/-- A file whose content is `none` cannot be read. -/
structure DirEntry where
  name : String
  isDir : Bool := false
  content : Option String

structure Migration where
  version : ℤ
  name : String
  file : String
  sql : String
  checksum : String
  deriving DecidableEq

/-- `migrationFileRe`: the digits and the name in `^(\d+)[_-](.+)\.sql$`. -/
def migrationFile (file : String) : Option (String × String) :=
  let digits := file.toList.takeWhile Char.isDigit
  match file.toList.dropWhile Char.isDigit with
  | [] => none
  | sep::rest =>
    let name := rest.take (rest.length-4)
    if digits ≠ [] ∧ (sep = '_' ∨ sep = '-') ∧ rest.drop (rest.length-4) = ".sql".toList ∧
        name ≠ [] ∧ '\n' ∉ name then
      some (String.ofList digits,String.ofList name)
    else none

/-- An `int` has 64 bits and wraps around. -/
def atoi (s : String) : ℤ := go s.toList 0
where
  go : List Char → ℤ → ℤ
    | [], n => n
    | c::cs, n => if c < '0' ∨ '9' < c then n else go cs (Int.bmod (n*10+(c.toNat-48)) (2^64))

inductive LoadError where
  | duplicate (version : ℤ) (prev file : String)
  | read (file : String)
  deriving DecidableEq

def load (checksum : String → String) (migrations : List Migration) (e : DirEntry) :
    Except LoadError (List Migration) :=
  if e.isDir then .ok migrations
  else
    match migrationFile e.name with
    | none => .ok migrations
    | some (digits,name) =>
      if hasSuffix name ".down" then .ok migrations
      else
        match migrations.find? (·.version = atoi digits), e.content with
        | some prev, _ => .error (.duplicate (atoi digits) prev.file e.name)
        | none, none => .error (.read e.name)
        | none, some raw => .ok (migrations++[⟨atoi digits,name,e.name,raw,checksum raw⟩])

structure Migrator where
  root : List DirEntry
  migrations : List Migration

def newMigrator (checksum : String → String) (dir : List DirEntry) : Except LoadError Migrator :=
  match dir.foldlM (load checksum) [] with
  | .error err => .error err
  | .ok migrations => .ok ⟨dir,migrations.mergeSort fun a b => a.version ≤ b.version⟩

def readFile (root : List DirEntry) (name : String) : Option String :=
  (root.find? fun e => e.name = name && !e.isDir).bind (·.content)

/-- `%04d`; the sign counts for the width. -/
def padded (v : ℤ) : String :=
  let digits := (Nat.toDigits 10 v.natAbs)
  if v < 0 then String.ofList ('-'::List.replicate (3-digits.length) '0'++digits)
  else String.ofList (List.replicate (4-digits.length) '0'++digits)

def downName (mig : Migration) : String := padded mig.version ++ "_" ++ mig.name ++ ".down.sql"

/-- The statements read so far and the text of the one that is not complete. -/
def splitLine (state : List String × String) (line : String) : List String × String :=
  let trimmed := trimSpace line
  if trimmed = "" ∨ hasPrefix trimmed "--" then state
  else
    let text := state.2 ++ line ++ "\n"
    if hasSuffix trimmed ";" then
      let stmt := trimSpace (trimSuffix (trimSpace text) ";")
      (if stmt = "" then state.1 else state.1++[stmt],"")
    else (state.1,text)

def splitStatements (sqlText : String) : List String :=
  let lines := (sqlText.toList.splitOnP (· = '\n')).map String.ofList
  let state := lines.foldl splitLine ([],"")
  if trimSpace state.2 = "" then state.1 else state.1++[trimSpace state.2]

section

/-- A row of `schema_migrations`. -/
structure Row where
  version : ℤ
  name : String
  checksum : String
  appliedAt : String
  deriving DecidableEq

/-- The control table is `none` before it is created. -/
structure Content (σ : Type) where
  schema : σ
  control : Option (List Row) := none

inductive Statement where
  | text (stmt : String)
  | record (row : Row)
  | unrecord (version : ℤ)

/-- `ddl` are the statements before which the database commits by itself. -/
structure Database (σ : Type) where
  run : String → Content σ → Option (Content σ)
  accepts : String → Bool
  ddl : String → Bool

def recordPlaceholders : List String := ["$1","$2","$3","$4"]

def unrecordPlaceholders : List String := ["$1"]

variable {σ : Type} (d : Database σ)

namespace Database

def exec : Statement → Content σ → Option (Content σ)
  | .text stmt, c => d.run stmt c
  | .record row, c =>
    if recordPlaceholders.all d.accepts then
      c.control.bind fun rows =>
        if rows.any (·.version = row.version) then none
        else some { c with control := some (rows++[row]) }
    else none
  | .unrecord version, c =>
    if unrecordPlaceholders.all d.accepts then
      c.control.map fun rows => { c with control := some (rows.filter (·.version ≠ version)) }
    else none

def engine : Engine (Content σ) Statement where
  exec := d.exec
  implicit
    | .text stmt => d.ddl stmt
    | _ => false

/-- A statement on the schema alone. -/
def alone (stmt : String) (s : σ) : Option σ := (d.run stmt ⟨s, none⟩).map Content.schema

def replay : List String → σ → Option σ
  | [], s => some s
  | stmt::stmts, s => (d.alone stmt s).bind (replay stmts)

/-- The statements neither read nor change the control table. -/
def Apart (stmts : List String) : Prop :=
  ∀ stmt ∈ stmts, ∀ c, d.run stmt c = (d.alone stmt c.schema).map fun s => { c with schema := s }

end Database

inductive Done where
  | up (version : ℤ)
  | down (version : ℤ)
  deriving DecidableEq

/-- The journal is not part of the code. -/
structure Db (σ : Type) where
  content : Content σ
  journal : List Done := []

inductive Op where
  | ensure
  | select
  | readDown
  | transaction (version : ℤ) (p : Point)
  deriving DecidableEq

/-- Which operations fail, and when versions are recorded. -/
structure World where
  fails : Op → Bool := fun _ => false
  stamp : ℤ → String := fun _ => ""

inductive MigrateError where
  | ensure
  | select
  | changed (version : ℤ) (name : String)
  | start (version : ℤ)
  | statement (version : ℤ) (name : String)
  | record (version : ℤ)
  | commit (version : ℤ)
  | noDown (version : ℤ) (downName : String)
  | rollback (version : ℤ) (p : Point)
  | unrecord (version : ℤ)
  deriving DecidableEq

def ensureTable (w : World) (db : Db σ) : Option (Db σ) :=
  if w.fails .ensure then none
  else some { db with content := { db.content with control := some (db.content.control.getD []) } }

def applied (w : World) (db : Db σ) : Option (List (ℤ × String)) :=
  if w.fails .select then none
  else db.content.control.map fun rows => rows.map fun r => (r.version,r.checksum)

def prepare (w : World) (db : Db σ) : Except (MigrateError × Db σ) (List (ℤ × String) × Db σ) :=
  match ensureTable w db with
  | none => .error (.ensure,db)
  | some db' =>
    match applied w db' with
    | none => .error (.select,db')
    | some a => .ok (a,db')

variable (w : World) (m : Migrator)

structure MigrationStatus where
  migration : Migration
  applied : Bool
  modified : Bool

def status (db : Db σ) : Except MigrateError (List MigrationStatus) × Db σ :=
  match prepare w db with
  | .error (err,db') => (.error err,db')
  | .ok (a,db') => (.ok (m.migrations.map fun mig =>
      match a.lookup mig.version with
      | some sum => ⟨mig,true,sum ≠ mig.checksum⟩
      | none => ⟨mig,false,false⟩),db')

def applyError (mig : Migration) (statements : ℕ) : Point → MigrateError
  | .start => .start mig.version
  | .statement i =>
    if i < statements then .statement mig.version mig.name else .record mig.version
  | .commit => .commit mig.version

def upStatements (mig : Migration) : List Statement :=
  (splitStatements mig.sql).map .text++
    [.record ⟨mig.version,mig.name,mig.checksum,w.stamp mig.version⟩]

def applyOne (mig : Migration) (db : Db σ) : Option MigrateError × Db σ :=
  match d.engine.transact (fun p => w.fails (.transaction mig.version p)) (upStatements w mig)
      db.content with
  | (none,c) => (none,⟨c,db.journal++[.up mig.version]⟩)
  | (some p,c) =>
    (some (applyError mig (splitStatements mig.sql).length p),{ db with content := c })

structure UpResult (σ : Type) where
  done : List ℤ
  err : Option MigrateError
  db : Db σ

def upLoop (a : List (ℤ × String)) : List Migration → List ℤ → Db σ → UpResult σ
  | [], done, db => ⟨done,none,db⟩
  | mig::rest, done, db =>
    match a.lookup mig.version with
    | some sum =>
      if sum ≠ mig.checksum then ⟨done,some (.changed mig.version mig.name),db⟩
      else upLoop a rest done db
    | none =>
      match applyOne d w mig db with
      | (some err,db') => ⟨done,some err,db'⟩
      | (none,db') => upLoop a rest (done++[mig.version]) db'

def up (db : Db σ) : UpResult σ :=
  match prepare w db with
  | .error (err,db') => ⟨[],some err,db'⟩
  | .ok (a,db') => upLoop d w a m.migrations [] db'

def downError (mig : Migration) (statements : ℕ) : Point → MigrateError
  | .statement i =>
    if i < statements then .rollback mig.version (.statement i) else .unrecord mig.version
  | p => .rollback mig.version p

def downStatements (mig : Migration) (raw : String) : List Statement :=
  (splitStatements raw).map .text++[.unrecord mig.version]

def lastApplied (a : List (ℤ × String)) : Option Migration :=
  (m.migrations.filter fun mig => (a.lookup mig.version).isSome).getLast?

def rollBack (mig : Migration) (raw : String) (db : Db σ) : Except MigrateError ℤ × Db σ :=
  match d.engine.transact (fun p => w.fails (.transaction mig.version p)) (downStatements mig raw)
      db.content with
  | (none,c) => (.ok mig.version,⟨c,db.journal++[.down mig.version]⟩)
  | (some p,c) =>
    (.error (downError mig (splitStatements raw).length p),{ db with content := c })

def down (db : Db σ) : Except MigrateError ℤ × Db σ :=
  match prepare w db with
  | .error (err,db') => (.error err,db')
  | .ok (a,db') =>
    match lastApplied m a with
    | none => (.ok 0,db')
    | some mig =>
      match if w.fails .readDown then none else readFile m.root (downName mig) with
      | none => (.error (.noDown mig.version (downName mig)),db')
      | some raw => rollBack d w mig raw db'

inductive Call where
  | up (w : World)
  | down (w : World)
  | status (w : World)

def call (db : Db σ) : Call → Db σ
  | .up w => (up d w m db).db
  | .down w => (down d w m db).2
  | .status w => (status w m db).2

def run (db : Db σ) (calls : List Call) : Db σ := calls.foldl (call d m) db

end

section

variable {checksum : String → String} {dir : List DirEntry} {m : Migrator} {ms ms' : List Migration}

lemma load_versions {e : DirEntry} (h : load checksum ms e = .ok ms')
    (hms : (ms.map (·.version)).Nodup) : (ms'.map (·.version)).Nodup := by
  simp only [load] at h
  split at h
  · cases h
    exact hms
  · split at h
    · cases h
      exact hms
    · split at h
      · cases h
        exact hms
      · split at h
        · cases h
        · cases h
        · rename_i hn _
          cases h
          rw [map_append, nodup_append]
          refine ⟨hms,by simp,?_⟩
          intro v hv v' hv'
          obtain ⟨mig,hm,rfl⟩ := mem_map.mp hv
          simp only [map_cons, map_nil, mem_singleton] at hv'
          subst hv'
          simpa using find?_eq_none.mp hn mig hm

lemma loadAll_versions (h : dir.foldlM (load checksum) ms = .ok ms')
    (hm : (ms.map (·.version)).Nodup) : (ms'.map (·.version)).Nodup := by
  induction dir generalizing ms with
  | nil =>
    cases h
    exact hm
  | cons e dir ih =>
    rw [foldlM_cons] at h
    cases hl : load checksum ms e with
    | error err =>
      rw [hl] at h
      cases h
    | ok ms1 =>
      rw [hl] at h
      exact ih h (load_versions hl hm)

lemma newMigrator_sorted (h : newMigrator checksum dir = .ok m) :
    (m.migrations.map (·.version)).Pairwise (· < ·) := by
  unfold newMigrator at h
  split at h
  · cases h
  · rename_i ms hl
    cases h
    have hn := loadAll_versions hl nodup_nil
    have ho := @List.pairwise_mergeSort _
      (fun a b : Migration => decide (a.version ≤ b.version))
      (fun a b c => by simpa using Int.le_trans)
      (fun a b => by simpa using Int.le_total a.version b.version) ms
    have he := (mergeSort_perm ms fun a b => decide (a.version ≤ b.version)).map (·.version)
    have hle : ((ms.mergeSort fun a b => decide (a.version ≤ b.version)).map
        (·.version)).Pairwise (· ≤ ·) := by
      rw [pairwise_map]
      exact ho.imp fun ha => by simpa using ha
    exact (hle.and (he.nodup_iff.mpr hn)).imp fun ha => lt_of_le_of_ne ha.1 ha.2

lemma newMigrator_of_ordered {ms : List Migration} (hl : dir.foldlM (load checksum) [] = .ok ms)
    (ho : ms.Pairwise fun a b => decide (a.version ≤ b.version)) :
    newMigrator checksum dir = .ok ⟨dir,ms⟩ := by
  rw [newMigrator, hl]
  exact congrArg (fun l => Except.ok (Migrator.mk dir l)) (mergeSort_of_pairwise ho)

end

end SdkApi.Migrations
