import SdkApi.Migrations
import SdkApi.UniqueRows

/-!
# Runs of the migrator

The journal of committed transactions explains both what the control table
records and what has become of the schema, after any calls whatever fails in
them. A run of `Up` goes through the pending versions in their order and
stops at the first one that fails.
-/

namespace SdkApi.MigrationRuns
open GoStrings Migrations Transactions List Option

variable {σ : Type}

def rows (db : Db σ) : List Row := db.content.control.getD []

def recorded (db : Db σ) : List ℤ := (rows db).map (·.version)

def pendingIn (base : List ℤ) (ms : List Migration) : List ℤ :=
  (ms.map (·.version)).filter (· ∉ base)

def pending (m : Migrator) (db : Db σ) : List ℤ := pendingIn (recorded db) m.migrations

/-- Nothing ends a transaction before its commit, and the files leave the
control table alone. -/
structure Transactional (d : Database σ) (m : Migrator) : Prop where
  accepts : ∀ n : ℕ, d.accepts ("$" ++ toString n) = true
  ddl : ∀ stmt, d.ddl stmt = false
  up : ∀ mig ∈ m.migrations, d.Apart (splitStatements mig.sql)
  down : ∀ file raw, readFile m.root file = some raw → d.Apart (splitStatements raw)

def find (m : Migrator) (version : ℤ) : Option Migration :=
  m.migrations.find? (·.version = version)

def script (m : Migrator) : Done → List String
  | .up v => ((find m v).map fun mig => splitStatements mig.sql).getD []
  | .down v =>
    ((find m v).bind fun mig => (readFile m.root (downName mig)).map splitStatements).getD []

def failedAt : MigrateError → Option ℤ
  | .start v | .statement v _ | .record v | .commit v => some v
  | _ => none

/-- The migrations that a run of `Up` has begun. -/
def executed (r : UpResult σ) : List ℤ := r.done++(r.err.bind failedAt).toList

def Standing (journal : List Done) (v : ℤ) : Prop :=
  ∃ l r, journal = l++ .up v::r ∧ .down v ∉ r

/-- A version is never applied while it stands. -/
structure Accounted (d : Database σ) (m : Migrator) (s : σ) (db : Db σ) : Prop where
  recorded : ∀ v, v ∈ recorded db ↔ Standing db.journal v
  nodup : (MigrationRuns.recorded db).Nodup
  schema : d.replay (db.journal.flatMap (script m)) s = some db.content.schema
  once : ∀ l v r, db.journal = l++ .up v::r → ¬Standing l v

/-- What a run of `Up` does. -/
structure Progress (m : Migrator) (db : Db σ) (r : UpResult σ) : Prop where
  ordered : (executed r).Pairwise (· < ·)
  inOrder : executed r <+: pending m db
  journal : r.db.journal = db.journal++r.done.map .up
  recorded : MigrationRuns.recorded r.db = MigrationRuns.recorded db++r.done
  failed : ∀ k, r.err.bind failedAt = some k →
    k ∉ MigrationRuns.recorded r.db ∧ r.done = (pending m db).filter (· < k)
  finished : r.err = none → r.done = pending m db

section

def Done.update (vs : List ℤ) : Done → List ℤ
  | .up v => vs++[v]
  | .down v => vs.filter (· ≠ v)

def standing (journal : List Done) : List ℤ := journal.foldl Done.update []

variable (journal : List Done)

lemma standing_concat (x : Done) : standing (journal++[x]) = Done.update (standing journal) x := by
  simp [standing]

lemma concat_split {journal l r : List Done} {x y : Done} (h : journal++[x] = l++y::r) :
    (r = [] ∧ journal = l ∧ x = y) ∨ ∃ r', r = r'++[x] ∧ journal = l++y::r' := by
  rcases eq_nil_or_concat' r with rfl | ⟨r',z,rfl⟩
  · obtain ⟨hl,hx⟩ := append_inj' h rfl
    exact .inl ⟨rfl,hl,singleton_inj.mp hx⟩
  · have ha : journal++[x] = (l++y::r')++[z] := by simpa using h
    obtain ⟨hl,hx⟩ := append_inj' ha rfl
    rw [singleton_inj.mp hx]
    exact .inr ⟨r',rfl,hl⟩

lemma standing_concat_iff (x : Done) (v : ℤ) :
    Standing (journal++[x]) v ↔ x = .up v ∨ (Standing journal v ∧ x ≠ .down v) := by
  constructor
  · rintro ⟨l,r,hl,ho⟩
    rcases concat_split hl with ⟨rfl,-,hx⟩ | ⟨r',rfl,hj⟩
    · exact .inl hx
    · simp only [mem_append, mem_singleton, not_or] at ho
      exact .inr ⟨⟨l,r',hj,ho.1⟩,fun hx => ho.2 hx.symm⟩
  · rintro (rfl | ⟨⟨l,r,rfl,ho⟩,hx⟩)
    · exact ⟨journal,[],rfl,by simp⟩
    · refine ⟨l,r++[x],by simp,?_⟩
      simp only [mem_append, mem_singleton, not_or]
      exact ⟨ho,fun h => hx h.symm⟩

lemma mem_standing (v : ℤ) : v ∈ standing journal ↔ Standing journal v := by
  induction journal using reverseRecOn with
  | nil =>
    simp only [standing, foldl_nil, not_mem_nil, false_iff]
    rintro ⟨l,r,h,-⟩
    simp at h
  | append_singleton journal x ih =>
    rw [standing_concat, standing_concat_iff]
    cases x with
    | up u =>
      simp only [Done.update, mem_append, mem_singleton, ih, Done.up.injEq, ne_eq,
        reduceCtorEq, not_false_eq_true, and_true]
      rw [or_comm, eq_comm]
    | down u =>
      simp only [Done.update, mem_filter, decide_eq_true_eq, ih, reduceCtorEq, ne_eq,
        Done.down.injEq, false_or]
      rw [eq_comm]

variable {d : Database σ}

lemma replay_append (stmts stmts' : List String) (s : σ) :
    d.replay (stmts++stmts') s = (d.replay stmts s).bind (d.replay stmts') := by
  induction stmts generalizing s with
  | nil => rfl
  | cons stmt stmts ih =>
    rw [cons_append, Database.replay, Database.replay, bind_assoc]
    congr 1
    funext t
    exact ih t

lemma engine_replay_texts {stmts : List String} (h : d.Apart stmts) (c : Content σ) :
    d.engine.replay (stmts.map .text) c =
      (d.replay stmts c.schema).map fun s => { c with schema := s } := by
  induction stmts generalizing c with
  | nil => rfl
  | cons stmt stmts ih =>
    obtain ⟨hs, h⟩ := forall_mem_cons.mp h
    simp only [map_cons, Engine.replay, Database.replay, Database.engine, Database.exec, hs]
    cases d.alone stmt c.schema with
    | none => rfl
    | some s => exact ih h { c with schema := s }

variable {c c' : Content σ}

lemma engine_replay_concat {stmts : List String} {last : Statement} (ha : d.Apart stmts)
    (h : d.engine.replay (stmts.map .text++[last]) c = some c') :
    ∃ s, d.replay stmts c.schema = some s ∧ d.exec last { c with schema := s } = some c' := by
  rw [Transactions.replay_append, engine_replay_texts ha] at h
  cases hs : d.replay stmts c.schema with
  | none =>
    rw [hs] at h
    cases h
  | some s =>
    rw [hs] at h
    change (d.exec last { c with schema := s }).bind _ = some c' at h
    obtain ⟨c1,hc1,hn⟩ := bind_eq_some_iff.mp h
    cases hn
    exact ⟨s,rfl,hc1⟩

lemma exec_record {row : Row} (h : d.exec (.record row) c = some c') :
    ∃ rs, c.control = some rs ∧ row.version ∉ rs.map (·.version) ∧
      c' = { c with control := some (rs++[row]) } := by
  simp only [Database.exec] at h
  split at h
  · obtain ⟨rs,hrs,ho⟩ := bind_eq_some_iff.mp h
    split at ho
    · cases ho
    · rename_i ha
      cases ho
      refine ⟨rs,hrs,?_,rfl⟩
      simpa [List.any_eq_true] using ha
  · cases h

lemma exec_unrecord {v : ℤ} (h : d.exec (.unrecord v) c = some c') :
    ∃ rs, c.control = some rs ∧ c' = { c with control := some (rs.filter (·.version ≠ v)) } := by
  simp only [Database.exec] at h
  split at h
  · obtain ⟨rs,hrs,rfl⟩ := map_eq_some_iff.mp h
    exact ⟨rs,hrs,rfl⟩
  · cases h

lemma engine_atomic {m : Migrator} (ht : Transactional d m) : d.engine.Atomic := by
  intro s
  cases s with
  | text stmt => exact ht.ddl stmt
  | record row => rfl
  | unrecord v => rfl

lemma failedAt_applyError (mig : Migration) (n : ℕ) (p : Point) :
    failedAt (applyError mig n p) = some mig.version := by
  cases p with
  | start => rfl
  | statement i =>
    simp only [applyError]
    split <;> rfl
  | commit => rfl

lemma applyOne_cases {m : Migrator} (ht : Transactional d m) (w : World) {mig : Migration}
    (hm : mig ∈ m.migrations) (db : Db σ) :
    (∃ err, failedAt err = some mig.version ∧ applyOne d w mig db = (some err,db)) ∨
      ∃ s rs row, d.replay (splitStatements mig.sql) db.content.schema = some s ∧
        db.content.control = some rs ∧ row.version = mig.version ∧ row.checksum = mig.checksum ∧
        mig.version ∉ rs.map (·.version) ∧
        applyOne d w mig db = (none,⟨⟨s,some (rs++[row])⟩,db.journal++[.up mig.version]⟩) := by
  unfold applyOne
  rcases @transact_cases _ _ d.engine (fun p => w.fails (.transaction mig.version p))
    (upStatements w mig) db.content (engine_atomic ht) with ⟨p,ha⟩ | ⟨c,he,hok⟩
  · rw [ha]
    exact .inl ⟨_,failedAt_applyError mig _ p,rfl⟩
  · obtain ⟨s,hs,ho⟩ := engine_replay_concat (ht.up mig hm) he
    obtain ⟨rs,hrs,hfr,rfl⟩ := exec_record ho
    rw [hok]
    exact .inr ⟨s,rs,_,hs,hrs,rfl,rfl,hfr,rfl⟩

lemma rollBack_cases {m : Migrator} (ht : Transactional d m) (w : World) (mig : Migration)
    {file raw : String} (hr : readFile m.root file = some raw) (db : Db σ) :
    (∃ err, rollBack d w mig raw db = (.error err,db)) ∨
      ∃ s rs, d.replay (splitStatements raw) db.content.schema = some s ∧
        db.content.control = some rs ∧
        rollBack d w mig raw db = (.ok mig.version,
          ⟨⟨s,some (rs.filter (·.version ≠ mig.version))⟩,db.journal++[.down mig.version]⟩) := by
  unfold rollBack
  rcases @transact_cases _ _ d.engine (fun p => w.fails (.transaction mig.version p))
    (downStatements mig raw) db.content (engine_atomic ht) with ⟨p,ha⟩ | ⟨c,he,hok⟩
  · rw [ha]
    exact .inl ⟨_,rfl⟩
  · obtain ⟨s,hs,hu⟩ := engine_replay_concat (ht.down file raw hr) he
    obtain ⟨rs,hrs,rfl⟩ := exec_unrecord hu
    rw [hok]
    exact .inr ⟨s,rs,hs,hrs,rfl⟩

variable {m : Migrator} {s : σ} {db db' : Db σ}

structure Kept (d : Database σ) (m : Migrator) (s : σ) (db : Db σ) : Prop where
  schema : d.replay (db.journal.flatMap (script m)) s = some db.content.schema
  recorded : MigrationRuns.recorded db = standing db.journal
  nodup : (MigrationRuns.recorded db).Nodup
  checksums : ∀ row ∈ rows db, ∃ mig ∈ m.migrations,
    mig.version = row.version ∧ mig.checksum = row.checksum
  once : ∀ l v r, db.journal = l++ .up v::r → ¬Standing l v

lemma accounted_of_kept (h : Kept d m s db) : Accounted d m s db where
  recorded v := by rw [h.recorded, mem_standing]
  nodup := h.nodup
  schema := h.schema
  once := h.once

structure Same (db db' : Db σ) : Prop where
  rows : rows db' = rows db
  schema : db'.content.schema = db.content.schema
  journal : db'.journal = db.journal

lemma kept_same (h : Kept d m s db) (ha : Same db db') : Kept d m s db' where
  schema := by rw [ha.journal, ha.schema, h.schema]
  recorded := by rw [MigrationRuns.recorded, ha.rows, ha.journal, ← h.recorded]; rfl
  nodup := by
    rw [MigrationRuns.recorded, ha.rows]
    exact h.nodup
  checksums := by
    rw [ha.rows]
    exact h.checksums
  once := by
    rw [ha.journal]
    exact h.once

lemma prepare_cases (w : World) (db : Db σ) :
    (∃ err db', failedAt err = none ∧ Same db db' ∧ prepare w db = .error (err,db')) ∨
      ∃ db', Same db db' ∧ db'.content.control = some (rows db) ∧
        prepare w db = .ok ((rows db).map fun r => (r.version,r.checksum),db') := by
  unfold prepare ensureTable applied
  cases w.fails .ensure with
  | true => exact .inl ⟨.ensure,db,rfl,⟨rfl,rfl,rfl⟩,rfl⟩
  | false =>
    cases w.fails .select with
    | true =>
      exact .inl ⟨.select,{ db with content := { db.content with control := some (rows db) } },
        rfl,⟨rfl,rfl,rfl⟩,rfl⟩
    | false =>
      exact .inr ⟨{ db with content := { db.content with control := some (rows db) } },
        ⟨rfl,rfl,rfl⟩,rfl,rfl⟩

/-- A committed script, after which the control table has the rows `rs`. -/
lemma kept_concat (h : Kept d m s db) {x : Done} {t : σ} {rs : List Row}
    (hl : d.replay (script m x) db.content.schema = some t)
    (hv : rs.map (·.version) = Done.update (recorded db) x)
    (hc : ∀ row ∈ rs, row ∈ rows db ∨ ∃ mig ∈ m.migrations,
      mig.version = row.version ∧ mig.checksum = row.checksum)
    (ho : ∀ v, x = .up v → v ∉ recorded db) : Kept d m s ⟨⟨t,some rs⟩,db.journal++[x]⟩ where
  schema := by
    rw [flatMap_append, replay_append, h.schema]
    simpa using hl
  recorded := by
    rw [standing_concat, ← h.recorded]
    exact hv
  nodup := by
    change (rs.map (·.version)).Nodup
    rw [hv]
    cases x with
    | up v => exact nodup_append_comm.mp (nodup_cons.mpr ⟨ho v rfl,h.nodup⟩)
    | down v => exact h.nodup.filter _
  checksums row hr := (hc row hr).elim (h.checksums row) id
  once l v r hi := by
    rcases concat_split hi with ⟨-,rfl,hx⟩ | ⟨r',-,hj⟩
    · rw [← mem_standing, ← h.recorded]
      exact ho v hx
    · exact h.once l v r' hj

section

variable (hsorted : (m.migrations.map (·.version)).Pairwise (· < ·))
include hsorted

variable {mig : Migration} {rs : List Row}

lemma find_of_mem (hm : mig ∈ m.migrations) : find m mig.version = some mig :=
  UniqueRows.find_of_mem (hsorted.imp ne_of_lt) hm

lemma kept_up (h : Kept d m s db) (hm : mig ∈ m.migrations) {t : σ} {row : Row}
    (hl : d.replay (splitStatements mig.sql) db.content.schema = some t)
    (hrs : db.content.control = some rs) (he : row.version = mig.version)
    (hk : row.checksum = mig.checksum) (hfr : mig.version ∉ rs.map (·.version)) :
    Kept d m s ⟨⟨t,some (rs++[row])⟩,db.journal++[.up mig.version]⟩ := by
  have ho : rows db = rs := by rw [rows, hrs]; rfl
  refine kept_concat h ?_ ?_ (fun row' hr => ?_) ?_
  · simpa [script, find_of_mem hsorted hm] using hl
  · simp [recorded, ho, Done.update, he]
  · rcases mem_append.mp hr with hr | hr
    · exact .inl (ho ▸ hr)
    · obtain rfl := mem_singleton.mp hr
      exact .inr ⟨mig,hm,he.symm,hk.symm⟩
  · rintro v ⟨⟩
    rwa [recorded, ho]

lemma kept_down (h : Kept d m s db) (hm : mig ∈ m.migrations) {raw : String} {t : σ}
    (ha : readFile m.root (downName mig) = some raw)
    (hl : d.replay (splitStatements raw) db.content.schema = some t)
    (hrs : db.content.control = some rs) :
    Kept d m s ⟨⟨t,some (rs.filter (·.version ≠ mig.version))⟩,
      db.journal++[.down mig.version]⟩ := by
  have ho : rows db = rs := by rw [rows, hrs]; rfl
  refine kept_concat h ?_ ?_ (fun row hr => .inl (ho ▸ (mem_filter.mp hr).1)) nofun
  · simpa [script, find_of_mem hsorted hm, ha] using hl
  · rw [recorded, ho, Done.update, List.filter_map]
    rfl

end

end

section

variable {d : Database σ} {m : Migrator} {s : σ} {db : Db σ} {w : World}
variable {ms : List Migration} {base : List ℤ} {mig : Migration} {r : UpResult σ} {k : ℤ}

lemma mem_pendingIn {v : ℤ} : v ∈ pendingIn base ms ↔ v ∈ ms.map (·.version) ∧ v ∉ base := by
  simp [pendingIn]

lemma pendingIn_skip (h : mig.version ∈ base) : pendingIn base (mig::ms) = pendingIn base ms := by
  simp [pendingIn, h]

lemma pendingIn_take
    (h : mig.version ∉ base) : pendingIn base (mig::ms) = mig.version::pendingIn base ms := by
  simp [pendingIn, h]

structure LoopSpec (d : Database σ) (m : Migrator) (s : σ) (todo done : List ℤ) (db : Db σ)
    (r : UpResult σ) : Prop where
  kept : Kept d m s r.db
  progress : ∃ new tail, todo = new++tail ∧ r.done = done++new ∧
    r.db.journal = db.journal++new.map .up ∧ recorded r.db = recorded db++new ∧
    ((r.err = none ∧ tail = []) ∨ ∃ k rest, tail = k::rest ∧ r.err.bind failedAt = some k)

lemma lookup_applied (rs : List Row) (v : ℤ) :
    (rs.map fun r => (r.version,r.checksum)).lookup v =
      (rs.find? (·.version = v)).map (·.checksum) := by
  induction rs with
  | nil => rfl
  | cons r rs ih =>
    rw [map_cons, lookup_cons, find?_cons]
    by_cases hv : r.version = v
    · subst hv
      simp
    · rw [beq_eq_false_iff_ne.mpr (Ne.symm hv), decide_eq_false hv]
      exact ih

lemma lookup_applied_none (rs : List Row) (v : ℤ) :
    (rs.map fun r => (r.version,r.checksum)).lookup v = none ↔ v ∉ rs.map (·.version) := by
  rw [lookup_applied, map_eq_none_iff, find?_eq_none]
  simp

lemma executed_of_failed (h : r.err.bind failedAt = some k) : executed r = r.done++[k] := by
  rw [executed, h]
  rfl

lemma executed_of_ok (h : r.err = none) : executed r = r.done := by
  rw [executed, h]
  simp

lemma filter_lt_of_split {new rest : List ℤ} (h : (new++k::rest).Pairwise (· < ·)) :
    (new++k::rest).filter (· < k) = new := by
  rw [pairwise_append, pairwise_cons] at h
  obtain ⟨-,⟨he,-⟩,hn⟩ := h
  rw [filter_append, filter_eq_self.mpr, filter_eq_nil_iff.mpr, append_nil]
  · intro v hv
    rcases mem_cons.mp hv with rfl | hv
    · simp
    · simpa using (he v hv).le
  · intro v hv
    simpa using hn v hv k (.head _)

lemma progress_stopped {db' : Db σ} {err : MigrateError} (hat : failedAt err = none)
    (hm : Same db db') : Progress m db ⟨[],some err,db'⟩ := by
  have he : executed (⟨[],some err,db'⟩ : UpResult σ) = [] := by simp [executed, hat]
  constructor
  · rw [he]
    exact Pairwise.nil
  · rw [he]
    exact nil_prefix
  · simp [hm.journal]
  · simp [recorded, hm.rows]
  · intro k ha
    simp [hat] at ha
  · intro hok
    cases hok

lemma progress_finished (hn : (pending m db).Pairwise (· < ·)) (ho : r.done = pending m db)
    (hj : r.db.journal = db.journal++r.done.map .up) (he : recorded r.db = recorded db++r.done)
    (hok : r.err = none) : Progress m db r := by
  constructor
  · rw [executed_of_ok hok, ho]
    exact hn
  · rw [executed_of_ok hok, ho]
  · exact hj
  · exact he
  · intro k ha
    rw [hok] at ha
    cases ha
  · intro _
    exact ho

lemma progress_failed {rest : List ℤ} (hn : (pending m db).Pairwise (· < ·))
    (ho : pending m db = r.done++k::rest) (hj : r.db.journal = db.journal++r.done.map .up)
    (he : recorded r.db = recorded db++r.done) (ha : r.err.bind failedAt = some k) :
    Progress m db r := by
  have hi : executed r <+: pending m db := by
    rw [executed_of_failed ha, ho]
    exact ⟨rest,by simp⟩
  have hl := hn
  rw [ho] at hl
  constructor
  · exact hn.sublist hi.sublist
  · exact hi
  · exact hj
  · exact he
  · intro k' hk'
    rw [ha] at hk'
    cases hk'
    constructor
    · have hk : k ∈ pending m db := by
        rw [ho]
        simp
      rw [he, mem_append, not_or]
      refine ⟨(mem_pendingIn.mp hk).2,fun hne => ?_⟩
      exact lt_irrefl k ((pairwise_append.mp hl).2.2 k hne k (.head _))
    · rw [ho, filter_lt_of_split hl]
  · intro hok
    rw [hok] at ha
    cases ha

lemma mem_lastApplied {a : List (ℤ × String)} {mig : Migration}
    (h : lastApplied m a = some mig) : mig ∈ m.migrations := by
  have hm := mem_of_getLast? h
  exact (mem_filter.mp hm).1

lemma status_kept (w : World) (hk : Kept d m s db) : Kept d m s (status w m db).2 := by
  unfold status
  rcases prepare_cases w db with ⟨err,db',-,ha,he⟩ | ⟨db',ha,-,he⟩
  · rw [he]
    exact kept_same hk ha
  · rw [he]
    exact kept_same hk ha

section

variable (hsorted : (m.migrations.map (·.version)).Pairwise (· < ·)) (hk : Kept d m s db)
include hsorted hk

lemma lookup_applied_checksum (hm : mig ∈ m.migrations) {sum : String}
    (h : ((rows db).map fun r => (r.version,r.checksum)).lookup mig.version = some sum) :
    sum = mig.checksum := by
  rw [lookup_applied] at h
  obtain ⟨row,ho,rfl⟩ := map_eq_some_iff.mp h
  have he : row.version = mig.version := by simpa using find?_some ho
  obtain ⟨mig',hm',hv,hc⟩ := hk.checksums row (mem_of_find?_eq_some ho)
  have ha := find_of_mem hsorted hm'
  rw [hv, he, find_of_mem hsorted hm] at ha
  cases ha
  exact hc.symm

variable (ht : Transactional d m)
include ht

lemma upLoop_spec {a : List (ℤ × String)} {base : List ℤ} (hn : ∀ v, a.lookup v = none ↔ v ∉ base)
    (hsu : ∀ mig ∈ m.migrations, ∀ sum, a.lookup mig.version = some sum → sum = mig.checksum)
    {ms : List Migration} (hms : ∀ mig ∈ ms, mig ∈ m.migrations) (done : List ℤ) :
    LoopSpec d m s (pendingIn base ms) done db (upLoop d w a ms done db) := by
  induction ms generalizing done db with
  | nil => exact ⟨hk,[],[],rfl,by simp [upLoop],by simp [upLoop],by simp [upLoop],.inl ⟨rfl,rfl⟩⟩
  | cons mig ms ih =>
    have hm := hms mig (.head _)
    have hre : ∀ mig ∈ ms, mig ∈ m.migrations := fun x hx => hms x (.tail mig hx)
    rw [upLoop]
    cases hl : a.lookup mig.version with
    | some sum =>
      have hb : mig.version ∈ base := by
        by_contra hou
        rw [(hn _).mpr hou] at hl
        cases hl
      simp only [hsu mig hm sum hl, ne_eq, not_true_eq_false, if_false]
      rw [pendingIn_skip hb]
      exact ih hk hre done
    | none =>
      rw [pendingIn_take ((hn _).mp hl)]
      rcases applyOne_cases ht w hm db with ⟨err,hat,ha⟩ | ⟨t,rs,row,hy,hrs,he,hu,hfr,ha⟩
      · simp only [ha]
        exact ⟨hk,[],_,rfl,by simp,by simp,by simp,.inr ⟨_,_,rfl,hat⟩⟩
      · simp only [ha]
        have hk' := kept_up hsorted hk hm hy hrs he hu hfr
        obtain ⟨hke,new,tail,hto,hdo,hj,ho,hen⟩ := ih hk' hre (done++[mig.version])
        refine ⟨hke,mig.version::new,tail,by rw [hto]; rfl,by simpa using hdo,
          by simpa using hj,?_,hen⟩
        rw [ho]
        simp [recorded, rows, hrs, he]

lemma up_loopSpec :
    (∃ err db', failedAt err = none ∧ Same db db' ∧ up d w m db = ⟨[],some err,db'⟩) ∨
      LoopSpec d m s (pending m db) [] db (up d w m db) := by
  unfold up
  rcases prepare_cases w db with ⟨err,db',hat,ha,he⟩ | ⟨db',ha,hn,he⟩
  · rw [he]
    exact .inl ⟨err,db',hat,ha,rfl⟩
  · rw [he]
    obtain ⟨hke,new,tail,hto,hdo,hj,ho,hen⟩ :=
      upLoop_spec hsorted (kept_same hk ha) ht (lookup_applied_none (rows db))
        (fun mig hm sum => lookup_applied_checksum hsorted hk hm) (fun _ h => h) []
    rw [ha.journal] at hj
    rw [show recorded db' = recorded db by rw [recorded, ha.rows]; rfl] at ho
    exact .inr ⟨hke,new,tail,hto,hdo,hj,ho,hen⟩

lemma up_progress : Kept d m s (up d w m db).db ∧ Progress m db (up d w m db) := by
  have hn : (pending m db).Pairwise (· < ·) := hsorted.filter _
  rcases @up_loopSpec _ d m s db w hsorted hk ht with ⟨err,db',hat,hm,hu⟩ | hsp
  · rw [hu]
    exact ⟨kept_same hk hm,progress_stopped hat hm⟩
  · obtain ⟨hke,new,tail,ho,hdo,hj,he,hen⟩ := hsp
    rw [nil_append] at hdo
    rw [← hdo] at ho hj he
    refine ⟨hke,?_⟩
    rcases hen with ⟨hok,rfl⟩ | ⟨k,rest,rfl,ha⟩
    · rw [append_nil] at ho
      exact progress_finished hn ho.symm hj he hok
    · exact progress_failed hn ho hj he ha

lemma down_kept (w : World) : Kept d m s (down d w m db).2 := by
  unfold down
  rcases prepare_cases w db with ⟨err,db',-,ha,he⟩ | ⟨db',ha,-,he⟩
  · rw [he]
    exact kept_same hk ha
  · rw [he]
    have hk' := kept_same hk ha
    simp only
    split
    · exact hk'
    · rename_i mig hla
      split
      · exact hk'
      · rename_i raw hra
        split at hra
        · cases hra
        · rcases rollBack_cases ht w mig hra db' with ⟨err,hb⟩ | ⟨t,rs,hl,hrs,hb⟩
          · rw [hb]
            exact hk'
          · rw [hb]
            exact kept_down hsorted hk' (mem_lastApplied hla) hra hl hrs

lemma call_kept (c : Call) : Kept d m s (call d m db c) := by
  cases c with
  | up w => exact (up_progress hsorted hk ht).1
  | down w => exact down_kept hsorted hk ht w
  | status w => exact status_kept w hk

lemma run_kept (calls : List Call) : Kept d m s (run d m db calls) := by
  induction calls generalizing db with
  | nil => exact hk
  | cons c calls ih => exact ih (call_kept hsorted hk ht c)

end

lemma kept_start (c : Content σ) (he : c.control.getD [] = []) :
    Kept d m c.schema ⟨c,[]⟩ where
  schema := rfl
  recorded := by simp [recorded, rows, he, standing]
  nodup := by simp [recorded, rows, he]
  checksums := by simp [rows, he]
  once := by simp

lemma pending_of_finished {r : UpResult σ} (h : Progress m db r) (hok : r.err = none) :
    pending m r.db = [] := by
  rw [eq_nil_iff_forall_not_mem]
  intro v hv
  obtain ⟨hv,ho⟩ := mem_pendingIn.mp hv
  rw [h.recorded, h.finished hok, mem_append, not_or] at ho
  exact ho.2 (mem_pendingIn.mpr ⟨hv,ho.1⟩)

def remembering : Database (List String) where
  run stmt c := some { c with schema := c.schema++[stmt] }
  accepts p := hasPrefix p "$"
  ddl _ := false

lemma remembering_transactional (m : Migrator) : Transactional remembering m where
  accepts n := (hasPrefix_iff _ _).mpr ⟨toString n,rfl⟩
  ddl _ := rfl
  up _ _ _ _ _ := rfl
  down _ _ _ _ _ _ := rfl

def usersDir : List DirEntry :=
  [{ name := "0001_users.sql", content := some "CREATE TABLE users (id TEXT);\n-- done\n" },
    { name := "0001_users.down.sql", content := some "DROP TABLE users;" },
    { name := "0002_email.sql", content := some "ALTER TABLE users\n  ADD email TEXT;" }]

def usersMigrator : Migrator where
  root := usersDir
  migrations :=
    [⟨1,"users","0001_users.sql","CREATE TABLE users (id TEXT);\n-- done\n","49"⟩,
      ⟨2,"email","0002_email.sql","ALTER TABLE users\n  ADD email TEXT;","34"⟩]

def usersChecksum (raw : String) : String := if hasPrefix raw "C" then "49" else "34"

lemma usersMigrator_loaded : newMigrator usersChecksum usersDir = .ok usersMigrator :=
  newMigrator_of_ordered (by decide) (by decide)

def interrupted : World where
  fails op := op = .transaction 2 .commit

def clearingDir : List DirEntry :=
  [{ name := "0001_users.sql", content := some "CREATE TABLE users;" },
    { name := "0002_reset.sql", content := some "DELETE FROM schema_migrations;" }]

def clearingMigrator : Migrator where
  root := clearingDir
  migrations := [⟨1, "users", "0001_users.sql", "CREATE TABLE users;", "CREATE TABLE users;"⟩,
    ⟨2, "reset", "0002_reset.sql", "DELETE FROM schema_migrations;",
      "DELETE FROM schema_migrations;"⟩]

def clearing : Database (List String) where
  run stmt c := if stmt = "DELETE FROM schema_migrations" then some { c with control := some [] }
    else some { c with schema := c.schema++[stmt] }
  accepts p := hasPrefix p "$"
  ddl _ := false

end

end SdkApi.MigrationRuns
