import SdkApi.TableQueries
import SdkApi.UniqueRows

/-!
# The records of the outbox

The records of the `_outbox` table and the three statements that the outbox
runs on it: the query for pending records, the insert and the update of a
status. Each is a function of the records. What an insert gets for the columns
it leaves out, and whether a statement fails, is decided by the database.
-/

namespace SdkApi.OutboxRecords
open SqlEngine Tables TableQueries UniqueRows

abbrev Bytes := List UInt8

structure OutboxRecord where
  id : ℤ
  subject : String
  payload : Bytes
  status : String
  createdAt : String
  deriving DecidableEq

structure OutboxTable where
  rows : List OutboxRecord
  unique : KeysUnique OutboxRecord.id rows

/-- The table that `AutoInit` creates. -/
def OutboxTable.empty : OutboxTable := ⟨[],List.nodup_nil⟩

/-- `WHERE status = 'pending' ORDER BY id LIMIT 100` -/
def OutboxTable.pending (t : OutboxTable) : List OutboxRecord :=
  ((t.rows.filter fun r => r.status = "pending").mergeSort fun r s => r.id ≤ s.id).take 100

/-- The database knows the columns, reads a record from its row and answers. -/
structure Holds {V A : Type} (b : Backend V A) (info : TableInfo) (row : OutboxRecord → Row V) :
    Prop where
  columns : ∀ x ∈ ["id", "status"], validColumn info x = true ∧ b.known x = true
  status : ∀ r, b.satisfies [eqCond "status" (b.text "pending")] (row r) = (r.status = "pending")
  order : ∀ r s, b.le ["id"] (row r) (row s) = decide (r.id ≤ s.id)
  answers : ∀ stmt tbl, b.fails stmt tbl = false

/-- The query of `relayOnce` returns the pending records. -/
theorem queryWhere_pending {V A : Type} {b : Backend V A} {info : TableInfo}
    {row : OutboxRecord → Row V} (h : Holds b info row) (t : OutboxTable) :
    queryWhere b info [("status", b.text "pending")] "id" 100 0 (t.rows.map row) =
      (t.rows.map row, .ok (t.pending.map row)) := by
  have hi := List.perm_singleton.mp (b.iterate_perm [("status", b.text "pending")])
  have hw : whereConds b [("status", b.text "pending")] = [eqCond "status" (b.text "pending")] := by
    rw [whereConds, hi]
    rfl
  have hid := h.columns "id" (by simp)
  have hst := h.columns "status" (by simp)
  have hq := @exec_known V A b.toEngine (.select [eqCond "status" (b.text "pending")] ["id"]
    (some 100) none) (t.rows.map row) (by simp [Stmt.idents, eqCond, hid, hst])
  rw [h.answers] at hq
  have hm : ((t.rows.map row).filter (b.satisfies [eqCond "status" (b.text "pending")])).mergeSort
      (b.le ["id"]) = ((t.rows.filter fun r => r.status = "pending").mergeSort
        fun r s => r.id ≤ s.id).map row := by
    rw [List.filter_map, List.map_mergeSort fun r _ s _ => (h.order r s).symm]
    congr 2
    exact List.filter_congr fun r _ => by simp [← h.status r]
  have hp : positive 100 = some 100 ∧ positive 0 = none := by decide
  simp [queryWhere, offsetOrder, hid.1, hst.1, firstInvalid, hi, hw, query, hp, hq, rowsOf,
    Engine.meaning, hm, page, OutboxTable.pending]

def published (id : ℤ) (r : OutboxRecord) : OutboxRecord :=
  if r.id = id then { r with status := "published" } else r

lemma published_id (id : ℤ) (r : OutboxRecord) : (published id r).id = r.id := by
  rw [published]
  split_ifs <;> rfl

/-- `UPDATE _outbox SET status = 'published' WHERE id = $1` -/
def OutboxTable.markPublished (id : ℤ) (t : OutboxTable) : OutboxTable where
  rows := t.rows.map (published id)
  unique := (unique_map (published_id id) _).mpr t.unique

/-- The primary key refuses an id that is in use. -/
def OutboxTable.insertPending (subject : String) (payload : Bytes) (id : ℤ) (now : String)
    (t : OutboxTable) : OutboxTable :=
  if h : find OutboxRecord.id id t.rows = none then
    ⟨t.rows++[⟨id,subject,payload,"pending",now⟩],unique_append_singleton t.unique h⟩
  else t

end SdkApi.OutboxRecords
