import SdkApi.OutboxRelay

/-!
# Outbox passes with failing subjects

A pass reads the first hundred pending records. Those that fail stay at the
front, so each pass reaches only as many new records as the failing ones leave
room for.
-/

namespace SdkApi.OutboxProgress
open OutboxRecords OutboxRelay GuardedRuns UniqueRows List

/-- The pending records without the limit. -/
def backlog (t : OutboxTable) : List OutboxRecord :=
  (t.rows.filter fun r => r.status = "pending").mergeSort fun r s => r.id ≤ s.id

variable (fails : String → Bool) (t : OutboxTable)

def relay (rs : List OutboxRecord) : OutboxTable :=
  rs.foldl (fun t r => if fails r.subject then t else t.markPublished r.id) t

def relayOnce : OutboxTable := relay fails t t.pending

/-- The table after a number of passes. -/
def after : ℕ → OutboxTable
  | 0 => t
  | k+1 => relayOnce fails (after k)

/-- A pass is a run of one relay. -/
lemma relay_runs (rs : List OutboxRecord) (s : State) (h : s.relays 0 = .publishing rs) :
    ∃ es u, Runs s es u ∧ u.table = relay fails s.table rs ∧ u.relays 0 = .idle := by
  induction rs generalizing s with
  | nil => exact ⟨[], s, .nil s, rfl, h⟩
  | cons r rs ih =>
    rw [relay, foldl_cons, ← relay]
    cases hf : fails r.subject with
    | true =>
      obtain ⟨es, u, hr, hu⟩ := ih { goto s 0 (.publishing rs) with
        calls := s.calls++[⟨message r, false⟩] } (by simp [goto])
      exact ⟨.publish 0 false::es, u, .cons trivial (by simp [step, h]) hr, hu⟩
    | false =>
      obtain ⟨es, u, hr, hu⟩ := ih { goto s 0 (.publishing rs) with
        table := s.table.markPublished r.id
        calls := s.calls++[⟨message r, true⟩] } (by simp [goto])
      refine ⟨.publish 0 true::.mark 0 true::es, u, .cons trivial (by simp only [step, h]; rfl)
        (.cons trivial ?_ hr), hu⟩
      simp [step, goto]

lemma after_runs (k : ℕ) :
    ∃ es u, Runs (start t) es u ∧ u.table = after fails t k ∧ u.relays 0 = .idle := by
  induction k with
  | zero => exact ⟨[], _, .nil _, rfl, rfl⟩
  | succ k ih =>
    obtain ⟨es, s, hs, ht, hi⟩ := ih
    obtain ⟨fs, u, hr, hu, hn⟩ := relay_runs fails s.table.pending
      (goto s 0 (.publishing s.table.pending)) (by simp [goto])
    have hp : step s (.poll 0 true) = some (goto s 0 (.publishing s.table.pending)) := by
      simp [step, hi]
    refine ⟨es++.poll 0 true::fs, u, run_append hs (.cons trivial hp hr), ?_, hn⟩
    rw [hu, after, relayOnce, ← ht]
    rfl

def publish (r : OutboxRecord) : OutboxRecord := { r with status := "published" }

lemma publish_status (r : OutboxRecord) : (publish r).status = "published" := rfl

/-- The number of records of the first backlog that some of `k` passes has tried. -/
def reach (rs : List OutboxRecord) : ℕ → ℕ
  | 0 => 0
  | k+1 => reach rs k+(100-(rs.take (reach rs k)).countP fun r => fails r.subject)

def sent (rs : List OutboxRecord) (r : OutboxRecord) : Bool :=
  rs.any fun s => !fails s.subject && s.id = r.id

lemma relay_rows (rs : List OutboxRecord) : (relay fails t rs).rows =
    t.rows.map fun r => if sent fails rs r then publish r else r := by
  induction rs generalizing t with
  | nil => simp [relay, sent]
  | cons s rs ih =>
    rw [relay, foldl_cons, ← relay, ih]
    cases hs : fails s.subject
    case true => simp [sent, hs]
    case false =>
      rw [if_neg Bool.false_ne_true, OutboxTable.markPublished, map_map]
      refine map_congr_left fun r _ => ?_
      by_cases hid : r.id = s.id
      · simp [sent, published, publish, hs, hid]
      · simp [sent, published, hid, Ne.symm hid]

lemma mem_backlog {r : OutboxRecord} : r ∈ backlog t ↔ r ∈ t.rows ∧ r.status = "pending" := by
  simp [backlog]

lemma backlog_sorted : (backlog t).Pairwise fun r s => r.id ≤ s.id := by
  have h := @List.pairwise_mergeSort _ (fun r s : OutboxRecord => decide (r.id ≤ s.id))
    (by simpa using fun a b c => Int.le_trans) (by simpa using fun a b => Int.le_total _ _)
    (t.rows.filter fun r => r.status = "pending")
  simpa [backlog] using h

lemma row_unique {r s : OutboxRecord} (hr : r ∈ t.rows) (hs : s ∈ t.rows) (h : r.id = s.id) :
    r = s :=
  inj_on_of_nodup_map t.unique hr hs h

lemma backlog_nodup : (backlog t).Nodup :=
  (mergeSort_perm _ _).nodup_iff.mpr (t.unique.of_map.filter _)

lemma backlog_relayOnce : backlog (relayOnce fails t) =
    ((backlog t).take 100).filter (fun r => fails r.subject)++(backlog t).drop 100 := by
  have hk : ((backlog t).take 100).filter (fun r => fails r.subject)++(backlog t).drop 100 =
      (backlog t).filter fun r => !sent fails t.pending r := by
    have hn := backlog_nodup t
    rw [← take_append_drop 100 (backlog t)] at hn
    conv_rhs => rw [← take_append_drop 100 (backlog t), filter_append]
    have hm : ∀ r ∈ backlog t, sent fails t.pending r ↔
        r ∈ (backlog t).take 100 ∧ fails r.subject = false := by
      intro r hr
      simp only [sent, any_eq_true, Bool.and_eq_true, Bool.not_eq_true', decide_eq_true_eq]
      refine ⟨?_,fun h => ⟨r,h.1,h.2,rfl⟩⟩
      rintro ⟨s,hs,ha,hid⟩
      have hsr := row_unique t ((mem_backlog t).mp (mem_of_mem_take hs)).1
        ((mem_backlog t).mp hr).1 hid
      exact hsr ▸ ⟨hs,ha⟩
    congr 1
    · refine filter_congr fun r hr => ?_
      have h := hm r (mem_of_mem_take hr)
      grind
    · refine (filter_eq_self.mpr fun r hr => ?_).symm
      have hnt := fun h => (nodup_append.mp hn).2.2 r h r hr rfl
      have h := hm r (mem_of_mem_drop hr)
      grind
  have hp : (backlog (relayOnce fails t)).Perm
      ((backlog t).filter fun r => !sent fails t.pending r) := by
    refine (mergeSort_perm _ _).trans (.trans ?_ ((mergeSort_perm _ _).symm.filter _))
    rw [relayOnce, relay_rows, filter_filter]
    refine Perm.of_eq ?_
    induction t.rows with
    | nil => rfl
    | cons r rs ih =>
      cases h : sent fails t.pending r <;> simp [h, publish_status, ih, filter_cons]
  have hr : ∀ r ∈ (backlog t).filter fun r => !sent fails t.pending r, r ∈ t.rows := fun r hr =>
    ((mem_backlog t).mp (mem_of_mem_filter hr)).1
  rw [hk]
  exact hp.eq_of_pairwise (fun r s hl hs ha hb => row_unique t (hr r (hp.subset hl)) (hr s hs)
    (Int.le_antisymm ha hb)) (backlog_sorted _) ((backlog_sorted t).filter _)

lemma backlog_after (k : ℕ) : backlog (after fails t k) =
    ((backlog t).take (reach fails (backlog t) k)).filter (fun r => fails r.subject)++
      (backlog t).drop (reach fails (backlog t) k) := by
  induction k with
  | zero => simp [after, reach]
  | succ k ih =>
    rw [after, backlog_relayOnce, ih, reach, countP_eq_length_filter]
    generalize reach fails (backlog t) k = n
    rw [take_add, filter_append, ← drop_drop]
    generalize (backlog t).drop n = later
    have ha : ∀ r ∈ ((backlog t).take n).filter (fun r => fails r.subject),
        fails r.subject := fun r hr => (mem_filter.mp hr).2
    generalize ((backlog t).take n).filter (fun r => fails r.subject) = failed at ha ⊢
    rw [take_append, drop_append, filter_append,
      filter_eq_self.mpr fun r hr => ha r (mem_of_mem_take hr)]
    -- either the failed records leave room for later ones, or they fill the pass
    rcases Nat.le_total failed.length 100 with hl | hl
    · simp [take_of_length_le hl, drop_of_length_le hl]
    · simp [Nat.sub_eq_zero_of_le hl, ← append_assoc]

lemma row_after {r : OutboxRecord} (h : r ∈ t.rows) (k : ℕ) :
    r ∈ (after fails t k).rows ∨ publish r ∈ (after fails t k).rows := by
  induction k with
  | zero => exact .inl h
  | succ k ih =>
    rw [after, relayOnce, relay_rows]
    rcases ih with ih | ih
    · cases hs : sent fails (after fails t k).pending r
      · exact .inl (mem_map.mpr ⟨r,ih,by simp [hs]⟩)
      · exact .inr (mem_map.mpr ⟨r,ih,by simp [hs]⟩)
    · exact .inr (mem_map.mpr ⟨publish r,ih,ite_self _⟩)

lemma published_iff {r : OutboxRecord} (h : r ∈ backlog t) (hok : fails r.subject = false)
    (k : ℕ) : publish r ∈ (after fails t k).rows ↔
      r ∉ (backlog t).drop (reach fails (backlog t) k) := by
  obtain ⟨ho,he⟩ := (mem_backlog t).mp h
  have hl : r ∈ (after fails t k).rows ↔
      r ∈ (backlog t).drop (reach fails (backlog t) k) := by
    have hm := mem_backlog (after fails t k) (r := r)
    rw [backlog_after] at hm
    simpa [hok, he] using hm.symm
  rw [← hl]
  refine ⟨fun hu hr => ?_,(row_after fails t ho k).resolve_left⟩
  have heq := congrArg OutboxRecord.status (row_unique _ hu hr rfl)
  simp [publish_status, he] at heq

/-- The passes are a run of a relay. Every record of the other subjects is published
after `k` of them exactly if only failing ones lie beyond the reach of the passes. -/
theorem all_published_iff (k : ℕ) :
    (∃ es u, Runs (start t) es u ∧ u.table = after fails t k ∧ u.relays 0 = .idle) ∧
    ((∀ r ∈ backlog t, fails r.subject = false → publish r ∈ (after fails t k).rows) ↔
      ∀ r ∈ (backlog t).drop (reach fails (backlog t) k), fails r.subject) := by
  refine ⟨after_runs fails t k, fun h r hr => ?_,
    fun h r hr hok => (published_iff fails t hr hok k).mpr fun hm => ?_⟩
  · by_contra ha
    have hok := Bool.eq_false_iff.mpr ha
    have hb := mem_of_mem_drop hr
    exact (published_iff fails t hb hok k).mp (h r hb hok) hr
  · simp [h r hm] at hok

def bad (i : ℕ) : OutboxRecord := ⟨i,"bad",[],"pending",""⟩

def good : OutboxRecord := ⟨100,"good",[],"pending",""⟩

def blocked : OutboxTable := ⟨(List.range 100).map bad++[good],by decide +kernel⟩

/-- A hundred records that fail block the one behind them. -/
theorem good_blocked : (backlog blocked).length = 101 ∧
    publish good ∉ (after (· = "bad") blocked ((101+99)/100)).rows := by
  have hb : backlog blocked = (range 100).map bad++[good] := by
    rw [backlog, filter_eq_self.mpr (by decide +kernel)]
    exact mergeSort_of_pairwise (by decide +kernel)
  have hm : good ∈ backlog blocked := by simp [hb]
  refine ⟨by simp [hb],fun h => (published_iff _ blocked hm (by decide) _).mp h ?_⟩
  rw [hb]
  decide +kernel

end SdkApi.OutboxProgress
