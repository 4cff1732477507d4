import SdkApi.OutboxRelay

/-!
# The outbox and the transactions that write to it

A business transaction calls `InsertOutbox` between its begin and its end,
while relays go on. The insert runs on a connection of the pool and not on
that of the transaction: the row is there at once, and neither a commit nor a
rollback changes the table. The state keeps for every stored event the
transaction that inserted it.
-/

namespace SdkApi.OutboxAtomicity
open GuardedRuns OutboxRecords OutboxRelay List Function

inductive Progress where
  | none
  | active
  | committed
  | rolledBack
  deriving DecidableEq

structure State where
  box : OutboxRelay.State
  txs : ℕ → Progress
  owned : List (ℕ × Message)

inductive Event where
  | begin (tx : ℕ)
  | insert (tx : ℕ) (subject : String) (payload : Bytes) (answer : Option (ℤ × String))
  | commit (tx : ℕ)
  | rollback (tx : ℕ)
  | relay (e : OutboxRelay.Event)

def advance (s : State) (tx : ℕ) (old new : Progress) : Option State :=
  if s.txs tx = old then some { s with txs := Function.update s.txs tx new } else none

def added (before after : OutboxRelay.State) : List Message :=
  after.inserts.drop before.inserts.length

def step (s : State) : Event → Option State
  | .begin tx => advance s tx .none .active
  | .insert tx subject payload answer =>
    if s.txs tx = .active then
      let box := insertOutbox subject payload answer s.box
      some { s with box := box, owned := s.owned++(added s.box box).map (tx,·) }
    else none
  | .commit tx => advance s tx .active .committed
  | .rollback tx => advance s tx .active .rolledBack
  | .relay e => (OutboxRelay.step s.box e).map fun box => { s with box := box }

abbrev Runs (s : State) (es : List Event) (u : State) : Prop :=
  Run (fun s e t => step s e = some t) (fun _ _ => True) s es u

def start (content : OutboxTable) : State := ⟨OutboxRelay.start content,fun _ => .none,[]⟩

/-- Events are stored exactly when the transaction committed. -/
structure AtomicFor (u : State) (tx : ℕ) : Prop where
  stored : ∀ m, (tx,m) ∈ u.owned → (Stored u.box m ↔ u.txs tx = .committed)
  published : u.txs tx = .rolledBack → ∀ m, (tx,m) ∈ u.owned → ∀ c ∈ u.box.calls, c.message ≠ m

def Atomic (u : State) : Prop :=
  ∀ tx, u.txs tx = .committed ∨ u.txs tx = .rolledBack → AtomicFor u tx

structure Inv (content : OutboxTable) (s : State) : Prop where
  sound : Sound content s.box
  owned : ∀ tx m, (tx,m) ∈ s.owned → m ∈ s.box.inserts

section

variable {content : OutboxTable} {s t : State} {e : OutboxRelay.Event}

lemma inv_start : Inv content (start content) := ⟨sound_start,nofun⟩

lemma inserts_subset {b b' : OutboxRelay.State}
    (h : OutboxRelay.step b e = some b') : b.inserts ⊆ b'.inserts := by
  rcases step_cases h with ⟨subject,payload,answer,rfl⟩ | ⟨i,rest,-,rfl⟩ |
    ⟨i,r,rest,ok,-,rfl⟩ | ⟨i,r,rest,-,rfl | rfl⟩
  · rcases insertOutbox_cases subject payload answer b with he | ⟨r,table,-,-,-,-,he⟩
    · rw [he]
      exact Subset.refl _
    · rw [he]
      exact subset_append_left _ _
  all_goals exact Subset.refl _

lemma Inv.box (h : Inv content s) {b : OutboxRelay.State}
    (hb : OutboxRelay.step s.box e = some b) : Inv content { s with box := b } where
  sound := step_sound h.sound hb
  owned tx m hm := inserts_subset hb (h.owned tx m hm)

lemma Inv.advance (h : Inv content s) {tx : ℕ} {old new : Progress}
    (hstep : advance s tx old new = some t) : Inv content t := by
  rw [OutboxAtomicity.advance] at hstep
  split at hstep <;> cases hstep
  exact ⟨h.sound,h.owned⟩

lemma step_inv (h : Inv content s) {e : Event} (hstep : step s e = some t) : Inv content t := by
  cases e with
  | begin tx | commit tx | rollback tx => exact h.advance hstep
  | insert tx subject payload answer =>
    simp only [step] at hstep
    split at hstep <;> cases hstep
    have ho : Inv content { s with box := insertOutbox subject payload answer s.box } :=
      h.box (e := .insert subject payload answer) rfl
    refine ⟨ho.sound,fun x m hm => ?_⟩
    rcases mem_append.mp hm with hm | hm
    · exact ho.owned x m hm
    · obtain ⟨m',hm',he⟩ := mem_map.mp hm
      cases he
      exact mem_of_mem_drop hm'
  | relay e =>
    obtain ⟨b,hb,rfl⟩ := Option.map_eq_some_iff.mp hstep
    exact h.box hb

end

/-- The outbox is atomic exactly in the runs in which no transaction that rolled back has
stored an event. -/
theorem atomic_iff_no_stored_rollback (content : OutboxTable) {es : List Event} {u : State}
    (h : Runs (start content) es u) :
    Atomic u ↔ ∀ tx, u.txs tx = .rolledBack → ∀ m, (tx,m) ∉ u.owned := by
  have hi := run_invariant (Inv content) (fun _ _ _ h _ => step_inv h) h inv_start
  have ht : ∀ tx m, (tx,m) ∈ u.owned → Stored u.box m := fun tx m hm =>
    hi.sound.inserts m (hi.owned tx m hm)
  constructor
  · intro ha tx hl m hm
    have ho := ((ha tx (.inr hl)).stored m hm).mp (ht tx m hm)
    rw [hl] at ho
    cases ho
  · intro he tx hn
    rcases hn with ho | hl
    · refine ⟨fun m hm => ⟨fun _ => ho,fun _ => ht tx m hm⟩,fun hl => ?_⟩
      rw [ho] at hl
      cases hl
    · exact ⟨fun m hm => absurd hm (he tx hl m),
        fun _ m hm => absurd hm (he tx hl m)⟩

theorem atomic_iff_no_stored_rollback_sample : ∃ u,
    Runs (start OutboxTable.empty) [.begin 0,
      .insert 0 "orders.created" [123,125] (some (1,"2026-01-01")),.commit 0] u ∧
    u.owned = [(0,message sampleRecord)] ∧ Atomic u := by
  have hrun : Runs (start OutboxTable.empty) [.begin 0,
      .insert 0 "orders.created" [123,125] (some (1,"2026-01-01")),.commit 0] _ :=
    .cons trivial rfl (.cons trivial rfl (.cons trivial rfl (.nil _)))
  refine ⟨_,hrun,rfl,(atomic_iff_no_stored_rollback _ hrun).mpr fun tx ho => ?_⟩
  by_cases ht : tx = 0 <;> simp [start, ht] at ho

/-- The transaction rolls back, and its event is stored and published. -/
theorem rolled_back_event_published : ∃ u,
    Runs (start OutboxTable.empty) [.begin 0,
      .insert 0 "orders.created" [123,125] (some (1,"2026-01-01")),.rollback 0,
      .relay (.poll 0 true),.relay (.publish 0 true),.relay (.mark 0 true)] u ∧
    u.txs 0 = .rolledBack ∧ u.owned = [(0,message sampleRecord)] ∧
    u.box.table.rows = [{ sampleRecord with status := "published" }] ∧
    u.box.calls = [⟨message sampleRecord,true⟩] ∧ ¬Atomic u := by
  have hl : step ⟨⟨sampleTable,[message sampleRecord],[],fun _ => .idle⟩,
      update (update (fun _ => .none) 0 .active) 0 .rolledBack,
      [(0,message sampleRecord)]⟩ (.relay (.poll 0 true)) =
      some ⟨goto ⟨sampleTable,[message sampleRecord],[],fun _ => .idle⟩ 0
        (.publishing [sampleRecord]),
        update (update (fun _ => .none) 0 .active) 0 .rolledBack,
        [(0,message sampleRecord)]⟩ := by
    rw [← sampleTable_pending]
    rfl
  have hrun : Runs (start OutboxTable.empty) [.begin 0,
      .insert 0 "orders.created" [123,125] (some (1,"2026-01-01")),.rollback 0,
      .relay (.poll 0 true),.relay (.publish 0 true),.relay (.mark 0 true)] _ :=
    .cons trivial rfl (.cons trivial rfl (.cons trivial rfl (.cons trivial hl
      (.cons trivial rfl (.cons trivial rfl (.nil _))))))
  refine ⟨_,hrun,rfl,rfl,rfl,rfl,fun ha => ?_⟩
  have ht := (ha 0 (.inr rfl)).stored (message sampleRecord) (mem_singleton.mpr rfl)
  have ho := ht.mp ⟨_,mem_singleton.mpr rfl,rfl⟩
  cases ho

end SdkApi.OutboxAtomicity
