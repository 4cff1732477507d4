import SdkApi.GuardedRuns
import SdkApi.OutboxRecords

/-!
# The outbox relay

Any number of relays work on one outbox. A run of `relayOnce` is taken apart
at its calls: the query, one publish after the other, and the update after a
publish that succeeded. Between two calls of a relay inserts and the other
relays go on, and every call may fail. A relay that crashes forgets the
records it has read. The state keeps the record of all inserts and of all
calls of the broker.
-/

namespace SdkApi.OutboxRelay
open GuardedRuns OutboxRecords UniqueRows List Function

structure Message where
  id : ℤ
  subject : String
  payload : Bytes
  deriving DecidableEq

def message (r : OutboxRecord) : Message := ⟨r.id,r.subject,r.payload⟩

/-- A call of `Publish` and whether it returned without an error. -/
structure Call where
  message : Message
  ok : Bool

inductive Phase where
  | publishing (rest : List OutboxRecord)
  | marking (record : OutboxRecord) (rest : List OutboxRecord)
  deriving DecidableEq

def Phase.idle : Phase := .publishing []

def Phase.rest : Phase → List OutboxRecord
  | .publishing rest => rest
  | .marking _ rest => rest

structure State where
  table : OutboxTable
  inserts : List Message
  calls : List Call
  relays : ℕ → Phase

inductive Event where
  | insert (subject : String) (payload : Bytes) (answer : Option (ℤ × String))
  | poll (relay : ℕ) (ok : Bool)
  | publish (relay : ℕ) (ok : Bool)
  | mark (relay : ℕ) (applied : Bool)
  | crash (relay : ℕ)
  deriving DecidableEq

def insertOutbox (subject : String) (payload : Bytes) (answer : Option (ℤ × String)) (s : State) :
    State :=
  match answer with
  | none => s
  | some (id,now) =>
    if find OutboxRecord.id id s.table.rows = none then
      { s with
        table := s.table.insertPending subject payload id now
        inserts := s.inserts++[⟨id,subject,payload⟩] }
    else s

def goto (s : State) (relay : ℕ) (p : Phase) : State :=
  { s with relays := Function.update s.relays relay p }

def step (s : State) : Event → Option State
  | .insert subject payload answer => some (insertOutbox subject payload answer s)
  | .poll i ok =>
    if s.relays i = .idle then
      some (goto s i (if ok then .publishing s.table.pending else .idle))
    else none
  | .publish i ok =>
    match s.relays i with
    | .publishing (r::rest) =>
      some { goto s i (if ok then .marking r rest else .publishing rest) with
        calls := s.calls++[⟨message r,ok⟩] }
    | _ => none
  | .mark i applied =>
    match s.relays i with
    | .marking r rest =>
      some { goto s i (.publishing rest) with
        table := if applied then s.table.markPublished r.id else s.table }
    | _ => none
  | .crash i => some (goto s i .idle)

abbrev Runs (s : State) (es : List Event) (u : State) : Prop :=
  Run (fun s e t => step s e = some t) (fun _ _ => True) s es u

def start (content : OutboxTable) : State := ⟨content,[],[],fun _ => .idle⟩

def Sent (s : State) (id : ℤ) : Prop := ∃ c ∈ s.calls, c.message.id = id ∧ c.ok = true

def Stored (s : State) (m : Message) : Prop := ∃ r ∈ s.table.rows, message r = m

structure Sound (content : OutboxTable) (s : State) : Prop where
  origin : ∀ r ∈ s.table.rows, (∃ c ∈ content.rows, message c = message r) ∨ message r ∈ s.inserts
  status : ∀ r ∈ s.table.rows,
    r ∈ content.rows ∨ r.status = "pending" ∨ (r.status = "published" ∧ Sent s r.id)
  inserts : ∀ m ∈ s.inserts, Stored s m
  calls : ∀ c ∈ s.calls, Stored s c.message
  rest : ∀ i, ∀ r ∈ (s.relays i).rest, Stored s (message r)
  marking : ∀ i r rest, s.relays i = .marking r rest → Sent s r.id

structure Later (s t : State) : Prop where
  calls : s.calls ⊆ t.calls
  kept : ∀ r ∈ s.table.rows, ∃ r' ∈ t.table.rows,
    { r' with status := r.status } = r ∧ (r' = r ∨ Sent t r.id)

section

variable {content : OutboxTable} {s t : State}

lemma message_published (id : ℤ) (r : OutboxRecord) : message (published id r) = message r := by
  rw [published]
  split_ifs <;> rfl

lemma Stored.published {m : Message} (h : Stored s m) (id : ℤ) :
    Stored { s with table := s.table.markPublished id } m := by
  obtain ⟨r,hr,rfl⟩ := h
  exact ⟨_,mem_map_of_mem hr,message_published id r⟩

lemma sound_start : Sound content (start content) where
  origin r hr := .inl ⟨r,hr,rfl⟩
  status _ hr := .inl hr
  inserts := nofun
  calls := nofun
  rest _ := nofun
  marking _ _ _ := nofun

section

variable (h : Sound content s)
include h

lemma Sound.goto (i : ℕ) {p : Phase} (he : ∀ r ∈ p.rest, Stored s (message r))
    (hm : ∀ r rest, p = .marking r rest → Sent s r.id) : Sound content (goto s i p) where
  origin := h.origin
  status := h.status
  inserts := h.inserts
  calls := h.calls
  rest j r hr := by
    rcases eq_or_ne j i with rfl | hn
    · simp only [OutboxRelay.goto, update_self] at hr
      exact he r hr
    · simp only [OutboxRelay.goto, update_of_ne hn] at hr
      exact h.rest j r hr
  marking j r rest hj := by
    rcases eq_or_ne j i with rfl | hn
    · simp only [OutboxRelay.goto, update_self] at hj
      exact hm r rest hj
    · simp only [OutboxRelay.goto, update_of_ne hn] at hj
      exact h.marking j r rest hj

lemma Sound.call {m : Message} (hm : Stored s m) (ok : Bool) :
    Sound content { s with calls := s.calls++[⟨m,ok⟩] } := by
  have he : ∀ id, Sent s id → Sent { s with calls := s.calls++[⟨m,ok⟩] } id := by
    rintro id ⟨c,hc,hid⟩
    exact ⟨c,mem_append_left _ hc,hid⟩
  refine ⟨h.origin,fun r hr => ?_,h.inserts,fun c hc => ?_,h.rest,fun i r rest hi => ?_⟩
  · rcases h.status r hr with hr | hr | ⟨hr,hid⟩
    · exact .inl hr
    · exact .inr (.inl hr)
    · exact .inr (.inr ⟨hr,he _ hid⟩)
  · rcases mem_append.mp hc with hc | hc
    · exact h.calls c hc
    · rw [mem_singleton.mp hc]
      exact hm
  · exact he _ (h.marking i r rest hi)

lemma Sound.mark {id : ℤ} (hi : Sent s id) :
    Sound content { s with table := s.table.markPublished id } where
  origin r hr := by
    obtain ⟨x,hx,rfl⟩ := mem_map.mp hr
    rw [message_published]
    exact h.origin x hx
  status r hr := by
    obtain ⟨x,hx,rfl⟩ := mem_map.mp hr
    by_cases ha : x.id = id
    · rw [published, if_pos ha, ha]
      exact .inr (.inr ⟨rfl,hi⟩)
    · rw [published, if_neg ha]
      exact h.status x hx
  inserts m hm := (h.inserts m hm).published id
  calls c hc := (h.calls c hc).published id
  rest i r hr := (h.rest i r hr).published id
  marking := h.marking

lemma Sound.insert {r : OutboxRecord} {table : OutboxTable}
    (hu : r.status = "pending") (ho : table.rows = s.table.rows++[r]) :
    Sound content { s with table := table, inserts := s.inserts++[message r] } := by
  have ht : ∀ m, Stored s m →
      Stored { s with table := table, inserts := s.inserts++[message r] } m := by
    rintro m ⟨x,hx,hm⟩
    exact ⟨x,ho ▸ mem_append_left _ hx,hm⟩
  have ha : ∀ x ∈ table.rows, x ∈ s.table.rows ∨ x = r := by
    intro x hx
    rw [ho] at hx
    exact (mem_append.mp hx).imp_right mem_singleton.mp
  refine ⟨fun x hx => ?_,fun x hx => ?_,fun m hm => ?_,fun c hc => ht _ (h.calls c hc),
    fun i x hx => ht _ (h.rest i x hx),h.marking⟩
  · rcases ha x hx with hx | rfl
    · exact (h.origin x hx).imp_right (mem_append_left _)
    · exact .inr (by simp)
  · rcases ha x hx with hx | rfl
    · exact h.status x hx
    · exact .inr (.inl hu)
  · rcases mem_append.mp hm with hm | hm
    · exact ht m (h.inserts m hm)
    · rw [mem_singleton.mp hm]
      exact ⟨r,by simp [ho],rfl⟩

end

lemma pending_stored {r : OutboxRecord} (h : r ∈ s.table.pending) : r ∈ s.table.rows := by
  have hr := mem_of_mem_take h
  rw [mem_mergeSort, mem_filter] at hr
  exact hr.1

lemma insertOutbox_cases (subject : String) (payload : Bytes) (answer : Option (ℤ × String))
    (s : State) : insertOutbox subject payload answer s = s ∨
      ∃ (r : OutboxRecord) (table : OutboxTable), r.status = "pending" ∧ r.subject = subject ∧
        r.payload = payload ∧ table.rows = s.table.rows++[r] ∧
        insertOutbox subject payload answer s =
          { s with table := table, inserts := s.inserts++[message r] } := by
  cases answer with
  | none => exact .inl rfl
  | some a =>
    obtain ⟨id,now⟩ := a
    by_cases hi : find OutboxRecord.id id s.table.rows = none
    · refine .inr ⟨⟨id,subject,payload,"pending",now⟩,_,rfl,rfl,rfl,?_,if_pos hi⟩
      rw [OutboxTable.insertPending, dif_pos hi]
    · exact .inl (if_neg hi)

variable {e : Event}

lemma step_cases (hstep : step s e = some t) :
    (∃ subject payload answer, t = insertOutbox subject payload answer s) ∨
    (∃ i rest, (∀ r ∈ rest, r ∈ s.table.rows) ∧ t = goto s i (.publishing rest)) ∨
    (∃ i r rest ok, s.relays i = .publishing (r::rest) ∧
      t = goto { s with calls := s.calls++[⟨message r,ok⟩] } i
        (if ok then .marking r rest else .publishing rest)) ∨
    ∃ i r rest, s.relays i = .marking r rest ∧ (t = goto s i (.publishing rest) ∨
      t = goto { s with table := s.table.markPublished r.id } i (.publishing rest)) := by
  cases e with
  | insert subject payload answer =>
    cases hstep
    exact .inl ⟨subject,payload,answer,rfl⟩
  | poll i ok =>
    simp only [step] at hstep
    split at hstep <;> cases hstep
    cases ok with
    | true => exact .inr (.inl ⟨i,_,fun r => pending_stored,rfl⟩)
    | false => exact .inr (.inl ⟨i,[],nofun,rfl⟩)
  | publish i ok =>
    simp only [step] at hstep
    split at hstep <;> cases hstep
    rename_i r rest ha
    exact .inr (.inr (.inl ⟨i,r,rest,ok,ha,rfl⟩))
  | mark i applied =>
    simp only [step] at hstep
    split at hstep <;> cases hstep
    rename_i r rest ha
    cases applied with
    | true => exact .inr (.inr (.inr ⟨i,r,rest,ha,.inr rfl⟩))
    | false => exact .inr (.inr (.inr ⟨i,r,rest,ha,.inl rfl⟩))
  | crash i =>
    cases hstep
    exact .inr (.inl ⟨i,[],nofun,rfl⟩)

lemma Sound.rest_of (h : Sound content s) {i : ℕ} {p : Phase} (hp : s.relays i = p) :
    ∀ r ∈ p.rest, Stored s (message r) := hp ▸ h.rest i

lemma step_sound (h : Sound content s) (hstep : step s e = some t) : Sound content t := by
  rcases step_cases hstep with ⟨subject,payload,answer,rfl⟩ | ⟨i,rest,he,rfl⟩ |
    ⟨i,r,rest,ok,ha,rfl⟩ | ⟨i,r,rest,ha,rfl | rfl⟩
  · rcases insertOutbox_cases subject payload answer s with hq | ⟨r,table,hp,-,-,ho,hq⟩
    · rwa [hq]
    · rw [hq]
      exact h.insert hp ho
  · exact h.goto i (fun r hr => ⟨r,he r hr,rfl⟩) nofun
  · have hl := h.rest_of ha
    have hca := h.call (hl r (by simp [Phase.rest])) ok
    have he : ∀ x ∈ rest, Stored s (message x) := fun x hx => hl x (by simp [Phase.rest, hx])
    cases ok with
    | true =>
      refine hca.goto i he fun x rest' hx => ?_
      cases hx
      exact ⟨⟨message r,true⟩,by simp,rfl,rfl⟩
    | false => exact hca.goto i he nofun
  · exact h.goto i (fun x hx => h.rest_of ha x hx) nofun
  · have hm := h.mark (h.marking i r rest ha)
    exact hm.goto i (fun x hx => (h.rest_of ha x hx).published r.id) nofun

lemma later_of_rows (ha : s.calls ⊆ t.calls) (ho : s.table.rows ⊆ t.table.rows) : Later s t where
  calls := ha
  kept r hr := ⟨r,ho hr,rfl,.inl rfl⟩

lemma Later.trans {u : State} (h : Later s t) (k : Later t u) : Later s u where
  calls := List.Subset.trans h.calls k.calls
  kept r hr := by
    have he : ∀ id, Sent t id → Sent u id := by
      rintro id ⟨c,hc,hi⟩
      exact ⟨c,k.calls hc,hi⟩
    obtain ⟨r₁,h₁,hr₁,hor₁⟩ := h.kept r hr
    obtain ⟨r₂,h₂,hr₂,hor₂⟩ := k.kept r₁ h₁
    refine ⟨r₂,h₂,?_,?_⟩
    · rw [← hr₁, ← hr₂]
    · have hi : r₁.id = r.id := by rw [← hr₁]
      rcases hor₁ with rfl | hs
      · exact hor₂
      · exact .inr (he _ hs)

lemma step_later (h : Sound content s) (hstep : step s e = some t) : Later s t := by
  rcases step_cases hstep with ⟨subject,payload,answer,rfl⟩ | ⟨i,rest,he,rfl⟩ |
    ⟨i,r,rest,ok,ha,rfl⟩ | ⟨i,r,rest,ha,rfl | rfl⟩
  · rcases insertOutbox_cases subject payload answer s with hq | ⟨r,table,-,-,-,ho,hq⟩
    · rw [hq]
      exact later_of_rows (List.Subset.refl _) (List.Subset.refl _)
    · rw [hq]
      refine later_of_rows (List.Subset.refl _) fun x hx => ?_
      rw [ho]
      exact mem_append_left _ hx
  · exact later_of_rows (List.Subset.refl _) (List.Subset.refl _)
  · exact later_of_rows (subset_append_left _ _) (List.Subset.refl _)
  · exact later_of_rows (List.Subset.refl _) (List.Subset.refl _)
  · refine ⟨List.Subset.refl _,fun x hx => ⟨_,mem_map_of_mem hx,?_⟩⟩
    by_cases hi : x.id = r.id
    · rw [published, if_pos hi]
      exact ⟨rfl,.inr (hi ▸ h.marking i r rest ha)⟩
    · rw [published, if_neg hi]
      exact ⟨rfl,.inl rfl⟩

end

lemma Sound.message_of_sent {content : OutboxTable} {s : State} (h : Sound content s)
    {r : OutboxRecord} (hr : r ∈ s.table.rows) (he : Sent s r.id) : ⟨message r,true⟩ ∈ s.calls := by
  obtain ⟨c,hc,hi,hok⟩ := he
  obtain ⟨x,hx,hm⟩ := h.calls c hc
  have ha : x = r := by
    refine inj_on_of_nodup_map s.table.unique hx hr ?_
    rw [← hi, ← hm]
    rfl
  rw [← ha, hm, ← hok]
  exact hc

/-- Let an outbox with any content go through any events to `m` and on to `u`. -/
theorem delivered_at_least_once (content : OutboxTable) {es fs : List Event} {m u : State}
    (hm : Runs (start content) es m) (hu : Runs m fs u) :
    (∀ r ∈ u.table.rows, r.status = "published" → r ∈ content.rows ∨ ⟨message r,true⟩ ∈ u.calls) ∧
    (∀ r ∈ m.table.rows, r.status = "pending" →
      (∀ c ∈ u.calls, c.message = message r → c.ok = false) → r ∈ u.table.rows) ∧
    (∀ r ∈ m.table.rows, ∃ r' ∈ u.table.rows, { r' with status := r.status } = r) ∧
    (∀ i ∈ m.inserts, ∃ r ∈ u.table.rows, message r = i) ∧
    ∀ c ∈ u.calls, (∃ r ∈ content.rows, message r = c.message) ∨ c.message ∈ u.inserts := by
  have ho := run_invariant (Sound content) (fun _ _ _ h _ => step_sound h) hm sound_start
  have hen := run_invariant (Sound content) (fun _ _ _ h _ => step_sound h) hu ho
  have hl := run_relation Later (fun s => later_of_rows (List.Subset.refl _)
    (List.Subset.refl _)) (fun _ _ _ => Later.trans) (Sound content)
    (fun _ _ _ h _ hs => ⟨step_sound h hs,step_later h hs⟩) hu ho
  refine ⟨fun r hr ht => ?_,fun r hr ht hfa => ?_,fun r hr => ?_,fun i hi => ?_,
    fun c hc => ?_⟩
  · rcases hen.status r hr with hr | he | ⟨-,hn⟩
    · exact .inl hr
    · rw [he] at ht
      exact absurd ht (by decide)
    · exact .inr (hen.message_of_sent hr hn)
  · obtain ⟨r',hr',ha,rfl | hn⟩ := hl.kept r hr
    · exact hr'
    · have hg : message r' = message r := by rw [← ha]; rfl
      have hid : r'.id = r.id := by rw [← ha]
      have hca := hen.message_of_sent hr' (hid ▸ hn)
      exact absurd (hfa _ hca hg) (by simp)
  · obtain ⟨r',hr',ha,-⟩ := hl.kept r hr
    exact ⟨r',hr',ha⟩
  · obtain ⟨r,hr,rfl⟩ := ho.inserts i hi
    obtain ⟨r',hr',ha,-⟩ := hl.kept r hr
    exact ⟨r',hr',by rw [← ha]; rfl⟩
  · obtain ⟨r,hr,hg⟩ := hen.calls c hc
    rw [← hg]
    exact hen.origin r hr

def sampleRecord : OutboxRecord := ⟨1,"orders.created",[123,125],"pending","2026-01-01"⟩

def sampleTable : OutboxTable := ⟨[sampleRecord],List.nodup_singleton _⟩

lemma sampleTable_pending : sampleTable.pending = [sampleRecord] := by
  simp [OutboxTable.pending, sampleTable, sampleRecord]

theorem delivered_at_least_once_sample : ∃ m u,
    Runs (start OutboxTable.empty) [.insert "orders.created" [123,125] (some (1,"2026-01-01"))] m ∧
    Runs m [.poll 0 true,.publish 0 true,.mark 0 true] u ∧
    u.table.rows = [{ sampleRecord with status := "published" }] ∧
    ⟨message sampleRecord,true⟩ ∈ u.calls := by
  have hm : Runs (start OutboxTable.empty)
      [.insert "orders.created" [123,125] (some (1,"2026-01-01"))]
      ⟨sampleTable,[message sampleRecord],[],fun _ => .idle⟩ := .cons trivial rfl (.nil _)
  have ho : step ⟨sampleTable,[message sampleRecord],[],fun _ => .idle⟩ (.poll 0 true) =
      some (goto ⟨sampleTable,[message sampleRecord],[],fun _ => .idle⟩ 0
        (.publishing [sampleRecord])) := by
    rw [← sampleTable_pending]
    rfl
  have hu : Runs _ [.poll 0 true,.publish 0 true,.mark 0 true] _ :=
    .cons trivial ho (.cons trivial rfl (.cons trivial rfl (.nil _)))
  refine ⟨_,_,hm,hu,rfl,?_⟩
  have he := (delivered_at_least_once OutboxTable.empty hm hu).1
    { sampleRecord with status := "published" } (mem_singleton.mpr rfl) rfl
  exact he.resolve_left nofun

end SdkApi.OutboxRelay
