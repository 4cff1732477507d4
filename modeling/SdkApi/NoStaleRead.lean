import SdkApi.StaleReads

/-!
# Schedules of requests on one id

From the steps to whole schedules: a Get that starts after a writer has
returned answers the version of that writer or a later one.
-/

namespace SdkApi.NoStaleRead
open SqlEngine Tables KeyedTable CachedCrud CacheTransparency CacheSchedules Option Function
open StaleReads GuardedRuns

variable {V A J : Type} {p : CachedProvider V A J} {id : String}

lemma start_sound {c : Config V A J} (h : Sound p id c) (i : ℕ) (call : Call A) :
    Sound p id (startCall c i call) := by
  match call with
  | .get => exact sound_stage h c.flight le_rfl (by simp [held]) (by simp)
  | .update none => exact sound_stage h c.flight (by simp [ProcOk]) (by simp [held]) (by simp)
  | .update (some patch) => exact sound_stage h c.flight trivial (by simp [held]) (by simp)
  | .delete => exact sound_stage h c.flight trivial (by simp [held]) (by simp)

lemma initial_sound (st : State V J)
    (ha : ∀ o, l1View p st id = some o ∨ l2View p st id = some o → o = answer p st.table id) :
    Sound p id (initial p id st : Config V A J) where
  current := rfl
  genuine o ho := ⟨st.table,by simpa [initial] using ho⟩
  ordered := ⟨le_rfl,le_rfl,by simp [initial],by simp [initial]⟩
  l1 o ho := ⟨0,le_rfl,by simp [initial, ha o (.inl ho)]⟩
  l2 o ho := ⟨0,le_rfl,by simp [initial, ha o (.inr ho)]⟩
  procs _ := trivial
  waits _ _ _ hw := by simp [initial] at hw

def floor : Proc V A J → Option ℕ
  | .lookingL1 f | .entering f | .lookingL2 f | .repairing f | .querying f | .storingL2 f _
  | .leaving f _ | .waiting f _ | .storingL1 f _ | .answered f _ => some f
  | _ => none

lemma floor_resume {f : ℕ} {res : Except DbError (Row V)} :
    floor (resume p f res : Proc V A J) = some f := by
  cases res <;> rfl

variable {c c' : Config V A J}

lemma getStep_floor {i : ℕ} (hstep : getStep p id c i = some c') :
    ∃ q, c'.procs = update c.procs i q ∧ floor q = floor (c.procs i) ∧
      c'.ledger = c.ledger := by
  cases ho : c.procs i <;> simp only [getStep, ho] at hstep <;>
    (try split at hstep) <;> (try split at hstep) <;> cases hstep <;>
    exact ⟨_,rfl,by first | rfl | exact floor_resume,rfl⟩

variable [DecidableEq J] {e : Label A}

lemma step_sound (hk : KeyLookup p.backend p.info) (hd : p.driver ≠ .turso) (h : Sound p id c)
    (hok : StepOk p id c e) (hstep : step p id c e = some c') : Sound p id c' := by
  cases e with
  | start i call =>
    simp only [step] at hstep
    split at hstep
    · cases hstep
      exact start_sound h i call
    · simp at hstep
  | tick i =>
    simp only [step, or_eq_some_iff] at hstep
    rcases hstep with hstep | ⟨-,hstep⟩
    · exact getStep_sound h hk hok hstep
    · exact writeStep_sound h hk hd hok hstep
  | expireL1 =>
    cases hstep
    refine { h with l1 := fun o ho => ?_ }
    cases hs : c.l1 <;> simp [l1View, CachedCrud.drop, hs] at ho
  | expireL2 =>
    cases hstep
    refine { h with l2 := fun o ho => ?_ }
    simp [l2View, CachedCrud.drop] at ho

lemma writeStep_floor {i : ℕ} (hstep : writeStep p id c i = some c') :
    ∃ q, c'.procs = update c.procs i q ∧ floor q = none ∧
      c.ledger.returned ≤ c'.ledger.returned := by
  cases ho : c.procs i <;> simp only [writeStep, ho] at hstep <;>
    (try split at hstep) <;> (try split at hstep) <;> (try split at hstep) <;> cases hstep <;>
    exact ⟨_,rfl,rfl,by simp [written, put]⟩

/-- A later Get has a floor at or above the mark of the finished writers. -/
def After (n i : ℕ) (c : Config V A J) : Prop :=
  n ≤ c.ledger.returned ∧ ∀ f, floor (c.procs i) = some f → n ≤ f

lemma step_after {n i : ℕ} (h : After n i c) (hstep : step p id c e = some c') : After n i c' := by
  have hm : ∀ (j : ℕ) (q : Proc V A J), c'.procs = update c.procs j q →
      c.ledger.returned ≤ c'.ledger.returned → (∀ f, floor q = some f →
        floor (c.procs j) = some f ∨ f = c.ledger.returned) → After n i c' := by
    intro j q ho he hfl
    refine ⟨h.1.trans he,fun f hf => ?_⟩
    rw [ho] at hf
    by_cases hi : i = j
    · rw [hi, update_self] at hf
      rcases hfl f hf with hf | rfl
      · exact h.2 f (hi ▸ hf)
      · exact h.1
    · rw [update_of_ne hi] at hf
      exact h.2 f hf
  cases e with
  | start j call =>
    simp only [step] at hstep
    split at hstep
    · cases hstep
      cases call with
      | get => exact hm j _ rfl le_rfl fun f hf => .inr (some.inj hf).symm
      | update body =>
        cases body with
        | none | some patch => exact hm j _ rfl le_rfl (by simp [floor])
      | delete => exact hm j _ rfl le_rfl (by simp [floor])
    · simp at hstep
  | tick j =>
    simp only [step, or_eq_some_iff] at hstep
    rcases hstep with hstep | ⟨-,hstep⟩
    · obtain ⟨q,ho,hq,hl⟩ := getStep_floor hstep
      exact hm j q ho (by rw [hl]) fun f hf => .inl (hq ▸ hf)
    · obtain ⟨q,ho,hq,he⟩ := writeStep_floor hstep
      exact hm j q ho he (by simp [hq])
  | expireL1 | expireL2 =>
    cases hstep
    exact h

/-- In every schedule whose steps meet the condition, a Get that starts after
a writer has returned answers the version of that writer or a later one. -/
theorem run_never_stale (hk : KeyLookup p.backend p.info) (hd : p.driver ≠ .turso) {st : State V J}
    (hcache : ∀ o, l1View p st id = some o ∨ l2View p st id = some o → o = answer p st.table id)
    {es fs : List (Label A)} {c c' : Config V A J}
    (hbefore : Run (fun c e c' => step p id c e = some c') (StepOk p id) (initial p id st) es c)
    (hafter : Run (fun c e c' => step p id c e = some c') (StepOk p id) c fs c')
    {i j n f : ℕ} {ans ans' : Answer J} (hwriter : c.procs j = .returned (some n) ans')
    (hidle : c.procs i = .idle) (hget : c'.procs i = .answered f ans) :
    ∃ k o, n ≤ k ∧ c'.ledger.versions[k]? = some o ∧ ans = answerOf p o := by
  have hstep : ∀ s e t, Sound p id s → StepOk p id s e → step p id s e = some t → Sound p id t :=
    fun s e t hs hok hst => step_sound hk hd hs hok hst
  have hc : Sound p id c := run_invariant (Sound p id) hstep hbefore (initial_sound st hcache)
  have hc' : Sound p id c' := run_invariant (Sound p id) hstep hafter hc
  have hm : n ≤ c.ledger.returned := by
    have hj := hc.procs j
    rw [hwriter] at hj
    exact hj n rfl
  have hl : After n i c' := run_invariant (After n i) (fun s e t hs _ hst => step_after hs hst)
    hafter ⟨hm,by simp [hidle, floor]⟩
  have hi := hc'.procs i
  rw [hget] at hi
  obtain ⟨o,⟨k,hk,ho⟩,hans⟩ := hi
  exact ⟨k,o,(hl.2 f (by rw [hget]; rfl)).trans hk,ho,hans⟩

def oldOrder : Row String := fun col => if col = "id" then "1" else "old"

def oneOrder : State String (String × String) := ⟨[oldOrder],none,fun _ => none⟩

abbrev OrderConfig := Config String String (String × String)

def started : OrderConfig := initial cachedOrders "1" oneOrder

lemma oneOrder_uncached (o : Except DbError (String × String))
    (h : l1View cachedOrders oneOrder "1" = some o ∨ l2View cachedOrders oneOrder "1" = some o) :
    o = answer cachedOrders oneOrder.table "1" := by
  simp [l1View, l2View, oneOrder] at h

abbrev OrderRun := Run fun c e c' => step cachedOrders "1" c e = some c'

def onward (c : OrderConfig) (es : List (Label String)) : OrderConfig :=
  (play (step cachedOrders "1") c es).getD c

def updateLabels : List (Label String) :=
  [.start 1 (.update (some [("note","new")])),.tick 1,.tick 1,.tick 1,.tick 1]

def newOrder : Row String := cachedOrders.backend.assign [("note","new")] oldOrder

def querying2 : OrderConfig :=
  onward (onward started updateLabels) [.start 2 .get,.tick 2,.tick 2,.tick 2]

lemma tick_lookup {c : OrderConfig} {i f : ℕ} {r : Row String} (ho : c.procs i = .querying f)
    (hr : lookup cachedOrders.backend cachedOrders.info cachedOrders.driver "1" c.table = .ok r) :
    step cachedOrders "1" c (.tick i) = some (put c i (.storingL2 f (.ok r))) := by
  simp [step, getStep, ho, get_eq cachedOrders_lookup, hr]

/-- Once the update has returned, a Get reads the new row and stores it. -/
theorem updated_never_stale :
    ∃ c c' : OrderConfig, c.procs 1 = .returned (some 1) (.json 200 ("1","new")) ∧
      c.procs 2 = .idle ∧ c'.procs 2 = .answered 1 (.json 200 ("1","new")) ∧
      ∃ k o, 1 ≤ k ∧ c'.ledger.versions[k]? = some o ∧
        .json 200 ("1","new") = answerOf cachedOrders o := by
  have hb : OrderRun (StepOk cachedOrders "1")
      started updateLabels (onward started updateLabels) :=
    .cons trivial rfl (.cons (fun _ => by decide) rfl (.cons trivial rfl (.cons trivial rfl
      (.cons trivial rfl (.nil _)))))
  have ha : OrderRun (StepOk cachedOrders "1")
      (onward started updateLabels)
      [.start 2 .get,.tick 2,.tick 2,.tick 2,.tick 2,.tick 2,.tick 2,.tick 2]
      (onward (put querying2 2 (.storingL2 1 (.ok newOrder))) [.tick 2,.tick 2,.tick 2]) :=
    .cons trivial rfl (.cons trivial rfl (.cons (fun _ hl => by cases hl) rfl (.cons trivial rfl
      (.cons trivial (tick_lookup rfl rfl) (.cons ⟨1,le_rfl,rfl⟩ rfl (.cons trivial rfl
        (.cons (fun ⟨_,hl,_⟩ => by cases hl) rfl (.nil _))))))))
  exact ⟨onward started updateLabels,
    onward (put querying2 2 (.storingL2 1 (.ok newOrder))) [.tick 2,.tick 2,.tick 2],
    rfl,rfl,rfl,run_never_stale (i := 2) (j := 1) (f := 1) cachedOrders_lookup
    (by decide) oneOrder_uncached hb ha rfl rfl rfl⟩

def querying0 : OrderConfig := onward started [.start 0 .get,.tick 0,.tick 0,.tick 0]

def overtaken : OrderConfig := onward (put querying0 0 (.storingL2 0 (.ok oldOrder))) updateLabels

/-- The old row is stored after the update has returned. -/
def refillLabels : List (Label String) :=
  [.tick 0,.tick 0,.tick 0,.start 2 .get,.tick 2,.tick 2,.tick 2,.tick 2,.tick 2]

def refilled : OrderConfig := onward overtaken refillLabels

theorem stored_after_delete_is_stale :
    KeyLookup cachedOrders.backend cachedOrders.info ∧
    ∃ es fs, OrderRun (fun _ _ => True) started es overtaken ∧
      OrderRun (fun _ _ => True) overtaken fs refilled ∧
      overtaken.procs 1 = .returned (some 1) (.json 200 ("1","new")) ∧
      overtaken.procs 2 = .idle ∧
      refilled.procs 2 = .answered 1 (.json 200 ("1","old")) ∧
      refilled.ledger.versions = [.ok ("1","old"),.ok ("1","new")] ∧
      ¬ ∃ k o, 1 ≤ k ∧ refilled.ledger.versions[k]? = some o ∧
        .json 200 ("1","old") = answerOf cachedOrders o := by
  have ha : OrderRun (fun _ _ => True) querying0
      [.tick 0] (put querying0 0 (.storingL2 0 (.ok oldOrder))) :=
    .cons trivial (tick_lookup rfl rfl) (.nil _)
  have he : refilled.ledger.versions = [.ok ("1","old"),.ok ("1","new")] := rfl
  have hq : OrderRun (fun _ _ => True) started
      [.start 0 .get,.tick 0,.tick 0,.tick 0] querying0 := run_of_play rfl
  have hu : OrderRun (fun _ _ => True)
      (put querying0 0 (.storingL2 0 (.ok oldOrder))) updateLabels overtaken := run_of_play rfl
  refine ⟨cachedOrders_lookup,_,refillLabels,run_append (run_append hq ha) hu,
    run_of_play rfl,rfl,rfl,rfl,he,?_⟩
  rintro ⟨k,o,hk,ho,hans⟩
  rw [he] at ho
  match k, hk with
  | 1, _ =>
    cases ho
    simp [answerOf] at hans
  | n+2, _ => simp at ho

end SdkApi.NoStaleRead
