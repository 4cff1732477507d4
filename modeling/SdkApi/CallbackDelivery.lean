import SdkApi.AsyncNilSafety

/-!
# Callbacks after the response

The goroutine of a job keeps the context that the request had when the
handler ran. A timeout middleware gives the request a context of its own and
cancels it when it returns. The request, the timeouts and the goroutine go on
independently, and an attempt under a cancelled context sends nothing.
-/

namespace SdkApi.CallbackDelivery
open GuardedRuns JobStores AsyncManager AsyncNilSafety List
open Tables (GoMap)

inductive Layer where
  | value
  | timeout (d : ℤ)
  | plain

inductive Context where
  | background
  | withValue (parent : Context)
  | withTimeout (n : ℕ) (parent : Context)

def Context.cancelled (done : List ℕ) : Context → Bool
  | .background => false
  | .withValue parent => parent.cancelled done
  | .withTimeout n parent => done.contains n || parent.cancelled done

def enter (c : Context × ℕ) : Layer → Context × ℕ
  | .value => (.withValue c.1,c.2)
  | .timeout _ => (.withTimeout c.2 c.1,c.2+1)
  | .plain => c

def handlerContext (chain : List Layer) : Context × ℕ := chain.foldl enter (.background,0)

def registerEntryTimeout (svc : Service) (e : AsyncEntry) : List Layer :=
  if e.timeout = "" then []
  else
    match svc.parseDuration e.timeout with
    | none => []
    | some d => [.timeout d]

def Layer.isTimeout : Layer → Bool
  | .timeout _ => true
  | _ => false

def NoTimeout (chain : List Layer) : Prop := ∀ l ∈ chain, l.isTimeout = false

section

variable (chain : List Layer)

lemma timeouts_foldl (c : Context × ℕ) :
    (chain.foldl enter c).2 = c.2+chain.countP Layer.isTimeout := by
  induction chain generalizing c with
  | nil => rfl
  | cons l chain ih =>
    rw [foldl_cons, ih, countP_cons]
    cases l with
    | value => rfl
    | plain => rfl
    | timeout d =>
      simp only [enter, Layer.isTimeout, if_true]
      omega

lemma cancelled_foldl (c : Context × ℕ) (done : List ℕ) :
    (chain.foldl enter c).1.cancelled done ↔
      c.1.cancelled done ∨
        ∃ n, c.2 ≤ n ∧ n < (chain.foldl enter c).2 ∧ n ∈ done := by
  induction chain generalizing c with
  | nil =>
    simp only [foldl_nil, iff_self_or]
    rintro ⟨n,he,ht,-⟩
    omega
  | cons l chain ih =>
    rw [foldl_cons, ih]
    cases l with
    | value => rfl
    | plain => rfl
    | timeout d =>
      have hl : (enter c (.timeout d)).2 ≤ (chain.foldl enter (enter c (.timeout d))).2 := by
        rw [timeouts_foldl]
        exact Nat.le_add_right _ _
      simp only [enter, Context.cancelled, Bool.or_eq_true, contains_iff_mem] at hl ⊢
      constructor
      · rintro ((hm | hc) | ⟨n,he,ht,hn⟩)
        · exact .inr ⟨c.2,le_refl _,by omega,hm⟩
        · exact .inl hc
        · exact .inr ⟨n,by omega,ht,hn⟩
      · rintro (hc | ⟨n,he,ht,hn⟩)
        · exact .inl (.inr hc)
        · by_cases hq : n = c.2
          · subst hq
            exact .inl (.inl hn)
          · exact .inr ⟨n,by omega,ht,hn⟩

lemma cancelled_iff (done : List ℕ) :
    (handlerContext chain).1.cancelled done ↔ ∃ n < (handlerContext chain).2, n ∈ done := by
  rw [handlerContext, cancelled_foldl]
  simp [Context.cancelled]

lemma noTimeout_iff : NoTimeout chain ↔ (handlerContext chain).2 = 0 := by
  rw [handlerContext, timeouts_foldl, Nat.zero_add, countP_eq_zero]
  simp [NoTimeout]

end

inductive Job where
  | processing
  | notifying (attempt : ℕ)
  | delivered (attempts : ℕ)
  | gaveUp
  deriving DecidableEq

/-- `inside` are the open timeouts, the innermost first. -/
structure State where
  inside : List ℕ
  responded : Bool := false
  done : List ℕ := []
  job : Job := .processing
  sent : ℕ := 0
  deriving DecidableEq

inductive Event where
  | unwind
  | respond
  | expire (n : ℕ)
  | processed
  | attempt
  deriving DecidableEq

structure Endpoint where
  valid : Bool
  answers : ℕ → Option ℕ

def Endpoint.accepts (p : Endpoint) (k : ℕ) : Bool :=
  (p.answers k).any fun status => 200 ≤ status && status < 300

def retry (t : Target) (i : ℕ) : Job := if (i : ℤ) < t.maxRetry then .notifying (i+1) else .gaveUp

def attemptStep (t : Target) (ctx : Context) (p : Endpoint) (s : State) (i : ℕ) : State :=
  if p.valid = false then { s with job := .gaveUp }
  else if ctx.cancelled s.done then { s with job := retry t i }
  else if p.accepts (i+1) then { s with job := .delivered (i+1), sent := s.sent+1 }
  else { s with job := retry t i, sent := s.sent+1 }

def step (t : Target) (ctx : Context) (p : Endpoint) (s : State) : Event → Option State
  | .unwind =>
    match s.inside with
    | [] => none
    | n::rest => some { s with inside := rest, done := n::s.done }
  | .respond =>
    if s.inside = [] ∧ s.responded = false then some { s with responded := true } else none
  | .expire n => if n ∈ s.inside then some { s with done := n::s.done } else none
  | .processed =>
    match s.job with
    | .processing => some { s with job := .notifying 0 }
    | _ => none
  | .attempt =>
    match s.job with
    | .notifying i => some (attemptStep t ctx p s i)
    | _ => none

lemma step_cases {t : Target} {ctx : Context} {p : Endpoint} {s u : State} {e : Event}
    (h : step t ctx p s e = some u) :
    (∃ n rest, e = .unwind ∧ s.inside = n::rest ∧
        u = { s with inside := rest, done := n::s.done }) ∨
      (e = .respond ∧ s.inside = [] ∧ s.responded = false ∧ u = { s with responded := true }) ∨
      (∃ n, e = .expire n ∧ n ∈ s.inside ∧ u = { s with done := n::s.done }) ∨
      (e = .processed ∧ s.job = .processing ∧ u = { s with job := .notifying 0 }) ∨
      (∃ i, e = .attempt ∧ s.job = .notifying i ∧ u = attemptStep t ctx p s i) := by
  cases e with
  | unwind =>
    simp only [step] at h
    split at h
    · cases h
    · rename_i n rest hi
      cases h
      exact .inl ⟨n,rest,rfl,hi,rfl⟩
  | respond =>
    simp only [step] at h
    split at h <;> cases h
    rename_i he
    exact .inr (.inl ⟨rfl,he.1,he.2,rfl⟩)
  | expire n =>
    simp only [step] at h
    split at h <;> cases h
    rename_i hi
    exact .inr (.inr (.inl ⟨n,rfl,hi,rfl⟩))
  | processed =>
    simp only [step] at h
    split at h <;> cases h
    rename_i hj
    exact .inr (.inr (.inr (.inl ⟨rfl,hj,rfl⟩)))
  | attempt =>
    simp only [step] at h
    split at h <;> cases h
    rename_i i hj
    exact .inr (.inr (.inr (.inr ⟨i,rfl,hj,rfl⟩)))

def start (chain : List Layer) : State where
  inside := (List.range (handlerContext chain).2).reverse

def AfterResponse (s : State) (e : Event) : Prop := e = .processed → s.responded = true

instance (s : State) (e : Event) : Decidable (AfterResponse s e) :=
  inferInstanceAs (Decidable (e = .processed → s.responded = true))

abbrev Runs (t : Target) (chain : List Layer) (p : Endpoint) (es : List Event) (s : State) : Prop :=
  Run (fun s e u => step t (handlerContext chain).1 p s e = some u) AfterResponse (start chain) es s

def FirstAccepted (p : Endpoint) (k : ℕ) : Prop :=
  1 ≤ k ∧ p.accepts k = true ∧ ∀ j, 1 ≤ j → j < k → p.accepts j = false

/-- An accepted attempt is delivered once, and the goroutine can end. -/
structure Delivers (t : Target) (chain : List Layer) : Prop where
  delivered : ∀ p es s, p.valid = true → Runs t chain p es s →
    ∀ k, FirstAccepted p k → (k : ℤ) ≤ t.maxRetry+1 →
      s.job ≠ .gaveUp ∧ ∀ n, s.job = .delivered n → n = k ∧ s.sent = k
  ends : ∀ p es s i, Runs t chain p es s → s.job = .notifying i →
    ∃ fs u, Runs t chain p (es++fs) u ∧ (u.job = .gaveUp ∨ ∃ n, u.job = .delivered n)

section

variable {t : Target} {chain : List Layer} {p : Endpoint} {es : List Event} {s u : State}

structure Progress (t : Target) (p : Endpoint) (s : State) : Prop where
  notifying : ∀ i, s.job = .notifying i →
    (i : ℤ) ≤ t.maxRetry ∧ s.sent = i ∧ ∀ j, 1 ≤ j → j ≤ i → p.accepts j = false
  delivered : ∀ n, s.job = .delivered n → FirstAccepted p n ∧ s.sent = n
  gaveUp : s.job = .gaveUp → ∀ j : ℕ, 1 ≤ j → (j : ℤ) ≤ t.maxRetry+1 → p.accepts j = false
  processing : s.job = .processing → s.sent = 0

lemma progress_job {s u : State} (h : Progress t p s) (hj : u.job = s.job)
    (he : u.sent = s.sent) : Progress t p u := by
  obtain ⟨h1,h2,h3,h4⟩ := h
  constructor
  · rw [hj, he]
    exact h1
  · rw [hj, he]
    exact h2
  · rw [hj]
    exact h3
  · rw [hj, he]
    exact h4

lemma progress_start (chain : List Layer) : Progress t p (start chain) where
  notifying i h := by cases h
  delivered n h := by cases h
  gaveUp h := by cases h
  processing _ := rfl

variable {i : ℕ}

lemma progress_retry (hj : s.job = .notifying i) (h : Progress t p s)
    (he : p.accepts (i+1) = false) :
    Progress t p { s with job := retry t i, sent := s.sent+1 } := by
  obtain ⟨hm,ht,hb⟩ := h.notifying i hj
  have hu : ∀ j, 1 ≤ j → j ≤ i+1 → p.accepts j = false := by
    intro j h1 h2
    rcases Nat.lt_or_ge i j with hlt | hle
    · rw [show j = i+1 by omega]
      exact he
    · exact hb j h1 hle
  unfold retry
  split
  · rename_i hlt
    constructor
    · intro i' hi'
      cases hi'
      exact ⟨by push_cast; omega,by simp [ht],hu⟩
    · nofun
    · nofun
    · nofun
  · rename_i hl
    constructor
    · nofun
    · nofun
    · intro _ j h1 h2
      exact hu j h1 (by omega)
    · nofun

lemma progress_attempt (hi : NoTimeout chain) (hl : p.valid) (hj : s.job = .notifying i)
    (h : Progress t p s) : Progress t p (attemptStep t (handlerContext chain).1 p s i) := by
  have hal : (handlerContext chain).1.cancelled s.done = false := by
    rw [Bool.eq_false_iff]
    intro hc
    obtain ⟨n,hn,-⟩ := (cancelled_iff chain s.done).mp hc
    rw [(noTimeout_iff chain).mp hi] at hn
    exact Nat.not_lt_zero n hn
  obtain ⟨-,ht,hb⟩ := h.notifying i hj
  simp only [attemptStep, hl, Bool.true_eq_false, if_false, hal, Bool.false_eq_true]
  split
  · rename_i ha
    constructor
    · nofun
    · intro n hn
      cases hn
      refine ⟨⟨by omega,ha,fun j h1 h2 => hb j h1 (by omega)⟩,by simp [ht]⟩
    · nofun
    · nofun
  · rename_i he
    exact progress_retry hj h (Bool.eq_false_iff.mpr he)

lemma progress_processed (hm : 0 ≤ t.maxRetry) (hj : s.job = .processing)
    (h : Progress t p s) : Progress t p { s with job := .notifying 0 } := by
  constructor
  · intro i hi
    cases hi
    exact ⟨by simpa using hm,h.processing hj,fun j h1 h2 => by omega⟩
  · nofun
  · nofun
  · nofun

lemma progress_step (ha : NoTimeout chain) (hl : p.valid) (hm : 0 ≤ t.maxRetry)
    {e : Event} (h : Progress t p s) (hstep : step t (handlerContext chain).1 p s e = some u) :
    Progress t p u := by
  rcases step_cases hstep with ⟨n,rest,-,-,rfl⟩ | ⟨-,-,-,rfl⟩ | ⟨n,-,-,rfl⟩ | ⟨-,hj,rfl⟩ |
    ⟨i,-,hj,rfl⟩
  · exact progress_job h rfl rfl
  · exact progress_job h rfl rfl
  · exact progress_job h rfl rfl
  · exact progress_processed hm hj h
  · exact progress_attempt ha hl hj h

lemma runs_progress (ha : NoTimeout chain) (hl : p.valid)
    (hm : 0 ≤ t.maxRetry) (h : Runs t chain p es s) : Progress t p s :=
  run_invariant (Progress t p) (fun _ _ _ hs _ hstep => progress_step ha hl hm hs hstep)
    h (progress_start chain)

lemma runs_attempt (h : Runs t chain p es s) (hj : s.job = .notifying i) :
    Runs t chain p (es++[.attempt]) (attemptStep t (handlerContext chain).1 p s i) := by
  refine run_append h (.cons ?_ ?_ (.nil _))
  · nofun
  · simp [step, hj]

lemma attemptStep_job (t : Target) (ctx : Context) (p : Endpoint) (s : State) (i : ℕ) :
    (attemptStep t ctx p s i).job = .gaveUp ∨
      (∃ n, (attemptStep t ctx p s i).job = .delivered n) ∨
      ((i : ℤ) < t.maxRetry ∧ (attemptStep t ctx p s i).job = .notifying (i+1)) := by
  have he : retry t i = .gaveUp ∨ ((i : ℤ) < t.maxRetry ∧ retry t i = .notifying (i+1)) := by
    unfold retry
    split
    · rename_i hl
      exact .inr ⟨hl,rfl⟩
    · exact .inl rfl
  unfold attemptStep
  split
  · exact .inl rfl
  · split
    · exact he.imp id .inr
    · split
      · exact .inr (.inl ⟨_,rfl⟩)
      · exact he.imp id .inr

lemma runs_end (n : ℕ) (hn : t.maxRetry-(i : ℤ) < n) (h : Runs t chain p es s)
    (hj : s.job = .notifying i) :
    ∃ fs u, Runs t chain p (es++fs) u ∧ (u.job = .gaveUp ∨ ∃ k, u.job = .delivered k) := by
  induction n generalizing i es s with
  | zero =>
    have hon := runs_attempt h hj
    rcases attemptStep_job t (handlerContext chain).1 p s i with hg | ho | ⟨hl,-⟩
    · exact ⟨_,_,hon,.inl hg⟩
    · exact ⟨_,_,hon,.inr ho⟩
    · push_cast at hn
      omega
  | succ n ih =>
    have hon := runs_attempt h hj
    rcases attemptStep_job t (handlerContext chain).1 p s i with hg | ho | ⟨hl,he⟩
    · exact ⟨_,_,hon,.inl hg⟩
    · exact ⟨_,_,hon,.inr ho⟩
    · obtain ⟨fs,u,hu,hen⟩ := ih (by push_cast at hn ⊢; omega) hon he
      exact ⟨.attempt::fs,u,by simpa using hu,hen⟩

lemma delivers_of_noTimeout (hi : NoTimeout chain) (hm : 0 ≤ t.maxRetry) :
    Delivers t chain where
  delivered p es s hva hrun k hk hle := by
    have ho := runs_progress hi hva hm hrun
    constructor
    · intro hg
      have he := ho.gaveUp hg k hk.1 hle
      rw [hk.2.1] at he
      cases he
    · intro n hn
      obtain ⟨⟨hn1,ha,hb⟩,ht⟩ := ho.delivered n hn
      have hq : n = k := by
        rcases Nat.lt_trichotomy n k with hlt | hq | hgt
        · rw [hk.2.2 n hn1 hlt] at ha
          cases ha
        · exact hq
        · have hl := hb k hk.1 hgt
          rw [hk.2.1] at hl
          cases hl
      exact ⟨hq,by rw [ht, hq]⟩
  ends p es s i hrun hj := by
    refine runs_end (t.maxRetry-(i : ℤ)+1).toNat ?_ hrun hj
    omega

structure Silent (chain : List Layer) (s : State) : Prop where
  timeouts : ∀ n < (handlerContext chain).2, n ∈ s.inside ∨ n ∈ s.done
  responded : s.responded = true → s.inside = []
  job : s.job = .processing ∨ (s.responded = true ∧ ∀ k, s.job ≠ .delivered k)
  sent : s.sent = 0

lemma silent_start (chain : List Layer) : Silent chain (start chain) where
  timeouts n hn := .inl (by simpa [start] using hn)
  responded h := by cases h
  job := .inl rfl
  sent := rfl

lemma retry_not_delivered (t : Target) (i k : ℕ) : retry t i ≠ .delivered k := by
  unfold retry
  split <;> simp

lemma cancelled_of_responded (ha : ¬NoTimeout chain) (h : Silent chain s)
    (hr : s.responded) : (handlerContext chain).1.cancelled s.done := by
  have hpo : 0 < (handlerContext chain).2 := by
    rw [noTimeout_iff] at ha
    exact Nat.pos_of_ne_zero ha
  rw [cancelled_iff]
  rcases h.timeouts 0 hpo with hi | ho
  · rw [h.responded hr] at hi
    cases hi
  · exact ⟨0,hpo,ho⟩

lemma silent_attempt (ha : ¬NoTimeout chain) {i : ℕ} (hj : s.job = .notifying i)
    (h : Silent chain s) : Silent chain (attemptStep t (handlerContext chain).1 p s i) := by
  have hr : s.responded := by
    rcases h.job with hp | ⟨hr,-⟩
    · rw [hj] at hp
      cases hp
    · exact hr
  simp only [attemptStep, cancelled_of_responded ha h hr, if_true]
  split
  · exact ⟨h.timeouts,h.responded,.inr ⟨hr,by simp⟩,h.sent⟩
  · exact ⟨h.timeouts,h.responded,.inr ⟨hr,retry_not_delivered t i⟩,h.sent⟩

lemma silent_unwind {n : ℕ} {rest : List ℕ} (hi : s.inside = n::rest)
    (h : Silent chain s) : Silent chain { s with inside := rest, done := n::s.done } := by
  have ho : s.responded ≠ true := by
    intro hr
    rw [h.responded hr] at hi
    cases hi
  refine ⟨fun m hm => ?_,fun hr => absurd hr ho,h.job,h.sent⟩
  have hl := h.timeouts m hm
  rw [hi, mem_cons] at hl
  rcases hl with (rfl | he) | hn
  · exact .inr (.head _)
  · exact .inl he
  · exact .inr (.tail n hn)

lemma silent_step (ha : ¬NoTimeout chain) {e : Event} (h : Silent chain s) (ht : AfterResponse s e)
    (hstep : step t (handlerContext chain).1 p s e = some u) : Silent chain u := by
  rcases step_cases hstep with ⟨n,rest,-,hi,rfl⟩ | ⟨-,he,ho,rfl⟩ | ⟨n,-,-,rfl⟩ |
    ⟨rfl,-,rfl⟩ | ⟨i,-,hj,rfl⟩
  · exact silent_unwind hi h
  · refine ⟨h.timeouts,fun _ => he,?_,h.sent⟩
    rcases h.job with hp | ⟨hr,-⟩
    · exact .inl hp
    · rw [ho] at hr
      cases hr
  · refine { h with timeouts := fun m hm => ?_ }
    rcases h.timeouts m hm with hin | hn
    · exact .inl hin
    · exact .inr (.tail n hn)
  · exact { h with job := .inr ⟨ht rfl,by simp⟩ }
  · exact silent_attempt ha hj h

lemma runs_silent (ha : ¬NoTimeout chain) (h : Runs t chain p es s) : Silent chain s :=
  run_invariant (Silent chain) (fun _ _ _ hs ht hstep => silent_step ha hs ht hstep) h
    (silent_start chain)

lemma runs_to_notification (t : Target) (chain : List Layer) (p : Endpoint) :
    ∃ es s, Runs t chain p es s ∧ s.job = .notifying 0 := by
  have hu : ∀ (inside done : List ℕ), ∃ es done',
      Run (fun s e u => step t (handlerContext chain).1 p s e = some u) AfterResponse
        { inside := inside, done := done } es { inside := [], done := done' } := by
    intro inside
    induction inside with
    | nil => exact fun done => ⟨[],done,.nil _⟩
    | cons n rest ih =>
      intro done
      obtain ⟨es,done',hrun⟩ := ih (n::done)
      refine ⟨.unwind::es,done',.cons ?_ rfl hrun⟩
      intro he
      cases he
  obtain ⟨es,done,hrun⟩ := hu (start chain).inside []
  refine ⟨es++[.respond,.processed],
    { inside := [], responded := true, done := done, job := .notifying 0 },?_,rfl⟩
  refine run_append hrun (.cons ?_ rfl (.cons ?_ rfl (.nil _)))
  · nofun
  · intro _
    rfl

lemma not_delivers_of_timeout (ha : ¬NoTimeout chain) (hm : 0 ≤ t.maxRetry) :
    ¬Delivers t chain := by
  intro h
  obtain ⟨es,s,hrun,hj⟩ := runs_to_notification t chain ⟨true,fun _ => some 200⟩
  obtain ⟨fs,u,hu,hen⟩ := h.ends _ es s 0 hrun hj
  have ht : FirstAccepted ⟨true,fun _ => some 200⟩ 1 :=
    ⟨le_refl _,by decide,fun j h1 h2 => by omega⟩
  have he := h.delivered _ _ u rfl hu 1 ht (by push_cast; omega)
  have hi := runs_silent ha hu
  rcases hen with hg | ⟨n,hn⟩
  · exact he.1 hg
  · rcases hi.job with hp | ⟨-,hne⟩
    · rw [hn] at hp
      cases hp
    · exact hne n hn

lemma delivers_iff (hm : 0 ≤ t.maxRetry) : Delivers t chain ↔ NoTimeout chain := by
  constructor
  · intro h
    by_contra ha
    exact not_delivers_of_timeout ha hm h
  · intro ha
    exact delivers_of_noTimeout ha hm

variable {svc : Service} {mgr : Manager} {e0 e : AsyncEntry} {pre : String} {body : Body}

def Survives (svc : Service) (mgr : Manager) (chain : List Layer) (body : Body) : Prop :=
  ∀ (R : Type) (marshal : R → Option (Option R)) (w : World R) (jobs : GoMap (JobState R)),
    jobs.lookup w.id = none →
    match notifyTarget svc mgr.callback (finalRecord mgr (storeOf mgr marshal) w jobs body) with
    | .ok none => True
    | .ok (some t) => Delivers t chain
    | .error _ => False

def Due (svc : Service) (e : AsyncEntry) (body : Body) : Prop :=
  (∃ cb, callbackSection e = some cb ∧ cb.url ≠ "") ∨
    (svc.resolveAsyncStore e = .ok .memory ∧ AsksForCallback body)

lemma manager_of_registered (hl : validateAsync e0 = .ok e)
    (hg : registerOneEntry svc pre e = .ok mgr) :
    svc.resolveAsyncStore e = .ok mgr.kind ∧ mgr.callback = callbackSection e := by
  obtain ⟨hpa,hn⟩ := validateAsync_path hl
  by_cases h : Registered svc e
  · obtain ⟨⟨kind,ht⟩,ho⟩ := h
    rcases registerOneEntry_registered hpa ht ho pre with
      ⟨-,-,-,he⟩ | ⟨-,mgr',he,hk,ha⟩
    · rw [he] at hg
      cases hg
    · rw [he] at hg
      cases hg
      exact ⟨by rw [hk, ht],ha⟩
  · obtain ⟨msg,he⟩ := registerOneEntry_unregistered hpa hn h pre
    rw [he] at hg
    cases hg

lemma target_some {cb : AsyncCallbackConf} (url secret : String) :
    ∃ t, target svc (some cb) url secret = .ok (some t) ∧ 0 ≤ t.maxRetry := by
  refine ⟨_,rfl,?_⟩
  dsimp only
  split <;> omega

lemma notifyTarget_not_due (ht : svc.resolveAsyncStore e = .ok mgr.kind)
    (ha : mgr.callback = callbackSection e) (hu : ¬Due svc e body) {R : Type}
    (marshal : R → Option (Option R)) (w : World R) {jobs : GoMap (JobState R)}
    (he : jobs.lookup w.id = none) :
    notifyTarget svc mgr.callback (finalRecord mgr (storeOf mgr marshal) w jobs body) =
      .ok none := by
  rw [Due, not_or] at hu
  cases hj : finalRecord mgr (storeOf mgr marshal) w jobs body with
  | none => rfl
  | some js =>
    have hl : js.callbackURL = "" := by
      rw [finalRecord_url he hj]
      split_ifs with hm
      · by_contra hn
        exact hu.2 ⟨by rw [ht, hm],(getD_ne_iff body).mp hn⟩
      · rfl
    simp only [notifyTarget, hl, if_true]
    rw [ha]
    cases hb : callbackSection e with
    | none => rfl
    | some cb =>
      have hy : cb.url = "" := by
        by_contra hn
        exact hu.1 ⟨cb,hb,hn⟩
      simp [hy]

lemma notifyTarget_due (ho : svc.resolveAsyncStore e = .ok mgr.kind)
    {cb : AsyncCallbackConf} (hb : callbackSection e = some cb) (he : Due svc e body) :
    ∃ t, notifyTarget svc (some cb)
        (finalRecord mgr (storeOf mgr fun _ => none) plainJob [] body) = .ok (some t) ∧
      0 ≤ t.maxRetry := by
  obtain ⟨js,hj,hl⟩ := plainJob_record mgr body
  rw [hj]
  by_cases hu : js.callbackURL = ""
  · have ht : cb.url ≠ "" := by
      rcases he with ⟨cb',hc',hn⟩ | ⟨hm,ha⟩
      · rw [hb] at hc'
        cases hc'
        exact hn
      · rw [ho] at hm
        rw [hl, if_pos (Except.ok.inj hm)] at hu
        exact absurd hu ((getD_ne_iff body).mpr ha)
    simp only [notifyTarget, hu, ht, if_true, if_false]
    exact target_some cb.url cb.secret
  · simp only [notifyTarget, hu, if_false]
    exact target_some js.callbackURL ""

theorem callbacks_survive_iff (hvalid : validateAsync e0 = .ok e)
    (hreg : registerOneEntry svc pre e = .ok mgr) (outer inner : List Layer) (body : Body) :
    Survives svc mgr (outer++registerEntryTimeout svc e++inner) body ↔
      (Due svc e body → NoTimeout (outer++registerEntryTimeout svc e++inner) ∧
        callbackSection e ≠ none) := by
  obtain ⟨ho,ha⟩ := manager_of_registered hvalid hreg
  constructor
  · intro hu hdu
    have hl := hu Unit (fun _ => none) plainJob [] rfl
    cases hb : callbackSection e with
    | none =>
      have hni : ∃ expr, notifyTarget svc mgr.callback
          (finalRecord mgr (storeOf mgr fun _ => none) plainJob [] body) =
          .error (.nilPointer expr) := by
        rw [notifyTarget_nil_iff, ha]
        rcases hdu with ⟨cb,hc',-⟩ | ⟨hm,hk⟩
        · rw [hb] at hc'
          cases hc'
        · rw [ho] at hm
          obtain ⟨js,hj,hur⟩ := plainJob_record mgr body
          rw [if_pos (Except.ok.inj hm)] at hur
          exact ⟨hb,js,hj,by rw [hur]; exact (getD_ne_iff body).mpr hk⟩
      obtain ⟨expr,hx⟩ := hni
      rw [hx] at hl
      exact hl.elim
    | some cb =>
      obtain ⟨t,ht,hma⟩ := notifyTarget_due ho hb hdu
      rw [ha, hb, ht] at hl
      exact ⟨(delivers_iff hma).mp hl,by simp⟩
  · intro hn R marshal w jobs hfr
    by_cases hdu : Due svc e body
    · obtain ⟨hi,he⟩ := hn hdu
      split
      · trivial
      · rename_i t ht
        exact (delivers_iff ((notifyTarget_url ht).1)).mpr hi
      · rename_i err her
        obtain ⟨cb,hb⟩ := Option.ne_none_iff_exists'.mp he
        obtain ⟨t,ht⟩ := notifyTarget_of_section cb
          (finalRecord mgr (storeOf mgr marshal) w jobs body)
        rw [ha, hb, ht] at her
        cases her
    · rw [notifyTarget_not_due ho ha hdu marshal w hfr]
      trivial

/-- A service in which the timeout `30s` can be parsed. -/
def timedService : Service :=
  { reportService with parseDuration := fun s => if s = "30s" then some 30000000 else none }

def timedEntry (timeout : String) : AsyncEntry :=
  { reportEntry with
    timeout := timeout
    asyncStore := some {
      reassign := some {}
      callback := some { url := "https://myapp.com/cb", retry := 2 } } }

def timedManager : Manager where
  kind := .memory
  timeout := Service.fiveMinutes
  callback := some { url := "https://myapp.com/cb", retry := 2 }
  processingTimeout := Service.fiveMinutes

theorem untimed_callbacks_survive :
    Survives timedService timedManager (registerEntryTimeout timedService (timedEntry ""))
      none := by
  have h := @callbacks_survive_iff timedService timedManager (timedEntry "") (timedEntry "") ""
    (by decide) (by decide) [] [] none
  simp only [nil_append, append_nil] at h
  exact h.mpr fun _ => ⟨by simp [NoTimeout, registerEntryTimeout, timedEntry],by decide⟩

/-- With a timeout of the entry, an endpoint that accepts every request never
gets one. -/
theorem timed_callback_is_lost :
    validateAsync (timedEntry "30s") = .ok (timedEntry "30s") ∧
      registerOneEntry timedService "" (timedEntry "30s") = .ok timedManager ∧
      ∃ t, notifyTarget timedService timedManager.callback (finalRecord timedManager
          (storeOf timedManager fun _ => none) plainJob [] none) = .ok (some t) ∧
        t.maxRetry = 2 ∧
        ∃ s, Runs t (registerEntryTimeout timedService (timedEntry "30s"))
            ⟨true,fun _ => some 200⟩
            [.unwind,.respond,.processed,.attempt,.attempt,.attempt] s ∧
          s.job = .gaveUp ∧ s.sent = 0 := by
  refine ⟨by decide,by decide,⟨"https://myapp.com/cb","",2,5000000⟩,by decide,rfl,
    { inside := [], responded := true, done := [0], job := .gaveUp },?_,rfl,rfl⟩
  exact run_of_guarded_play (by decide)

end

end SdkApi.CallbackDelivery
