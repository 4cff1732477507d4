import SdkApi.RejectedRequests
import SdkApi.LimiterBudgets

/-!
# A charge that is not returned shows

Every limiter that is held keeps what its algorithm needs, and checks at one
instant run it dry. If a rejected request had left a limiter that granted it
as it was, the same checks would be granted for ever; so the other limiters
are untouched only if none of them was asked before the one that refuses.
-/

namespace SdkApi.RejectionCosts
open Limiters LimiterStore LimiterIsolation LimiterBudgets Unwinding RejectedRequests List Option
open LimitScopes (shouldSkipRequest withRole)

section

variable {lim : Limits} {σ : System}

def Ordinary (lim : Limits) : Prop :=
  ∀ p slot entry, lim.Configured p slot entry → (lim.settings p).rdb = true →
    entry.requestsPerSecond ≤ second

structure Stocked (lim : Limits) (σ : System) : Prop where
  sound : ∀ p cell es, (σ.cells p cell).state = some es → Sound es.limiter
  global : ∀ entry, lim.Configured .server .global entry →
    ∃ es, (σ.cells .server .global).state = some es ∧ es.expiresAt = 0

lemma start_stocked (ho : Ordinary lim) (db : Redis) : Stocked lim (lim.start db) where
  sound := by
    intro p cell es he
    simp only [Limits.start] at he
    split_ifs at he with h
    obtain ⟨r,hr,rfl⟩ := map_eq_some_iff.mp he
    obtain ⟨hg,ha⟩ := filter_eq_some_iff.mp hr
    have ha := of_decide_eq_true ha
    exact newLimiter_sound ha (ho _ _ _ (configured_global hg ha))
  global := by
    intro entry h
    have ha := (configured_cases h).2
    exact ⟨{ limiter := newLimiter Slot.global.rlKey entry (lim.settings .server) },
      by simp [Limits.start, global_of_configured h, ha],rfl⟩

section

variable {p : Place} {slot : Slot} {entry : RateLimitEntry} {m : Moment} {now : ℤ}

lemma newState_live (ho : Ordinary lim) (hP : lim.Configured p slot entry) :
    Sound (newState (lim.settings p) slot.rlKey entry now).limiter ∧
      ((newState (lim.settings p) slot.rlKey entry now).expiresAt = 0 ∨
        now < (newState (lim.settings p) slot.rlKey entry now).expiresAt) := by
  refine ⟨newLimiter_sound (configured_cases hP).2 (ho p slot entry hP),?_⟩
  dsimp only [newState]
  split_ifs <;> omega

variable {content : Content}

lemma getOrCreateLimiter_live (ho : Ordinary lim) (hP : lim.Configured p slot entry)
    (he : ∀ es, content.state = some es → Sound es.limiter) :
    Sound (getOrCreateLimiter (lim.settings p) slot entry content now).2.limiter ∧
      ((getOrCreateLimiter (lim.settings p) slot entry content now).2.expiresAt = 0 ∨
        now < (getOrCreateLimiter (lim.settings p) slot entry content now).2.expiresAt) := by
  unfold getOrCreateLimiter getOrCreate
  split
  · exact newState_live ho hP
  · rename_i es hes
    split
    · rename_i hx
      exact ⟨he es hes,hx⟩
    · exact newState_live ho hP

lemma fetch_live (ho : Ordinary lim) (hσ : Stocked lim σ) (hP : lim.Configured p slot entry) :
    ∃ n es, fetch (lim.settings p) slot entry (σ.cells p slot.cell) now = some (n,es) ∧
      Sound es.limiter ∧ (es.expiresAt = 0 ∨ now < es.expiresAt) := by
  cases slot with
  | global =>
    have hp : p = .server := (configured_cases hP).1
    subst hp
    obtain ⟨es,hes,he⟩ := hσ.global entry hP
    exact ⟨_,es,by rw [fetch, Slot.cell, hes, map_some],hσ.sound _ _ es hes,.inl he⟩
  | keyed scope key =>
    exact ⟨_,_,rfl,getOrCreateLimiter_live ho hP (hσ.sound p _)⟩

lemma fetch_global {n : ℕ} {es : EntryState}
    (h : fetch (lim.settings p) .global entry content now = some (n,es)) :
    content.state = some es := by
  obtain ⟨held,he,hq⟩ := map_eq_some_iff.mp h
  cases hq
  exact he

lemma put_stocked (hσ : Stocked lim σ) {τ : System} {cell : Cell}
    (hτ : τ.cells = (σ.put p cell content).cells)
    (ho : ∀ es, content.state = some es → Sound es.limiter)
    (hg : p = .server → cell = .global → ∀ held, (σ.cells p cell).state = some held →
      ∃ es, content.state = some es ∧ es.expiresAt = held.expiresAt) :
    Stocked lim τ := by
  constructor
  · intro q k held hl
    by_cases hq : q = p ∧ k = cell
    · obtain ⟨rfl,rfl⟩ := hq
      rw [hτ, put_same] at hl
      exact ho held hl
    · rw [hτ, put_other hq] at hl
      exact hσ.sound q k held hl
  · intro e he
    obtain ⟨held,hl,hx⟩ := hσ.global e he
    by_cases hq : .server = p ∧ Cell.global = cell
    · obtain ⟨rfl,rfl⟩ := hq
      obtain ⟨es,hes,ha⟩ := hg rfl rfl held hl
      exact ⟨es,by rw [hτ, put_same, hes],ha.trans hx⟩
    · exact ⟨held,by rw [hτ, put_other hq, hl],hx⟩

lemma check_stocked (hor : Ordinary lim) (hσ : Stocked lim σ) (hP : lim.Configured p slot entry)
    (hn : 0 ≤ m.now) : Stocked lim (check lim.settings σ p slot entry m).2 := by
  obtain ⟨n,es,hf,ho,-⟩ := @fetch_live lim σ p slot entry m.now hor hσ hP
  rw [check_of_some hf]
  refine put_stocked hσ (Eq.refl (σ.put p slot.cell _).cells) ?_ ?_
  · intro held he
    cases he
    exact allow_sound ho hn
  · intro _ hl held he
    cases slot with
    | keyed scope key => cases hl
    | global =>
      have hes := fetch_global hf
      rw [he] at hes
      cases hes
      exact ⟨_,rfl,rfl⟩

lemma cancel_stocked (hσ : Stocked lim σ) (n : ℕ) : Stocked lim (cancel σ p slot n) := by
  simp only [cancel]
  split
  · apply put_stocked hσ rfl
    · intro held he
      obtain ⟨es,hes,rfl⟩ := map_eq_some_iff.mp he
      exact cancel_sound (hσ.sound p slot.cell es hes)
    · intro _ _ held he
      exact ⟨{ held with limiter := held.limiter.cancel },by rw [he, map_some],rfl⟩
  · exact hσ

lemma gc_stocked (hσ : Stocked lim σ) (q : Place) (now : ℤ) : Stocked lim (gc σ q now) := by
  constructor
  · intro r cell held hl
    simp only [gc] at hl
    split at hl
    · exact hσ.sound r cell held (filter_eq_some_iff.mp hl).1
    · exact hσ.sound r cell held hl
  · intro e he
    obtain ⟨held,hl,hx⟩ := hσ.global e he
    refine ⟨held,?_,hx⟩
    simp only [gc]
    split
    · rw [Content.gc, hl, filter_some]
      simp [hx]
    · exact hl

end

lemma step_stocked (ho : Ordinary lim) (σ : System) (a : Action) (hσ : Stocked lim σ)
    (ha : Admissible lim.Configured a ∧ Timed a) : Stocked lim (step lim.settings σ a).2 := by
  cases a with
  | check p slot entry m => exact check_stocked ho hσ ha.1 ha.2
  | cancel p slot n => exact cancel_stocked hσ n
  | gc p now => exact gc_stocked hσ p now

lemma state_stocked (ho : Ordinary lim) (db : Redis) {history : List Event}
    (ht : ∀ e ∈ history, e.Timed) : Stocked lim (lim.state db history) :=
  final_invariant (step_stocked ho) (start_stocked ho db)
    (mem_performed_of_mem (fun e he _ _ ha => ⟨(mem_actions ha).1,(mem_actions ha).2 (ht e he)⟩) _)

end

section

variable {lim : Limits} {σ : System} {u : Place × Cell} {t : ℤ} {a : Action}

def Strike (lim : Limits) (u : Place × Cell) (t : ℤ) : Action → Prop
  | .check p slot entry m => lim.Configured p slot entry ∧ cellOf p slot = u ∧ m.now = t
  | _ => False

/-- A sound limiter is held that has not expired. -/
def Live (u : Place × Cell) (t : ℤ) (σ : System) : Prop :=
  ∃ es, (σ.cells u.1 u.2).state = some es ∧ Sound es.limiter ∧
    (es.expiresAt = 0 ∨ t < es.expiresAt)

def left (u : Place × Cell) (t : ℤ) (σ : System) : ℕ :=
  ((σ.cells u.1 u.2).state.map fun es => budget σ.redis t es.limiter).getD 0

lemma strike_first (hor : Ordinary lim) (ht : 0 ≤ t) (hσ : Stocked lim σ)
    (ha : Strike lim u t a) : Live u t (step lim.settings σ a).2 := by
  cases a with
  | cancel p slot n => cases ha
  | gc p now => cases ha
  | check p slot entry m =>
    obtain ⟨hP,rfl,rfl⟩ := ha
    obtain ⟨n,es,hf,ho,he⟩ := @fetch_live lim σ p slot entry m.now hor hσ hP
    rw [step, check_of_some hf]
    exact ⟨_,congrArg Content.state put_same,allow_sound ho ht,he⟩

lemma fetch_held {p : Place} {slot : Slot} {entry : RateLimitEntry} {es : EntryState}
    (he : (σ.cells p slot.cell).state = some es) (hx : es.expiresAt = 0 ∨ t < es.expiresAt) :
    fetch (lim.settings p) slot entry (σ.cells p slot.cell) t =
      some ((σ.cells p slot.cell).created,es) := by
  cases slot with
  | global => rw [fetch, he, map_some]
  | keyed scope key => rw [fetch, getOrCreateLimiter, getOrCreate, he]; simp [hx]

lemma strike_next (ht : 0 ≤ t) (hσ : Live u t σ) (ha : Strike lim u t a) :
    Live u t (step lim.settings σ a).2 ∧
      ((step lim.settings σ a).1 → left u t (step lim.settings σ a).2 < left u t σ) := by
  cases a with
  | cancel p slot n => cases ha
  | gc p now => cases ha
  | check p slot entry m =>
    obtain ⟨hP,rfl,rfl⟩ := ha
    obtain ⟨es,he,ho,hx⟩ := hσ
    have hf := @fetch_held lim σ m.now p slot entry es he hx
    rw [step, check_of_some hf]
    refine ⟨⟨_,congrArg Content.state put_same,allow_sound ho ht,hx⟩,?_⟩
    intro hg
    have hl := budget_granted ho ht hg
    simp only [left, cellOf, put_same, map_some, getD_some]
    rw [show (σ.cells p slot.cell).state = some es from he]
    exact hl

lemma rounds_refused (hor : Ordinary lim) (ht : 0 ≤ t) (hσ : Stocked lim σ)
    {xs : List Action} (hn : xs ≠ []) (hx : ∀ a ∈ xs, Strike lim u t a) :
    ∃ n, ¬∀ r ∈ trace (step lim.settings) σ (rounds xs n), r.2 := by
  obtain ⟨x,rest,rfl⟩ := exists_cons_of_ne_nil hn
  have hl := strike_first hor ht hσ (hx x (.head _))
  refine ⟨left u t (step lim.settings σ x).2+2,fun hal => ?_⟩
  rw [rounds_succ, cons_append, trace] at hal
  have hok : ∀ a ∈ rest++rounds (x::rest) (left u t (step lim.settings σ x).2+1),
      Strike lim u t a := by
    intro a ha
    rcases mem_append.mp ha with ha | ha
    · exact hx a (.tail x ha)
    · exact hx a (mem_of_rounds ha)
  have he := length_le_of_granted (fun s a hs ha => (strike_next ht hs ha).1)
    (fun s a hs ha => (strike_next ht hs ha).2) hl hok
    (fun r hr => hal r (.tail _ hr))
  have ho := le_length_rounds hn (left u t (step lim.settings σ x).2+1)
  rw [length_append] at he
  omega

variable {v : Visit}

variable {p : Place} {slot : Slot} {entry : RateLimitEntry} {m : Moment} {u : Place × Cell}

structure Plain (lim : Limits) (history : List Event) (v : Visit) (p : Place) : Prop where
  ordinary : Ordinary lim
  past : ∀ e ∈ history, e.Timed
  clock : 0 ≤ (v.moments 0).now
  instant : ∀ i, (v.moments i).now = (v.moments 0).now
  kept : lim.pre.skipFailedRequests = false ∨ p = .server

lemma actions_of_kept (hk : lim.pre.skipFailedRequests = false ∨ p = .server)
    (h : refused (step lim.settings) σ (lim.asks v) = some (.check p slot entry m)) :
    lim.actions σ (.visit v) = lim.asked σ v := by
  apply actions_eq_asked
  rw [code_refused h]
  rcases hk with hi | hp
  · split_ifs <;> simp [shouldSkipRequest, hi]
  · simp [hp]

lemma other_of_not_sole {xs ys : List Action} {a : Action} {t : Place × Cell}
    (hk : lim.asks v = xs++a::ys) (ha : concerns cellOf t a)
    (hno : (step lim.settings (final (step lim.settings) σ xs) a).1 = false)
    (h : ¬Sole lim σ v) : ∃ b ∈ xs, concerns cellOf t b = false := by
  by_contra hal
  apply h
  refine ⟨xs.length+1,t,?_,?_⟩
  · intro b hb
    rw [hk, take_to] at hb
    rcases mem_append.mp hb with hb | hb
    · by_contra hl
      exact hal ⟨b,hb,by simpa using hl⟩
    · rw [mem_singleton.mp hb]
      exact ha
  · rw [hk, take_to, trace_append]
    exact ⟨_,mem_append_right _ (.head _),hno⟩

lemma trace_own (hσ : Made lim.settings lim.Configured σ) {xs : List Action}
    (hx : ∀ a ∈ xs, Admissible lim.Configured a) :
    (trace (step lim.settings) σ xs).filter (fun r => concerns cellOf u r.1) =
      trace (step lim.settings) σ (xs.filter (concerns cellOf u)) :=
  trace_purge step_made
    (fun _ _ _ hs _ hg ha hc => step_own cellOf_ownsCells hs hg ha hc)
    step_view_other hσ hσ (agree_refl σ) hx

lemma trace_second (hσ : Made lim.settings lim.Configured σ)
    (hk : lim.pre.skipFailedRequests = false ∨ p = .server)
    (h : refused (step lim.settings) σ (lim.asks v) = some (.check p slot entry m))
    (hn : OthersUntouched lim σ v (cellOf p slot)) (hu : u ≠ cellOf p slot) {future : List Action}
    (hf : ∀ b ∈ future, b ∈ lim.asks v ∧ concerns cellOf u b ∧ Since (v.moments 0).now b) :
    trace (step lim.settings)
        (final (step lim.settings) σ ((lim.asked σ v).filter (concerns cellOf u))) future =
      trace (step lim.settings) σ future := by
  have he := hn u hu future fun b hb => ⟨asks_admissible (hf b hb).1,(hf b hb).2⟩
  rw [actions_of_kept hk h,
    trace_asked hσ fun b hb => ⟨asks_admissible (hf b hb).1,(hf b hb).2.1⟩] at he
  exact he

lemma sole_of_untouched {history : List Event} (hσ : Made lim.settings lim.Configured σ)
    (ht : Stocked lim σ) (hl : Plain lim history v p)
    (h : refused (step lim.settings) σ (lim.asks v) = some (.check p slot entry m))
    (hu : OthersUntouched lim σ v (cellOf p slot)) : Sole lim σ v := by
  by_contra hso
  obtain ⟨xs,ys,hk,hi,hg,hno⟩ := refused_cases h
  obtain ⟨b,hb,ho⟩ := other_of_not_sole hk (concerns_check.mpr rfl) hno hso
  have hme : ∀ a ∈ xs, a ∈ lim.asks v := fun a ha => hk ▸ mem_append_left _ ha
  obtain ⟨q,s,e,i,rfl,-⟩ := mem_asks (hme b hb)
  have hne : cellOf q s ≠ cellOf p slot := of_decide_eq_false ho
  -- the checks of the request at the limiter of that check, all of them granted
  have he : (lim.asked σ v).filter (concerns cellOf (cellOf q s)) =
      xs.filter (concerns cellOf (cellOf q s)) := by
    have hse : concerns cellOf (cellOf q s) (.check p slot entry m) = false :=
      decide_eq_false hne.symm
    rw [Limits.asked, hi, filter_append, filter_singleton, hse]
    simp
  have how : ∀ a ∈ (lim.asked σ v).filter (concerns cellOf (cellOf q s)),
      a ∈ lim.asks v ∧ concerns cellOf (cellOf q s) a ∧ Since (v.moments 0).now a ∧
        Strike lim (cellOf q s) (v.moments 0).now a := by
    intro a ha
    obtain ⟨ha,hc⟩ := mem_filter.mp ha
    have ha := mem_of_untilRefused _ ha
    obtain ⟨q',s',e',j,rfl,hP⟩ := mem_asks ha
    exact ⟨ha,hc,(hl.instant j).ge,hP,concerns_check.mp hc,hl.instant j⟩
  have hfi : ∀ r ∈ trace (step lim.settings) σ
      ((lim.asked σ v).filter (concerns cellOf (cellOf q s))), r.2 := by
    intro r hr
    rw [he, ← trace_own hσ fun a ha => asks_admissible (hme a ha)] at hr
    exact hg r (mem_filter.mp hr).1
  have hm : (lim.asked σ v).filter (concerns cellOf (cellOf q s)) ≠ [] := by
    rw [he]
    exact ne_nil_of_mem (mem_filter.mpr ⟨hb,concerns_check.mpr rfl⟩)
  obtain ⟨n,hn⟩ := rounds_refused hl.ordinary hl.clock ht hm
    fun a ha => (how a ha).2.2.2
  apply hn
  apply trace_rounds hfi
  intro k
  apply trace_second hσ hl.kept h hu hne
  intro a ha
  obtain ⟨hk,hc,hsi,-⟩ := how a (mem_of_rounds ha)
  exact ⟨hk,hc,hsi⟩

/-- After any history: a rejected request leaves the other limiters alone if
the first checks up to a refused one go to one limiter, and where nothing is
given back only then. -/
theorem rejected_untouched (lim : Limits) (db : Redis) (history : List Event) (v : Visit)
    (p : Place) (slot : Slot) (entry : RateLimitEntry) (m : Moment)
    (h : refused (step lim.settings) (lim.state db history) (lim.asks v) =
      some (.check p slot entry m)) :
    (Sole lim (lim.state db history) v →
      OthersUntouched lim (lim.state db history) v (cellOf p slot)) ∧
    (Plain lim history v p → OthersUntouched lim (lim.state db history) v (cellOf p slot) →
      Sole lim (lim.state db history) v) :=
  ⟨untouched_of_sole (state_made lim db history) h,
    fun hl => sole_of_untouched (state_made lim db history)
      (state_stocked hl.ordinary db hl.past) hl h⟩

def twoLimits (global perIP : ℤ) : Limits where
  pre := { global := some ⟨global,global,0⟩, perIP := some ⟨perIP,perIP,0⟩,
           algorithm := "token_bucket" }
  post := {}

def visitFrom (ip : String) : Visit where
  ip := ip
  c := withRole ""
  moments := fun _ => { now := 0 }

/-- The limit on all requests is asked first. -/
theorem global_rejects_alone :
    refused (step (twoLimits 1 5).settings)
        ((twoLimits 1 5).state (fun _ => none) [.visit (visitFrom "a")])
        ((twoLimits 1 5).asks (visitFrom "b")) =
      some (.check .server .global ⟨1,1,0⟩ { now := 0 }) ∧
    OthersUntouched (twoLimits 1 5)
      ((twoLimits 1 5).state (fun _ => none) [.visit (visitFrom "a")]) (visitFrom "b")
      (cellOf .server .global) := by
  have he : refused (step (twoLimits 1 5).settings)
      ((twoLimits 1 5).state (fun _ => none) [.visit (visitFrom "a")])
      ((twoLimits 1 5).asks (visitFrom "b")) =
        some (.check .server .global ⟨1,1,0⟩ { now := 0 }) := by decide
  refine ⟨he,(rejected_untouched (twoLimits 1 5) _ _ _ _ _ _ _ he).1 ?_⟩
  exact ⟨1,cellOf .server .global,by decide,by decide⟩

/-- A client that its own limit rejects has used up the limit on all requests:
the next one is refused, and would not be without it. -/
theorem address_exhausts_global :
    refused (step (twoLimits 2 1).settings)
        ((twoLimits 2 1).state (fun _ => none) [.visit (visitFrom "a")])
        ((twoLimits 2 1).asks (visitFrom "a")) =
      some (.check .server (.keyed .ip "a") ⟨1,1,0⟩ { now := 0 }) ∧
    ¬OthersUntouched (twoLimits 2 1)
      ((twoLimits 2 1).state (fun _ => none) [.visit (visitFrom "a")]) (visitFrom "a")
      (cellOf .server (.keyed .ip "a")) := by
  refine ⟨by decide,fun h => ?_⟩
  have ha := h (.server,.global) (by decide) [.check .server .global ⟨2,2,0⟩ { now := 0 }] (by
    intro b hb
    rw [mem_singleton.mp hb]
    exact ⟨configured_global rfl (by decide),by decide,le_rfl⟩)
  revert ha
  decide

end

end SdkApi.RejectionCosts
