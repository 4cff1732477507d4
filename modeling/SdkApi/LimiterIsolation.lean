import SdkApi.LimiterStore

/-!
# Limits that do not share a limiter

The checks that may be made are given by a relation between places, slots and
entries, and each of them belongs to an owner. When the cells and the Redis
names of two owners are apart, no owner notices the checks of another one.
-/

namespace SdkApi.LimiterIsolation
open Limiters LimiterStore Unwinding Option

variable {settings : Place → Settings} {P : Place → Slot → RateLimitEntry → Prop}

section

def Admissible (P : Place → Slot → RateLimitEntry → Prop) : Action → Prop
  | .check p slot entry _ => P p slot entry
  | .cancel p slot _ => ∃ entry, P p slot entry
  | .gc _ _ => True

@[simp] lemma put_same {σ : System} {p : Place} {cell : Cell} {content : Content} :
    (σ.put p cell content).cells p cell = content := if_pos ⟨rfl,rfl⟩

lemma put_other {σ : System} {p q : Place} {cell k : Cell} {content : Content}
    (h : ¬(q = p ∧ k = cell)) : (σ.put p cell content).cells q k = σ.cells q k := if_neg h

variable {σ ρ : System} {p q : Place} {slot : Slot} {entry : RateLimitEntry} {m : Moment}
  {es : EntryState} {n : ℕ}

lemma check_of_none (h : fetch (settings p) slot entry (σ.cells p slot.cell) m.now = none) :
    check settings σ p slot entry m = (true,σ) := by
  rw [check, h]

lemma check_of_some
    (h : fetch (settings p) slot entry (σ.cells p slot.cell) m.now = some (n,es)) :
    check settings σ p slot entry m = ((es.limiter.allow σ.redis m).1,
      { σ.put p slot.cell ⟨n,some { es with limiter := (es.limiter.allow σ.redis m).2.1 }⟩
        with redis := (es.limiter.allow σ.redis m).2.2 }) := by
  rw [check, h]

lemma fetch_cases {s : Settings} {content : Content} {now : ℤ}
    (h : fetch s slot entry content now = some (n,es)) :
    content.state = some es ∨ es = newState s slot.rlKey entry now := by
  cases slot with
  | global =>
    obtain ⟨held,he,hq⟩ := map_eq_some_iff.mp h
    cases hq
    exact .inl he
  | keyed scope key =>
    simp only [fetch, getOrCreateLimiter, getOrCreate, some.injEq] at h
    split at h
    · cases h
      exact .inr rfl
    · rename_i held he
      split at h
      · cases h
        exact .inl he
      · cases h
        exact .inr rfl

lemma check_cells {k : Cell} (h : ¬(q = p ∧ k = slot.cell)) :
    (check settings σ p slot entry m).2.cells q k = σ.cells q k := by
  cases hf : fetch (settings p) slot entry (σ.cells p slot.cell) m.now with
  | none => rw [check_of_none hf]
  | some r =>
    rw [check_of_some hf]
    exact put_other h

lemma cancel_cells {k : Cell} (h : ¬(q = p ∧ k = slot.cell)) :
    (cancel σ p slot n).cells q k = σ.cells q k := by
  simp only [cancel]
  split
  · exact put_other h
  · rfl

lemma cancel_redis (σ : System) (p : Place) (slot : Slot) (n : ℕ) :
    (cancel σ p slot n).redis = σ.redis := by
  simp only [cancel]
  split <;> rfl

end

section

variable (settings P) in
def Made (σ : System) : Prop :=
  ∀ p cell es, (σ.cells p cell).state = some es → ∃ slot entry, P p slot entry ∧
    slot.cell = cell ∧ es.limiter.origin = newLimiter slot.rlKey entry (settings p)

variable {σ : System} {p : Place} {slot : Slot} {entry : RateLimitEntry} {m : Moment}

section

variable (hσ : Made settings P σ)
include hσ

lemma fetch_made (hP : P p slot entry) {now : ℤ} {n : ℕ} {es : EntryState}
    (h : fetch (settings p) slot entry (σ.cells p slot.cell) now = some (n,es)) :
    ∃ slot' entry', P p slot' entry' ∧ slot'.cell = slot.cell ∧
      es.limiter.origin = newLimiter slot'.rlKey entry' (settings p) := by
  rcases fetch_cases h with he | rfl
  · exact hσ p slot.cell es he
  · exact ⟨slot,entry,hP,rfl,newLimiter_origin⟩

lemma put_made {cell : Cell} {content : Content}
    (h : ∀ es, content.state = some es → ∃ slot entry, P p slot entry ∧ slot.cell = cell ∧
      es.limiter.origin = newLimiter slot.rlKey entry (settings p)) :
    Made settings P (σ.put p cell content) := by
  intro q k es he
  by_cases hq : q = p ∧ k = cell
  · obtain ⟨rfl,rfl⟩ := hq
    rw [put_same] at he
    exact h es he
  · rw [put_other hq] at he
    exact hσ q k es he

lemma check_made (hP : P p slot entry) : Made settings P (check settings σ p slot entry m).2 := by
  cases hf : fetch (settings p) slot entry (σ.cells p slot.cell) m.now with
  | none =>
    rw [check_of_none hf]
    exact hσ
  | some r =>
    obtain ⟨slot',entry',hP',he,ho⟩ := fetch_made hσ hP hf
    rw [check_of_some hf]
    apply put_made hσ
    intro es hes
    cases hes
    exact ⟨slot',entry',hP',he,allow_origin.trans ho⟩

lemma cancel_made (n : ℕ) : Made settings P (cancel σ p slot n) := by
  simp only [cancel]
  split
  · apply put_made hσ
    intro es hes
    obtain ⟨held,he,rfl⟩ := map_eq_some_iff.mp hes
    obtain ⟨slot',entry',hP,hl,ho⟩ := hσ p slot.cell held he
    exact ⟨slot',entry',hP,hl,(cancel_origin _).trans ho⟩
  · exact hσ

lemma gc_made (p : Place) (now : ℤ) : Made settings P (gc σ p now) := by
  intro q k es he
  apply hσ q k es
  simp only [gc] at he
  split at he
  · exact (filter_eq_some_iff.mp he).1
  · exact he

end

lemma step_made (σ : System) (a : Action) (hσ : Made settings P σ) (ha : Admissible P a) :
    Made settings P (step settings σ a).2 := by
  cases a with
  | check p slot entry m => exact check_made hσ ha
  | cancel p slot n => exact cancel_made hσ n
  | gc p now => exact gc_made hσ p now

end

section

variable {τ : Type} {owner : Place → Slot → τ}

variable (settings P owner) in
/-- One cell has one slot, and one Redis name one owner. -/
structure Apart : Prop where
  cell : ∀ {p s s' e e'}, P p s e → P p s' e' → s.cell = s'.cell → s = s'
  redis : ∀ {p q s e e'}, P p s e → P q s e' → (settings p).rdb = true →
    (settings q).rdb = true → owner p s = owner q s
  slot : ∀ {p q s s'}, owner p s = owner q s' → s = s'

variable (owner) in
def concerns [DecidableEq τ] (t : τ) : Action → Bool
  | .check p slot _ _ => owner p slot = t
  | .cancel p slot _ => owner p slot = t
  | .gc _ _ => true

variable (settings P owner) in
def Agree (t : τ) (σ ρ : System) : Prop :=
  ∀ p slot entry, P p slot entry → owner p slot = t →
    σ.cells p slot.cell = ρ.cells p slot.cell ∧
    ((settings p).rdb = true → ∀ k ∈ keysOf slot.rlKey, σ.redis k = ρ.redis k)

variable {t : τ} {σ ρ : System} {p : Place} {slot : Slot} {entry : RateLimitEntry} {m : Moment}

variable (P owner) in
def OwnsCells : Prop :=
  ∀ p s s' e e', P p s e → P p s' e' → s.cell = s'.cell → owner p s = owner p s'

variable (settings P owner) in
def OwnsKeys : Prop :=
  ∀ p q s e e', P p s e → P q s e' → (settings p).rdb = true → (settings q).rdb = true →
    owner p s = owner q s

lemma Apart.ownsCells (ha : Apart settings P owner) : OwnsCells P owner := by
  intro p s s' e e' hs hs' he
  rw [ha.cell hs hs' he]

lemma Apart.ownsKeys (ha : Apart settings P owner) : OwnsKeys settings P owner :=
  fun _ _ _ _ _ hp hq hb hqr => ha.redis hp hq hb hqr

lemma fetch_keys (hσ : Made settings P σ) (hP : P p slot entry) {now : ℤ} {n : ℕ} {es : EntryState}
    (h : fetch (settings p) slot entry (σ.cells p slot.cell) now = some (n,es)) :
    ∃ slot' entry', P p slot' entry' ∧ slot'.cell = slot.cell ∧
      es.limiter.keys = if (settings p).rdb then keysOf slot'.rlKey else [] := by
  obtain ⟨slot',entry',hP',he,ho⟩ := fetch_made hσ hP h
  exact ⟨slot',entry',hP',he,keys_of_origin ho⟩

lemma check_own (hcl : OwnsCells P owner) (hσ : Made settings P σ)
    (ha : Agree settings P owner t σ ρ) (hP : P p slot entry) (ht : owner p slot = t) :
    (check settings σ p slot entry m).1 = (check settings ρ p slot entry m).1 ∧
      Agree settings P owner t (check settings σ p slot entry m).2
        (check settings ρ p slot entry m).2 := by
  obtain ⟨hce,-⟩ := ha p slot entry hP ht
  cases hf : fetch (settings p) slot entry (σ.cells p slot.cell) m.now with
  | none =>
    have hf' := hf
    rw [hce] at hf'
    rw [check_of_none hf, check_of_none hf']
    exact ⟨rfl,ha⟩
  | some r =>
    have hf' := hf
    rw [hce] at hf'
    obtain ⟨slot',entry',hP',hc',hy⟩ := fetch_keys hσ hP hf
    have ho : owner p slot' = t := (hcl _ _ _ _ _ hP' hP hc').trans ht
    have hm : ∀ k ∈ r.2.limiter.keys, σ.redis k = ρ.redis k := by
      intro k hk
      rw [hy] at hk
      cases hb : (settings p).rdb with
      | true => exact (ha p slot' entry' hP' ho).2 hb k (by simpa [hb] using hk)
      | false => simp [hb] at hk
    obtain ⟨hn,hl,haf⟩ := allow_local (m := m) hm
    rw [check_of_some hf, check_of_some hf']
    refine ⟨hn,?_⟩
    intro q s e hq hs
    obtain ⟨hqc,he⟩ := ha q s e hq hs
    constructor
    · by_cases hqp : q = p ∧ s.cell = slot.cell
      · rw [hqp.1, hqp.2]
        simp only [put_same, hl]
      · simp only [put_other hqp, hqc]
    · intro hb k hk
      by_cases hme : k ∈ r.2.limiter.keys
      · exact haf k hme
      · simp only [allow_frame hme]
        exact he hb k hk

lemma cells_apart (he : OwnsCells P owner) {q : Place} {s : Slot} {e : RateLimitEntry}
    (hq : P q s e) (hs : owner q s = t) (hP : P p slot entry) (ht : owner p slot ≠ t) :
    ¬(q = p ∧ s.cell = slot.cell) := by
  rintro ⟨rfl,hl⟩
  exact ht ((he _ _ _ _ _ hP hq hl.symm).trans hs)

lemma check_other (he : OwnsCells P owner) (hy : OwnsKeys settings P owner)
    (hσ : Made settings P σ) (ha : Agree settings P owner t σ ρ) (hP : P p slot entry)
    (ht : owner p slot ≠ t) : Agree settings P owner t (check settings σ p slot entry m).2 ρ := by
  intro q s e hq hs
  obtain ⟨hl,hi⟩ := ha q s e hq hs
  refine ⟨(check_cells (cells_apart he hq hs hP ht)).trans hl,?_⟩
  intro hrd k hk
  rw [← hi hrd k hk]
  cases hf : fetch (settings p) slot entry (σ.cells p slot.cell) m.now with
  | none => rw [check_of_none hf]
  | some r =>
    obtain ⟨slot',entry',hP',hc',hm⟩ := fetch_keys hσ hP hf
    rw [check_of_some hf]
    apply allow_frame
    rw [hm]
    intro hme
    split at hme
    · rename_i hb
      -- a key in common would make the two slots one, and their owners too
      have hsl : s = slot' := rlKey_injective (rlKey_of_mem_keysOf hk hme)
      subst hsl
      have ho := he _ _ _ _ _ hP hP' hc'.symm
      exact ht ((ho.trans (hy _ _ _ _ _ hP' hq hb hrd)).trans hs)
    · cases hme

lemma cancel_own (ha : Agree settings P owner t σ ρ) (hP : P p slot entry) (ht : owner p slot = t)
    (n : ℕ) : Agree settings P owner t (cancel σ p slot n) (cancel ρ p slot n) := by
  obtain ⟨hl,-⟩ := ha p slot entry hP ht
  intro q s e hq hs
  obtain ⟨hqc,he⟩ := ha q s e hq hs
  constructor
  · by_cases hqp : q = p ∧ s.cell = slot.cell
    · rw [hqp.1, hqp.2]
      simp only [cancel, hl]
      split
      · simp only [put_same]
      · exact hl
    · rw [cancel_cells hqp, cancel_cells hqp, hqc]
  · intro hb k hk
    rw [cancel_redis, cancel_redis]
    exact he hb k hk

lemma cancel_other (hl : OwnsCells P owner) (ha : Agree settings P owner t σ ρ)
    (hP : P p slot entry) (ht : owner p slot ≠ t) (n : ℕ) :
    Agree settings P owner t (cancel σ p slot n) ρ := by
  intro q s e hq hs
  obtain ⟨hqc,he⟩ := ha q s e hq hs
  refine ⟨(cancel_cells (cells_apart hl hq hs hP ht)).trans hqc,?_⟩
  intro hb k hk
  rw [cancel_redis]
  exact he hb k hk

lemma gc_own (ha : Agree settings P owner t σ ρ) (p : Place) (now : ℤ) :
    Agree settings P owner t (gc σ p now) (gc ρ p now) := by
  intro q s e hq hs
  obtain ⟨hl,he⟩ := ha q s e hq hs
  refine ⟨?_,he⟩
  simp only [gc, hl]

variable [DecidableEq τ]

lemma step_own (he : OwnsCells P owner) {σ ρ : System} {a : Action} (hσ : Made settings P σ)
    (hg : Agree settings P owner t σ ρ) (ha : Admissible P a) (ho : concerns owner t a) :
    (step settings σ a).1 = (step settings ρ a).1 ∧
      Agree settings P owner t (step settings σ a).2 (step settings ρ a).2 := by
  cases a with
  | check p slot entry m => exact check_own he hσ hg ha (of_decide_eq_true ho)
  | cancel p slot n =>
    obtain ⟨entry,hP⟩ := ha
    exact ⟨rfl,cancel_own hg hP (of_decide_eq_true ho) n⟩
  | gc p now => exact ⟨rfl,gc_own hg p now⟩

lemma step_other (he : OwnsCells P owner) (hk : OwnsKeys settings P owner) {σ ρ : System}
    {a : Action} (hσ : Made settings P σ) (hg : Agree settings P owner t σ ρ) (ha : Admissible P a)
    (ho : concerns owner t a = false) : Agree settings P owner t (step settings σ a).2 ρ := by
  cases a with
  | check p slot entry m => exact check_other he hk hσ hg ha (of_decide_eq_false ho)
  | cancel p slot n =>
    obtain ⟨entry,hP⟩ := ha
    exact cancel_other he hg hP (of_decide_eq_false ho) n
  | gc p now => cases ho

lemma trace_alone (ht : Apart settings P owner) (hσ : Made settings P σ)
    {actions : List Action} (ha : ∀ a ∈ actions, Admissible P a) (t : τ) :
    (trace (step settings) σ actions).filter (fun r => concerns owner t r.1) =
      trace (step settings) σ (actions.filter (concerns owner t)) := by
  have hn : ∀ s u a, Made settings P s → Made settings P u → Agree settings P owner t s u →
      Admissible P a → concerns owner t a →
      (step settings s a).1 = (step settings u a).1 ∧
        Agree settings P owner t (step settings s a).2 (step settings u a).2 :=
    fun s u a hs _ hg => step_own ht.ownsCells hs hg
  have ho : ∀ s u a, Made settings P s → Agree settings P owner t s u → Admissible P a →
      concerns owner t a = false → Agree settings P owner t (step settings s a).2 u :=
    fun s u a hs hg => step_other ht.ownsCells ht.ownsKeys hs hg
  have hsa : Agree settings P owner t σ σ := fun _ _ _ _ _ => ⟨rfl,fun _ _ _ => rfl⟩
  exact trace_purge step_made hn ho hσ hσ hsa ha

/-! The limits that use one cell, as one owner. -/

def cellOf (p : Place) (slot : Slot) : Place × Cell := (p,slot.cell)

variable {t : Place × Cell}

lemma agree_refl (σ : System) : Agree settings P cellOf t σ σ :=
  fun _ _ _ _ _ => ⟨rfl,fun _ _ _ => rfl⟩

lemma cellOf_ownsCells : OwnsCells P cellOf := by
  intro p s s' e e' _ _ he
  rw [cellOf, cellOf, he]

lemma cellOf_ownsKeys (ho : ∀ p q s e e', P p s e → P q s e' → p = q) :
    OwnsKeys settings P cellOf := by
  intro p q s e e' hp hq _ _
  rw [ho p q s e e' hp hq]

end

end SdkApi.LimiterIsolation
