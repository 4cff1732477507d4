import SdkApi.LimitScopes

/-!
# What a rejected request costs the other limits

A request meets the limits of `RateLimit` and, behind the authentication,
those of `RateLimitPost`. Each limiter is asked, and charged, before the next
one is, and the request is rejected by the first that refuses. The limiters
asked before it keep the charge, unless the answer is not to be counted: then
those of `RateLimit` are given one back.
-/

namespace SdkApi.RejectedRequests
open RequestContext Limiters LimiterStore LimiterIsolation LimitScopes Unwinding List

structure Limits where
  pre : RateLimitConfig
  post : RateLimitPostConfig

/-- A handler that returns an error has no status. -/
structure Visit where
  ip : String
  c : Ctx
  moments : ℕ → Moment
  status : Option ℕ := none

inductive Event where
  | visit (v : Visit)
  | gc (p : Place) (now : ℤ)

namespace Limits

variable (lim : Limits)

def settings : Place → Settings
  | .server => newSettings lim.pre.algorithm lim.pre.ttl lim.pre.redisConn
  | _ => newSettings lim.post.algorithm lim.post.ttl lim.post.redisConn

def start (db : Redis) : System where
  cells p cell :=
    if p = .server ∧ cell = .global then
      ⟨1,(lim.pre.global.filter (0 < ·.requestsPerSecond)).map fun r =>
        { limiter := newLimiter Slot.global.rlKey r (lim.settings .server) }⟩
    else {}
  redis := db

def checks (ip : String) (c : Ctx) : List (Place × Check) :=
  (lim.pre.checks ip).map (Prod.mk .server)++(lim.post.checks c).map (Prod.mk (.post 0))

def asks (v : Visit) : List Action :=
  (lim.checks v.ip v.c).mapIdx fun i x => .check x.1 x.2.slot x.2.entry (v.moments i)

def asked (σ : System) (v : Visit) : List Action :=
  untilRefused (step lim.settings) σ (lim.asks v)

/-- `RateLimit` returns at once when it refuses the request itself. -/
def code (σ : System) (v : Visit) : Option ℕ :=
  match refused (step lim.settings) σ (lim.asks v) with
  | none => v.status
  | some (.check .server _ _ _) => none
  | some _ => some 429

def cancelUsed (σ : System) (ip : String) : List Action :=
  (lim.pre.checks ip).map fun check =>
    .cancel .server check.slot (σ.cells .server check.slot.cell).created

def actions (σ : System) : Event → List Action
  | .visit v =>
    lim.asked σ v++
      if (lim.code σ v).any (shouldSkipRequest lim.pre) then
        lim.cancelUsed (final (step lim.settings) σ (lim.asked σ v)) v.ip
      else []
  | .gc p now => [.gc p now]

def state (db : Redis) (history : List Event) : System :=
  final (step lim.settings) (lim.start db)
    (performed (step lim.settings) lim.actions (lim.start db) history)

def Configured (p : Place) (slot : Slot) (entry : RateLimitEntry) : Prop :=
  ∃ ip c, (p,(⟨slot,entry⟩ : Check)) ∈ lim.checks ip c

end Limits

section

variable (lim : Limits)

def Since (t : ℤ) : Action → Prop
  | .check _ _ _ m => t ≤ m.now
  | .cancel _ _ _ => True
  | .gc _ now => t ≤ now

/-- All other limiters decide as if the request had not arrived. -/
def OthersUntouched (σ : System) (v : Visit) (t : Place × Cell) : Prop :=
  ∀ u, u ≠ t → ∀ future : List Action,
    (∀ b ∈ future, Admissible lim.Configured b ∧ concerns cellOf u b = true ∧
      Since (v.moments 0).now b) →
    trace (step lim.settings) (final (step lim.settings) σ (lim.actions σ (.visit v))) future =
      trace (step lim.settings) σ future

def Sole (σ : System) (v : Visit) : Prop :=
  ∃ n t, (∀ b ∈ (lim.asks v).take n, concerns cellOf t b = true) ∧
    ∃ r ∈ trace (step lim.settings) σ ((lim.asks v).take n), r.2 = false

end

section

variable {lim : Limits} {p : Place} {slot : Slot} {entry : RateLimitEntry}

/-- The slots of `RateLimit`. -/
def front : Slot → Bool
  | .global => true
  | .keyed .ip _ => true
  | _ => false

variable {check : Check} {cfg : RateLimitPostConfig}

lemma mem_preChecks {cfg : RateLimitConfig} {ip : String}
    (h : check ∈ cfg.checks ip) : front check.slot ∧ 0 < check.entry.requestsPerSecond := by
  rcases mem_append.mp h with h | h
  · obtain ⟨hl,-,ht⟩ := mem_checkLimit.mp h
    exact ⟨by rw [hl]; rfl,ht⟩
  · obtain ⟨hl,-,ht⟩ := mem_checkLimit.mp h
    exact ⟨by rw [hl]; rfl,ht⟩

lemma mem_checkPost {c : Ctx} {e : Option RateLimitEntry} {scope : Scope} {extract : Ctx → String}
    (ho : scope ≠ .ip) (h : check ∈ checkPostLimit cfg c e scope extract) :
    front check.slot = false ∧ 0 < check.entry.requestsPerSecond := by
  obtain ⟨-,hl,-,ht⟩ := mem_checkPostLimit.mp h
  refine ⟨?_,ht⟩
  rw [hl]
  cases scope <;> first | rfl | exact absurd rfl ho

lemma mem_postChecks {c : Ctx} (h : check ∈ cfg.checks c) :
    front check.slot = false ∧ 0 < check.entry.requestsPerSecond := by
  simp only [RateLimitPostConfig.checks, mem_append] at h
  rcases h with (((h | h) | h) | h) | h
  · exact mem_checkPost (by decide) h
  · exact mem_checkPost (by decide) h
  · obtain ⟨-,role,-,-,hl,-,ht⟩ := mem_checkRoleLimits.mp h
    exact ⟨by rw [hl]; rfl,ht⟩
  · exact mem_checkPost (by decide) h
  · exact mem_checkPost (by decide) h

lemma configured_cases (h : lim.Configured p slot entry) :
    (p = if front slot then .server else .post 0) ∧ 0 < entry.requestsPerSecond := by
  obtain ⟨ip,c,h⟩ := h
  rcases mem_append.mp h with h | h
  · obtain ⟨check,he,hq⟩ := mem_map.mp h
    cases hq
    obtain ⟨ho,ht⟩ := mem_preChecks he
    exact ⟨by rw [ho]; rfl,ht⟩
  · obtain ⟨check,he,hq⟩ := mem_map.mp h
    cases hq
    obtain ⟨ho,ht⟩ := mem_postChecks he
    exact ⟨by rw [ho]; rfl,ht⟩

lemma configured_place (lim : Limits) (p q : Place) (slot : Slot) (entry entry' : RateLimitEntry)
    (h : lim.Configured p slot entry) (h' : lim.Configured q slot entry') : p = q :=
  (configured_cases h).1.trans (configured_cases h').1.symm

variable {σ : System} {v : Visit}

variable {a : Action} {r : RateLimitEntry}

lemma mem_asks (h : a ∈ lim.asks v) :
    ∃ p slot entry i, a = .check p slot entry (v.moments i) ∧ lim.Configured p slot entry := by
  obtain ⟨i,hi,rfl⟩ := mem_mapIdx.mp h
  exact ⟨_,_,_,i,rfl,v.ip,v.c,getElem_mem hi⟩

lemma asks_admissible (h : a ∈ lim.asks v) : Admissible lim.Configured a := by
  obtain ⟨p,slot,entry,i,rfl,hP⟩ := mem_asks h
  exact hP

lemma asked_admissible (h : a ∈ lim.asked σ v) : Admissible lim.Configured a :=
  asks_admissible (mem_of_untilRefused _ h)

lemma mem_cancelUsed (h : a ∈ lim.cancelUsed σ v.ip) :
    ∃ slot n entry, a = .cancel .server slot n ∧ lim.Configured .server slot entry := by
  obtain ⟨check,he,rfl⟩ := mem_map.mp h
  exact ⟨_,_,check.entry,rfl,v.ip,v.c,mem_append_left _ (mem_map_of_mem he)⟩

def Timed : Action → Prop
  | .check _ _ _ m => 0 ≤ m.now
  | _ => True

def Event.Timed : Event → Prop
  | .visit v => ∀ i, 0 ≤ (v.moments i).now
  | .gc _ _ => True

lemma mem_actions {e : Event} (h : a ∈ lim.actions σ e) :
    Admissible lim.Configured a ∧ (e.Timed → Timed a) := by
  cases e with
  | gc p now =>
    rw [mem_singleton.mp h]
    exact ⟨trivial,fun _ => trivial⟩
  | visit v =>
    rcases mem_append.mp h with h | h
    · obtain ⟨p,slot,entry,i,rfl,hP⟩ := mem_asks (mem_of_untilRefused _ h)
      exact ⟨hP,fun ht => ht i⟩
    · split at h
      · obtain ⟨slot,n,entry,rfl,hP⟩ := mem_cancelUsed h
        exact ⟨⟨entry,hP⟩,fun _ => trivial⟩
      · cases h

lemma configured_global (h : lim.pre.global = some r)
    (ht : 0 < r.requestsPerSecond) : lim.Configured .server .global r :=
  ⟨"",withRole "",mem_append_left _ (mem_map_of_mem
    (mem_append_left _ (mem_checkLimit.mpr ⟨rfl,h,ht⟩)))⟩

lemma global_of_configured (h : lim.Configured .server .global r) : lim.pre.global = some r := by
  obtain ⟨ip,c,h⟩ := h
  rcases mem_append.mp h with h | h
  · obtain ⟨check,he,hq⟩ := mem_map.mp h
    cases hq
    rcases mem_append.mp he with he | he
    · exact (mem_checkLimit.mp he).2.1
    · cases (mem_checkLimit.mp he).1
  · obtain ⟨check,he,hq⟩ := mem_map.mp h
    cases hq

variable (lim : Limits)

lemma start_made (db : Redis) : Made lim.settings lim.Configured (lim.start db) := by
  intro p cell es he
  simp only [Limits.start] at he
  split_ifs at he with h
  · obtain ⟨r,hr,rfl⟩ := Option.map_eq_some_iff.mp he
    obtain ⟨hg,ht⟩ := Option.filter_eq_some_iff.mp hr
    obtain ⟨rfl,rfl⟩ := h
    exact ⟨.global,r,configured_global hg (of_decide_eq_true ht),rfl, newLimiter_origin⟩

lemma admissible_of_performed (db : Redis) (history : List Event) :
    ∀ a ∈ performed (step lim.settings) lim.actions (lim.start db) history,
      Admissible lim.Configured a :=
  mem_performed (fun _ _ _ ha => (mem_actions ha).1) _ history

lemma state_made (db : Redis) (history : List Event) :
    Made lim.settings lim.Configured (lim.state db history) :=
  final_invariant step_made (start_made lim db) (admissible_of_performed lim db history)

end

section

variable {lim : Limits} {σ : System} {v : Visit} {u : Place × Cell} {future : List Action}

section

variable (s t : System) (a : Action) (hs : Made lim.settings lim.Configured s)
  (hagree : Agree lim.settings lim.Configured cellOf u s t) (ha : Admissible lim.Configured a)
include hs hagree ha

lemma step_view (hc : concerns cellOf u a) :
    Agree lim.settings lim.Configured cellOf u (step lim.settings s a).2
      (step lim.settings t a).2 :=
  (step_own cellOf_ownsCells hs hagree ha hc).2

lemma step_view_other (hc : concerns cellOf u a = false) :
    Agree lim.settings lim.Configured cellOf u (step lim.settings s a).2 t :=
  step_other cellOf_ownsCells (cellOf_ownsKeys (configured_place lim)) hs hagree ha hc

end

lemma agree_purge (hσ : Made lim.settings lim.Configured σ) {xs : List Action}
    (hx : ∀ a ∈ xs, Admissible lim.Configured a) :
    Agree lim.settings lim.Configured cellOf u (final (step lim.settings) σ xs)
      (final (step lim.settings) σ (xs.filter (concerns cellOf u))) :=
  final_purge step_made step_view step_view_other hσ (agree_refl σ) hx

lemma trace_of_view {ρ : System} (hσ : Made lim.settings lim.Configured σ)
    (hagree : Agree lim.settings lim.Configured cellOf u σ ρ)
    (hf : ∀ b ∈ future, Admissible lim.Configured b ∧ concerns cellOf u b) :
    trace (step lim.settings) σ future = trace (step lim.settings) ρ future :=
  trace_of_agree (fun s a hs ha => step_made s a hs ha.1)
    (fun _ _ _ hs hagree ha => step_own cellOf_ownsCells hs hagree ha.1 ha.2) hσ hagree hf

lemma trace_asked (hσ : Made lim.settings lim.Configured σ)
    (hf : ∀ b ∈ future, Admissible lim.Configured b ∧ concerns cellOf u b) :
    trace (step lim.settings) (final (step lim.settings) σ (lim.asked σ v)) future =
      trace (step lim.settings)
        (final (step lim.settings) σ ((lim.asked σ v).filter (concerns cellOf u))) future :=
  trace_of_view (final_invariant step_made hσ fun _ => asked_admissible)
    (agree_purge hσ fun _ => asked_admissible) hf

lemma concerns_check {p : Place} {slot : Slot} {entry : RateLimitEntry} {m : Moment} :
    concerns cellOf u (.check p slot entry m) ↔ cellOf p slot = u := decide_eq_true_iff

lemma actions_eq_asked (h : (lim.code σ v).any (shouldSkipRequest lim.pre) →
    lim.pre.checks v.ip = []) : lim.actions σ (.visit v) = lim.asked σ v := by
  rw [Limits.actions]
  split_ifs with ho
  · rw [Limits.cancelUsed, h ho, map_nil, append_nil]
  · exact append_nil _

variable {p : Place} {slot : Slot} {entry : RateLimitEntry} {m : Moment} {xs ys : List Action}

lemma code_refused (h : refused (step lim.settings) σ (lim.asks v) = some (.check p slot entry m)) :
    lim.code σ v = if p = .server then none else some 429 := by
  rw [Limits.code, h]
  cases p <;> rfl

lemma take_to (xs ys : List Action) (a : Action) : (xs++a::ys).take (xs.length+1) = xs++[a] := by
  simp [take_append]

lemma asked_of_sole {a : Action} (hk : lim.asks v = xs++a::ys)
    (hg : ∀ r ∈ trace (step lim.settings) σ xs, r.2) (h : Sole lim σ v) :
    ∃ t, ∀ b ∈ xs++[a], concerns cellOf t b := by
  obtain ⟨n,t,he,r,hr,hno⟩ := h
  refine ⟨t,fun b hb => he b ?_⟩
  rw [hk] at hr ⊢
  -- the refused check is among the first `n`, for the others are granted
  have hl : xs.length < n := by
    by_contra hle
    rw [take_append_of_le_length (not_lt.mp hle), trace_take] at hr
    rw [hg r (mem_of_mem_take hr)] at hno
    cases hno
  rw [← take_to xs ys a] at hb
  exact take_subset_take_left _ hl hb

lemma concerns_unique {b : Action} (hb : b ∈ lim.asks v) {t u : Place × Cell} (hn : u ≠ t)
    (h : concerns cellOf t b) : concerns cellOf u b = false := by
  obtain ⟨q,s,e,i,rfl,-⟩ := mem_asks hb
  rw [concerns_check] at h
  exact decide_eq_false fun hu => hn (hu.symm.trans h)

lemma first_ask {check : Check} {rest : List Check} (h : lim.pre.checks v.ip = check::rest) :
    ∃ others, lim.asks v = .check .server check.slot check.entry (v.moments 0)::others := by
  simp [Limits.asks, Limits.checks, h, mapIdx_cons]

lemma nothing_returned {t : Place × Cell}
    (h : refused (step lim.settings) σ (lim.asks v) = some (.check p slot entry m))
    (hk : lim.asks v = xs++Action.check p slot entry m::ys)
    (ht : ∀ b ∈ xs++[Action.check p slot entry m], concerns cellOf t b) :
    lim.actions σ (.visit v) = lim.asked σ v := by
  apply actions_eq_asked
  intro ho
  rw [code_refused h] at ho
  by_cases hp : p = .server
  · simp [hp] at ho
  · by_contra hne
    obtain ⟨check,rest,hn⟩ := exists_cons_of_ne_nil hne
    obtain ⟨others,hi⟩ := first_ask hn
    have hl : cellOf p slot = t := concerns_check.mp (ht (.check p slot entry m) (by simp))
    rw [hk] at hi
    cases xs with
    | nil =>
      cases hi
      exact hp rfl
    | cons x xs =>
      obtain ⟨rfl,-⟩ := cons.inj hi
      have he : cellOf .server check.slot = t :=
        concerns_check.mp (ht _ (mem_append_left _ (.head _)))
      exact hp (Prod.mk.inj (hl.trans he.symm)).1

lemma untouched_of_sole (hσ : Made lim.settings lim.Configured σ)
    (h : refused (step lim.settings) σ (lim.asks v) = some (.check p slot entry m))
    (ho : Sole lim σ v) : OthersUntouched lim σ v (cellOf p slot) := by
  obtain ⟨xs,ys,hk,hn,hg,-⟩ := refused_cases h
  obtain ⟨t,ht⟩ := asked_of_sole hk hg ho
  have he : cellOf p slot = t := concerns_check.mp (ht (.check p slot entry m) (by simp))
  have hm : ∀ b ∈ lim.asked σ v, b ∈ lim.asks v := fun b hb => mem_of_untilRefused _ hb
  intro u hu future hf
  have hne : (lim.asked σ v).filter (concerns cellOf u) = [] := by
    rw [filter_eq_nil_iff]
    intro b hb
    have hbt : concerns cellOf t b := ht b (hn ▸ hb)
    rw [concerns_unique (hm b hb) (he ▸ hu) hbt]
    exact Bool.false_ne_true
  rw [nothing_returned h hk ht, trace_asked hσ fun b hb => ⟨(hf b hb).1,(hf b hb).2.1⟩, hne]
  rfl

end

end SdkApi.RejectedRequests
