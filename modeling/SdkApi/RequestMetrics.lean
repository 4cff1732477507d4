import SdkApi.Tables

/-!
# Counted requests and their series

A counter has one key for method, path and code, joined by colons, and the
export cuts the key at its first two colons. The path is that of the route at
which the middleware is mounted: the route of the request is not known before
`Next`. The gauge of active requests goes down only where the handlers return.
The shards together are one map.
-/

namespace SdkApi.RequestMetrics
open AssocLists GoStrings Tables List

/-- A request with the paths at which it passes the middleware, and the status of its
response when the handlers have returned. The server mounts one at the root, a group may
have one more. -/
structure Request where
  method : String
  path : String
  mounts : List String := ["/"]
  code : ℤ := 200
  panics : Bool := false

/-- One run of the middleware; `routePath` is `c.Route().Path`. -/
structure Pass where
  method : String
  reqPath : String
  routePath : String
  code : ℤ
  panics : Bool

def Request.passes (r : Request) : List Pass :=
  r.mounts.map fun mount => ⟨r.method, r.path, mount, r.code, r.panics⟩

structure Metrics where
  count : GoMap ℕ := []
  active : ℤ := 0

def metricKey (method path code : String) : String := method ++ ":" ++ path ++ ":" ++ code

def Pass.path (r : Pass) : String := if r.routePath = "" then r.reqPath else r.routePath

def Pass.key (r : Pass) : String := metricKey r.method r.path (toString r.code)

def Pass.observed (r : Pass) : Bool := r.reqPath ∉ ["/metrics","/health"]

def Pass.counted (r : Pass) : Bool := r.observed && !r.panics

/-- A whole pass of `Prometheus`. -/
def observe (m : Metrics) (r : Pass) : Metrics :=
  if r.observed = false then m
  else if r.panics then { m with active := m.active+1 }
  else { m with count := set m.count r.key ((m.count.lookup r.key).getD 0+1) }

abbrev Labels := String × String × String

/-- `strings.SplitN(key, ":", 3)` -/
def labels (key : String) : Labels :=
  let first := cut key ':'
  let second := cut first.2.1 ':'
  (first.1,second.1,second.2.1)

def series (m : Metrics) : List (Labels × ℕ) := m.count.map fun e => (labels e.1,e.2)

/-- `%q` on printable ASCII, without the quotes. -/
def escape (s : List Char) : List Char :=
  s.flatMap fun c => if c = '"' ∨ c = '\\' then ['\\',c] else [c]

/-- A label value up to its closing quote, and what follows. -/
def readValue : Bool → List Char → Option (List Char × List Char)
  | _, [] => none
  | true, c::rest => (readValue false rest).map fun r => (c::r.1,r.2)
  | false, c::rest =>
    if c = '"' then some ([],rest)
    else if c = '\\' then readValue true rest
    else (readValue false rest).map fun r => (c::r.1,r.2)

lemma readValue_escape (s rest : List Char) :
    readValue false (escape s++ '"'::rest) = some (s,rest) := by
  induction s with
  | nil => rfl
  | cons c s ih =>
    rw [escape] at ih ⊢
    by_cases hc : c = '"' ∨ c = '\\'
    · simp [hc, readValue, ih]
    · have hn := not_or.mp hc
      simp [hn.1, hn.2, readValue, ih]

/-- How often requests of a key have been counted. -/
def tally (rs : List Pass) (key : String) : ℕ := rs.countP fun r => r.counted && r.key = key

structure Exact (rs : List Pass) (m : Metrics) : Prop where
  count : ∀ key, m.count.lookup key = if tally rs key = 0 then none else some (tally rs key)
  keys : (m.count.map Prod.fst).Nodup
  active : m.active = rs.countP fun r => r.observed && r.panics

lemma observe_exact {rs : List Pass} {m : Metrics} (h : Exact rs m) (r : Pass) :
    Exact (rs++[r]) (observe m r) := by
  have ht : ∀ key, tally (rs++[r]) key =
      tally rs key+if r.counted ∧ r.key = key then 1 else 0 := by
    intro key
    simp [tally, countP_append, countP_singleton]
  by_cases hc : r.counted
  · obtain ⟨ho,hp⟩ : r.observed ∧ r.panics = false := by simpa [Pass.counted] using hc
    have hm : observe m r =
        { m with count := set m.count r.key ((m.count.lookup r.key).getD 0+1) } := by
      simp [observe, ho, hp]
    rw [hm]
    refine ⟨fun key => ?_,nodup_cons.mpr ⟨by simp,nodup_drop_key h.keys _⟩,?_⟩
    · rw [lookup_set, ht, h.count]
      by_cases hk : key = r.key
      · subst hk
        by_cases h0 : tally rs r.key = 0 <;> simp [hc, h0]
      · simp [hk, Ne.symm hk, h.count]
    · simp [h.active, countP_append, hp]
  · have hm : (observe m r).count = m.count ∧ (observe m r).active =
        m.active+if r.observed && r.panics then 1 else 0 := by
      simp only [Pass.counted] at hc
      cases ho : r.observed <;> cases hp : r.panics <;> simp_all [observe]
    refine ⟨fun key => ?_,hm.1 ▸ h.keys,?_⟩
    · rw [hm.1, h.count, ht, if_neg (not_and_of_not_left _ hc), Nat.add_zero]
    · rw [hm.2, h.active, countP_append, countP_singleton]
      split_ifs <;> simp

lemma exact_of_passes (rs : List Pass) : Exact rs (rs.foldl observe {}) := by
  induction rs using List.reverseRecOn with
  | nil => exact ⟨fun _ => rfl,nodup_nil,rfl⟩
  | append_singleton rs r ih =>
    rw [foldl_append]
    exact observe_exact ih r

def Pass.labels (r : Pass) : Labels := (r.method,r.path,toString r.code)

abbrev NoColon (r : Pass) : Prop := ':' ∉ r.method.toList ∧ ':' ∉ r.path.toList

lemma labels_key {r : Pass} (h : NoColon r) : labels r.key = r.labels := by
  have hk : r.key = r.method ++ ":" ++ (r.path ++ ":" ++ toString r.code) := by
    simp only [Pass.key, metricKey, String.append_assoc]
  simp only [labels, hk, cut_append h.1, cut_append h.2, Pass.labels]

lemma key_of_labels {r r' : Pass} (h : r.labels = r'.labels) : r.key = r'.key := by
  obtain ⟨hm,hp,hc⟩ : r.method = r'.method ∧ r.path = r'.path ∧
      toString r.code = toString r'.code := by
    simpa [Pass.labels] using h
  rw [Pass.key, Pass.key, hm, hp, hc]

lemma series_passes {rs : List Pass} (h : ∀ r ∈ rs, NoColon r) :
    (∀ l n, (l,n) ∈ series (rs.foldl observe {}) ↔
      0 < n ∧ n = rs.countP fun r => r.counted && r.labels = l) ∧
    ((series (rs.foldl observe {})).map Prod.fst).Nodup := by
  have hx := exact_of_passes rs
  have hm : ∀ e, e ∈ (rs.foldl observe {}).count ↔ 0 < e.2 ∧ e.2 = tally rs e.1 := by
    rintro ⟨k,n⟩
    rw [← lookup_eq_some_iff hx.keys, hx.count]
    split_ifs with h0
    · simp [h0, Nat.pos_iff_ne_zero]
    · grind
  have hr : ∀ k, 0 < tally rs k → ∃ r ∈ rs, r.counted ∧ r.key = k := by
    intro k hk
    simpa [tally, countP_pos_iff] using hk
  have hc : ∀ r ∈ rs, tally rs r.key = rs.countP fun s => s.counted && s.labels = r.labels := by
    intro r hr
    refine countP_congr fun s hs => ?_
    have hi : s.key = r.key ↔ s.labels = r.labels :=
      ⟨fun he => by rw [← labels_key (h s hs), ← labels_key (h r hr), he],key_of_labels⟩
    simp [hi]
  refine ⟨fun l n => ?_,?_⟩
  · simp only [series, mem_map, Prod.mk.injEq]
    constructor
    · rintro ⟨e,he,rfl,rfl⟩
      obtain ⟨hp,hn⟩ := (hm e).mp he
      obtain ⟨r,hs,-,hk⟩ := hr e.1 (hn ▸ hp)
      rw [← hk, labels_key (h r hs), ← hc r hs, hk]
      exact ⟨hp,hn⟩
    · rintro ⟨hp,rfl⟩
      obtain ⟨r,hs,hl⟩ := countP_pos_iff.mp hp
      obtain ⟨-,rfl⟩ : _ ∧ r.labels = l := by simpa using hl
      exact ⟨(r.key,_),(hm _).mpr ⟨hp,(hc r hs).symm⟩,labels_key (h r hs),rfl⟩
  · have hd : (((rs.foldl observe {}).count.map Prod.fst).map labels).Nodup := by
      refine hx.keys.map_on ?_
      simp only [forall_mem_map]
      intro e he e' hf hl
      obtain ⟨r,hs,-,hk⟩ := hr e.1 (((hm e).mp he).2 ▸ ((hm e).mp he).1)
      obtain ⟨r',hs',-,hk'⟩ := hr e'.1 (((hm e').mp hf).2 ▸ ((hm e').mp hf).1)
      rw [← hk, ← hk', labels_key (h r hs), labels_key (h r' hs')] at hl
      rw [← hk, ← hk', key_of_labels hl]
    simpa [series, Function.comp_def] using hd

def Request.labels (r : Request) : Labels := (r.method, r.path, toString r.code)

/-- The server after these requests. -/
def metricsAfter (rs : List Request) : Metrics := (rs.flatMap Request.passes).foldl observe {}

/-- The request passes once, under its own path, and has returned. -/
structure Plain (r : Request) : Prop where
  mounted : r.passes.map Pass.path = [r.path]
  colons : ':' ∉ r.method.toList ∧ ':' ∉ r.path.toList
  observed : r.path ∉ ["/metrics", "/health"]
  returned : r.panics = false

lemma Plain.passes {r : Request} (h : Plain r) : ∃ p : Pass, r.passes = [p] ∧ NoColon p ∧
    p.counted = true ∧ p.labels = r.labels ∧ (p.observed && p.panics) = false := by
  have hm := h.mounted
  simp only [Request.passes, map_map, map_eq_singleton_iff] at hm
  obtain ⟨mount, hr, hp⟩ := hm
  have hp : Pass.path ⟨r.method, r.path, mount, r.code, r.panics⟩ = r.path := hp
  refine ⟨_, by rw [Request.passes, hr, map_singleton], ⟨h.colons.1, hp ▸ h.colons.2⟩, ?_, ?_, ?_⟩
  · simp [Pass.counted, Pass.observed, h.observed, h.returned]
  · rw [Pass.labels, Request.labels, hp]
  · simp [h.returned]

def rootRequest : Request := { method := "GET", path := "/" }

end SdkApi.RequestMetrics
