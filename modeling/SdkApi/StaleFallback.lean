import SdkApi.Tables

/-!
# Answers from the stale cache

One cache for all callers, by method and path. An entry keeps the body buffer
of its response, which later requests write again, and one value of each
header, which is set over the headers of the failed response.
-/

namespace SdkApi.StaleFallback
open Tables List Option

/-- A request behind `Fallback` in the mode stale, its response when the
handlers have returned, and what the error handler writes otherwise. -/
structure Exchange where
  method : String := "GET"
  path : String
  query : String := ""
  caller : String
  time : ℤ
  buffer : ℕ
  failed : Bool := false
  status : ℕ := 200
  headers : String → List String := fun _ => []
  body : String := ""
  errorBody : String := ""

structure StaleEntry where
  buffer : ℕ
  headers : String → Option String
  timestamp : ℤ

structure State where
  cache : GoMap StaleEntry := []
  memory : ℕ → String := fun _ => ""

def staleTTL : ℤ := 30000

def Exchange.key (x : Exchange) : String := x.method ++ ":" ++ x.path

def Exchange.identity (x : Exchange) : String × String × String × String :=
  (x.method,x.path,x.query,x.caller)

/-- Each write of a response body goes to its buffer. -/
def write (memory : ℕ → String) (buffer : ℕ) (body : String) : ℕ → String :=
  fun b => if b = buffer then body else memory b

def stored (x : Exchange) : StaleEntry :=
  ⟨x.buffer,fun name => (x.headers name).getLast?,x.time⟩

/-- The entry that answers a failed request. -/
def fresh (s : State) (x : Exchange) : Option StaleEntry :=
  if x.failed then (s.cache.lookup x.key).filter fun e => x.time-e.timestamp < staleTTL else none

/-- The headers and the body that a failed request gets from the cache. -/
def answer (s : State) (x : Exchange) : Option ((String → List String) × String) :=
  (fresh s x).map fun e =>
    (fun name => ((e.headers name).map ([·])).getD (x.headers name),
      write s.memory x.buffer x.body e.buffer)

def sentBody (s : State) (x : Exchange) : String :=
  ((answer s x).map Prod.snd).getD (if x.failed then x.errorBody else x.body)

def fallback (s : State) (x : Exchange) : State where
  cache := if x.failed = false ∧ x.status = 200 then set s.cache x.key (stored x) else s.cache
  memory := write s.memory x.buffer (sentBody s x)

/-- Every entry is that of a successful response whose body is still in its buffer. -/
def Inv (xs : List Exchange) (s : State) : Prop :=
  ∀ key e, s.cache.lookup key = some e → ∃ x ∈ xs, x.failed = false ∧ x.status = 200 ∧
    x.key = key ∧ e = stored x ∧ s.memory x.buffer = x.body

lemma fallback_inv {xs : List Exchange} {s : State} (h : Inv xs s) {x : Exchange}
    (hx : ∀ y ∈ xs, y.buffer ≠ x.buffer) : Inv (xs++[x]) (fallback s x) := by
  have ho : ∀ key e, s.cache.lookup key = some e → ∃ y ∈ xs++[x], y.failed = false ∧
      y.status = 200 ∧ y.key = key ∧ e = stored y ∧ (fallback s x).memory y.buffer = y.body := by
    intro key e hl
    obtain ⟨y,hy,hok,hst,hk,he,hm⟩ := h key e hl
    refine ⟨y,by simp [hy],hok,hst,hk,he,?_⟩
    simpa [fallback, write, hx y hy] using hm
  intro key e hl
  by_cases hok : x.failed = false ∧ x.status = 200
  · rw [fallback, if_pos hok, lookup_set] at hl
    split_ifs at hl with hk
    · refine ⟨x,by simp,hok.1,hok.2,hk.symm,(some.inj hl).symm,?_⟩
      simp [fallback, write, sentBody, answer, fresh, hok.1]
    · exact ho key e hl
  · rw [fallback, if_neg hok] at hl
    exact ho key e hl

lemma exchanges_inv (xs : List Exchange) (h : (xs.map Exchange.buffer).Nodup) :
    Inv xs (xs.foldl fallback {}) := by
  induction xs using reverseRecOn with
  | nil => exact fun key e hl => by simp at hl
  | append_singleton xs x ih =>
    rw [map_append, nodup_append] at h
    rw [foldl_append]
    exact fallback_inv (ih h.1) fun y hy => h.2.2 _ (mem_map_of_mem hy) _ (by simp)

/-- With one caller and one query for each key, no buffer used again, no header
repeated and none of its own in the failed response, a request is answered with
a response to the same request. -/
theorem stale_answer_own {xs : List Exchange} {x : Exchange}
    (hb : ((xs++[x]).map Exchange.buffer).Nodup)
    (hk : ∀ y ∈ xs, y.key = x.key → y.identity = x.identity)
    (hhe : ∀ y ∈ xs, ∀ name, (y.headers name).length ≤ 1) (ho : ∀ name, x.headers name = [])
    {served : (String → List String) × String}
    (h : answer (xs.foldl fallback {}) x = some served) :
    ∃ y ∈ xs, y.failed = false ∧ y.status = 200 ∧ y.identity = x.identity ∧
      x.time-y.time < staleTTL ∧ served = (y.headers,y.body) := by
  rw [map_append, nodup_append] at hb
  obtain ⟨e,he,rfl⟩ := map_eq_some_iff.mp h
  rw [fresh] at he
  split_ifs at he with hi
  obtain ⟨hl,ht⟩ := filter_eq_some_iff.mp he
  obtain ⟨y,hy,hok,hst,hke,rfl,hm⟩ := exchanges_inv xs hb.1 _ _ hl
  have hu : y.buffer ≠ x.buffer := hb.2.2 _ (mem_map_of_mem hy) _ (by simp)
  refine ⟨y,hy,hok,hst,hk y hy hke,of_decide_eq_true ht,Prod.ext ?_ ?_⟩
  · funext name
    have hn := hhe y hy name
    cases ha : y.headers name with
    | nil => simp [stored, ha, ho]
    | cons v vs =>
      rw [ha, length_cons] at hn
      simp [stored, ha, eq_nil_of_length_eq_zero (show vs.length = 0 by omega)]
  · simpa [write, stored, hu] using hm

def aliceFirst : Exchange :=
  { path := "/me", caller := "alice", time := 0, buffer := 0, body := "alice" }

def aliceAgain : Exchange :=
  { path := "/me", caller := "alice", time := 1, buffer := 1, failed := true }

theorem alice_served : ∃ y ∈ [aliceFirst], y.failed = false ∧ y.status = 200 ∧
    y.identity = ("GET","/me","","alice") ∧ 1-y.time < staleTTL ∧
      ((fun _ => [],"alice") : (String → List String) × String) = (y.headers,y.body) :=
  @stale_answer_own _ aliceAgain (by decide) (by decide) (by simp [aliceFirst]) (fun _ => rfl) _ rfl

/-- Another caller is served the answer, and a buffer used again another body. -/
theorem bob_served_alice :
    ((answer (fallback {} aliceFirst) { aliceAgain with caller := "bob" }).map Prod.snd) =
      some "alice" ∧
    ((answer ([aliceFirst,{ aliceFirst with path := "/b", body := "bob" }].foldl fallback {})
      aliceAgain).map Prod.snd) = some "bob" := by
  decide

end SdkApi.StaleFallback
