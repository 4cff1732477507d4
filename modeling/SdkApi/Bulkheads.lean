import Mathlib.Data.Int.Init
import SdkApi.Channels
import SdkApi.GuardedRuns

/-!
# Requests behind bulkheads

A bulkhead is a counting semaphore with the first limit that an entry
registers under its name. A request borrows from the bulkheads of its entry in
the order of some iteration over the map, and a full one turns it away. What
it has borrowed is returned by deferred calls, however the request ends.
-/

namespace SdkApi.Bulkheads
open Channels GuardedRuns List Option

def bulkheadRegister (sems : List (String × ℕ)) (e : String × ℤ) : List (String × ℕ) :=
  if 0 < e.2 ∧ sems.lookup e.1 = none then sems++[(e.1,e.2.toNat)] else sems

/-- The bulkheads of all entries, in the order of their registration. -/
def registerBulkheads (entries : List (List (String × ℤ))) : List (String × ℕ) :=
  entries.flatten.foldl bulkheadRegister []

inductive Phase where
  | borrowing (rest : List String)
  | downstream
  | returning
  deriving DecidableEq

structure Request where
  phase : Phase
  deferred : List String := []
  borrowed : List String := []
  returned : List String := []

structure Server where
  out : List String := []
  requests : List Request := []

/-- `leave` is a response, an error or a panic of the handlers. -/
inductive Label where
  | arrive (names : List String)
  | borrow (i : ℕ)
  | leave (i : ℕ)
  | giveBack (i : ℕ)

variable (sems : List (String × ℕ))

def tryBorrow (out : List String) (r : Request) (name : String) (rest : List String) :
    List String × Request :=
  match sems.lookup name with
  | none => (out,{ r with phase := .borrowing rest })
  | some limit =>
    if out.count name < limit then (name::out,{ r with
      phase := .borrowing rest
      deferred := name::r.deferred
      borrowed := name::r.borrowed })
    else (out,{ r with phase := .returning })

def advance (out : List String) (r : Request) : Label → Option (List String × Request)
  | .borrow _ =>
    match r.phase with
    | .borrowing (name::rest) => some (tryBorrow sems out r name rest)
    | .borrowing [] => some (out,{ r with phase := .downstream })
    | _ => none
  | .leave _ => if r.phase = .downstream then some (out,{ r with phase := .returning }) else none
  | _ =>
    match r.phase, r.deferred with
    | .returning, name::rest =>
      some (out.erase name,{ r with deferred := rest, returned := name::r.returned })
    | _, _ => none

def step (s : Server) (l : Label) : Option Server :=
  match l with
  | .arrive names => some { s with requests := s.requests++[{ phase := .borrowing names }] }
  | .borrow i | .leave i | .giveBack i => do
    let r ← s.requests[i]?
    let (out,r) ← advance sems s.out r l
    return ⟨out,s.requests.set i r⟩

def inside (s : Server) (name : String) : ℕ :=
  s.requests.countP fun r => r.phase = .downstream && r.deferred.contains name

structure Conserved (s : Server) : Prop where
  tokens : ∀ name, s.out.count name = held Request.deferred s.requests name
  limits : ∀ name, s.out.count name ≤ (sems.lookup name).getD 0
  accounts : ∀ r ∈ s.requests, r.borrowed.Perm (r.returned++r.deferred)

variable {sems} {s t : Server} {out out' : List String} {r r' : Request} {l : Label} {name : String}

/-- What a request moves between the bulkheads and its deferred returns. -/
structure Moved (sems : List (String × ℕ)) (out out' : List String) (r r' : Request) : Prop where
  tokens : ∀ name, out'.count name+r.deferred.count name = out.count name+r'.deferred.count name
  limits : (∀ name, out.count name ≤ (sems.lookup name).getD 0) →
    ∀ name, out'.count name ≤ (sems.lookup name).getD 0
  account : r.borrowed.Perm (r.returned++r.deferred) → r'.borrowed.Perm (r'.returned++r'.deferred)

lemma moved_phase {phase : Phase} : Moved sems out out r { r with phase := phase } :=
  ⟨fun _ => rfl,fun h => h,fun h => h⟩

lemma moved_tryBorrow {rest : List String} (h : tryBorrow sems out r name rest = (out',r')) :
    Moved sems out out' r r' := by
  unfold tryBorrow at h
  split at h
  · cases h
    exact moved_phase
  · rename_i limit hl
    split_ifs at h with he <;> cases h
    · refine ⟨fun x => ?_,fun hle x => ?_,fun h => (h.cons name).trans perm_middle.symm⟩
      · simp only [count_cons]
        omega
      · by_cases hx : x = name
        · subst hx
          rw [count_cons_self, hl]
          exact he
        · rw [count_cons_of_ne (Ne.symm hx)]
          exact hle x
    · exact moved_phase

lemma moved_advance (hha : ∀ name ∈ r.deferred, name ∈ out)
    (h : advance sems out r l = some (out',r')) : Moved sems out out' r r' := by
  unfold advance at h
  split at h
  · split at h <;> simp only [some.injEq, reduceCtorEq] at h
    · exact moved_tryBorrow h
    · cases h
      exact moved_phase
  · split_ifs at h
    cases h
    exact moved_phase
  · split at h <;> cases h
    rename_i name rest _ he
    refine ⟨fun x => ?_,fun hl x => ?_,fun ha => ?_⟩
    · have hm := (perm_cons_erase (hha name (by simp [he]))).count_eq x
      rw [hm, he]
      simp only [count_cons]
      omega
    · exact Nat.le_trans (erase_sublist.count_le x) (hl x)
    · rw [he] at ha
      exact ha.trans perm_middle

lemma conserved_step (h : Conserved sems s) (hstep : step sems s l = some t) :
    Conserved sems t := by
  unfold step at hstep
  split at hstep
  case h_1 names =>
    cases hstep
    refine ⟨fun x => ?_,h.limits,?_⟩
    · rw [held_append, ← h.tokens x]
      rfl
    · intro r hr
      rcases mem_append.mp hr with hr | hr
      · exact h.accounts r hr
      · rw [mem_singleton.mp hr]
        exact .refl []
  all_goals
    simp only [bind_eq_bind, bind_eq_some_iff] at hstep
    obtain ⟨r,hi,⟨out',r'⟩,ha,ht⟩ := hstep
    cases ht
    have hr := mem_of_getElem? hi
    have hm := moved_advance (fun name hname => ?_) ha
    · refine ⟨fun x => ?_,hm.limits h.limits, forall_set h.accounts (hm.account (h.accounts r hr))⟩
      have he := held_set Request.deferred hi r' x
      have ho := hm.tokens x
      rw [h.tokens x] at ho
      dsimp only
      omega
    · rw [← count_pos_iff, h.tokens name, held, count_pos_iff]
      exact mem_flatMap.mpr ⟨r,hr,hname⟩

lemma inside_le_held (s : Server) (name : String) :
    inside s name ≤ held Request.deferred s.requests name := by
  rw [inside]
  induction s.requests with
  | nil => exact Nat.le_refl 0
  | cons r rs ih =>
    rw [countP_cons, held, flatMap_cons, count_append, Nat.add_comm]
    refine Nat.add_le_add ?_ ih
    split_ifs with hr
    · simp only [Bool.and_eq_true, contains_iff_mem] at hr
      exact count_pos_iff.mpr hr.2
    · exact Nat.zero_le _

/-- The limit under a name is the first one above zero. -/
lemma lookup_registered (es : List (String × ℤ)) (sems : List (String × ℕ)) (name : String) :
    (es.foldl bulkheadRegister sems).lookup name = (sems.lookup name).or
      ((es.find? fun e => e.1 = name ∧ 0 < e.2).map fun e => e.2.toNat) := by
  induction es generalizing sems with
  | nil => simp
  | cons e es ih =>
    rw [foldl_cons, ih, bulkheadRegister, find?_cons]
    by_cases hname : e.1 = name
    · by_cases ho : 0 < e.2 <;> cases he : sems.lookup name <;>
        simp [hname, ho, he, lookup_append]
    · split_ifs <;>
        simp [hname, lookup_append, lookup_cons, beq_false_of_ne (Ne.symm hname)]

/-- Along every run the tokens that are out are those that requests have yet
to return, no more requests are inside than the first limit allows, and a
request that has nothing to return has returned what it borrowed. -/
theorem tokens_conserved (entries : List (List (String × ℤ))) {ls : List Label}
    (h : Run (fun s l t => step (registerBulkheads entries) s l = some t) (fun _ _ => True)
      {} ls s) :
    (∀ name, s.out.count name = held Request.deferred s.requests name ∧
      inside s name ≤ s.out.count name ∧ s.out.count name ≤
        ((entries.flatten.find? fun e => e.1 = name ∧ 0 < e.2).map fun e => e.2.toNat).getD 0) ∧
    ∀ r ∈ s.requests, r.borrowed.Perm (r.returned++r.deferred) ∧
      (r.deferred = [] → r.borrowed.Perm r.returned) := by
  have hs : Conserved (registerBulkheads entries) s := by
    refine run_invariant _ (fun _ _ _ hc _ hstep => conserved_step hc hstep) h ?_
    exact ⟨fun _ => rfl,fun _ => Nat.zero_le _,nofun⟩
  refine ⟨fun name => ⟨hs.tokens name,?_,?_⟩,fun r hr => ⟨hs.accounts r hr,fun hn => ?_⟩⟩
  · rw [hs.tokens name]
    exact inside_le_held s name
  · simpa [registerBulkheads, lookup_registered] using hs.limits name
  · simpa [hn] using hs.accounts r hr

def turnedAway : List Label :=
  [.arrive ["mail"],.borrow 0,.arrive ["db","mail"],.borrow 1,.borrow 1,.giveBack 1]

theorem rejected_request_returns :
    ∃ s, play (step (registerBulkheads [[("db",1),("mail",1)]])) {} turnedAway = some s ∧
      (s.requests[1]?).map Request.returned = some ["db"] ∧ inside s "db" ≤ s.out.count "db" :=
  ⟨_,rfl,rfl,
    ((@tokens_conserved _ [[("db",1),("mail",1)]] turnedAway (run_of_play rfl)).1 "db").2.1⟩

end SdkApi.Bulkheads
