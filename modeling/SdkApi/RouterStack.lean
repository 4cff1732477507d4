import SdkApi.PathPatterns
import SdkApi.GoStrings

/-!
# A router as a stack

Mounted middlewares and routes stand in one stack in the order in which they
were registered. A request runs down the stack, through every middleware that
is mounted at its path or above it, to the first route of its method that
matches its path. What is registered behind that route does not see it.
-/

namespace SdkApi.RouterStack
open PathPatterns List Option

variable {μ ρ : Type*}

inductive Item (μ ρ : Type*) where
  | mount (tag : μ) (pattern : List Char)
  | route (tag : ρ) (methods : List String) (pattern : List Char)

def Item.added : Item μ ρ → Item μ ρ
  | .mount tag pattern => .mount tag pattern
  | .route tag methods pattern => .route tag (methods.map GoStrings.toUpper) pattern

structure Request where
  method : String
  path : List Char

def Item.answers (r : Request) : Item μ ρ → Option ρ
  | .mount _ _ => none
  | .route tag methods pattern =>
    if r.method ∈ methods ∧ matchRoute pattern r.path then some tag else none

def Item.passes (r : Request) : Item μ ρ → List μ
  | .mount tag pattern => if matchMount pattern r.path then [tag] else []
  | .route _ _ _ => []

def passed (r : Request) (items : List (Item μ ρ)) : List μ := items.flatMap (Item.passes r)

def serve (r : Request) : List (Item μ ρ) → Option (List μ × ρ)
  | [] => none
  | i::rest =>
    match i.answers r with
    | some tag => some ([],tag)
    | none => (serve r rest).map fun out => (i.passes r++out.1,out.2)

variable {r : Request} {xs ys : List (Item μ ρ)} {i : Item μ ρ}

@[simp] lemma passed_append : passed r (xs++ys) = passed r xs++passed r ys :=
  flatMap_append

lemma serve_cons_some {tag : ρ} (h : i.answers r = some tag) : serve r (i::xs) = some ([],tag) := by
  simp only [serve, h]

lemma serve_cons_none (h : i.answers r = none) :
    serve r (i::xs) = (serve r xs).map fun out => (i.passes r++out.1,out.2) := by
  simp only [serve, h]

variable {out : List μ × ρ}

lemma serve_append_some (h : serve r xs = some out) : serve r (xs++ys) = some out := by
  induction xs generalizing out with
  | nil => cases h
  | cons i xs ih =>
    cases hi : i.answers r with
    | some tag =>
      rw [serve_cons_some hi] at h
      rw [cons_append, serve_cons_some hi, h]
    | none =>
      rw [serve_cons_none hi, map_eq_some_iff] at h
      obtain ⟨below,hb,ho⟩ := h
      rw [cons_append, serve_cons_none hi, ih hb, map_some, ho]

lemma serve_append_none (h : serve r xs = none) :
    serve r (xs++ys) = (serve r ys).map fun out => (passed r xs++out.1,out.2) := by
  induction xs with
  | nil => simp [passed]
  | cons i xs ih =>
    cases hi : i.answers r with
    | some tag =>
      rw [serve_cons_some hi] at h
      cases h
    | none =>
      rw [serve_cons_none hi, map_eq_none_iff] at h
      rw [cons_append, serve_cons_none hi, ih h, Option.map_map]
      congr 1
      funext out
      simp [passed]

lemma serve_of_mounts (h : ∀ i ∈ xs, i.answers r = none) : serve r xs = none := by
  induction xs with
  | nil => rfl
  | cons i xs ih =>
    rw [forall_mem_cons] at h
    rw [serve_cons_none h.1, ih h.2]
    rfl

lemma passed_of_routes (h : ∀ i ∈ xs, i.passes r = []) : passed r xs = [] :=
  flatMap_eq_nil_iff.mpr h

lemma serve_of_routes (hr : ∀ i ∈ xs, i.passes r = [])
    (h : serve r xs = some out) : out.1 = [] ∧ ∃ i ∈ xs, i.answers r = some out.2 := by
  induction xs generalizing out with
  | nil => cases h
  | cons i xs ih =>
    rw [forall_mem_cons] at hr
    cases hi : i.answers r with
    | some tag =>
      rw [serve_cons_some hi] at h
      cases h
      exact ⟨rfl,i,.head _,hi⟩
    | none =>
      rw [serve_cons_none hi, hr.1, map_eq_some_iff] at h
      obtain ⟨below,hb,rfl⟩ := h
      obtain ⟨hn,j,hj,hans⟩ := ih hr.2 hb
      exact ⟨by simpa using hn,j,.tail i hj,hans⟩

lemma serve_block {ms rs ts : List (Item μ ρ)}
    (hm : ∀ i ∈ ms, i.answers r = none) (hr : ∀ i ∈ rs, i.passes r = [])
    (ht : ∀ i ∈ ts, i.answers r = none) (h : serve r (ms++rs++ts) = some out) :
    out.1 = passed r ms ∧ ∃ i ∈ rs, i.answers r = some out.2 := by
  rw [append_assoc, serve_append_none (serve_of_mounts hm), map_eq_some_iff] at h
  obtain ⟨below,hb,rfl⟩ := h
  cases hrs : serve r rs with
  | none =>
    rw [serve_append_none hrs, serve_of_mounts ht] at hb
    cases hb
  | some inner =>
    rw [serve_append_some hrs] at hb
    cases hb
    obtain ⟨hn,i,hi,hans⟩ := serve_of_routes hr hrs
    exact ⟨by simp [hn],i,hi,hans⟩

end SdkApi.RouterStack
