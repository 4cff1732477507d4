import SdkApi.PathPatterns

/-!
# Lexical paths

A path is read as the names between its slashes. Cleaning drops empty names
and single dots, and it drops a name together with the double dot that follows
it. Double dots at the start of a rooted path are dropped as well; at the
start of another path they stay. Nothing is looked up on a disk.
-/

namespace SdkApi.LexicalPaths
open PathPatterns List

def dot : Segment := ['.']

def dotdot : Segment := ['.','.']

structure Plain (s : Segment) : Prop where
  nonempty : s ≠ []
  not_dot : s ≠ dot
  not_dotdot : s ≠ dotdot
  noSlash : '/' ∉ s

def rooted (p : List Char) : Bool := p.head? = some '/'

def names (p : List Char) : List Segment := (split p).filter fun s => s ≠ [] ∧ s ≠ dot

def back (root : Bool) : List Segment → List Segment
  | [] => if root then [] else [dotdot]
  | top::out => if top = dotdot then dotdot::top::out else out

def push (root : Bool) (out : List Segment) (s : Segment) : List Segment :=
  if s = dotdot then back root out else s::out

def reduce (root : Bool) (ss : List Segment) : List Segment := (ss.foldl (push root) []).reverse

def joined (ss : List Segment) : List Char := ['/'].intercalate ss

def clean (p : List Char) : List Char :=
  let out := reduce (rooted p) (names p)
  if rooted p then '/'::joined out else if out = [] then dot else joined out

def join (a b : List Char) : List Char :=
  if a ≠ [] then clean (a++ '/'::b) else if b ≠ [] then clean b else []

/-- What stands before the last slash, with the slash. -/
def dir (p : List Char) : List Char := clean (p.rdropWhile (· ≠ '/'))

def abs (cwd p : List Char) : List Char := if rooted p then clean p else join cwd p

def under (root : List Char) (ss : List Segment) : List Char :=
  (if root = ['/'] then [] else root)++ss.flatMap ('/'::·)

def Inside (root p : List Char) : Prop :=
  p = root ∨ ∃ ss ≠ [], (∀ s ∈ ss, Plain s) ∧ p = under root ss

section

lemma mem_names {p : List Char} {s : Segment} (h : s ∈ names p) : s ≠ [] ∧ s ≠ dot ∧ '/' ∉ s := by
  rw [names, mem_filter, decide_eq_true_eq] at h
  exact ⟨h.2.1,h.2.2,(of_mem_split p s h.1).1⟩

lemma names_append_slash (a b : List Char) : names (a++ '/'::b) = names a++names b := by
  rw [names, split_append_slash, filter_append]
  rfl

lemma names_rooted (p : List Char) : names ('/'::p) = names p :=
  names_append_slash [] p

variable {ss : List Segment}

lemma names_joined (h : ∀ s ∈ ss, Plain s) : names (joined ss) = ss := by
  by_cases hss : ss = []
  · rw [hss]
    rfl
  · rw [names, split, joined, splitOn_intercalate _ (fun s hs => (h s hs).noSlash) hss,
      filter_eq_self]
    intro s hs
    simpa using ⟨(h s hs).nonempty,(h s hs).not_dot⟩

lemma joined_cons (s : Segment) (h : ss ≠ []) : joined (s::ss) = s++ '/'::joined ss := by
  cases ss with
  | nil => exact absurd rfl h
  | cons t ts => simp [joined, intercalate_cons_cons]

lemma flatMap_slash (h : ss ≠ []) : ss.flatMap ('/'::·) = '/'::joined ss := by
  induction ss with
  | nil => exact absurd rfl h
  | cons s ss ih =>
    by_cases hss : ss = []
    · simp [hss, joined]
    · rw [flatMap_cons, ih hss, joined_cons s hss]
      rfl

variable {p : List Char}

variable (root : Bool)

lemma foldl_push_plain (h : ∀ s ∈ ss, Plain s)
    (out : List Segment) : ss.foldl (push root) out = ss.reverse++out := by
  induction ss generalizing out with
  | nil => rfl
  | cons s ss ih =>
    rw [forall_mem_cons] at h
    rw [foldl_cons, ih h.2, push, if_neg h.1.not_dotdot]
    simp

lemma reduce_plain (h : ∀ s ∈ ss, Plain s) : reduce root ss = ss := by
  rw [reduce, foldl_push_plain root h]
  simp

/-- The stack has plain names over double dots, which a rooted path has none of. -/
def Stacked (root : Bool) (out : List Segment) : Prop :=
  ∃ ps k, (∀ s ∈ ps, Plain s) ∧ (root = true → k = 0) ∧ out = ps++List.replicate k dotdot

lemma stacked_push {root : Bool} {out : List Segment} {s : Segment} (hu : Stacked root out)
    (hs : s ≠ [] ∧ s ≠ dot ∧ '/' ∉ s) : Stacked root (push root out s) := by
  obtain ⟨ps,k,hps,hk,rfl⟩ := hu
  by_cases ho : s = dotdot
  · rw [push, if_pos ho]
    cases ps with
    | cons p ps =>
      rw [forall_mem_cons] at hps
      rw [cons_append, back, if_neg hps.1.not_dotdot]
      exact ⟨ps,k,hps.2,hk,rfl⟩
    | nil =>
      cases root with
      | true =>
        rw [hk rfl]
        exact ⟨[],0,hps,fun _ => rfl,rfl⟩
      | false =>
        refine ⟨[],k+1,hps,nofun,?_⟩
        cases k with
        | zero => rfl
        | succ k => simp [back, replicate_succ]
  · rw [push, if_neg ho]
    refine ⟨s::ps,k,?_,hk,rfl⟩
    rw [forall_mem_cons]
    exact ⟨⟨hs.1,hs.2.1,ho,hs.2.2⟩,hps⟩

lemma stacked_foldl {root : Bool} {ss out : List Segment} (ho : Stacked root out)
    (hss : ∀ s ∈ ss, s ≠ [] ∧ s ≠ dot ∧ '/' ∉ s) : Stacked root (ss.foldl (push root) out) := by
  induction ss generalizing out with
  | nil => exact ho
  | cons s ss ih =>
    rw [forall_mem_cons] at hss
    exact ih (stacked_push ho hss.1) hss.2

lemma stacked_names (p : List Char) : Stacked root ((names p).foldl (push root) []) :=
  stacked_foldl ⟨[],0,nofun,fun _ => rfl,rfl⟩ fun _ hs => mem_names hs

lemma reduce_names (p : List Char) : ∃ k ps, (∀ s ∈ ps, Plain s) ∧
    (root → k = 0) ∧ reduce root (names p) = replicate k dotdot++ps := by
  obtain ⟨ps,k,hps,hk,ho⟩ := stacked_names root p
  refine ⟨k,ps.reverse,fun s hs => hps s (mem_reverse.mp hs),hk,?_⟩
  rw [reduce, ho, reverse_append, reverse_replicate]

lemma clean_of_rooted (h : rooted p) : ∃ ps, (∀ s ∈ ps, Plain s) ∧ clean p = '/'::joined ps := by
  obtain ⟨k,ps,hps,hk,he⟩ := reduce_names true p
  refine ⟨ps,hps,?_⟩
  rw [clean, h, he, hk rfl]
  rfl

lemma clean_of_unrooted (h : rooted p = false) :
    ∃ k ps, (∀ s ∈ ps, Plain s) ∧ clean p =
      if replicate k dotdot++ps = [] then dot
      else joined (replicate k dotdot++ps) := by
  obtain ⟨k,ps,hps,-,he⟩ := reduce_names false p
  refine ⟨k,ps,hps,?_⟩
  rw [clean, h, he]
  rfl

lemma clean_names (h : rooted p)
    (hss : ∀ s ∈ ss, Plain s) (hp : names p = ss) : clean p = '/'::joined ss := by
  rw [clean, h, hp, reduce_plain true hss]
  rfl

lemma clean_clean_rooted (hss : ∀ s ∈ ss, Plain s) : clean ('/'::joined ss) = '/'::joined ss :=
  clean_names rfl hss (by rw [names_rooted, names_joined hss])

section

variable {rs ks : List Segment} (hrs : ∀ s ∈ rs, Plain s) (hks : ∀ s ∈ ks, Plain s)
include hrs hks

lemma join_plain : join ('/'::joined rs) (joined ks) = '/'::joined (rs++ks) := by
  rw [join, if_pos (cons_ne_nil _ _)]
  apply clean_names rfl
  · intro s hs
    rcases mem_append.mp hs with hs | hs
    · exact hrs s hs
    · exact hks s hs
  · rw [names_append_slash, names_rooted, names_joined hrs, names_joined hks]

lemma inside_join : Inside ('/'::joined rs) (join ('/'::joined rs) (joined ks)) := by
  rw [join_plain hrs hks]
  by_cases hk : ks = []
  · rw [hk, append_nil]
    exact .inl rfl
  refine .inr ⟨ks,hk,hks,?_⟩
  by_cases hr : rs = []
  · rw [under, hr, if_pos (by rfl), nil_append, nil_append, flatMap_slash hk]
  · have ho : '/'::joined rs ≠ ['/'] := by
      intro h
      have hn := names_joined hrs
      rw [(cons.inj h).2] at hn
      exact hr (hn.symm.trans rfl)
    rw [under, if_neg ho, ← flatMap_slash hr, ← flatMap_append, flatMap_slash (by simp [hr])]

end

end

end SdkApi.LexicalPaths
