import Mathlib.Data.List.DropRight

/-!
# Path patterns

The patterns of a router and the paths of requests are cut at the slashes. A
segment of a pattern that starts with a colon is a parameter: it matches one
non-empty segment and hands it to the handler under its name. Every other
segment matches the same text, in upper or lower case. A missing slash at the
start is supplied, and slashes at the end do not count. A route wants the
whole path, a mounted middleware only a first part of it.
-/

namespace SdkApi.PathPatterns
open List

abbrev Segment := List Char

def split (s : List Char) : List Segment := s.splitOn '/'

/-- The segments behind the first slash, which may be left out. -/
def parts : List Char → List Segment
  | [] => []
  | c::cs => if c = '/' then split cs else split (c::cs)

def trim (ss : List Segment) : List Segment := ss.rdropWhile List.isEmpty

def segments (s : List Char) : List Segment := trim (parts s)

def isParam (p : Segment) : Bool := p.head? = some ':'

def sameText (p s : Segment) : Bool := p.map Char.toLower = s.map Char.toLower

def fits (p s : Segment) : Bool := if isParam p then !s.isEmpty else sameText p s

def fitsAll : List Segment → List Segment → Bool
  | [], [] => true
  | p::ps, s::ss => fits p s && fitsAll ps ss
  | _, _ => false

def fitsUnder : List Segment → List Segment → Bool
  | [], _ => true
  | p::ps, s::ss => fits p s && fitsUnder ps ss
  | _::_, [] => false

def captured : List Segment → List Segment → List (Segment × Segment)
  | p::ps, s::ss => if isParam p then (p.tail,s)::captured ps ss else captured ps ss
  | _, _ => []

def param (name : Segment) (cs : List (Segment × Segment)) : Segment :=
  ((cs.find? (fun c => sameText name c.1)).map Prod.snd).getD []

def matchRoute (pattern path : List Char) : Bool := fitsAll (segments pattern) (segments path)

def matchMount (pattern path : List Char) : Bool := fitsUnder (segments pattern) (segments path)

section

lemma split_append_slash (a b : List Char) : split (a++ '/'::b) = split a++split b := by
  rw [split, split, split, splitOn_eq_splitOnP, splitOn_eq_splitOnP, splitOn_eq_splitOnP]
  exact splitOnP_append_cons a b (by simp)

lemma split_single {a : List Char} (h : '/' ∉ a) : split a = [a] :=
  splitOn_eq_singleton h

lemma of_mem_split (t : List Char) : ∀ s ∈ split t, '/' ∉ s ∧ s ⊆ t := by
  induction t with
  | nil =>
    intro s hs
    rw [show s = [] by simpa [split] using hs]
    exact ⟨not_mem_nil,nil_subset _⟩
  | cons c t ih =>
    rw [split, splitOn_eq_splitOnP] at ih ⊢
    rw [splitOnP_cons_eq_if_modifyHead]
    by_cases hc : c = '/'
    · rw [if_pos (by simpa using hc)]
      intro s hs
      rcases mem_cons.mp hs with rfl | hs
      · exact ⟨not_mem_nil,nil_subset _⟩
      · exact ⟨(ih s hs).1,subset_cons_of_subset _ (ih s hs).2⟩
    · rw [if_neg (by simpa using hc)]
      cases ht : t.splitOnP (· == '/') with
      | nil => exact absurd ht (splitOnP_ne_nil _ _)
      | cons x xs =>
        rw [ht] at ih
        have hx := ih x (.head _)
        intro s hs
        rcases mem_cons.mp hs with rfl | hs
        · exact ⟨by simp [Ne.symm hc, hx.1],cons_subset_cons _ hx.2⟩
        · have hs := ih s (.tail x hs)
          exact ⟨hs.1,subset_cons_of_subset _ hs.2⟩

lemma parts_append_slash (a b : List Char) : parts (a++ '/'::b) = parts a++split b := by
  cases a with
  | nil => simp [parts]
  | cons c cs =>
    by_cases hc : c = '/'
    · simp only [parts, cons_append, hc, if_true]
      exact split_append_slash cs b
    · simp only [parts, cons_append, hc, if_false]
      exact split_append_slash (c::cs) b

variable (a : List Char) {b : List Char}

lemma parts_item (h : '/' ∉ b) : parts (a++ '/'::b) = parts a++[b] := by
  rw [parts_append_slash, split_single h]

@[simp] lemma trim_append_empty (ss : List Segment) : trim (ss++[[]]) = trim ss :=
  rdropWhile_concat_pos _ _ _ rfl

lemma trim_append_of_ne (ss : List Segment) {s : Segment} (h : s ≠ []) : trim (ss++[s]) = ss++[s] :=
  rdropWhile_concat_neg _ _ _ (by simpa using h)

lemma segments_item (h : '/' ∉ b) (hb : b ≠ []) : segments (a++ '/'::b) = parts a++[b] := by
  rw [segments, parts_item a h, trim_append_of_ne _ hb]

lemma segments_slash : segments (a++['/']) = segments a := by
  rw [segments, parts_item a not_mem_nil, trim_append_empty, segments]

variable {p s : Segment} {ps ss : List Segment}

lemma fits_empty (h : fits p s) : p = [] ↔ s = [] := by
  rw [fits] at h
  split_ifs at h with hp
  · constructor
    · rintro rfl
      simp [isParam] at hp
    · rintro rfl
      simp at h
  · have h := of_decide_eq_true h
    constructor
    · rintro rfl
      simpa using h.symm
    · rintro rfl
      simpa using h

lemma fitsAll_cons (h : fitsAll (p::ps) ss) : ∃ s ss', ss = s::ss' ∧ fits p s ∧ fitsAll ps ss' := by
  cases ss with
  | nil => simp [fitsAll] at h
  | cons s ss => exact ⟨s,ss,rfl,(Bool.and_eq_true _ _).mp h⟩

lemma fitsAll_nil (h : fitsAll [] ss) : ss = [] := by
  cases ss with
  | nil => rfl
  | cons s ss => simp [fitsAll] at h

lemma fitsAll_length (h : fitsAll ps ss) : ps.length = ss.length := by
  induction ps generalizing ss with
  | nil => rw [fitsAll_nil h]
  | cons p ps ih =>
    obtain ⟨s,ss,rfl,-,hss⟩ := fitsAll_cons h
    rw [length_cons, length_cons, ih hss]

lemma fitsAll_append_single (ps ss : List Segment) :
    fitsAll (ps++[p]) (ss++[s]) = (fitsAll ps ss && fits p s) := by
  induction ps generalizing ss with
  | nil =>
    cases ss with
    | nil => simp [fitsAll]
    | cons x xs => cases xs <;> simp [fitsAll]
  | cons y ys ih =>
    cases ss with
    | nil => cases ys <;> simp [fitsAll]
    | cons x xs => simp only [cons_append, fitsAll, ih, Bool.and_assoc]

lemma fitsAll_trim (h : fitsAll ps ss) : fitsAll (trim ps) (trim ss) := by
  induction ps using reverseRecOn generalizing ss with
  | nil => rw [fitsAll_nil h]; rfl
  | append_singleton ps p ih =>
    induction ss using reverseRecOn with
    | nil =>
      have := fitsAll_length h
      simp at this
    | append_singleton ss s _ =>
      have hb := h
      rw [fitsAll_append_single, Bool.and_eq_true] at h
      by_cases hp : p = []
      · have hs : s = [] := (fits_empty h.2).mp hp
        rw [hp, hs, trim_append_empty, trim_append_empty]
        exact ih h.1
      · have hs : s ≠ [] := fun hs => hp ((fits_empty h.2).mpr hs)
        rw [trim_append_of_ne ps hp, trim_append_of_ne ss hs]
        exact hb

lemma fitsUnder_of_fitsAll {ps qs : List Segment} (h : fitsAll (ps++qs) ss) : fitsUnder ps ss := by
  induction ps generalizing ss with
  | nil => rfl
  | cons p ps ih =>
    obtain ⟨s,ss,rfl,hi,hss⟩ := fitsAll_cons h
    rw [fitsUnder, hi, ih hss]
    rfl

lemma trim_append (ps qs : List Segment) : ∃ rs, trim (ps++qs) = trim ps++rs := by
  induction qs using reverseRecOn with
  | nil => exact ⟨[],by simp⟩
  | append_singleton qs q ih =>
    rw [← append_assoc]
    by_cases hq : q = []
    · rw [hq, trim_append_empty]
      exact ih
    · obtain ⟨rs,hrs⟩ := rdropWhile_prefix isEmpty ps
      refine ⟨rs++qs++[q],?_⟩
      rw [trim_append_of_ne _ hq, trim, append_assoc, append_assoc,
        ← append_assoc _ rs, hrs]

lemma matchMount_of_matchRoute {a path : List Char} {b : List Char}
    (hb : b = [] ∨ b.head? = some '/') (h : matchRoute (a++b) path) : matchMount a path := by
  cases b with
  | nil =>
    rw [matchRoute, append_nil, ← append_nil (segments a)] at h
    exact fitsUnder_of_fitsAll h
  | cons c cs =>
    have hc : c = '/' := by simpa using hb
    obtain ⟨rs,hrs⟩ := trim_append (parts a) (split cs)
    rw [matchRoute, segments, hc, parts_append_slash, hrs] at h
    exact fitsUnder_of_fitsAll h

section

variable {f : Segment → Bool}

lemma any_parts (hf : f [] = false) (s : List Char) : (parts s).any f = (split s).any f := by
  cases s with
  | nil => simp [parts, split, hf]
  | cons c cs =>
    by_cases hc : c = '/'
    · have h : split ('/'::cs) = [[]]++split cs := split_append_slash [] cs
      simp [parts, hc, h, hf]
    · simp [parts, hc]

lemma any_trim (hf : f [] = false) (ss : List Segment) : (trim ss).any f = ss.any f := by
  induction ss using reverseRecOn with
  | nil => rfl
  | append_singleton ss s ih =>
    by_cases hs : s = []
    · simp [hs, ih, hf]
    · rw [trim_append_of_ne ss hs]

lemma any_segments (hf : f [] = false) (s : List Char) : (segments s).any f = (split s).any f := by
  rw [segments, any_trim hf, any_parts hf]

end

lemma captured_append_single {p s : Segment} (h : fitsAll ps ss) :
    captured (ps++[p]) (ss++[s]) = captured ps ss++captured [p] [s] := by
  induction ps generalizing ss with
  | nil => rw [fitsAll_nil h]; rfl
  | cons q qs ih =>
    obtain ⟨t,ts,rfl,-,ht⟩ := fitsAll_cons h
    rw [cons_append, cons_append, captured, captured, ih ht]
    split_ifs <;> rfl

lemma captured_eq_nil (h : ps.any isParam = false) : captured ps ss = [] := by
  induction ps generalizing ss with
  | nil => rfl
  | cons p ps ih =>
    rw [any_cons, Bool.or_eq_false_iff] at h
    cases ss with
    | nil => rfl
    | cons s ss => rw [captured, if_neg (by simp [h.1]), ih h.2]

lemma param_eq_nil_iff {name : Segment} (h : fitsAll ps ss) :
    param name (captured ps ss) = [] ↔
      ps.any (fun p => isParam p && sameText name p.tail) = false := by
  induction ps generalizing ss with
  | nil =>
    rw [fitsAll_nil h]
    simp [captured, param]
  | cons p ps ih =>
    obtain ⟨s,ss,rfl,hi,hss⟩ := fitsAll_cons h
    rw [any_cons, Bool.or_eq_false_iff, ← ih hss, captured]
    by_cases hp : isParam p
    · have hs : s ≠ [] := by simpa [fits, hp] using hi
      by_cases hname : sameText name p.tail
      · simp [hp, hname, param, hs]
      · simp [hp, hname, param]
    · simp [hp]

end

end SdkApi.PathPatterns
