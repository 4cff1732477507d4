import SdkApi.GoStrings
import SdkApi.PathPatterns
import SdkApi.TextReplace

/-!
# Declarative redirects

A rule sends the requests that match its pattern to a target. A pattern ends
with a wildcard or has parameters, and the target is a template: the handler
appends the wildcard match, or replaces the parameters one after the other,
and then adds the query.

A browser takes a location that starts with one slash as a path on the same
host. With a second slash or a backslash behind it, the location names another
host. The first two characters of a location come from the template, unless
the template starts with the wildcard or with a reference to a parameter.
-/

namespace SdkApi.RedirectOrigins
open GoStrings PathPatterns TextReplace List

structure Request where
  method : String
  path : String
  query : String := ""

inductive Reply where
  | next
  | redirect (status : ℕ) (location : String)
  deriving DecidableEq

def base (from_ : String) : String := trimSuffix from_ "/*"

def hasWildcard (from_ : String) : Bool := hasSuffix from_ "/*"

def routed (from_ path : String) : Bool :=
  if hasWildcard from_ then matchMount (base from_).toList path.toList
  else matchRoute from_.toList path.toList

/-- `c.Params` for the name of a parameter. -/
def paramValue (from_ path : String) (name : Segment) : Segment :=
  param name (captured (segments (base from_).toList) (segments path.toList))

/-- `c.Params("*")`: what the path has behind the pattern. -/
def wildcardValue (from_ path : String) : List Char :=
  ['/'].intercalate ((segments path.toList).drop (segments (base from_).toList).length)

def extractParams (pattern : String) : List Segment :=
  ((split pattern.toList).filter isParam).map List.tail

def forwardWildcard (from_ to_ path : String) : List Char :=
  if hasWildcard from_ ∧ hasSuffix to_ "/*" then
    let wildcardVal := wildcardValue from_ path
    if wildcardVal ≠ [] then (trimSuffix to_ "/*").toList++ '/'::wildcardVal
    else (trimSuffix to_ "/*").toList
  else to_.toList

def forwardParam (from_ path : String) (target : List Char) (p : Segment) : List Char :=
  let val := paramValue from_ path p
  if val ≠ [] then replaceAll (':'::p) val target else target

def forwardParams (from_ path : String) (target : List Char) : List Char :=
  if from_.toList.contains ':' ∧ ¬hasWildcard from_ then
    (extractParams from_).foldl (forwardParam from_ path) target
  else target

def withQuery (preserveQuery : Bool) (query : String) (target : List Char) : String :=
  if preserveQuery ∧ query ≠ "" then
    String.ofList (target++(if target.contains '?' then '&' else '?')::query.toList)
  else String.ofList target

def buildRedirectHandler (from_ to_ : String) (status : ℕ) (preserveQuery : Bool)
    (methods : List String) (req : Request) : Reply :=
  if methods ≠ [] ∧ req.method ∉ methods then .next
  else .redirect status (withQuery preserveQuery req.query
    (forwardParams from_ req.path (forwardWildcard from_ to_ req.path)))

/-- One slash at the start, which is not followed by a slash or a backslash. -/
def sameOrigin : List Char → Bool
  | [] => false
  | c::rest => c = '/' && rest.head? ≠ some '/' && rest.head? ≠ some '\\'

section

variable (from_ to_ path : String)

/-- The reference stands first, and a backslash is put in its place. -/
def Opens (target : List Char) (p : Segment) : Prop :=
  '/':: ':'::p <+: target ∧ (paramValue from_ path p).head? = some '\\'

def AnyOpens : List Segment → List Char → Prop
  | [], _ => False
  | p::ps, target => Opens from_ path target p ∨ AnyOpens ps (forwardParam from_ path target p)

/-- The match stands first, or no parameter opens the template. -/
def Contained : Prop :=
  if hasWildcard from_ ∧ hasSuffix to_ "/*" then
    let before := (trimSuffix to_ "/*").toList
    let val := wildcardValue from_ path
    if before = [] then val ≠ [] ∧ val.head? ≠ some '/' ∧ val.head? ≠ some '\\'
    else if val = [] then sameOrigin before = true
    else sameOrigin (before++['/']) = true
  else sameOrigin to_.toList = true ∧
    (hasWildcard from_ = false → ¬AnyOpens from_ path (extractParams from_) to_.toList)

end

section

variable {from_ path : String}

lemma slash_notMem_segments {s : Segment} (h : s ∈ segments path.toList) : '/' ∉ s := by
  have ha : s ∈ parts path.toList := (List.rdropWhile_prefix _ _).subset h
  cases ht : path.toList with
  | nil =>
    rw [ht] at ha
    exact absurd ha not_mem_nil
  | cons c cs =>
    rw [ht, parts] at ha
    split_ifs at ha
    · exact (of_mem_split cs s ha).1
    · exact (of_mem_split (c::cs) s ha).1

lemma mem_captured {ps ss : List Segment} {c : Segment × Segment} (h : c ∈ captured ps ss) :
    c.2 ∈ ss := by
  induction ps generalizing ss with
  | nil => exact absurd h not_mem_nil
  | cons p ps ih =>
    cases ss with
    | nil => exact absurd h not_mem_nil
    | cons s ss =>
      rw [captured] at h
      split_ifs at h
      · rcases mem_cons.mp h with rfl | h
        · exact .head _
        · exact .tail s (ih h)
      · exact .tail s (ih h)

lemma slash_notMem_paramValue (p : Segment) : '/' ∉ paramValue from_ path p := by
  rw [paramValue, param]
  cases hi : (captured (segments (base from_).toList) (segments path.toList)).find?
      (fun c => sameText p c.1) with
  | none => simp
  | some c => exact slash_notMem_segments (mem_captured (mem_of_find?_eq_some hi))

variable {p : Segment}

lemma sameOrigin_cons (u : List Char) :
    sameOrigin ('/'::u) ↔ u.head? ≠ some '/' ∧ u.head? ≠ some '\\' := by
  simp [sameOrigin]

lemma head?_replaceFrom {p v u : List Char} (hv : v ≠ []) :
    (replaceFrom (':'::p) v 0 u).head? = if ':'::p <+: u then v.head? else u.head? := by
  cases u with
  | nil => simp [replaceFrom]
  | cons c cs =>
    rw [replaceFrom, if_neg (by simp)]
    by_cases he : ':'::p <+: c::cs
    · rw [if_pos (List.isPrefixOf_iff_prefix.mpr he), if_pos he, head?_append_of_ne_nil _ hv]
    · rw [if_neg fun h => he (List.isPrefixOf_iff_prefix.mp h), if_neg he]
      rfl

lemma forwardParam_cons (u : List Char) : ∃ u', forwardParam from_ path ('/'::u) p = '/'::u' ∧
    u'.head? = if ':'::p <+: u ∧ paramValue from_ path p ≠ [] then
      (paramValue from_ path p).head? else u.head? := by
  rw [forwardParam]
  by_cases ha : paramValue from_ path p = []
  · exact ⟨u,by simp [ha],by simp [ha]⟩
  · refine ⟨replaceFrom (':'::p) (paramValue from_ path p) 0 u,?_,?_⟩
    · rw [if_pos ha, replaceAll, replaceFrom, if_neg (by simp), if_neg]
      intro he
      obtain ⟨hl,-⟩ := cons_prefix_cons.mp (List.isPrefixOf_iff_prefix.mp he)
      exact absurd hl (by decide)
    · rw [head?_replaceFrom ha]
      simp [ha]

lemma sameOrigin_forwardParam (u : List Char) :
    sameOrigin (forwardParam from_ path ('/'::u) p) ↔
      sameOrigin ('/'::u) ∧ ¬Opens from_ path ('/'::u) p := by
  obtain ⟨u',hu',ha⟩ := @forwardParam_cons from_ path p u
  have he : Opens from_ path ('/'::u) p ↔
      ':'::p <+: u ∧ (paramValue from_ path p).head? = some '\\' := by
    rw [Opens, cons_prefix_cons]
    simp
  rw [hu', sameOrigin_cons, sameOrigin_cons, ha, he]
  by_cases hpr : ':'::p <+: u
  · have ho : u.head? = some ':' := by
      obtain ⟨r,rfl⟩ := hpr
      rfl
    by_cases hva : paramValue from_ path p = []
    · simp [hva, ho]
    · have hl : (paramValue from_ path p).head? ≠ some '/' := fun hs =>
        slash_notMem_paramValue p (mem_of_mem_head? hs)
      simp [hpr, hva, ho, hl]
  · simp [hpr]

lemma sameOrigin_foldl (ps : List Segment) (u : List Char) :
    sameOrigin (ps.foldl (forwardParam from_ path) ('/'::u)) ↔
      sameOrigin ('/'::u) ∧ ¬AnyOpens from_ path ps ('/'::u) := by
  induction ps generalizing u with
  | nil => simp [AnyOpens]
  | cons p ps ih =>
    obtain ⟨u',hu',-⟩ := @forwardParam_cons from_ path p u
    have ht := @sameOrigin_forwardParam from_ path p u
    rw [foldl_cons, AnyOpens, hu', ih, ← hu', ht, not_or, and_assoc]

end

lemma extractParams_eq_nil {from_ : String} (h : ':' ∉ from_.toList) :
    extractParams from_ = [] := by
  rw [eq_nil_iff_forall_not_mem]
  intro p hp
  obtain ⟨s, hs, -⟩ := mem_map.mp hp
  rw [mem_filter] at hs
  have he : ':' ∈ s := mem_of_mem_head? (of_decide_eq_true hs.2)
  exact h ((of_mem_split _ s hs.1).2 he)

section

variable {from_ to_ path : String}

lemma forwardParams_eq (h : hasWildcard from_ = false) (target : List Char) :
    forwardParams from_ path target =
      (extractParams from_).foldl (forwardParam from_ path) target := by
  rw [forwardParams]
  by_cases ho : ':' ∈ from_.toList
  · rw [if_pos ⟨contains_iff_mem.mpr ho,by simp [h]⟩]
  · rw [if_neg (by simp [ho]), extractParams_eq_nil ho]
    rfl

lemma sameOrigin_append {t u : List Char} (ht : t ≠ [])
    (hu : t.length = 1 → u.head? ≠ some '/' ∧ u.head? ≠ some '\\') :
    sameOrigin (t++u) = sameOrigin t := by
  cases t with
  | nil => exact absurd rfl ht
  | cons c t =>
    cases t with
    | nil => simp [sameOrigin, hu rfl]
    | cons d t => rfl

lemma sameOrigin_withQuery (preserveQuery : Bool) (query : String) (target : List Char) :
    sameOrigin (withQuery preserveQuery query target).toList = sameOrigin target := by
  rw [withQuery]
  split_ifs with hq hm
  · rw [String.toList_ofList]
    cases target with
    | nil => rfl
    | cons c t => exact sameOrigin_append (by simp) (by simp)
  · rw [String.toList_ofList]
    cases target with
    | nil => rfl
    | cons c t => exact sameOrigin_append (by simp) (by simp)
  · rw [String.toList_ofList]

lemma sameOrigin_forwardWildcard (h : hasWildcard from_ ∧ hasSuffix to_ "/*") :
    sameOrigin (forwardWildcard from_ to_ path) ↔ Contained from_ to_ path := by
  rw [Contained, if_pos h, forwardWildcard, if_pos h]
  dsimp only
  by_cases hb : (trimSuffix to_ "/*").toList = []
  · rw [if_pos hb, hb]
    by_cases ha : wildcardValue from_ path = []
    · simp [ha, sameOrigin]
    · simp [ha, sameOrigin]
  · rw [if_neg hb]
    by_cases ha : wildcardValue from_ path = []
    · rw [if_pos ha, if_neg (by simpa using ha)]
    · rw [if_neg ha, if_pos ha, ← singleton_append, ← append_assoc]
      rw [sameOrigin_append (by simp)]
      simp [hb]

lemma sameOrigin_target (he : to_.toList.head? = some '/') :
    sameOrigin (forwardParams from_ path (forwardWildcard from_ to_ path)) ↔
      Contained from_ to_ path := by
  obtain ⟨u,hu⟩ : ∃ u, to_.toList = '/'::u := by
    cases ht : to_.toList with
    | nil => rw [ht] at he; cases he
    | cons c u =>
      rw [ht] at he
      cases he
      exact ⟨u,rfl⟩
  cases hi : hasWildcard from_ with
  | false =>
    rw [forwardWildcard, if_neg (by simp [hi]), forwardParams_eq hi, Contained,
      if_neg (by simp [hi]), hu, sameOrigin_foldl]
    simp [hi]
  | true =>
    rw [forwardParams, if_neg (by simp [hi])]
    by_cases hx : hasSuffix to_ "/*"
    · exact sameOrigin_forwardWildcard ⟨hi,hx⟩
    · rw [forwardWildcard, if_neg (by simp [hx]), Contained, if_neg (by simp [hx])]
      simp [hi]

end

/-- For every rule with a relative target and every request that it redirects, the location is
on the same origin exactly if the target is contained for the path of the request. -/
theorem sameOrigin_iff_contained (from_ to_ : String) (hrel : to_.toList.head? = some '/')
    (status : ℕ) (preserveQuery : Bool) (methods : List String) (req : Request) {code : ℕ}
    {location : String}
    (h : buildRedirectHandler from_ to_ status preserveQuery methods req =
      .redirect code location) :
    sameOrigin location.toList = true ↔ Contained from_ to_ req.path := by
  rw [buildRedirectHandler] at h
  split_ifs at h
  obtain ⟨-,rfl⟩ := Reply.redirect.inj h
  rw [sameOrigin_withQuery, sameOrigin_target hrel]

theorem sameOrigin_iff_contained_sample :
    buildRedirectHandler "/old/*" "/new/*" 302 true ["GET"] ⟨"GET","/old//other.example",""⟩ =
      .redirect 302 "/new//other.example" ∧
    sameOrigin "/new//other.example".toList = true := by
  have he : buildRedirectHandler "/old/*" "/new/*" 302 true ["GET"]
      ⟨"GET","/old//other.example",""⟩ = .redirect 302 "/new//other.example" := by decide
  have ho : Contained "/old/*" "/new/*" "/old//other.example" := by
    rw [Contained, if_pos (by decide)]
    decide
  exact ⟨he,(sameOrigin_iff_contained "/old/*" "/new/*" (by decide) 302 true ["GET"] _ he).mpr ho⟩

/-- An empty segment and a backslash lead to another host, and an empty match leaves nothing. -/
theorem leaves_origin :
    (routed "/old/*" "/old//other.example" = true ∧
      buildRedirectHandler "/old/*" "/*" 302 true ["GET"] ⟨"GET","/old//other.example",""⟩ =
        .redirect 302 "//other.example" ∧ sameOrigin "//other.example".toList = false) ∧
    (routed "/:page" "/\\other.example" = true ∧
      buildRedirectHandler "/:page" "/:page" 302 true ["GET"] ⟨"GET","/\\other.example",""⟩ =
        .redirect 302 "/\\other.example" ∧ sameOrigin "/\\other.example".toList = false) ∧
    (routed "/old/*" "/old" = true ∧
      buildRedirectHandler "/old/*" "/*" 302 true ["GET"] ⟨"GET","/old",""⟩ = .redirect 302 "" ∧
      sameOrigin "".toList = false) := by
  decide

end SdkApi.RedirectOrigins
