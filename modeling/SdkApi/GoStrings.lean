import Mathlib.Data.String.Basic
import Mathlib.Data.List.Infix

/-!
# String operations of the standard library

A Go string is a sequence of bytes that is read as UTF-8; each character of a
Lean string stands for one code point, and in what `base64Decode` returns for
one byte. The definitions follow the documented behaviour of the packages
`strings`, `strconv` and `encoding/base64`, with the cases of ASCII letters only.
-/

namespace SdkApi.GoStrings
open List

def hasPrefix (s p : String) : Bool := p.toList.isPrefixOf s.toList

def trimPrefix (s p : String) : String :=
  if hasPrefix s p then String.ofList (s.toList.drop p.toList.length) else s

def hasSuffix (s p : String) : Bool := p.toList.isSuffixOf s.toList

def trimSuffix (s p : String) : String :=
  if hasSuffix s p then String.ofList (s.toList.take (s.toList.length-p.toList.length)) else s

def cutPrefix (s p : String) : String × Bool :=
  if hasPrefix s p then (String.ofList (s.toList.drop p.toList.length),true) else (s,false)

/-- `strings.Cut` at a one-byte separator. -/
def cut (s : String) (sep : Char) : String × String × Bool :=
  match s.toList.dropWhile (· ≠ sep) with
  | [] => (s,"",false)
  | _::after => (String.ofList (s.toList.takeWhile (· ≠ sep)),String.ofList after,true)

/-- `unicode.IsSpace` -/
def isSpace (c : Char) : Bool :=
  c = ' ' || ('\t' ≤ c && c ≤ '\r') || c = '\u0085' || c = '\u00a0' || c = '\u1680' ||
    ('\u2000' ≤ c && c ≤ '\u200a') || c = '\u2028' || c = '\u2029' || c = '\u202f' ||
    c = '\u205f' || c = '\u3000'

def trimSpace (s : String) : String :=
  String.ofList ((s.toList.dropWhile isSpace).reverse.dropWhile isSpace).reverse

/-- `strings.Fields`: the maximal runs of characters that are not space. -/
def fields (s : String) : List String :=
  ((s.toList.splitOnP isSpace).filter (· ≠ [])).map String.ofList

def toLower (s : String) : String := String.ofList (s.toList.map Char.toLower)

def toUpper (s : String) : String := String.ofList (s.toList.map Char.toUpper)

def isDigit (b : Char) : Bool := '0' ≤ b && b ≤ '9'

def number (ds : List Char) : ℕ := ds.foldl (fun n c => 10*n+(c.toNat-48)) 0

/-- `strconv.Atoi` -/
def atoi (s : List Char) : Option ℤ :=
  let ds := match s with
    | '+'::ds => ds
    | '-'::ds => ds
    | ds => ds
  let n : ℤ := if s.head? = some '-' then -(number ds : ℤ) else number ds
  if ds ≠ [] ∧ ds.all isDigit ∧ -0x8000000000000000 ≤ n ∧ n < 0x8000000000000000 then some n
  else none

def base64Value (c : Char) : Option ℕ :=
  if 'A' ≤ c ∧ c ≤ 'Z' then some (c.toNat-65)
  else if 'a' ≤ c ∧ c ≤ 'z' then some (c.toNat-97+26)
  else if '0' ≤ c ∧ c ≤ '9' then some (c.toNat-48+52)
  else if c = '+' then some 62
  else if c = '/' then some 63
  else none

/-- The unused bits of the last quantum are not checked. -/
def base64Quanta : List Char → Option (List Char)
  | [] => some []
  | [a,b,'=','='] => do
    let x ← base64Value a
    let y ← base64Value b
    return [Char.ofNat ((x*4+y/16)%256)]
  | [a,b,c,'='] => do
    let x ← base64Value a
    let y ← base64Value b
    let z ← base64Value c
    return [Char.ofNat ((x*4+y/16)%256),Char.ofNat ((y*16+z/4)%256)]
  | a::b::c::d::rest => do
    let x ← base64Value a
    let y ← base64Value b
    let z ← base64Value c
    let w ← base64Value d
    let tail ← base64Quanta rest
    return Char.ofNat ((x*4+y/16)%256)::Char.ofNat ((y*16+z/4)%256)::
      Char.ofNat ((z*64+w)%256)::tail
  | _ => none

/-- `base64.StdEncoding.DecodeString`; line breaks are ignored. -/
def base64Decode (s : String) : Option String :=
  (base64Quanta (s.toList.filter (fun c => c ≠ '\n' ∧ c ≠ '\r'))).map String.ofList

example : base64Decode "dTpw" = some "u:p" := by decide

lemma hasPrefix_iff (s p : String) : hasPrefix s p ↔ ∃ t, s = p ++ t := by
  rw [hasPrefix, List.isPrefixOf_iff_prefix]
  constructor
  · rintro ⟨t,ht⟩
    refine ⟨String.ofList t,String.toList_injective ?_⟩
    simp [← ht]
  · rintro ⟨t,rfl⟩
    exact ⟨t.toList,by simp⟩

@[simp] lemma hasPrefix_append {p t : String} : hasPrefix (p ++ t) p :=
  (hasPrefix_iff _ p).mpr ⟨t,rfl⟩

lemma hasSuffix_iff {s : String} (p : String) : hasSuffix s p ↔ ∃ t, s = t ++ p := by
  rw [hasSuffix, isSuffixOf_iff_suffix]
  constructor
  · rintro ⟨t,ht⟩
    refine ⟨String.ofList t,String.toList_injective ?_⟩
    simp [← ht]
  · rintro ⟨t,rfl⟩
    exact ⟨t.toList,by simp⟩

lemma trimSuffix_append (t p : String) : trimSuffix (t ++ p) p = t := by
  rw [trimSuffix, if_pos ((hasSuffix_iff p).mpr ⟨t,rfl⟩)]
  simp

lemma hasPrefix_total {s p : String} (q : String) (hp : hasPrefix s p) (hq : hasPrefix s q) :
    hasPrefix p q ∨ hasPrefix q p := by
  simp only [hasPrefix, List.isPrefixOf_iff_prefix] at *
  exact (List.prefix_or_prefix_of_prefix hq hp)

lemma cutPrefix_append (p t : String) : cutPrefix (p ++ t) p = (t,true) := by
  simp [cutPrefix]

lemma bearer_not_basic (s : String) (h : hasPrefix s "Bearer ") : hasPrefix s "Basic " = false := by
  by_contra hb
  rcases hasPrefix_total "Basic " h (by simpa using hb) with hh | hh
  · exact absurd hh (by decide)
  · exact absurd hh (by decide)

lemma cut_prefix {s a b : String} {c : Char} (h : cut s c = (a,b,true)) :
    hasPrefix s (a ++ String.singleton c) := by
  simp only [cut] at h
  split at h
  · simp at h
  · rename_i x rest ho
    simp only [Prod.mk.injEq, and_true] at h
    have hx : x = c := by
      have he := head?_dropWhile_not (fun y => decide (y ≠ c)) s.toList
      rw [ho] at he
      simpa using he
    subst hx
    rw [hasPrefix, List.isPrefixOf_iff_prefix, ← h.1]
    refine ⟨rest,?_⟩
    have hl := takeWhile_append_dropWhile (p := fun y => decide (y ≠ x)) (l := s.toList)
    rw [ho] at hl
    simpa using hl

lemma cut_append {s : String} (h : ':' ∉ s.toList) (t : String) :
    cut (s ++ ":" ++ t) ':' = (s,t,true) := by
  have hs : ∀ c ∈ s.toList, decide (c ≠ ':') := fun c hc => by grind
  have ht : (s ++ ":" ++ t).toList = s.toList++ ':'::t.toList := by simp
  rw [cut, ht, dropWhile_append_of_pos hs, takeWhile_append_of_pos hs]
  simp

end SdkApi.GoStrings
