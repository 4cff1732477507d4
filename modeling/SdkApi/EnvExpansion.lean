import Mathlib.Algebra.Order.Group.Nat
import Mathlib.Algebra.Order.BigOperators.Group.List
import Mathlib.Data.List.Basic

/-!
# Environment variables in a configuration file

Before a file is parsed, its expressions are replaced by values of the
environment or by their defaults. An expression starts with a dollar and a
brace and ends with the next closing brace; without one it is text like
everything else. The reading of a text says which bytes belong to expressions.
-/

namespace SdkApi.EnvExpansion
open List

abbrev Bytes := List UInt8

def ascii (s : String) : Bytes := s.toList.map Char.toUInt8

def dollar : UInt8 := 0x24

def openBrace : UInt8 := 0x7b

def closeBrace : UInt8 := 0x7d

def colon : UInt8 := 0x3a

/-- `string(b)` takes the byte for a code point and encodes it. -/
def stringOfByte (b : UInt8) : Bytes :=
  if b < 0x80 then [b] else [(0xc0 : UInt8) ||| (b >>> 6),(0x80 : UInt8) ||| (b &&& 0x3f)]

/-- `strings.SplitN(expr, ":", 2)` -/
def splitExpr (expr : Bytes) : Bytes × Option Bytes :=
  match expr.dropWhile (· ≠ colon) with
  | [] => (expr,none)
  | _::default_ => (expr.takeWhile (· ≠ colon),some default_)

section

variable (getenv : Bytes → Bytes)

def expandExpr (name : Bytes) (default_ : Option Bytes) : Bytes × List Bytes :=
  if getenv name ≠ [] then (getenv name,[])
  else
    match default_ with
    | some d => (d,[])
    | none => (dollar::openBrace::name++[closeBrace],[name])

/-- The loop: `skip` bytes belong to the last expression. -/
def expandFrom (skip : ℕ) : Bytes → Bytes × List Bytes
  | [] => ([],[])
  | c::cs =>
    if 0 < skip then expandFrom (skip-1) cs
    else if c = dollar ∧ 2 ≤ cs.length ∧ cs.head? = some openBrace ∧ closeBrace ∈ cs then
      let end_ := (c::cs).idxOf closeBrace
      let parts := splitExpr (((c::cs).take end_).drop 2)
      let out := expandExpr getenv parts.1 parts.2
      let rest := expandFrom end_ cs
      (out.1++rest.1,out.2++rest.2)
    else
      let rest := expandFrom 0 cs
      (stringOfByte c++rest.1,rest.2)

def expandEnvDefaults (content : Bytes) : Bytes × Option Bytes :=
  let r := expandFrom getenv 0 content
  (r.1,if r.2 ≠ [] then some (ascii "required env vars not set: "++(ascii ", ").intercalate r.2)
    else none)

inductive Piece where
  | lit (b : UInt8)
  | expr (name : Bytes) (default_ : Option Bytes)

def body (name : Bytes) : Option Bytes → Bytes
  | none => name
  | some d => name++colon::d

def Piece.source : Piece → Bytes
  | .lit b => [b]
  | .expr name default_ => dollar::openBrace::body name default_++[closeBrace]

inductive Reads : Bytes → List Piece → Prop
  | nil : Reads [] []
  | lit {b : UInt8} {t : Bytes} {ps : List Piece}
      (hno : ∀ u, b::t = dollar::openBrace::u → closeBrace ∉ u) (h : Reads t ps) :
      Reads (b::t) (.lit b::ps)
  | expr {name : Bytes} {default_ : Option Bytes} {t : Bytes} {ps : List Piece}
      (hname : colon ∉ name) (hbody : closeBrace ∉ body name default_) (h : Reads t ps) :
      Reads ((Piece.expr name default_).source++t) (.expr name default_::ps)

variable (getenv : Bytes → Bytes)

def Piece.value : Piece → Bytes
  | .lit b => [b]
  | .expr name default_ => if getenv name ≠ [] then getenv name else default_.getD []

def Piece.Missing (p : Piece) : Prop := ∃ name, p = .expr name none ∧ getenv name = []

def Piece.written : Piece → Bytes × List Bytes
  | .lit b => (stringOfByte b,[])
  | .expr name default_ => expandExpr getenv name default_

end

section

variable {getenv : Bytes → Bytes} {t : Bytes} {ps : List Piece} {default_ : Option Bytes}
  {name : Bytes} {p : Piece}

lemma splitExpr_body (hname : colon ∉ name) (default_ : Option Bytes) :
    splitExpr (body name default_) = (name,default_) := by
  have ha : ∀ b ∈ name, decide (b ≠ colon) := by
    intro b hb
    exact decide_eq_true fun ho => hname (ho ▸ hb)
  cases default_ with
  | none =>
    have hdr : name.dropWhile (· ≠ colon) = [] := by
      rw [← append_nil name, dropWhile_append_of_pos ha]
      rfl
    rw [splitExpr, body, hdr]
  | some d =>
    rw [splitExpr, body, dropWhile_append_of_pos ha, takeWhile_append_of_pos ha]
    simp

lemma body_injective {name name' : Bytes} {default_ default' : Option Bytes}
    (hname : colon ∉ name) (hn' : colon ∉ name')
    (h : body name default_ = body name' default') : name = name' ∧ default_ = default' := by
  have hl := splitExpr_body hname default_
  rw [h, splitExpr_body hn' default'] at hl
  exact ⟨(congrArg Prod.fst hl).symm,(congrArg Prod.snd hl).symm⟩

lemma exists_body (expr : Bytes) : ∃ name default_, expr = body name default_ ∧ colon ∉ name := by
  by_cases ho : colon ∈ expr
  · obtain ⟨name,d,rfl,hname⟩ := eq_append_cons_of_mem ho
    exact ⟨name,some d,rfl,hname⟩
  · exact ⟨expr,none,rfl,ho⟩

lemma exists_reads_of_length (n : ℕ) (t : Bytes) (hn : t.length ≤ n) : ∃ ps, Reads t ps := by
  induction n generalizing t with
  | zero =>
    rw [length_eq_zero_iff.mp (Nat.le_zero.mp hn)]
    exact ⟨[],.nil⟩
  | succ n ih =>
    cases t with
    | nil => exact ⟨[],.nil⟩
    | cons b t =>
      by_cases he : ∃ u, b::t = dollar::openBrace::u ∧ closeBrace ∈ u
      · obtain ⟨u,hu,hm⟩ := he
        obtain ⟨expr,rest,rfl,ho⟩ := eq_append_cons_of_mem hm
        obtain ⟨name,default_,rfl,hname⟩ := exists_body expr
        rw [hu] at hn ⊢
        obtain ⟨ps,hps⟩ := ih rest (by simp at hn; omega)
        refine ⟨.expr name default_::ps,?_⟩
        have ha := Reads.expr hname ho hps
        rwa [Piece.source, cons_append, cons_append, append_assoc] at ha
      · obtain ⟨ps,hps⟩ := ih t (by simpa using hn)
        refine ⟨.lit b::ps,.lit (fun u hu hm => ?_) hps⟩
        exact he ⟨u,hu,hm⟩

lemma exists_reads (t : Bytes) : ∃ ps, Reads t ps := exists_reads_of_length _ t (Nat.le_refl _)

lemma source_append (name : Bytes) (default_ : Option Bytes) (t : Bytes) :
    (Piece.expr name default_).source++t =
      dollar::openBrace::(body name default_++closeBrace::t) := by
  rw [Piece.source, cons_append, cons_append, append_assoc]
  rfl

lemma cut_unique {c : UInt8} {a a' r r' : Bytes} (ha : c ∉ a) (ha' : c ∉ a')
    (h : a++c::r = a'++c::r') : a = a' ∧ r = r' := by
  have hi : ∀ {a r : Bytes}, c ∉ a → (a++c::r).idxOf c = a.length := by
    intro a r ha
    rw [idxOf_append_of_notMem ha, idxOf_cons_self, Nat.add_zero]
  have hl : a.length = a'.length := by rw [← hi ha, h, hi ha']
  obtain ⟨rfl,he⟩ := append_inj h hl
  exact ⟨rfl,tail_eq_of_cons_eq he⟩

lemma reads_unique {qs : List Piece} (h : Reads t ps) (hq : Reads t qs) : ps = qs := by
  induction h generalizing qs with
  | nil => cases hq with
    | nil => rfl
  | @lit b t ps hno h ih =>
    generalize hu : b::t = u at hq
    cases hq with
    | nil => cases hu
    | lit ho' h' =>
      cases hu
      rw [ih h']
    | @expr name default_ v qs hname hbody h' =>
      rw [source_append] at hu
      exact absurd (mem_append_right _ (.head _)) (hno _ hu)
  | @expr name default_ t ps hname hbody h ih =>
    generalize hu : (Piece.expr name default_).source++t = u at hq
    rw [source_append] at hu
    cases hq with
    | nil => cases hu
    | lit ho' h' =>
      exact absurd (mem_append_right _ (.head _)) (ho' _ hu.symm)
    | @expr name' default' v qs hn' hb' h' =>
      rw [source_append] at hu
      have ht := tail_eq_of_cons_eq (tail_eq_of_cons_eq hu)
      obtain ⟨ha,rfl⟩ := cut_unique hbody hb' ht
      obtain ⟨rfl,rfl⟩ := body_injective hname hn' ha
      rw [ih h']

lemma expandFrom_skip (u t : Bytes) :
    expandFrom getenv u.length (u++t) = expandFrom getenv 0 t := by
  induction u with
  | nil => rfl
  | cons b u ih =>
    rw [cons_append, expandFrom, if_pos (by simp), length_cons, Nat.add_sub_cancel]
    exact ih

lemma expandFrom_lit {b : UInt8} (hno : ∀ u, b::t = dollar::openBrace::u → closeBrace ∉ u) :
    expandFrom getenv 0 (b::t) =
      (stringOfByte b++(expandFrom getenv 0 t).1,(expandFrom getenv 0 t).2) := by
  rw [expandFrom, if_neg (by simp), if_neg]
  rintro ⟨rfl,-,he,hm⟩
  cases t with
  | nil => cases he
  | cons c t =>
    cases he
    rcases mem_cons.mp hm with hb | hm
    · exact absurd hb (by decide)
    · exact hno t rfl hm

lemma expandFrom_expr (hname : colon ∉ name) (hbody : closeBrace ∉ body name default_) :
    expandFrom getenv 0 ((Piece.expr name default_).source++t) =
      ((expandExpr getenv name default_).1++(expandFrom getenv 0 t).1,
        (expandExpr getenv name default_).2++(expandFrom getenv 0 t).2) := by
  have he : (dollar::openBrace::(body name default_++closeBrace::t)).idxOf closeBrace =
      (body name default_).length+2 := by
    rw [idxOf_cons_ne _ (by decide), idxOf_cons_ne _ (by decide),
      idxOf_append_of_notMem hbody, idxOf_cons_self]
  have ha : ((dollar::openBrace::(body name default_++closeBrace::t)).take
      ((body name default_).length+2)).drop 2 = body name default_ := by simp
  have hk : expandFrom getenv ((body name default_).length+2)
      (openBrace::(body name default_++closeBrace::t)) = expandFrom getenv 0 t := by
    have h := @expandFrom_skip getenv (openBrace::body name default_++[closeBrace]) t
    simpa using h
  have ht : dollar = dollar ∧ 2 ≤ (openBrace::(body name default_++closeBrace::t)).length ∧
      (openBrace::(body name default_++closeBrace::t)).head? = some openBrace ∧
      closeBrace ∈ openBrace::(body name default_++closeBrace::t) := by
    refine ⟨rfl,?_,rfl,by simp⟩
    simp only [length_cons, length_append]
    omega
  rw [source_append, expandFrom, if_neg (by simp), if_pos ht]
  dsimp only
  rw [he, ha, splitExpr_body hname, hk]

lemma expandFrom_reads (h : Reads t ps) :
    expandFrom getenv 0 t = (ps.flatMap fun p => (p.written getenv).1,
      ps.flatMap fun p => (p.written getenv).2) := by
  induction h with
  | nil => rfl
  | lit hno h ih =>
    rw [expandFrom_lit hno, ih]
    rfl
  | expr hname hbody h ih =>
    rw [expandFrom_expr hname hbody, ih]
    rfl

lemma noted_eq_nil_iff (p : Piece) : (p.written getenv).2 = [] ↔ ¬p.Missing getenv := by
  cases p with
  | lit b => simp [Piece.written, Piece.Missing]
  | expr name default_ =>
    by_cases he : getenv name = []
    · cases default_ with
      | none | some d => simp [Piece.written, expandExpr, Piece.Missing, he]
    · cases default_ with
      | none | some d => simp [Piece.written, expandExpr, Piece.Missing, he]

lemma noted_reads_eq_nil_iff :
    (ps.flatMap fun p => (p.written getenv).2) = [] ↔ ∀ p ∈ ps, ¬p.Missing getenv := by
  rw [flatMap_eq_nil_iff]
  exact forall₂_congr fun p _ => noted_eq_nil_iff p

lemma written_expr (h : ¬(Piece.expr name default_).Missing getenv) :
    ((Piece.expr name default_).written getenv).1 = (Piece.expr name default_).value getenv := by
  by_cases he : getenv name = []
  · cases default_ with
    | none => exact absurd ⟨name,rfl,he⟩ h
    | some d => simp [Piece.written, expandExpr, Piece.value, he]
  · simp [Piece.written, expandExpr, Piece.value, he]

lemma value_length_le (h : ¬p.Missing getenv) :
    (p.value getenv).length ≤ (p.written getenv).1.length := by
  cases p with
  | expr name default_ => exact Nat.le_of_eq (by rw [written_expr h])
  | lit b =>
    rw [Piece.value, Piece.written, stringOfByte]
    split_ifs <;> simp

lemma written_eq_iff (h : ¬p.Missing getenv) :
    (p.written getenv).1 = p.value getenv ↔ ∀ b, p = .lit b → b < 0x80 := by
  cases p with
  | expr name default_ => simp [written_expr h]
  | lit b =>
    rw [Piece.written, Piece.value, stringOfByte]
    split_ifs with hb <;> simp [hb]

lemma flatMap_eq_iff {f g : Piece → Bytes} (h : ∀ p ∈ ps, (g p).length ≤ (f p).length) :
    ps.flatMap f = ps.flatMap g ↔ ∀ p ∈ ps, f p = g p := by
  refine ⟨fun heq => ?_,flatMap_congr⟩
  induction ps with
  | nil => exact fun p hp => absurd hp not_mem_nil
  | cons p ps ih =>
    have he := h p (.head _)
    have ht := fun q hq => h q (.tail p hq)
    have hu : (ps.flatMap g).length ≤ (ps.flatMap f).length := by
      rw [length_flatMap, length_flatMap]
      exact sum_le_sum ht
    rw [flatMap_cons, flatMap_cons] at heq
    have hl := congrArg List.length heq
    rw [length_append, length_append] at hl
    obtain ⟨hp,hps⟩ := append_inj heq (by omega)
    intro q hq
    rcases mem_cons.mp hq with rfl | hq
    · exact hp
    · exact ih ht hps q hq

end

/-- For every text and environment: the text has one reading; there is an error exactly if an
expression has neither a value nor a default; and otherwise the result is the text with its
expressions replaced exactly if all other bytes are ASCII. -/
theorem expanded_iff_ascii (getenv : Bytes → Bytes) (content : Bytes) :
    ∃ ps, Reads content ps ∧ (∀ qs, Reads content qs → qs = ps) ∧
      ((expandEnvDefaults getenv content).2 ≠ none ↔ ∃ p ∈ ps, p.Missing getenv) ∧
      ((expandEnvDefaults getenv content).2 = none →
        ((expandEnvDefaults getenv content).1 = ps.flatMap (Piece.value getenv) ↔
          ∀ b, .lit b ∈ ps → b < 0x80)) := by
  obtain ⟨ps,hps⟩ := exists_reads content
  have hl : expandFrom getenv 0 content = (ps.flatMap fun p => (p.written getenv).1,
      ps.flatMap fun p => (p.written getenv).2) := expandFrom_reads hps
  have her : (expandEnvDefaults getenv content).2 = none ↔ ∀ p ∈ ps, ¬p.Missing getenv := by
    rw [← noted_reads_eq_nil_iff, expandEnvDefaults, hl]
    split_ifs with hn <;> simpa using hn
  refine ⟨ps,hps,fun qs hq => reads_unique hq hps,?_,fun ho => ?_⟩
  · rw [Ne, her]
    simp only [not_forall, not_not, exists_prop]
  · have he := her.mp ho
    rw [expandEnvDefaults, hl, flatMap_eq_iff fun p hp => value_length_le (he p hp)]
    constructor
    · intro ha b hb
      exact (written_eq_iff (he _ hb)).mp (ha _ hb) b rfl
    · intro ha p hp
      exact (written_eq_iff (he p hp)).mpr fun b hb => ha b (hb ▸ hp)

/-- A letter with an accent, in UTF-8, comes out as two letters. -/
theorem accents_encoded_twice :
    expandEnvDefaults (fun _ => []) [0xc3,0xa9] = ([0xc3,0x83,0xc2,0xa9],none) ∧
      Reads [0xc3,0xa9] [.lit 0xc3,.lit 0xa9] ∧
      [Piece.lit 0xc3,.lit 0xa9].flatMap (Piece.value fun _ => []) = [0xc3,0xa9] := by
  refine ⟨by decide,?_,rfl⟩
  exact .lit (fun u hu => absurd (head_eq_of_cons_eq hu) (by decide))
    (.lit (fun u hu => absurd (head_eq_of_cons_eq hu) (by decide)) .nil)

end SdkApi.EnvExpansion
