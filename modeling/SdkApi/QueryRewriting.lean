import SdkApi.GoStrings

/-!
# Queries for the other dialects

Queries are written for PostgreSQL, with numbered placeholders, and rewritten
for the databases that know only question marks: each placeholder takes an
argument of its own. Calls of two functions and, for MySQL, a conflict clause
are translated as well. Text between single quotes is left alone.
-/

namespace SdkApi.QueryRewriting
open GoStrings List

inductive SQLDialect where
  | postgres
  | mysql
  | sqlite
  deriving DecidableEq

def placeholder (dialect : SQLDialect) (i : ℕ) : String :=
  if dialect = .postgres then "$" ++ toString i else "?"

/-- `strings.ToLower` and `strings.ToUpper`, of which only what they do to ASCII text is known. -/
structure Casing where
  toLower : List Char → List Char
  toUpper : List Char → List Char
  toLower_ascii : ∀ s : List Char, (∀ c ∈ s, c.toNat < 128) → toLower s = s.map Char.toLower

/-- `strings.Index` -/
def index (sep : List Char) : List Char → Option ℕ
  | [] => if sep = [] then some 0 else none
  | c::cs => if sep.isPrefixOf (c::cs) then some 0 else (index sep cs).map Nat.succ

def isIdentStart (b : Char) : Bool := b = '_' || ('a' ≤ b && b ≤ 'z') || ('A' ≤ b && b ≤ 'Z')

def isIdentPart (b : Char) : Bool := isIdentStart b || isDigit b

section

def now : SQLDialect → List Char
  | .mysql => "NOW()".toList
  | .sqlite => "CURRENT_TIMESTAMP".toList
  | .postgres => "now()".toList

def randomUUIDExpr : SQLDialect → List Char
  | .mysql => "(UUID())".toList
  | .sqlite => "(lower(hex(randomblob(16))))".toList
  | .postgres => "gen_random_uuid()".toList

variable (lib : Casing)

def trimS (s : List Char) : List Char := (trimSuffix (String.ofList s) "s").toList

def parseInterval (interval : List Char) : ℤ × List Char :=
  let fs := (fields (trimSpace (String.ofList interval))).map String.toList
  if fs.length < 2 then (1,trimS (lib.toLower interval))
  else ((atoi (fs.headD [])).getD 1,trimS (lib.toLower (fs.getLastD [])))

def addInterval (d : SQLDialect) (base interval : List Char) : List Char :=
  let (amount,unit) := parseInterval lib interval
  let n := (toString amount).toList
  match d with
  | .mysql => "DATE_ADD(".toList++base++", INTERVAL ".toList++n++[' ']++lib.toUpper unit++[')']
  | .sqlite => "datetime(".toList++base++", '+".toList++n++[' ']++unit++"')".toList
  | .postgres => ['(']++base++" + interval '".toList++n++[' ']++unit++"')".toList

variable (d : SQLDialect)

/-- A number that does not fit an `int` is clamped. -/
def takePlaceholder (nargs : ℕ) : List Char → Option (ℕ × ℕ)
  | [] => none
  | c::cs =>
    let ds := cs.takeWhile isDigit
    if c ≠ '$' ∨ ds = [] then none
    else if number ds < 1 ∨ nargs < number ds then none
    else some (number ds,ds.length)

def skipSpace (q : List Char) : List Char := q.dropWhile (· = ' ')

def matchCall (q : List Char) : Option (List Char) :=
  match skipSpace q with
  | '('::r =>
    match skipSpace r with
    | ')'::r => some r
    | _ => none
  | _ => none

def takeQuoted (q : List Char) : Option (List Char × List Char) :=
  match q with
  | '\''::r =>
    match r.dropWhile (· ≠ '\'') with
    | _::rest => some (r.takeWhile (· ≠ '\''),rest)
    | [] => none
  | _ => none

def takeInterval (q : List Char) : Option (List Char × List Char) :=
  match skipSpace q with
  | '+'::r =>
    let r := skipSpace r
    if "interval".toList.isPrefixOf (lib.toLower r) then
      (takeQuoted (skipSpace (r.drop "interval".length))).map fun (lit,rest) =>
        (addInterval lib d (now d) lit,rest)
    else none
  | _ => none

def takeFunction : List Char → Option (List Char × List Char)
  | [] => none
  | c::cs =>
    if isIdentStart c then
      match matchCall (cs.dropWhile isIdentPart) with
      | none => none
      | some rest =>
        let name := lib.toLower (c::cs.takeWhile isIdentPart)
        if name = "now".toList then some ((takeInterval lib d rest).getD (now d,rest))
        else if name = "gen_random_uuid".toList then some (randomUUIDExpr d,rest)
        else none
    else none

end

/-- `strings.Trim(s, "`\"")` -/
def unquote (s : List Char) : List Char :=
  let quote := fun c : Char => c = Char.ofNat 96 || c = '"'
  ((s.dropWhile quote).reverse.dropWhile quote).reverse

def firstColumn (s : List Char) : List Char :=
  match s.dropWhile (· ≠ '(') with
  | [] => []
  | _::rest =>
    unquote (trimSpace (String.ofList (rest.takeWhile fun c => c ≠ ',' && c ≠ ')'))).toList

def closing : ℕ → List Char → ℕ
  | 0, _ => 0
  | _, [] => 0
  | depth+1, c::cs =>
    1+closing (if c = '(' then depth+2 else if c = ')' then depth else depth+1) cs

/-- `excludedRe.ReplaceAllString(sets, "VALUES($1)")` -/
def replaceExcluded (skip : ℕ) : List Char → List Char
  | [] => []
  | c::cs =>
    if 0 < skip then replaceExcluded (skip-1) cs
    else
      let name := ((c::cs).drop "EXCLUDED.".length).takeWhile isIdentPart
      if "EXCLUDED.".toList.isPrefixOf (c::cs) ∧ name ≠ [] then
        "VALUES(".toList++name++ ')'::replaceExcluded ("EXCLUDED.".length+name.length-1) cs
      else c::replaceExcluded 0 cs

/-- The index counts characters; in Go it counts bytes of the lower-cased copy. -/
def translateMySQLUpsert (lib : Casing) (query : List Char) : List Char :=
  match index "on conflict".toList (lib.toLower query) with
  | none => query
  | some idx =>
    let head := query.take idx
    let rest := (query.drop (idx+"on conflict".length)).dropWhile (· = ' ')
    let k := 1+closing 1 (rest.drop 1)
    let target := if rest.head? = some '(' then firstColumn (rest.take k) else []
    let col := if target ≠ [] then target else firstColumn head
    let rest := if rest.head? = some '(' then (rest.drop k).dropWhile (· = ' ') else rest
    let upper := lib.toUpper rest
    if "DO NOTHING".toList.isPrefixOf upper then
      if col = [] then query
      else head++"ON DUPLICATE KEY UPDATE ".toList++col++" = ".toList++col
    else if "DO UPDATE SET".toList.isPrefixOf upper then
      let sets := trimSpace (String.ofList (rest.drop "DO UPDATE SET".length))
      head++"ON DUPLICATE KEY UPDATE ".toList++replaceExcluded 0 sets.toList
    else query

section

variable {A : Type} (lib : Casing) (d : SQLDialect) (args : List A)

structure Rewritten (A : Type) where
  text : List Char
  out : List A
  usedDollar : Bool

def Rewritten.write (s : List Char) (r : Rewritten A) : Rewritten A := { r with text := s++r.text }

/-- The loop: `skip` characters have been dealt with, `k` arguments are in `out`. -/
def rewriteFrom (skip : ℕ) (inQuote : Bool) (k : ℕ) : List Char → Rewritten A
  | [] => ⟨[],[],false⟩
  | c::cs =>
    if 0 < skip then rewriteFrom (skip-1) inQuote k cs
    else if c = '\'' then
      if inQuote ∧ cs.head? = some '\'' then (rewriteFrom 1 inQuote k cs).write "''".toList
      else (rewriteFrom 0 (!inQuote) k cs).write [c]
    else if inQuote then (rewriteFrom 0 inQuote k cs).write [c]
    else
      match takePlaceholder args.length (c::cs) with
      | some (n,more) =>
        let r := rewriteFrom more inQuote (k+1) cs
        ⟨(placeholder d (k+1)).toList++r.text,args[n-1]?.toList++r.out,true⟩
      | none =>
        match takeFunction lib d (c::cs) with
        | some (expr,rest) => (rewriteFrom (cs.length-rest.length) inQuote k cs).write expr
        | none => (rewriteFrom 0 inQuote k cs).write [c]

def rewrite (query : List Char) : List Char × List A :=
  if d = .postgres then (query,args)
  else
    let r := rewriteFrom lib d args 0 false 0
      (if d = .mysql then translateMySQLUpsert lib query else query)
    (r.text,if r.usedDollar then r.out else args)

/-- A placeholder with the digits `ds` stands at the start, and `u` is behind it. -/
structure StartsRef (nargs : ℕ) (v ds u : List Char) : Prop where
  eq : v = '$'::(ds++u)
  ne : ds ≠ []
  digits : ∀ c ∈ ds, isDigit c = true
  stop : ∀ c, u.head? = some c → isDigit c = false
  low : 1 ≤ number ds
  high : number ds ≤ nargs

inductive Piece where
  | text (c : Char)
  | ref (n : ℕ)

/-- A doubled quote closes and opens a literal. -/
def after (inQuote : Bool) (c : Char) : Bool := inQuote ^^ decide (c = '\'')

inductive Reads (nargs : ℕ) : Bool → List Char → List Piece → Prop
  | nil (b : Bool) : Reads nargs b [] []
  | ref {v ds u : List Char} {ps : List Piece} (hv : StartsRef nargs v ds u)
      (h : Reads nargs false u ps) : Reads nargs false v (.ref (number ds)::ps)
  | text {b : Bool} {c : Char} {t : List Char} {ps : List Piece}
      (hno : b = true ∨ ∀ ds u, ¬StartsRef nargs (c::t) ds u) (h : Reads nargs (after b c) t ps) :
      Reads nargs b (c::t) (.text c::ps)

def Piece.emitted : Piece → List Char
  | .text c => [c]
  | .ref _ => ['?']

def Piece.isRef : Piece → Bool
  | .text _ => false
  | .ref _ => true

variable {A : Type}

def Piece.arg (args : List A) : Piece → List A
  | .text _ => []
  | .ref n => args[n-1]?.toList

def Piece.bound (args : List A) : Piece → List (Char ⊕ A)
  | .text c => [.inl c]
  | .ref n => args[n-1]?.toList.map .inr

def bound (args : List A) (ps : List Piece) : List (Char ⊕ A) := ps.flatMap (Piece.bound args)

def boundInOrder : List A → List Piece → List (Char ⊕ A)
  | _, [] => []
  | out, .text c::ps => .inl c::boundInOrder out ps
  | [], .ref _::ps => boundInOrder [] ps
  | a::out, .ref _::ps => .inr a::boundInOrder out ps

/-- Each question mark outside of literals takes the next argument. -/
def boundByDriver (inQuote : Bool) : List A → List Char → List (Char ⊕ A)
  | _, [] => []
  | [], c::t => .inl c::boundByDriver (after inQuote c) [] t
  | a::out, c::t =>
    if inQuote = false ∧ c = '?' then .inr a::boundByDriver inQuote out t
    else .inl c::boundByDriver (after inQuote c) (a::out) t

def inLiteral (u : List Char) : Bool := decide (u.count '\'' % 2 = 1)

def Occurs (inQuote : Bool) (word t : List Char) : Prop :=
  ∃ u v, t = u++v ∧ (inQuote ^^ inLiteral u) = false ∧ word <+: v.map Char.toLower

variable {nargs : ℕ} {b : Bool} {t v ds u : List Char} {ps : List Piece}

lemma StartsRef.takeWhile (h : StartsRef nargs v ds u) :
    v = '$'::(ds++u) ∧ (ds++u).takeWhile isDigit = ds ∧ (ds++u).dropWhile isDigit = u := by
  have ht : u.takeWhile isDigit = [] ∧ u.dropWhile isDigit = u := by
    cases u with
    | nil => exact ⟨rfl,rfl⟩
    | cons c u => simp [h.stop c rfl]
  refine ⟨h.eq,?_,?_⟩
  · rw [takeWhile_append_of_pos h.digits, ht.1, append_nil]
  · rw [dropWhile_append_of_pos h.digits, ht.2]

lemma startsRef_unique {ds' u' : List Char} (h : StartsRef nargs v ds u)
    (h' : StartsRef nargs v ds' u') : ds = ds' ∧ u = u' := by
  obtain ⟨hv,ht,ho⟩ := h.takeWhile
  obtain ⟨hv',ht',hd'⟩ := h'.takeWhile
  have hm : ds++u = ds'++u' := tail_eq_of_cons_eq (hv.symm.trans hv')
  exact ⟨by rw [← ht, hm, ht'],by rw [← ho, hm, hd']⟩

lemma startsRef_plain (h : StartsRef nargs v ds u) : inLiteral ('$'::ds) = false := by
  have hu : ('$'::ds).count '\'' = 0 := by
    refine count_eq_zero.mpr fun hm => ?_
    rcases mem_cons.mp hm with ho | hm
    · exact absurd ho (by decide)
    · exact absurd (h.digits _ hm) (by decide)
  rw [inLiteral, hu]
  rfl

lemma takePlaceholder_of_starts (h : StartsRef nargs v ds u) :
    takePlaceholder nargs v = some (number ds,ds.length) := by
  obtain ⟨rfl,ht,-⟩ := h.takeWhile
  have hl := h.low
  have hi := h.high
  simp only [takePlaceholder, ht]
  rw [if_neg (by simp [h.ne]), if_neg (by omega)]

lemma takePlaceholder_eq_none {c : Char} (h : ∀ ds u, ¬StartsRef nargs (c::t) ds u) :
    takePlaceholder nargs (c::t) = none := by
  simp only [takePlaceholder]
  split_ifs with ht hn
  · rfl
  · rfl
  · push Not at ht hn
    refine absurd ?_ (h (t.takeWhile isDigit) (t.dropWhile isDigit))
    refine ⟨?_,ht.2,?_,?_,hn.1,hn.2⟩
    · rw [takeWhile_append_dropWhile, ht.1]
    · intro x hx
      exact all_eq_true.mp all_takeWhile x hx
    · intro x hx
      have he := head?_dropWhile_not isDigit t
      rw [hx] at he
      simpa using he

lemma exists_reads (nargs n : ℕ) (b : Bool) (t : List Char) (hn : t.length ≤ n) :
    ∃ ps, Reads nargs b t ps := by
  induction n generalizing b t with
  | zero =>
    rw [length_eq_zero_iff.mp (Nat.le_zero.mp hn)]
    exact ⟨[],.nil b⟩
  | succ n ih =>
    cases t with
    | nil => exact ⟨[],.nil b⟩
    | cons c t =>
      by_cases he : b = false ∧ ∃ ds u, StartsRef nargs (c::t) ds u
      · obtain ⟨rfl,ds,u,hv⟩ := he
        have hl := congrArg length hv.eq
        rw [length_cons, length_cons, length_append] at hl
        obtain ⟨ps,hps⟩ := ih false u (by simp at hn; omega)
        exact ⟨_,.ref hv hps⟩
      · obtain ⟨ps,hps⟩ := ih (after b c) t (by simpa using hn)
        refine ⟨_,.text ?_ hps⟩
        cases b with
        | true => exact .inl rfl
        | false => exact .inr fun ds u hv => he ⟨rfl,ds,u,hv⟩

lemma reads_unique {qs : List Piece} (h : Reads nargs b t ps) (hq : Reads nargs b t qs) :
    ps = qs := by
  induction h generalizing qs with
  | nil b =>
    cases hq with
    | nil => rfl
    | ref hv _ => cases hv.eq
  | ref hv h ih =>
    cases hq with
    | nil => cases hv.eq
    | ref hv' h' =>
      obtain ⟨rfl,rfl⟩ := startsRef_unique hv hv'
      rw [ih h']
    | text hno _ => exact absurd hv (hno.resolve_left (by simp) _ _)
  | text hno h ih =>
    cases hq with
    | ref hv _ => exact absurd hv (hno.resolve_left (by simp) _ _)
    | text _ h' => rw [ih h']

end

section

variable {b : Bool} {word t : List Char}

lemma inLiteral_append (u v : List Char) : inLiteral (u++v) = (inLiteral u ^^ inLiteral v) := by
  rw [inLiteral, inLiteral, inLiteral, count_append, Nat.add_mod]
  rcases Nat.mod_two_eq_zero_or_one (u.count '\'') with hu | hu <;>
    rcases Nat.mod_two_eq_zero_or_one (v.count '\'') with hv | hv <;> simp [hu, hv]

lemma inLiteral_singleton (c : Char) : inLiteral [c] = decide (c = '\'') := by
  by_cases hc : c = '\'' <;> simp [inLiteral, hc]

lemma after_eq (b : Bool) (c : Char) : after b c = (b ^^ inLiteral [c]) := by
  rw [after, inLiteral_singleton]

lemma occurs_append (u : List Char) (h : Occurs (b ^^ inLiteral u) word t) :
    Occurs b word (u++t) := by
  obtain ⟨u',v,rfl,hu,ho⟩ := h
  refine ⟨u++u',v,by rw [append_assoc],?_,ho⟩
  rw [inLiteral_append, ← Bool.xor_assoc]
  exact hu

lemma toNat_le_of_le {c d : Char} (h : c ≤ d) : c.toNat ≤ d.toNat := UInt32.le_iff_toNat_le.mp h

variable {c : Char}

lemma isIdentPart_ascii (h : isIdentPart c) : c.toNat < 128 := by
  simp only [isIdentPart, isIdentStart, isDigit, Bool.or_eq_true, Bool.and_eq_true,
    decide_eq_true_eq] at h
  rcases h with ((rfl | ⟨-,hz⟩) | ⟨-,hz⟩) | ⟨-,h9⟩
  · decide
  · exact Nat.lt_of_le_of_lt (toNat_le_of_le hz) (by decide)
  · exact Nat.lt_of_le_of_lt (toNat_le_of_le hz) (by decide)
  · exact Nat.lt_of_le_of_lt (toNat_le_of_le h9) (by decide)

lemma occurs_of_ident {lib : Casing} (ht : isIdentStart c)
    (hname : lib.toLower (c::t.takeWhile isIdentPart) = word) : Occurs false word (c::t) := by
  have hi : ∀ x ∈ c::t.takeWhile isIdentPart, x.toNat < 128 := by
    intro x hx
    rcases mem_cons.mp hx with rfl | hx
    · exact isIdentPart_ascii (by rw [isIdentPart, ht, Bool.true_or])
    · exact isIdentPart_ascii (all_eq_true.mp all_takeWhile x hx)
  refine ⟨[],c::t,rfl,rfl,?_⟩
  rw [← hname, lib.toLower_ascii _ hi]
  exact IsPrefix.map _ (cons_prefix_cons.mpr ⟨rfl,List.takeWhile_prefix _⟩)

lemma takeFunction_eq_none (lib : Casing) (d : SQLDialect) (hn : ¬Occurs false "now".toList (c::t))
    (hu : ¬Occurs false "gen_random_uuid".toList (c::t)) : takeFunction lib d (c::t) = none := by
  rw [takeFunction]
  by_cases ht : isIdentStart c
  · rw [if_pos ht]
    cases matchCall (t.dropWhile isIdentPart) with
    | none => rfl
    | some rest =>
      dsimp only
      rw [if_neg fun hname => hn (occurs_of_ident ht hname),
        if_neg fun hname => hu (occurs_of_ident ht hname)]
  · rw [if_neg ht]

lemma index_eq_none {sep t : List Char} (h : ¬sep <:+: t) : index sep t = none := by
  induction t with
  | nil =>
    rw [index, if_neg fun hn => h (by rw [hn])]
  | cons c t ih =>
    have he : ¬sep.isPrefixOf (c::t) := fun he =>
      h (List.isPrefixOf_iff_prefix.mp he).isInfix
    rw [index, if_neg he, ih fun hi => h (hi.trans (suffix_cons c t).isInfix)]
    rfl

end

section

variable {A : Type} {lib : Casing} {d : SQLDialect} {args : List A}
variable {b : Bool} {t : List Char} {ps : List Piece}

lemma rewriteFrom_skip (u t : List Char) (b : Bool) (k : ℕ) :
    rewriteFrom lib d args u.length b k (u++t) = rewriteFrom lib d args 0 b k t := by
  induction u with
  | nil => rfl
  | cons c u ih =>
    rw [cons_append, rewriteFrom, if_pos (by simp), length_cons, Nat.add_sub_cancel]
    exact ih

lemma rewriteFrom_quote_outside (k : ℕ) (t : List Char) :
    rewriteFrom lib d args 0 false k ('\''::t) =
      (rewriteFrom lib d args 0 true k t).write ['\''] := by
  rw [rewriteFrom, if_neg (by simp), if_pos rfl, if_neg (by simp)]
  rfl

lemma rewriteFrom_quote (b : Bool) (k : ℕ) (t : List Char) :
    rewriteFrom lib d args 0 b k ('\''::t) = (rewriteFrom lib d args 0 (!b) k t).write ['\''] := by
  cases b with
  | false => exact rewriteFrom_quote_outside k t
  | true =>
    rw [rewriteFrom, if_neg (by simp), if_pos rfl]
    cases t with
    | nil => rfl
    | cons c t =>
      by_cases hc : c = '\''
      · rw [if_pos ⟨rfl,by rw [hc]; rfl⟩, hc, Bool.not_true, rewriteFrom_quote_outside]
        have hk := @rewriteFrom_skip A lib d args ['\''] t true k
        rw [length_singleton, singleton_append] at hk
        rw [hk]
        rfl
      · rw [if_neg (by simp [hc])]

lemma rewriteFrom_reads (hd : d ≠ .postgres) (h : Reads args.length b t ps)
    (hn : ¬Occurs b "now".toList t) (hu : ¬Occurs b "gen_random_uuid".toList t) (k : ℕ) :
    rewriteFrom lib d args 0 b k t =
      ⟨ps.flatMap Piece.emitted,ps.flatMap (Piece.arg args),ps.any Piece.isRef⟩ := by
  induction h generalizing k with
  | nil b => rfl
  | @ref v ds u ps hv h ih =>
    have hl : inLiteral ('$'::ds) = false := startsRef_plain hv
    have hb : ∀ {word}, Occurs false word u → Occurs false word v := by
      intro word ho
      rw [hv.eq]
      exact occurs_append ('$'::ds) (by rwa [hl])
    have he := ih (fun ho => hn (hb ho)) (fun ho => hu (hb ho)) (k+1)
    have hk := takePlaceholder_of_starts hv
    obtain rfl := hv.eq
    rw [rewriteFrom, if_neg (by simp), if_neg (by decide), if_neg (by simp), hk]
    dsimp only
    rw [rewriteFrom_skip, he, placeholder, if_neg hd]
    rfl
  | @text b c t ps hno h ih =>
    rw [after_eq] at ih
    have he := ih (fun ho => hn (occurs_append [c] ho)) (fun ho => hu (occurs_append [c] ho)) k
    rw [← after_eq] at he
    by_cases hc : c = '\''
    · have ht : after b c = !b := by simp [after, hc]
      rw [ht] at he
      rw [hc, rewriteFrom_quote, he]
      rfl
    · have ht : after b c = b := by simp [after, hc]
      rw [ht] at he
      rw [rewriteFrom, if_neg (by simp), if_neg hc]
      cases b with
      | true =>
        rw [if_pos rfl, he]
        rfl
      | false =>
        rw [if_neg (by simp), takePlaceholder_eq_none (hno.resolve_left (by simp)),
          takeFunction_eq_none lib d hn hu, he]
        rfl

lemma arg_ref {n : ℕ} (h : 1 ≤ n ∧ n ≤ args.length) : ∃ a, args[n-1]? = some a :=
  ⟨_,getElem?_eq_getElem (by omega)⟩

section

variable {n : ℕ} {a : A} (ha : args[n-1]? = some a)
include ha

lemma args_cons_ref : (Piece.ref n::ps).flatMap (Piece.arg args) =
    a::ps.flatMap (Piece.arg args) := by
  rw [flatMap_cons, Piece.arg, ha]
  rfl

lemma bound_cons_ref : bound args (.ref n::ps) = .inr a::bound args ps := by
  rw [bound, flatMap_cons, Piece.bound, ha]
  rfl

end

lemma bound_cons_text (c : Char) : bound args (.text c::ps) = .inl c::bound args ps := rfl

lemma boundInOrder_reads (h : Reads args.length b t ps) (more : List A) :
    boundInOrder (ps.flatMap (Piece.arg args)++more) ps = bound args ps := by
  induction h with
  | nil b => rfl
  | ref hv h ih =>
    obtain ⟨a,ha⟩ := arg_ref ⟨hv.low,hv.high⟩
    rw [args_cons_ref ha, bound_cons_ref ha, cons_append, boundInOrder, ih]
  | text hno h ih =>
    rw [bound_cons_text, ← ih]
    rfl

lemma boundByDriver_reads (h : Reads args.length b t ps) (more : List A)
    (hm : ∀ u v, t = u++ '?'::v → (b ^^ inLiteral u)) :
    boundByDriver b (ps.flatMap (Piece.arg args)++more) (ps.flatMap Piece.emitted) =
      bound args ps := by
  induction h with
  | nil b => cases more <;> rfl
  | @ref v ds u ps hv h ih =>
    obtain ⟨a,ha⟩ := arg_ref ⟨hv.low,hv.high⟩
    have he := ih fun u' v' hu => by
      have hv' : v = ('$'::ds++u')++ '?'::v' := by
        rw [hv.eq, hu, append_assoc]
        rfl
      have hl := hm _ _ hv'
      rwa [inLiteral_append, startsRef_plain hv, Bool.false_xor] at hl
    rw [args_cons_ref ha, bound_cons_ref ha, flatMap_cons, Piece.emitted, cons_append,
      singleton_append, boundByDriver, if_pos ⟨rfl,rfl⟩, he]
  | @text b c t ps hno h ih =>
    have he := ih fun u' v' hu => by
      have hl := hm (c::u') v' (by rw [hu]; rfl)
      rwa [← singleton_append, inLiteral_append, ← Bool.xor_assoc, ← after_eq] at hl
    have hc : ¬(b = false ∧ c = '?') := by
      rintro ⟨rfl,rfl⟩
      exact absurd (hm [] t rfl) (by decide)
    rw [bound_cons_text, ← he, flatMap_cons, flatMap_cons, Piece.arg, Piece.emitted,
      nil_append, singleton_append]
    cases ps.flatMap (Piece.arg args)++more with
    | nil => rfl
    | cons a out => rw [boundByDriver, if_neg hc]

end

/-- Outside of PostgreSQL a query without a conflict clause and the names of the
two functions keeps all but its placeholders. These become question marks with
the arguments of their numbers, also in the eyes of a driver if the query had
none of its own. -/
theorem rewrite_keeps_bindings {A : Type} (lib : Casing) (d : SQLDialect) (hd : d ≠ .postgres)
    (query : List Char) (args : List A)
    (hconflict : ¬"on conflict".toList <:+: lib.toLower query)
    (hnow : ¬Occurs false "now".toList query)
    (huuid : ¬Occurs false "gen_random_uuid".toList query) :
    ∃ ps, Reads args.length false query ps ∧ (∀ qs, Reads args.length false query qs → qs = ps) ∧
      (rewrite lib d args query).1 = ps.flatMap Piece.emitted ∧
      (rewrite lib d args query).2 =
        (if ps.any Piece.isRef then ps.flatMap (Piece.arg args) else args) ∧
      boundInOrder (rewrite lib d args query).2 ps = bound args ps ∧
      ((∀ u v, query = u++ '?'::v → inLiteral u = true) →
        boundByDriver false (rewrite lib d args query).2 (rewrite lib d args query).1 =
          bound args ps) := by
  obtain ⟨ps,hps⟩ := exists_reads args.length query.length false query (Nat.le_refl _)
  have hq : (if d = .mysql then translateMySQLUpsert lib query else query) = query := by
    split_ifs
    · rw [translateMySQLUpsert, index_eq_none hconflict]
    · rfl
  have hl : rewrite lib d args query = (ps.flatMap Piece.emitted,
      if ps.any Piece.isRef then ps.flatMap (Piece.arg args) else args) := by
    rw [rewrite, if_neg hd, hq, rewriteFrom_reads hd hps hnow huuid]
  -- The arguments that are handed back are those of the numbers, with more behind them.
  have hg : ∃ more, (if ps.any Piece.isRef then ps.flatMap (Piece.arg args) else args) =
      ps.flatMap (Piece.arg args)++more := by
    by_cases he : ps.any Piece.isRef
    · exact ⟨[],by rw [if_pos he, append_nil]⟩
    · have hn : ps.flatMap (Piece.arg args) = [] := by
        rw [flatMap_eq_nil_iff]
        intro p hp
        cases p with
        | text c => rfl
        | ref n => exact absurd (any_eq_true.mpr ⟨_,hp,rfl⟩) he
      exact ⟨args,by rw [if_neg he, hn, nil_append]⟩
  obtain ⟨more,hm⟩ := hg
  refine ⟨ps,hps,fun qs hqs => reads_unique hqs hps,by rw [hl],by rw [hl],?_,fun hk => ?_⟩
  · rw [hl, hm]
    exact boundInOrder_reads hps more
  · rw [hl, hm]
    exact boundByDriver_reads hps more fun u v hu => by rw [hk u v hu]; rfl

def asciiCasing : Casing := ⟨List.map Char.toLower,List.map Char.toUpper,fun _ _ => rfl⟩

lemma not_occurs_of_tails {word query : List Char}
    (h : (query.tails.all fun v => !word.isPrefixOf (v.map Char.toLower))) :
    ¬Occurs false word query := by
  rintro ⟨u,v,rfl,-,ho⟩
  have hv := all_eq_true.mp h v ((mem_tails v _).mpr (suffix_append u v))
  rw [List.isPrefixOf_iff_prefix.mpr ho] at hv
  cases hv

theorem rewrite_keeps_bindings_sample :
    rewrite asciiCasing .mysql ["x","y"] "a=$2 OR '$1'=$1".toList =
      ("a=? OR '$1'=?".toList,["y","x"]) ∧
    ∃ ps, Reads 2 false "a=$2 OR '$1'=$1".toList ps ∧
      boundByDriver false ["y","x"] "a=? OR '$1'=?".toList = bound ["x","y"] ps := by
  have he : rewrite asciiCasing .mysql ["x","y"] "a=$2 OR '$1'=$1".toList =
      ("a=? OR '$1'=?".toList,["y","x"]) := by decide
  have hm : ∀ u v, "a=$2 OR '$1'=$1".toList = u++ '?'::v → inLiteral u := by
    intro u v hu
    have hme : '?' ∈ "a=$2 OR '$1'=$1".toList := by
      rw [hu]
      simp
    exact absurd hme (by decide)
  obtain ⟨ps,hps,-,-,-,-,hi⟩ := rewrite_keeps_bindings asciiCasing .mysql (by decide)
    "a=$2 OR '$1'=$1".toList ["x","y"] (by decide)
    (not_occurs_of_tails (by decide)) (not_occurs_of_tails (by decide))
  have hb := hi hm
  rw [he] at hb
  exact ⟨he,ps,hps,hb⟩

end SdkApi.QueryRewriting
