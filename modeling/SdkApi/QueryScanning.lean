import SdkApi.QueryRewriting

/-!
# What the rewriting replaces

The scanner looks for a call at every character outside of literals, also in the
middle of a name. It is compared with a scanner that looks at the character
before, for queries in which MySQL has no conflict clause to translate.
-/

namespace SdkApi.QueryScanning
open GoStrings QueryRewriting List

/-- No name goes on to the left: what stands there is no letter, digit, underscore or dot. -/
def complete (before : Option Char) : Bool := before.all fun c => !isIdentPart c && c ≠ '.'

section

variable {A : Type} (lib : Casing) (d : SQLDialect) (args : List A)

/-- The loop as it is meant: the call of a name that began before is copied. -/
def wholeFrom (skip : ℕ) (before : Option Char) (inQuote : Bool) (k : ℕ) :
    List Char → Rewritten A
  | [] => ⟨[], [], false⟩
  | c::cs =>
    if 0 < skip then wholeFrom (skip-1) (some c) inQuote k cs
    else if c = '\'' then (wholeFrom 0 (some c) (!inQuote) k cs).write [c]
    else if inQuote then (wholeFrom 0 (some c) inQuote k cs).write [c]
    else
      match takePlaceholder args.length (c::cs), takeFunction lib d (c::cs) with
      | some (n, more), _ =>
        let r := wholeFrom more (some c) inQuote (k+1) cs
        ⟨(placeholder d (k+1)).toList++r.text, args[n-1]?.toList++r.out, true⟩
      | none, some (expr, rest) =>
        (wholeFrom (cs.length-rest.length) (some c) inQuote k cs).write
          (if complete before then expr else c::cs.take (cs.length-rest.length))
      | none, none => (wholeFrom 0 (some c) inQuote k cs).write [c]

def rewriteWhole (query : List Char) : List Char × List A :=
  if d = .postgres then (query, args)
  else
    let r := wholeFrom lib d args 0 none false 0 query
    (r.text, if r.usedDollar then r.out else args)

/-- Where a call is found outside of literals, its name is complete, or the dialect writes the
call as it stands there. -/
def wholeNames (nargs skip : ℕ) (before : Option Char) (inQuote : Bool) : List Char → Bool
  | [] => true
  | c::cs =>
    if 0 < skip then wholeNames nargs (skip-1) (some c) inQuote cs
    else if c = '\'' then wholeNames nargs 0 (some c) (!inQuote) cs
    else if inQuote then wholeNames nargs 0 (some c) inQuote cs
    else
      match takePlaceholder nargs (c::cs), takeFunction lib d (c::cs) with
      | some (_, more), _ => wholeNames nargs more (some c) inQuote cs
      | none, some (expr, rest) => (complete before || c::cs = expr++rest) &&
          wholeNames nargs (cs.length-rest.length) (some c) inQuote cs
      | none, none => wholeNames nargs 0 (some c) inQuote cs

end

/-- `w` is a name of one of the two functions with an empty list of arguments. -/
structure IsCall (w name s t : List Char) : Prop where
  eq : w = name++(s++ '('::(t++[')']))
  name : name.map Char.toLower ∈ ["now".toList, "gen_random_uuid".toList]
  space : ∀ c ∈ s++t, c = ' '

lemma skipSpace_eq (q : List Char) : ∃ s, q = s++skipSpace q ∧ ∀ c ∈ s, c = ' ' :=
  ⟨q.takeWhile (· = ' '), takeWhile_append_dropWhile.symm, fun c hc => by
    simpa using all_eq_true.mp all_takeWhile c hc⟩

lemma matchCall_eq {q r : List Char} (h : matchCall q = some r) :
    ∃ s t, q = s++ '('::(t++ ')'::r) ∧ ∀ c ∈ s++t, c = ' ' := by
  obtain ⟨s, hs, hsp⟩ := skipSpace_eq q
  rw [matchCall] at h
  split at h
  · rename_i x hx
    obtain ⟨t, ht, htp⟩ := skipSpace_eq x
    split at h
    · rename_i y hy
      cases h
      exact ⟨s, t, by rw [hs, hx, ht, hy], forall_mem_append.mpr ⟨hsp, htp⟩⟩
    · cases h
  · cases h

section

variable {w name s t : List Char} (h : IsCall w name s t)
include h

lemma IsCall.head {c : Char} {cs tail : List Char} (hw : w++tail = c::cs) :
    c.toLower = 'n' ∨ c.toLower = 'g' := by
  have hl := h.name
  rw [h.eq] at hw
  cases name with
  | nil => simp at hl
  | cons x name =>
    obtain rfl : x = c := (cons.inj hw).1
    rw [map_cons, mem_pair] at hl
    exact hl.imp (fun hl => (cons.inj hl).1) fun hl => (cons.inj hl).1

/-- A call that stands where MySQL's would is the same text. -/
lemma IsCall.eq_now {x y : List Char} (hw : "NOW()".toList++x = w++y) : w = "NOW()".toList := by
  have hl := h.name
  have hs := h.space
  rw [h.eq] at hw ⊢
  rw [mem_pair] at hl
  rcases hl with hl | hl
  · obtain ⟨a, b, c, rfl⟩ := length_eq_three.mp ((length_map _).symm.trans
      (congrArg length hl))
    cases s with
    | cons z s => simp [hs z (by simp)] at hw
    | nil =>
      cases t with
      | cons z t => simp [hs z (by simp)] at hw
      | nil =>
        obtain ⟨rfl, rfl, rfl, -⟩ : 'N' = a ∧ 'O' = b ∧ 'W' = c ∧ x = y := by simpa using hw
        rfl
  · obtain ⟨a, n, rfl, ha, -⟩ := map_eq_cons_iff.mp hl
    rw [← (cons.inj hw).1] at ha
    exact absurd ha (by decide)

end

section

variable {A : Type} {lib : Casing} {d : SQLDialect} {args : List A} {e rest : List Char}

lemma takeInterval_eq {v : List Char} (h : takeInterval lib d v = some (e, rest)) :
    ∃ lit, e = addInterval lib d (now d) lit := by
  rw [takeInterval] at h
  split at h
  · dsimp only at h
    split_ifs at h
    obtain ⟨⟨lit, x⟩, -, hx⟩ := Option.map_eq_some_iff.mp h
    simp only [Prod.mk.injEq] at hx
    exact ⟨lit, hx.1.symm⟩
  · cases h

lemma takeFunction_call {v : List Char} (h : takeFunction lib d v = some (e, rest)) :
    ∃ w name s t tail, IsCall w name s t ∧ v = w++tail ∧ (e = now d ∧ rest = tail ∨
      ∃ lit, e = randomUUIDExpr d ∨ e = addInterval lib d (now d) lit) := by
  cases v with
  | nil => cases h
  | cons c cs =>
    rw [takeFunction] at h
    split_ifs at h with hc
    cases hm : matchCall (cs.dropWhile isIdentPart) with
    | none => simp [hm] at h
    | some tail =>
      obtain ⟨s, t, hst, hsp⟩ := matchCall_eq hm
      have hv : c::cs = (c::cs.takeWhile isIdentPart)++(s++ '('::(t++[')']))++tail := by
        conv_lhs => rw [← @takeWhile_append_dropWhile _ isIdentPart cs, hst]
        simp
      have hi : ∀ x ∈ c::cs.takeWhile isIdentPart, x.toNat < 128 :=
        forall_mem_cons.mpr ⟨isIdentPart_ascii (by rw [isIdentPart, hc, Bool.true_or]),
          fun x hx => isIdentPart_ascii (all_eq_true.mp all_takeWhile x hx)⟩
      simp only [hm, lib.toLower_ascii _ hi] at h
      split_ifs at h with hn hu
      · refine ⟨_, _, s, t, tail, ⟨rfl, by simp [hn], hsp⟩, hv, ?_⟩
        cases ht : takeInterval lib d tail with
        | none =>
          simp only [ht, Option.getD_none, Option.some.injEq, Prod.mk.injEq] at h
          exact .inl ⟨h.1.symm, h.2.symm⟩
        | some r =>
          simp only [ht, Option.getD_some, Option.some.injEq] at h
          obtain ⟨lit, he⟩ := takeInterval_eq (ht.trans (congrArg some h))
          exact .inr ⟨lit, .inr he⟩
      · refine ⟨_, _, s, t, tail, ⟨rfl, by simp [hu], hsp⟩, hv, ?_⟩
        exact .inr ⟨[], .inl (congrArg Prod.fst (Option.some.inj h)).symm⟩

lemma now_cons (hd : d ≠ .postgres) :
    ∃ x e, now d = x::e ∧ (x.toLower = 'n' ∨ x.toLower = 'g' → now d = "NOW()".toList) := by
  cases d with
  | postgres => exact absurd rfl hd
  | mysql => exact ⟨'N', _, rfl, fun _ => rfl⟩
  | sqlite => exact ⟨'C', _, rfl, fun h => absurd h (by decide)⟩

lemma expr_cons (hd : d ≠ .postgres) {lit : List Char}
    (he : e = randomUUIDExpr d ∨ e = addInterval lib d (now d) lit) :
    ∃ x y, e = x::y ∧ ¬(x.toLower = 'n' ∨ x.toLower = 'g') := by
  unfold addInterval at he
  generalize parseInterval lib lit = p at he
  cases d with
  | postgres => exact absurd rfl hd
  | mysql =>
    rcases he with rfl | rfl
    · exact ⟨'(', _, rfl, by decide⟩
    · exact ⟨'D', _, rfl, by decide⟩
  | sqlite =>
    rcases he with rfl | rfl
    · exact ⟨'(', _, rfl, by decide⟩
    · exact ⟨'d', _, rfl, by decide⟩

section

variable (hd : d ≠ .postgres) {c : Char} {cs : List Char}
  (h : takeFunction lib d (c::cs) = some (e, rest))
include hd h

/-- Where the expression begins as the call does, it is that of MySQL for the time. -/
lemma takeFunction_cons : ∃ x y, e = x::y ∧ (x = c →
    e = "NOW()".toList ∧ ∃ w name s t, IsCall w name s t ∧ c::cs = w++rest) := by
  obtain ⟨w, name, s, t, tail, hw, hv, he⟩ := takeFunction_call h
  have hl := hw.head hv.symm
  rcases he with ⟨rfl, rfl⟩ | ⟨lit, he⟩
  · obtain ⟨x, y, he, hx⟩ := now_cons hd
    exact ⟨x, y, he, fun hc => ⟨hx (hc ▸ hl), w, name, s, t, hw, hv⟩⟩
  · obtain ⟨x, y, he, hx⟩ := expr_cons hd he
    exact ⟨x, y, he, fun hc => absurd (hc ▸ hl) hx⟩

omit hd h in
lemma take_call {w : List Char} (hw : w ≠ []) (h : c::cs = w++rest) :
    c::cs.take (cs.length-rest.length) = w := by
  obtain ⟨x, w, rfl⟩ := exists_cons_of_ne_nil hw
  obtain ⟨rfl, rfl⟩ := cons.inj h
  simp

/-- Texts that begin with the expression and with the call in its place differ, unless the
call stands there as the expression is written. -/
lemma takeFunction_cancel {x y : List Char}
    (he : e++x = c::cs.take (cs.length-rest.length)++y) : c::cs = e++rest := by
  obtain ⟨z, e', rfl, hz⟩ := takeFunction_cons hd h
  obtain ⟨hn, w, name, s, t, hw, hv⟩ := hz (cons.inj he).1
  rw [hn] at he ⊢
  rw [take_call (by rintro rfl; simpa using congrArg length hw.eq) hv] at he
  rw [hv, hw.eq_now he]

end

/-- Two results, and that they are the same, which their texts show. -/
def Agree (r r' : Rewritten A) (same : Bool) : Prop :=
  (r.text = r'.text → same = true) ∧ (same = true → r = r')

lemma Agree.write {r r' : Rewritten A} {same : Bool} (h : Agree r r' same) (x : List Char) :
    Agree (r.write x) (r'.write x) same :=
  ⟨fun he => h.1 (append_cancel_left he), fun hs => by rw [h.2 hs]⟩

lemma rewriteFrom_agree (hd : d ≠ .postgres) (t : List Char) (skip : ℕ) (before : Option Char)
    (b : Bool) (k : ℕ) : Agree (rewriteFrom lib d args skip b k t)
      (wholeFrom lib d args skip before b k t) (wholeNames lib d args.length skip before b t) := by
  induction t generalizing skip before b k with
  | nil => exact ⟨fun _ => rfl, fun _ => rfl⟩
  | cons c t ih =>
    rw [wholeFrom, wholeNames]
    by_cases hk : 0 < skip
    · rw [rewriteFrom, if_pos hk, if_pos hk, if_pos hk]
      exact ih _ _ _ _
    obtain rfl : skip = 0 := Nat.eq_zero_of_not_pos hk
    by_cases hc : c = '\''
    · rw [if_neg hk, if_neg hk, if_pos hc, if_pos hc, hc, rewriteFrom_quote]
      exact (ih _ _ _ _).write _
    simp only [rewriteFrom, if_neg hk, if_neg hc]
    cases b with
    | true => exact (ih _ _ _ _).write _
    | false =>
      simp only [Bool.false_eq_true, if_false]
      cases takePlaceholder args.length (c::t) with
      | some r =>
        exact ⟨fun he => (ih _ _ _ _).1 (append_cancel_left he),
          fun hs => by simp only [(ih _ _ _ _).2 hs]⟩
      | none =>
        cases hf : takeFunction lib d (c::t) with
        | none => exact (ih _ _ _ _).write [c]
        | some r =>
          cases hb : complete before with
          | true => simpa using (ih _ _ _ _).write r.1
          | false =>
            by_cases hv : c::t = r.1++r.2
            · obtain ⟨x, e, he, -⟩ := takeFunction_cons hd hf
              simpa [hv, take_call (by simp [he]) hv] using (ih _ _ _ _).write r.1
            · exact ⟨fun he => absurd (takeFunction_cancel hd hf he) hv,
                fun hs => by simp [hv] at hs⟩

end

end SdkApi.QueryScanning
