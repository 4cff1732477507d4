import Mathlib.Data.Nat.Digits.Defs
import Mathlib.Tactic.IntervalCases

/-!
# Instants and their text

An instant is its UTC calendar reading. Its RFC 3339 text has no fraction of a
second and writes the year with at least four digits, and a database compares
the text from the left. For years with four digits the order of the texts is
the order of the seconds.
-/

namespace SdkApi.Timestamps
open List

structure Instant where
  year : ℤ
  month : ℕ
  day : ℕ
  hour : ℕ
  minute : ℕ
  second : ℕ
  nano : ℕ
  month_le : month ≤ 12 := by decide
  day_le : day ≤ 31 := by decide
  hour_lt : hour < 24 := by decide
  minute_lt : minute < 60 := by decide
  second_lt : second < 60 := by decide
  nano_lt : nano < 1000000000 := by decide
  deriving DecidableEq

def Instant.clock (t : Instant) : ℤ :=
  ((((t.year*13+t.month)*32+t.day)*24+t.hour)*60+t.minute)*60+t.second

def Instant.before (t u : Instant) : Prop :=
  t.clock < u.clock ∨ (t.clock = u.clock ∧ t.nano < u.nano)

instance (t u : Instant) : Decidable (t.before u) := inferInstanceAs (Decidable (_ ∨ _))

/-- The last `w` decimal digits, with leading zeros. -/
def padded : ℕ → ℕ → List Char
  | 0, _ => []
  | w+1, n => Nat.digitChar (n/10^w%10)::padded w (n%10^w)

def yearText (y : ℤ) : List Char :=
  (if y < 0 then ['-'] else []) ++
    (if y.natAbs < 10000 then padded 4 y.natAbs else Nat.toDigits 10 y.natAbs)

/-- `t.UTC().Format(time.RFC3339)`. -/
def Instant.text (t : Instant) : List Char :=
  yearText t.year ++ '-'::(padded 2 t.month ++ '-'::(padded 2 t.day ++
    'T'::(padded 2 t.hour ++ ':'::(padded 2 t.minute ++ ':'::(padded 2 t.second ++ ['Z'])))))

def FourDigits (t : Instant) : Prop := 0 ≤ t.year ∧ t.year < 10000

lemma padded_length (w n : ℕ) : (padded w n).length = w := by
  induction w generalizing n with
  | zero => rfl
  | succ w ih => simp [padded, ih]

lemma digitChar_lt_iff {a b : ℕ} (ha : a < 10) (hb : b < 10) :
    Nat.digitChar a < Nat.digitChar b ↔ a < b := by
  interval_cases a <;> interval_cases b <;> decide

lemma digitChar_inj {a b : ℕ} (ha : a < 10) (hb : b < 10) :
    Nat.digitChar a = Nat.digitChar b ↔ a = b := by
  interval_cases a <;> interval_cases b <;> decide

lemma padded_lt_iff (w a b : ℕ) (ha : a < 10^w) (hb : b < 10^w) :
    padded w a < padded w b ↔ a < b := by
  induction w generalizing a b with
  | zero =>
    have ha0 : a = 0 := by simpa using ha
    have hb0 : b = 0 := by simpa using hb
    simp [padded, ha0, hb0]
  | succ w ih =>
    have hw : 0 < 10^w := by positivity
    have ha' : a/10^w < 10 := Nat.div_lt_of_lt_mul (by rwa [← pow_succ])
    have hb' : b/10^w < 10 := Nat.div_lt_of_lt_mul (by rwa [← pow_succ])
    have hda := Nat.div_add_mod a (10^w)
    have hdb := Nat.div_add_mod b (10^w)
    have hm := Nat.mod_lt a hw
    have hmb := Nat.mod_lt b hw
    rw [padded, padded, cons_lt_cons_iff, Nat.mod_eq_of_lt ha', Nat.mod_eq_of_lt hb',
      digitChar_lt_iff ha' hb', digitChar_inj ha' hb', ih _ _ hm hmb]
    constructor
    · rintro (h | ⟨h,hl⟩)
      · have hstep : 10^w*(a/10^w)+10^w ≤ 10^w*(b/10^w) := by
          rw [← Nat.mul_succ]
          exact Nat.mul_le_mul_left _ h
        omega
      · rw [h] at hda
        omega
    · intro hl
      by_cases he : a/10^w = b/10^w
      · refine .inr ⟨he,?_⟩
        rw [he] at hda
        omega
      · have hle : a/10^w ≤ b/10^w := Nat.div_le_div_right hl.le
        exact .inl (by omega)

lemma padded_inj {w a b : ℕ} (ha : a < 10^w) (hb : b < 10^w) : padded w a = padded w b ↔ a = b := by
  constructor
  · intro h
    have hi : ¬ padded w b < padded w b := List.lt_irrefl _
    have hab : ¬ a < b := by rwa [← padded_lt_iff w a b ha hb, h]
    have hba : ¬ b < a := by rwa [← padded_lt_iff w b a hb ha, h]
    omega
  · rintro rfl
    rfl

lemma block_lt_iff {xs ys as bs : List Char} (h : xs.length = ys.length) :
    xs++as < ys++bs ↔ xs < ys ∨ (xs = ys ∧ as < bs) := by
  induction xs generalizing ys with
  | nil =>
    have hy : ys = [] := length_eq_zero_iff.mp h.symm
    simp [hy]
  | cons x xs ih =>
    cases ys with
    | nil => simp at h
    | cons y ys =>
      simp only [cons_append, cons_lt_cons_iff, ih (Nat.succ.inj h), List.cons.injEq]
      tauto

lemma padded_block {w a b : ℕ} (ha : a < 10^w) (hb : b < 10^w) (c : Char) (as bs : List Char) :
    padded w a ++ c::as < padded w b ++ c::bs ↔ a < b ∨ (a = b ∧ as < bs) := by
  rw [block_lt_iff (by simp [padded_length]), padded_lt_iff w a b ha hb, padded_inj ha hb,
    cons_lt_cons_iff]
  simp

lemma yearText_four {y : ℤ} (h0 : 0 ≤ y) (h1 : y < 10000) : yearText y = padded 4 y.natAbs := by
  have hn : ¬ y < 0 := by omega
  have hl : y.natAbs < 10000 := by omega
  simp [yearText, hn, hl]

lemma text_lt_iff {t u : Instant} (ht : FourDigits t) (hu : FourDigits u) :
    t.text < u.text ↔ t.clock < u.clock := by
  obtain ⟨ht0,ht1⟩ := ht
  obtain ⟨hu0,hu1⟩ := hu
  have h1 := t.month_le
  have h2 := t.day_le
  have h3 := t.hour_lt
  have h4 := t.minute_lt
  have h5 := t.second_lt
  have k1 := u.month_le
  have k2 := u.day_le
  have k3 := u.hour_lt
  have k4 := u.minute_lt
  have k5 := u.second_lt
  rw [Instant.text, Instant.text, yearText_four ht0 ht1, yearText_four hu0 hu1]
  rw [padded_block (by omega) (by omega), padded_block (by omega) (by omega),
    padded_block (by omega) (by omega), padded_block (by omega) (by omega),
    padded_block (by omega) (by omega), padded_block (by omega) (by omega)]
  have hz : ¬ ([] : List Char) < [] := by simp
  simp only [hz, and_false, or_false, Instant.clock]
  omega

end SdkApi.Timestamps
