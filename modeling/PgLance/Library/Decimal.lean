import Mathlib.Data.Rat.Defs
import Mathlib.Algebra.Order.Field.Rat
import Mathlib.Tactic.FieldSimp
import Mathlib.Tactic.Ring

/-! Decimal numbers as they are written, and the rational numbers they denote. -/

namespace Decimal

/-- An optional minus sign, digits, and a point with digits behind it where there are any. -/
structure Literal where
  negative : Bool
  whole : List Char
  fraction : List Char
  whole_ne_nil : whole ≠ []
  whole_digits : ∀ c ∈ whole, c.isDigit = true
  fraction_digits : ∀ c ∈ fraction, c.isDigit = true

namespace Literal

def text (l : Literal) : List Char :=
  (if l.negative then ['-'] else []) ++ l.whole ++
    (if l.fraction = [] then [] else '.' :: l.fraction)

def natValue (digits : List Char) : Nat := Nat.ofDigitChars 10 digits 0

def value (l : Literal) : ℚ :=
  (if l.negative then -1 else 1) *
    (natValue l.whole + natValue l.fraction / 10 ^ l.fraction.length)

theorem natValue_append (xs ys : List Char) :
    natValue (xs ++ ys) = natValue xs * 10 ^ ys.length + natValue ys := by
  rw [natValue, Nat.ofDigitChars_append, Nat.ofDigitChars_eq_ofDigitChars_zero, Nat.mul_comm]
  rfl

theorem natValue_zeros (n : Nat) : natValue (List.replicate n '0') = 0 := by
  rw [natValue, Nat.ofDigitChars_replicate_zero, Nat.mul_zero]

theorem natValue_toDigits (n : Nat) : natValue (Nat.toDigits 10 n) = n :=
  Nat.ofDigitChars_ten_toDigits

theorem value_of_append {l : Literal} {digits : List Char} (h : l.whole ++ l.fraction = digits) :
    l.value = (if l.negative then -1 else 1) * (natValue digits / 10 ^ l.fraction.length) := by
  rw [value, ← h, natValue_append]
  push_cast
  field_simp

end Literal

def parts (text : List Char) : Bool × List Char × List Char :=
  let negative := text.head? == some '-'
  let body := if negative then text.tail else text
  (negative, body.takeWhile Char.isDigit, (body.dropWhile Char.isDigit).tail)

theorem parts_text (l : Literal) : parts l.text = (l.negative, l.whole, l.fraction) := by
  have hfraction : ∀ fraction : List Char,
      (if fraction = [] then [] else '.' :: fraction).takeWhile Char.isDigit = [] ∧
      ((if fraction = [] then [] else '.' :: fraction).dropWhile Char.isDigit).tail = fraction := by
    intro fraction
    cases fraction with
    | nil => exact ⟨rfl, rfl⟩
    | cons c fraction => exact ⟨rfl, rfl⟩
  have hbody : ∀ negative : Bool, (negative, (l.whole ++ (if l.fraction = [] then [] else
      '.' :: l.fraction)).takeWhile Char.isDigit, ((l.whole ++ (if l.fraction = [] then [] else
      '.' :: l.fraction)).dropWhile Char.isDigit).tail) = (negative, l.whole, l.fraction) := by
    intro negative
    rw [List.takeWhile_append_of_pos l.whole_digits, List.dropWhile_append_of_pos l.whole_digits,
      (hfraction l.fraction).1, (hfraction l.fraction).2, List.append_nil]
  rw [Literal.text]
  cases hnegative : l.negative with
  | true => exact hbody true
  | false =>
    have hhead : ((l.whole ++ (if l.fraction = [] then [] else '.' :: l.fraction)).head? ==
        some '-') = false := by
      obtain ⟨c, cs, hwhole⟩ := List.exists_cons_of_ne_nil l.whole_ne_nil
      have hdigit := l.whole_digits c (by rw [hwhole]; exact List.mem_cons_self)
      rw [hwhole, List.cons_append, List.head?_cons, beq_eq_false_iff_ne]
      rintro heq
      rw [Option.some.inj heq] at hdigit
      exact absurd hdigit (by decide)
    simp only [Bool.false_eq_true, if_false, List.nil_append, parts, hhead]
    exact hbody false

def Denotes (text : List Char) (q : ℚ) : Prop := ∃ l : Literal, l.text = text ∧ l.value = q

theorem denotes_text (l : Literal) (q : ℚ) : Denotes l.text q ↔ q = l.value := by
  constructor
  · rintro ⟨l', htext, rfl⟩
    have hparts := congrArg parts htext
    simp only [parts_text, Prod.mk.injEq] at hparts
    rw [Literal.value, Literal.value, hparts.1, hparts.2.1, hparts.2.2]
  · rintro rfl
    exact ⟨l, rfl, rfl⟩

end Decimal
