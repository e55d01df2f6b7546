import Mathlib.Algebra.Order.Ring.Nat
import Mathlib.Data.List.Basic
import Mathlib.Tactic.IntervalCases

/-!
# Numerals of a fixed width

A number is written with the digits of a radix, filled up with zeros to a width. The
reader takes one digit after the other, accepts capital letters and a leading `+`, and
fails on any other character and once the number has reached a bound.

What was written is read back (`fromStrRadix_zeroPadded`), and numerals have no character
but digits (`forall_mem_toDigits`).
-/

set_option autoImplicit false

namespace SenderAnalysis

/-- The value of a character as a digit of the radix. -/
def digitValue (radix : Nat) (char : Char) : Option Nat :=
  let value? : Option Nat :=
    if '0' ≤ char ∧ char ≤ '9' then some (char.toNat - '0'.toNat)
    else if 'a' ≤ char ∧ char ≤ 'z' then some (char.toNat - 'a'.toNat + 10)
    else if 'A' ≤ char ∧ char ≤ 'Z' then some (char.toNat - 'A'.toNat + 10)
    else none
  value?.filter (· < radix)

/-- Read the digits that are left, after those that make up `sofar`. -/
def readDigits (radix bound : Nat) : Nat → List Char → Option Nat
  | sofar, [] => some sofar
  | sofar, char :: rest =>
      match digitValue radix char with
      | none => none
      | some digit =>
          if radix * sofar + digit < bound then
            readDigits radix bound (radix * sofar + digit) rest
          else none

/-- Read a number below the bound. A text without a digit is no number. -/
def fromStrRadix (radix bound : Nat) : List Char → Option Nat
  | [] => none
  | ['+'] => none
  | '+' :: digits => readDigits radix bound 0 digits
  | digits => readDigits radix bound 0 digits

/-- Write a number, filled up with zeros to the width. -/
def zeroPadded (radix width number : Nat) : List Char :=
  List.leftpad width '0' (Nat.toDigits radix number)

/-! ## Digits -/

section Digits

variable {radix : Nat}

/-- A digit is read as its value. -/
theorem digitValue_digitChar (small : radix ≤ 16) {digit : Nat} (valid : digit < radix) :
    digitValue radix digit.digitChar = some digit := by
  have value : digitValue 16 digit.digitChar = some digit := by
    have bounded : digit < 16 := by omega
    interval_cases digit <;> decide
  rw [digitValue, Option.filter_eq_some_iff] at value ⊢
  exact ⟨value.1, by simpa using valid⟩

/-- What holds of sixteen digits, and of the star that stands for any larger one. -/
theorem forall_digitChar {property : Char → Prop}
    (holds : ∀ digit : Fin 17, property (digit : Nat).digitChar) (digit : Nat) :
    property digit.digitChar := by
  by_cases bounded : digit < 16
  · exact holds ⟨digit, by omega⟩
  · have star : digit.digitChar = '*' := Nat.digitChar_eq_star.mpr (by omega)
    rw [star]
    exact holds 16

/-- What holds of all digits holds of the characters of a number. -/
theorem forall_mem_toDigits (property : Char → Prop)
    (holds : ∀ digit : Fin 17, property (digit : Nat).digitChar) (large : 1 < radix)
    (number : Nat) : ∀ char ∈ Nat.toDigits radix number, property char := by
  induction number using Nat.base_induction radix large with
  | single digit valid =>
    intro char member
    rw [Nat.toDigits_of_lt_base valid, List.mem_singleton] at member
    rw [member]
    exact forall_digitChar holds digit
  | digit number digit valid positive ih =>
    intro char member
    rw [← Nat.toDigits_append_toDigits large positive valid, List.mem_append,
      Nat.toDigits_of_lt_base valid, List.mem_singleton] at member
    rcases member with early | last
    · exact ih char early
    · rw [last]
      exact forall_digitChar holds digit

end Digits

/-! ## Reading what was written -/

section RoundTrip

variable {radix bound : Nat}

/-- Reading goes on after the digits of a number from that number. -/
theorem readDigits_toDigits (large : 1 < radix) (small : radix ≤ 16) (number : Nat)
    (inBound : number < bound) (rest : List Char) :
    readDigits radix bound 0 (Nat.toDigits radix number ++ rest) =
      readDigits radix bound number rest := by
  induction number using Nat.base_induction radix large generalizing rest with
  | single digit valid =>
    rw [Nat.toDigits_of_lt_base valid, List.singleton_append, readDigits,
      digitValue_digitChar small valid]
    simp [inBound]
  | digit number digit valid positive ih =>
    have shorter : number < bound :=
      calc number ≤ radix * number := Nat.le_mul_of_pos_left number (by omega)
        _ ≤ radix * number + digit := Nat.le_add_right _ _
        _ < bound := inBound
    rw [← Nat.toDigits_append_toDigits large positive valid, List.append_assoc, ih shorter,
      Nat.toDigits_of_lt_base valid, List.singleton_append, readDigits,
      digitValue_digitChar small valid]
    simp [inBound]

theorem readDigits_zeros (positive : 0 < radix) (inBound : 0 < bound) (zeros : Nat)
    (rest : List Char) :
    readDigits radix bound 0 (List.replicate zeros '0' ++ rest) =
      readDigits radix bound 0 rest := by
  induction zeros with
  | zero => rfl
  | succ zeros ih =>
    have zero : digitValue radix '0' = some 0 := by simp [digitValue, positive]
    rw [List.replicate_succ, List.cons_append, readDigits, zero]
    simpa [inBound] using ih

theorem fromStrRadix_of_head {text : List Char} (some : text ≠ [])
    (plain : ∀ char ∈ text, char ≠ '+') :
    fromStrRadix radix bound text = readDigits radix bound 0 text := by
  cases text with
  | nil => exact absurd rfl some
  | cons char rest =>
    have other := plain char List.mem_cons_self
    rw [fromStrRadix]
    · exact List.cons_ne_nil char rest
    · rintro ⟨⟩
      exact other rfl
    · rintro digits ⟨⟩
      exact other rfl

/-- **A number is read back from its numeral.** -/
theorem fromStrRadix_zeroPadded (large : 1 < radix) (small : radix ≤ 16) (width : Nat)
    {number : Nat} (inBound : number < bound) :
    fromStrRadix radix bound (zeroPadded radix width number) = some number := by
  have plain : ∀ char ∈ zeroPadded radix width number, char ≠ '+' := by
    intro char member
    rcases List.mem_append.mp member with zero | digit
    · rw [(List.mem_replicate.mp zero).2]
      decide
    · exact forall_mem_toDigits (· ≠ '+') (by decide) large number char digit
  have some : zeroPadded radix width number ≠ [] := by
    intro empty
    exact Nat.toDigits_ne_nil (List.append_eq_nil_iff.mp empty).2
  rw [fromStrRadix_of_head some plain, zeroPadded, List.leftpad,
    readDigits_zeros (by omega) (by omega)]
  have read := readDigits_toDigits large small number inBound []
  rwa [List.append_nil] at read

theorem readDigits_lt {digits : List Char} {sofar number : Nat} (inBound : sofar < bound)
    (read : readDigits radix bound sofar digits = some number) : number < bound := by
  induction digits generalizing sofar with
  | nil => exact Option.some.inj read ▸ inBound
  | cons char rest ih =>
    rw [readDigits] at read
    split at read
    · cases read
    · split at read
      · next next => exact ih next read
      · cases read

/-- What is read is below the bound. -/
theorem fromStrRadix_lt {text : List Char} {number : Nat} (inBound : 0 < bound)
    (read : fromStrRadix radix bound text = some number) : number < bound := by
  unfold fromStrRadix at read
  split at read
  · cases read
  · cases read
  · exact readDigits_lt inBound read
  · exact readDigits_lt inBound read

/-- A number is read back from its digits. -/
theorem fromStrRadix_toDigits (large : 1 < radix) (small : radix ≤ 16) {number : Nat}
    (inBound : number < bound) :
    fromStrRadix radix bound (Nat.toDigits radix number) = some number := by
  have read := fromStrRadix_zeroPadded large small 0 inBound
  rwa [zeroPadded, List.leftpad, Nat.zero_sub, List.replicate_zero, List.nil_append] at read

/-- A number that fits has a numeral of the width. -/
theorem length_zeroPadded (large : 1 < radix) {width number : Nat} (positive : 0 < width)
    (fits : number < radix ^ width) : (zeroPadded radix width number).length = width := by
  have short := (Nat.length_toDigits_le_iff large positive).mpr fits
  rw [zeroPadded, List.length_leftpad]
  omega

theorem zeroPadded_ascii (large : 1 < radix) (width number : Nat) :
    ∀ char ∈ zeroPadded radix width number, char.val ≤ 127 := by
  intro char member
  rcases List.mem_append.mp member with zero | digit
  · rw [(List.mem_replicate.mp zero).2]
    decide
  · exact forall_mem_toDigits (fun char => char.val ≤ 127) (by decide) large number char digit

end RoundTrip

end SenderAnalysis
