/-
# Decimal numbers as bytes

The ASCII text of a natural number and of an integer in base ten, and the number that such a text
stands for. Reading undoes writing, and the length of a text tells how large the number is.
-/

import Mathlib.Data.List.Basic
import Mathlib.Data.List.Induction
import Mathlib.Order.Basic
import Mathlib.Algebra.Ring.Int.Defs
import Mathlib.Algebra.Ring.Nat

namespace EnosDeviceSdk.Library

/-- The bytes of an ASCII text. -/
def ascii (text : String) : List UInt8 := text.toList.map fun char => char.val.toUInt8

/-- A decimal digit. -/
def IsDecimalDigit (byte : UInt8) : Prop := 48 ≤ byte ∧ byte ≤ 57

/-- The digits of a number, the most significant one first. -/
def decimal (number : Nat) : List UInt8 :=
  (Nat.toDigits 10 number).map fun char => char.val.toUInt8

/-- The number that a row of digits stands for. -/
def decimalValue (digits : List UInt8) : Nat :=
  digits.foldl (fun value digit => 10 * value + (digit.toNat - 48)) 0

/-- The text of an integer, with a sign if it is negative. -/
def intDecimal (number : Int) : List UInt8 :=
  if number < 0 then 45 :: decimal number.natAbs else decimal number.natAbs

/-! ## Digits -/

theorem digitChar_byte {digit : Nat} (hdigit : digit < 10) :
    digit.digitChar.val.toUInt8 = UInt8.ofNat (48 + digit) := by
  have hall : ∀ digit < 10,
      (Nat.digitChar digit).val.toUInt8 = UInt8.ofNat (48 + digit) := by
    decide
  exact hall digit hdigit

theorem decimal_of_lt {number : Nat} (hsmall : number < 10) :
    decimal number = [UInt8.ofNat (48 + number)] := by
  rw [decimal, Nat.toDigits_of_lt_base hsmall, List.map_singleton, digitChar_byte hsmall]

theorem decimal_of_le {number : Nat} (hlarge : 10 ≤ number) :
    decimal number = decimal (number / 10) ++ [UInt8.ofNat (48 + number % 10)] := by
  have hdigit : number % 10 < 10 := Nat.mod_lt _ (by decide)
  rw [decimal, Nat.toDigits_of_base_le (by decide) hlarge, List.map_append, List.map_singleton,
    digitChar_byte hdigit]
  rfl

theorem toNat_digit {digit : Nat} (hdigit : digit < 10) :
    (UInt8.ofNat (48 + digit)).toNat = 48 + digit := by
  rw [UInt8.toNat_ofNat']
  omega

theorem isDecimalDigit_ofNat {digit : Nat} (hdigit : digit < 10) :
    IsDecimalDigit (UInt8.ofNat (48 + digit)) := by
  have hvalue := toNat_digit hdigit
  constructor
  · rw [UInt8.le_iff_toNat_le, hvalue]
    exact Nat.le_add_right 48 digit
  · rw [UInt8.le_iff_toNat_le, hvalue]
    have hbound : 48 + digit ≤ 57 := by omega
    exact hbound

theorem decimal_digits (number : Nat) : ∀ byte ∈ decimal number, IsDecimalDigit byte := by
  induction number using Nat.strongRecOn with
  | ind number ih =>
      by_cases hsmall : number < 10
      · rw [decimal_of_lt hsmall]
        intro byte hbyte
        rw [List.mem_singleton.mp hbyte]
        exact isDecimalDigit_ofNat hsmall
      · rw [decimal_of_le (Nat.le_of_not_lt hsmall)]
        intro byte hbyte
        rcases List.mem_append.mp hbyte with hfront | hlast
        · exact ih (number / 10) (by omega) byte hfront
        · rw [List.mem_singleton.mp hlast]
          exact isDecimalDigit_ofNat (Nat.mod_lt _ (by decide))

theorem decimal_ne_nil (number : Nat) : decimal number ≠ [] := by
  rw [decimal]
  simp

/-- A number has a digit in front. -/
theorem decimal_cons (number : Nat) :
    ∃ digit rest, decimal number = digit :: rest ∧ IsDecimalDigit digit := by
  obtain ⟨digit, rest, hcons⟩ := List.exists_cons_of_ne_nil (decimal_ne_nil number)
  refine ⟨digit, rest, hcons, decimal_digits number digit ?_⟩
  rw [hcons]
  exact List.mem_cons_self

/-- A row of digits is so long exactly if its number is that small. -/
theorem length_decimal_le_iff {number places : Nat} (hplaces : 0 < places) :
    (decimal number).length ≤ places ↔ number < 10 ^ places := by
  rw [decimal, List.length_map]
  exact Nat.length_toDigits_le_iff (by decide) hplaces

/-- The first digits of a number are a number, too, and not zero if the number is not. -/
theorem take_decimal {places : Nat} (hplaces : 0 < places) (number : Nat) :
    ∃ front ≤ number, (0 < number → 0 < front) ∧ (decimal number).take places = decimal front := by
  induction number using Nat.strongRecOn with
  | ind number ih =>
      by_cases hshort : (decimal number).length ≤ places
      · exact ⟨number, Nat.le_refl number, id, List.take_of_length_le hshort⟩
      · have hlarge : 10 ≤ number := by
          by_contra hsmall
          rw [decimal_of_lt (Nat.not_le.mp hsmall), List.length_singleton] at hshort
          omega
        obtain ⟨front, hle, hpositive, htake⟩ := ih (number / 10) (by omega)
        rw [decimal_of_le hlarge, List.length_append, List.length_singleton] at hshort
        refine ⟨front, by omega, fun _ => hpositive (by omega), ?_⟩
        rw [decimal_of_le hlarge, List.take_append_of_le_length (by omega), htake]

/-- So are the first characters of an integer's text, from the second on. -/
theorem take_intDecimal {places : Nat} (hplaces : 1 < places) (number : Int) :
    ∃ front : Int, (0 ≤ front ∧ front ≤ number ∨ number ≤ front ∧ front < 0) ∧
      (intDecimal number).take places = intDecimal front := by
  by_cases hnegative : number < 0
  · obtain ⟨front, hle, hpositive, htake⟩ :=
      @take_decimal (places - 1) (by omega) number.natAbs
    have hfront := hpositive (by omega)
    obtain ⟨room, rfl⟩ : ∃ room, places = room + 1 := ⟨places - 1, by omega⟩
    refine ⟨-front, Or.inr (by omega), ?_⟩
    rw [intDecimal, if_pos hnegative, List.take_succ_cons, intDecimal, if_pos (by omega),
      Int.natAbs_neg, Int.natAbs_natCast]
    exact congrArg (45 :: ·) htake
  · obtain ⟨front, hle, -, htake⟩ := @take_decimal places (by omega) number.natAbs
    refine ⟨front, Or.inl (by omega), ?_⟩
    rw [intDecimal, if_neg hnegative, htake, intDecimal, if_neg (by omega), Int.natAbs_natCast]

/-! ## Values -/

theorem decimalValue_append_singleton (digits : List UInt8) (digit : UInt8) :
    decimalValue (digits ++ [digit]) = 10 * decimalValue digits + (digit.toNat - 48) := by
  rw [decimalValue, List.foldl_append]
  rfl

/-- A row of digits stands for a number with as many places. -/
theorem decimalValue_lt {digits : List UInt8} (hdigits : ∀ digit ∈ digits, IsDecimalDigit digit) :
    decimalValue digits < 10 ^ digits.length := by
  induction digits using List.reverseRecOn with
  | nil => decide
  | append_singleton digits digit ih =>
      rw [List.forall_mem_append, List.forall_mem_singleton] at hdigits
      have hfront := ih hdigits.1
      have hlast : digit.toNat ≤ 57 := UInt8.le_iff_toNat_le.mp hdigits.2.2
      rw [decimalValue_append_singleton, List.length_append, List.length_singleton, Nat.pow_succ]
      omega

/-- Reading undoes writing. -/
theorem decimalValue_decimal (number : Nat) : decimalValue (decimal number) = number := by
  induction number using Nat.strongRecOn with
  | ind number ih =>
      by_cases hsmall : number < 10
      · rw [decimal_of_lt hsmall]
        have hvalue := toNat_digit hsmall
        simp only [decimalValue, List.foldl_cons, List.foldl_nil, hvalue]
        omega
      · have hdigit : number % 10 < 10 := Nat.mod_lt _ (by decide)
        rw [decimal_of_le (Nat.le_of_not_lt hsmall), decimalValue_append_singleton,
          ih (number / 10) (by omega), toNat_digit hdigit]
        omega

end EnosDeviceSdk.Library
