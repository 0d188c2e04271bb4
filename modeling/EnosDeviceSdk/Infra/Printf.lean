/-
# Printing into buffers and reading numbers

`HAL_Snprintf` writes a text made of literal parts and of arguments into a buffer and cuts it off
where the buffer ends. The code computes the sizes of its buffers from the length of the format,
which has the conversions in it, so a format is kept as its parts.

On the way back a number is read by `atoi`, which stops at the first byte that is no digit, or by
the JSON parser, which keeps an `int` for every number.
-/

import EnosDeviceSdk.Infra.CjsonDocument
import EnosDeviceSdk.Infra.Memory
import EnosDeviceSdk.Library.Decimal
import Mathlib.Algebra.Order.Group.Int

namespace EnosDeviceSdk.Infra

open EnosDeviceSdk.Library

/-- A part of a format, with its argument: a literal text, `%d`, `%s` or `%.*s`. The bytes of the
last begin at an address and are cut at the precision already. -/
inductive FormatPart
  | text (bytes : List UInt8)
  | d (value : Int)
  | s (string : List UInt8)
  | precise (bytes : List UInt8)

/-- The length of the part in the format. -/
def FormatPart.strlen : FormatPart → Nat
  | .text bytes => bytes.length
  | .d _ => 2
  | .s _ => 2
  | .precise _ => 4

/-- What is printed for the part. A string ends at a NUL. -/
def FormatPart.print : FormatPart → List UInt8
  | .text bytes => bytes
  | .d value => intDecimal value
  | .s string => arrayText string
  | .precise bytes => arrayText bytes

/-- `strlen` of a format. -/
def formatStrlen (format : List FormatPart) : Nat := (format.map FormatPart.strlen).sum

/-- The text that a format makes of its arguments. -/
def formatText (format : List FormatPart) : List UInt8 := (format.map FormatPart.print).flatten

/-- The string that `HAL_Snprintf` leaves in a buffer of the size. -/
def halSnprintf (size : Nat) (format : List FormatPart) : List UInt8 :=
  (formatText format).take (size - 1)

/-- The white space of the C locale. -/
def isSpace (byte : UInt8) : Bool := byte = 32 ∨ (9 ≤ byte ∧ byte ≤ 13)

/-- The sign of a number at the beginning of a text. -/
def signed (text : List UInt8) (magnitude : Nat) : Int :=
  if text.head? = some 45 then -magnitude else magnitude

/-- `atoi`: `strtol`, which saturates, cut down to an `int`. -/
def atoi (text : List UInt8) : Int :=
  let text := text.dropWhile isSpace
  let value := signed text (decimalValue ((dropSign text).takeWhile isDigit))
  (max (-2 ^ 63) (min (2 ^ 63 - 1) value)).bmod (2 ^ 32)

/-- `value_int` of a number token: its value without the fraction, saturated to an `int`. The
value is taken exactly here; `strtod` rounds it to a double first. -/
def valueInt (text : List UInt8) : Int :=
  let body := dropSign text
  let whole := body.takeWhile isDigit
  let (fraction, power) :=
    match body.dropWhile isDigit with
    | 46 :: rest => (rest.takeWhile isDigit, rest.dropWhile isDigit)
    | rest => ([], rest)
  let exponent : Int :=
    match power with
    | _ :: digits => signed digits (decimalValue (dropSign digits))
    | [] => 0
  let mantissa := decimalValue (whole ++ fraction)
  let scale := exponent - fraction.length
  let magnitude :=
    if 0 ≤ scale then mantissa * 10 ^ scale.toNat else mantissa / 10 ^ (-scale).toNat
  max (-2 ^ 31) (min (2 ^ 31 - 1) (signed text magnitude))

/-- The values of an `int`. -/
def IsInt (value : Int) : Prop := -2 ^ 31 ≤ value ∧ value < 2 ^ 31

instance (value : Int) : Decidable (IsInt value) :=
  inferInstanceAs (Decidable (_ ∧ _))

/-! ## Reading what was printed -/

theorem isDigit_iff (byte : UInt8) : isDigit byte = true ↔ IsDecimalDigit byte := by
  rw [isDigit, decide_eq_true_iff, IsDecimalDigit]

theorem digits_decimal (number : Nat) : Digits (decimal number) where
  some := decimal_ne_nil number
  all := fun byte hbyte => (isDigit_iff byte).mpr (decimal_digits number byte hbyte)

/-- A text that begins with a digit has no sign. -/
theorem signless_of_digit {byte : UInt8} (rest : List UInt8) (hdigit : isDigit byte = true) :
    dropSign (byte :: rest) = byte :: rest ∧ (byte :: rest).head? ≠ some 45 ∧
      isSpace byte = false := by
  have hbounds := (isDigit_iff byte).mp hdigit
  have hsign : ¬(byte = 43 ∨ byte = 45) := by
    rintro (rfl | rfl) <;> exact absurd hdigit (by decide)
  refine ⟨if_neg hsign, fun hhead => ?_, ?_⟩
  · exact hsign (Or.inr (Option.some.inj hhead))
  · apply decide_eq_false
    rintro (rfl | ⟨_, hlow⟩)
    · exact absurd hdigit (by decide)
    · exact absurd (UInt8.le_trans hbounds.1 hlow) (by decide)

/-- `atoi` of a row of digits, with something behind them. -/
theorem atoi_digits {digits rest : List UInt8} (hdigits : Digits digits)
    (hnumber : decimalValue digits < 2 ^ 31) (hrest : ∀ byte ∈ rest.head?, isDigit byte = false) :
    atoi (digits ++ rest) = decimalValue digits := by
  obtain ⟨digit, others, rfl⟩ := List.exists_cons_of_ne_nil hdigits.some
  have hfirst := hdigits.all digit (List.mem_cons_self ..)
  obtain ⟨hdrop, hhead, hspace⟩ := signless_of_digit (others ++ rest) hfirst
  have hstart : (digit :: others ++ rest).dropWhile isSpace = digit :: others ++ rest := by
    rw [List.cons_append, List.dropWhile_cons_of_neg (by simp [hspace])]
  have hunsigned : dropSign (digit :: others ++ rest) = digit :: others ++ rest := hdrop
  have hplain : signed (digit :: others ++ rest) (decimalValue (digit :: others)) =
      decimalValue (digit :: others) := if_neg hhead
  unfold atoi
  dsimp only
  rw [hstart, hunsigned, (takeWhile_digits hdigits.all hrest).1, hplain]
  have hlong : max (-2 ^ 63) (min (2 ^ 63 - 1) (decimalValue (digit :: others) : Int)) =
      decimalValue (digit :: others) := by omega
  rw [hlong, Int.bmod_eq_of_le] <;> omega

/-- A number is read back from its digits. -/
theorem atoi_decimal {number : Nat} {rest : List UInt8} (hnumber : number < 2 ^ 31)
    (hrest : ∀ byte ∈ rest.head?, isDigit byte = false) :
    atoi (decimal number ++ rest) = number := by
  have hread := atoi_digits (digits_decimal number) (by rwa [decimalValue_decimal]) hrest
  rwa [decimalValue_decimal] at hread

/-- A short length is kept by an `int`. -/
theorem bmod_of_short {length : Nat} (hshort : length < 2 ^ 31) :
    (length : Int).bmod (2 ^ 32) = length := by
  rw [Int.bmod_eq_of_le] <;> omega

/-- A longer one turns negative. -/
theorem bmod_of_long {length : Nat} (hlong : 2 ^ 31 ≤ length) (hlimit : length < 2 ^ 32) :
    (length : Int).bmod (2 ^ 32) < 0 := by
  rw [Int.bmod_def]
  split <;> omega

/-- `atoi` gives an `int`. -/
theorem isInt_atoi (text : List UInt8) : IsInt (atoi text) := by
  unfold atoi
  exact ⟨Int.le_bmod (by decide), Int.bmod_lt (by decide)⟩

/-- An `int` has ten digits at the most, and a sign. -/
theorem length_intDecimal_le {value : Int} (hvalue : IsInt value) :
    (decimal value.natAbs).length ≤ 10 ∧ (intDecimal value).length ≤ 11 := by
  have hdigits : (decimal value.natAbs).length ≤ 10 := by
    rw [length_decimal_le_iff (by decide)]
    have hbound : value.natAbs ≤ 2 ^ 31 := by
      obtain ⟨hlow, hhigh⟩ := hvalue
      omega
    exact Nat.lt_of_le_of_lt hbound (by decide)
  refine ⟨hdigits, ?_⟩
  unfold intDecimal
  split
  · rw [List.length_cons]
    omega
  · omega

/-- The text of an integer consists of digits, behind a sign perhaps. -/
theorem intDecimal_bytes (value : Int) :
    ∀ byte ∈ intDecimal value, byte = 45 ∨ isDigit byte = true := by
  have hdigits := (digits_decimal value.natAbs).all
  intro byte hbyte
  unfold intDecimal at hbyte
  split at hbyte
  · exact (List.mem_cons.mp hbyte).imp_right (hdigits byte)
  · exact Or.inr (hdigits byte hbyte)

/-- There is no NUL in what is printed. -/
theorem zero_not_mem_halSnprintf {format : List FormatPart}
    (htexts : ∀ bytes, FormatPart.text bytes ∈ format → 0 ∉ bytes) (size : Nat) :
    0 ∉ halSnprintf size format := by
  intro hzero
  obtain ⟨printed, hprinted, hzero⟩ := List.mem_flatten.mp (List.mem_of_mem_take hzero)
  obtain ⟨part, hpart, rfl⟩ := List.mem_map.mp hprinted
  cases part with
  | text bytes => exact htexts bytes hpart hzero
  | d value =>
      rcases intDecimal_bytes value 0 hzero with hsign | hdigit
      · exact absurd hsign (by decide)
      · exact absurd hdigit (by decide)
  | s string => exact zero_not_mem_arrayText string hzero
  | precise bytes => exact zero_not_mem_arrayText bytes hzero

/-- A row of digits is a number token. -/
theorem Digits.numberToken {digits : List UInt8} (hdigits : Digits digits)
    (hshort : digits.length ≤ 63) : NumberToken digits := by
  obtain ⟨digit, rest, rfl⟩ := List.exists_cons_of_ne_nil hdigits.some
  have hfirst := hdigits.all digit (List.mem_cons_self ..)
  have hdrop := (signless_of_digit rest hfirst).1
  have hcut := @takeWhile_digits _ [] hdigits.all (by simp)
  rw [List.append_nil] at hcut
  exact
    { decimal := by
        simp [isDecimal, hdrop, hcut.1, hcut.2, isExponent]
      bytes := hdigits.numberBytes
      head := ⟨digit, rest, rfl, Or.inr hfirst⟩
      short := hshort }

/-- The text of an integer is a number token. -/
theorem numberToken_intDecimal {value : Int} (hvalue : IsInt value) :
    NumberToken (intDecimal value) := by
  have hdigits := digits_decimal value.natAbs
  have hshort := (length_intDecimal_le hvalue).1
  have hcut := @takeWhile_digits _ [] hdigits.all (by simp)
  rw [List.append_nil] at hcut
  unfold intDecimal
  split
  next =>
    exact
      { decimal := by
          simp [isDecimal, dropSign, hcut.1, hcut.2, isExponent, hdigits.some]
        bytes := List.forall_mem_cons.mpr ⟨by decide, hdigits.numberBytes⟩
        head := ⟨45, _, rfl, Or.inl rfl⟩
        short := by
          rw [List.length_cons]
          omega }
  next => exact hdigits.numberToken (by omega)

/-- The parser keeps an `int` for every number. -/
theorem isInt_valueInt (text : List UInt8) : IsInt (valueInt text) := by
  unfold valueInt
  dsimp only
  constructor
  · exact le_max_left _ _
  · exact lt_of_le_of_lt (max_le (by decide) (min_le_left _ _)) (by decide)

/-- The integer of a number that was printed is that number. -/
theorem valueInt_intDecimal {value : Int} (hvalue : IsInt value) :
    valueInt (intDecimal value) = value := by
  have hdigits := digits_decimal value.natAbs
  obtain ⟨digit, rest, hcons, hdigit⟩ := decimal_cons value.natAbs
  have hfirst := (isDigit_iff digit).mpr hdigit
  obtain ⟨hdrop, hhead, _⟩ := signless_of_digit rest hfirst
  rw [← hcons] at hdrop hhead
  have hcut := @takeWhile_digits _ [] hdigits.all (by simp)
  rw [List.append_nil] at hcut
  obtain ⟨hlow, hhigh⟩ := hvalue
  unfold intDecimal
  split
  next hnegative =>
    have hsign : signed (45 :: decimal value.natAbs) value.natAbs = value := by
      rw [signed, List.head?_cons, if_pos rfl]
      omega
    simp [valueInt, dropSign, hcut.1, hcut.2, decimalValue_decimal, hsign]
    omega
  next hpositive =>
    have hsign : signed (decimal value.natAbs) value.natAbs = value := by
      rw [signed, if_neg hhead]
      omega
    simp [valueInt, hdrop, hcut.1, hcut.2, decimalValue_decimal, hsign]
    omega

end EnosDeviceSdk.Infra
