/-
# What a JSON string says

Between its quotes a JSON string has plain bytes, which stand for themselves, and escapes. An
escape is a backslash with a letter, or with `u` and four hexadecimal digits. A character that four
digits are too few for takes two such escapes, a high and a low surrogate. What the string says is
UTF-8, like the plain bytes.
-/

import EnosDeviceSdk.Library.Reading
import Mathlib.Data.Option.Basic

namespace EnosDeviceSdk.Library

/-- The value of a hexadecimal digit. -/
def hexDigit (digit : UInt8) : Option Nat :=
  if 48 ≤ digit ∧ digit ≤ 57 then some (digit.toNat - 48)
  else if 97 ≤ digit ∧ digit ≤ 102 then some (digit.toNat - 87)
  else if 65 ≤ digit ∧ digit ≤ 70 then some (digit.toNat - 55)
  else none

/-- The number that four hexadecimal digits write. -/
def codeUnit (first second third fourth : UInt8) : Option Nat := do
  return 4096 * (← hexDigit first) + 256 * (← hexDigit second) + 16 * (← hexDigit third) +
    (← hexDigit fourth)

/-- The byte that a letter behind a backslash stands for. -/
def letterMeaning (letter : UInt8) : Option UInt8 :=
  if letter = 34 ∨ letter = 92 ∨ letter = 47 then some letter
  else if letter = 98 then some 8
  else if letter = 102 then some 12
  else if letter = 110 then some 10
  else if letter = 114 then some 13
  else if letter = 116 then some 9
  else none

/-- The bytes of a character in UTF-8. -/
def utf8 (code : Nat) : List UInt8 := String.utf8EncodeChar (Char.ofNat code)

/-- The character that a high and a low surrogate stand for together. -/
def surrogatePair (high low : Nat) : Option Nat :=
  if high < 0xDC00 ∧ 0xDC00 ≤ low ∧ low < 0xE000 then
    some (0x10000 + 0x400 * (high - 0xD800) + (low - 0xDC00))
  else none

/-- What a string says, from the text between its quotes. There is no answer where a backslash
begins no escape or a surrogate stands alone. -/
def unescape : List UInt8 → Option (List UInt8)
  | [] => some []
  | byte :: rest =>
      if byte ≠ 92 then (unescape rest).map (byte :: ·)
      else
        match rest with
        | [] => none
        | letter :: rest =>
            if letter ≠ 117 then do
              let byte ← letterMeaning letter
              (unescape rest).map (byte :: ·)
            else
              match rest with
              | first :: second :: third :: fourth :: rest => do
                  let unit ← codeUnit first second third fourth
                  if unit < 0xD800 ∨ 0xE000 ≤ unit then (unescape rest).map (utf8 unit ++ ·)
                  else
                    match rest with
                    | backslash :: letter :: first :: second :: third :: fourth :: rest => do
                        guard (backslash = 92 ∧ letter = 117)
                        let low ← codeUnit first second third fourth
                        let code ← surrogatePair unit low
                        (unescape rest).map (utf8 code ++ ·)
                    | _ => none
              | _ => none

/-- `ab` with an escaped letter, a quote, and a character beyond the first 65536. -/
example : unescape [92, 117, 48, 48, 54, 49, 98, 92, 34, 92, 117, 68, 56, 51, 68, 92, 117, 68, 69,
    48, 48] = some [97, 98, 34, 0xF0, 0x9F, 0x98, 0x80] := by decide +kernel

theorem unescape_plain {byte : UInt8} (hplain : byte ≠ 92) (rest : List UInt8) :
    unescape (byte :: rest) = (unescape rest).map (byte :: ·) := by
  rw [unescape.eq_def]
  exact if_pos hplain

theorem unescape_letter {letter byte : UInt8} (hletter : letterMeaning letter = some byte)
    (rest : List UInt8) :
    unescape (92 :: letter :: rest) = (unescape rest).map (byte :: ·) := by
  have hno : letter ≠ 117 := by
    rintro rfl
    have hnone : letterMeaning 117 = none := by decide
    exact absurd (hnone.symm.trans hletter) (by simp)
  rw [unescape.eq_def]
  simp only [ne_eq, not_true_eq_false, if_false, hno, not_false_eq_true, if_true, hletter]
  rfl

/-- An escape with digits that is no surrogate. -/
theorem unescape_unit {first second third fourth : UInt8} {unit : Nat}
    (hunit : codeUnit first second third fourth = some unit) (hplain : unit < 0xD800)
    (rest : List UInt8) :
    unescape (92 :: 117 :: first :: second :: third :: fourth :: rest) =
      (unescape rest).map (utf8 unit ++ ·) := by
  rw [unescape.eq_def]
  simp only [ne_eq, not_true_eq_false, if_false, hunit]
  exact if_pos (Or.inl hplain)

end EnosDeviceSdk.Library
