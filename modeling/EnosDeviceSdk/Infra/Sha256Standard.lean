/-
# SHA-256 as the standard has it

The constants of the rounds are the first bits behind the points of the cube roots of the first
sixty-four primes, and the state begins with those of the square roots of the first eight. A text
is padded with a one bit, with zeros and with its length, and each block of it is folded into the
state by sixty-four rounds.

Nothing here is taken from the code. It is what the code is compared with.
-/

import Mathlib.Data.Nat.NthRoot.Defs
import Mathlib.Data.Nat.Prime.Basic
import EnosDeviceSdk.Library.BlockHash

namespace EnosDeviceSdk.Infra.Sha256

open EnosDeviceSdk.Library

/-! ## Constants -/

/-- The primes that the constants are made from. -/
def primes : List Nat :=
  [2, 3, 5, 7, 11, 13, 17, 19, 23, 29, 31, 37, 41, 43, 47, 53, 59, 61, 67, 71, 73, 79, 83, 89,
    97, 101, 103, 107, 109, 113, 127, 131, 137, 139, 149, 151, 157, 163, 167, 173, 179, 181,
    191, 193, 197, 199, 211, 223, 227, 229, 233, 239, 241, 251, 257, 263, 269, 271, 277, 281,
    283, 293, 307, 311]

/-- They are all primes below 312. -/
theorem mem_primes_iff {number : Nat} : number ∈ primes ↔ number < 312 ∧ number.Prime := by
  -- A number below 324 that is not prime has a divisor below 18.
  have hchecked : ∀ number < 312, (number ∈ primes ↔
      2 ≤ number ∧ ∀ divisor < 18, 2 ≤ divisor → divisor * divisor ≤ number →
        ¬divisor ∣ number) := by decide +kernel
  have hbound : ∀ number ∈ primes, number < 312 := by decide
  have hsmall : number < 312 → ∀ divisor, divisor * divisor ≤ number → divisor < 18 := by
    intro hnumber divisor hsquare
    by_contra hlarge
    have hmany := Nat.mul_le_mul (Nat.not_lt.mp hlarge) (Nat.not_lt.mp hlarge)
    omega
  rw [Nat.prime_def_le_sqrt]
  simp only [Nat.le_sqrt]
  constructor
  · intro hmem
    have hnumber := hbound number hmem
    obtain ⟨htwo, hnone⟩ := (hchecked number hnumber).mp hmem
    exact ⟨hnumber, htwo, fun divisor hdivisor hsquare =>
      hnone divisor (hsmall hnumber divisor hsquare) hdivisor hsquare⟩
  · rintro ⟨hnumber, htwo, hnone⟩
    exact (hchecked number hnumber).mpr ⟨htwo, fun divisor _ => hnone divisor⟩

theorem primes_sorted : primes.length = 64 ∧ primes.Pairwise (· < ·) := by decide

/-- The first 32 bits behind the point of a root. -/
def rootFraction (power number : Nat) : UInt32 :=
  UInt32.ofNat (Nat.nthRoot power (number * 2 ^ (32 * power)))

def roundConstants : List UInt32 := primes.map (rootFraction 3)

/-- The eight words of a state. -/
@[ext]
structure Registers where
  a : UInt32
  b : UInt32
  c : UInt32
  d : UInt32
  e : UInt32
  f : UInt32
  g : UInt32
  h : UInt32
  deriving DecidableEq

def initialState : Registers where
  a := rootFraction 2 2
  b := rootFraction 2 3
  c := rootFraction 2 5
  d := rootFraction 2 7
  e := rootFraction 2 11
  f := rootFraction 2 13
  g := rootFraction 2 17
  h := rootFraction 2 19

/-! ## Words -/

def rotr (word : UInt32) (places : Nat) : UInt32 := .ofBitVec (word.toBitVec.rotateRight places)

/-- The first word chooses between the bits of the others. -/
def ch (x y z : UInt32) : UInt32 := (x &&& y) ^^^ (~~~x &&& z)

/-- The majority of the bits. -/
def maj (x y z : UInt32) : UInt32 := (x &&& y) ^^^ (x &&& z) ^^^ (y &&& z)

def bigSigma0 (x : UInt32) : UInt32 := rotr x 2 ^^^ rotr x 13 ^^^ rotr x 22

def bigSigma1 (x : UInt32) : UInt32 := rotr x 6 ^^^ rotr x 11 ^^^ rotr x 25

def smallSigma0 (x : UInt32) : UInt32 := rotr x 7 ^^^ rotr x 18 ^^^ (x >>> 3)

def smallSigma1 (x : UInt32) : UInt32 := rotr x 17 ^^^ rotr x 19 ^^^ (x >>> 10)

/-- The number that bytes are, the highest one first. -/
def bigEndianValue (bytes : List UInt8) : Nat :=
  bytes.foldl (fun value byte => 256 * value + byte.toNat) 0

/-- So many bytes of a number, the highest one first. -/
def bigEndian (count value : Nat) : List UInt8 :=
  (List.range count).map fun place => UInt8.ofNat (value / 256 ^ (count - 1 - place))

/-! ## Blocks -/

/-- The words of the rounds: those of the block, and then each from four words before it. -/
def schedule (block : List UInt8) (round : Nat) : UInt32 :=
  if round < 16 then .ofNat (bigEndianValue ((block.drop (4 * round)).take 4))
  else
    smallSigma1 (schedule block (round - 2)) + schedule block (round - 7) +
      smallSigma0 (schedule block (round - 15)) + schedule block (round - 16)
termination_by round

/-- A round. -/
def Registers.step (registers : Registers) (word constant : UInt32) : Registers :=
  let first := registers.h + bigSigma1 registers.e + ch registers.e registers.f registers.g +
    constant + word
  let second := bigSigma0 registers.a + maj registers.a registers.b registers.c
  { a := first + second
    b := registers.a
    c := registers.b
    d := registers.c
    e := registers.d + first
    f := registers.e
    g := registers.f
    h := registers.g }

/-- The rounds before a round. -/
def rounds (block : List UInt8) (state : Registers) : Nat → Registers
  | 0 => state
  | count + 1 =>
      (rounds block state count).step (schedule block count) (roundConstants.getD count 0)

def Registers.add (first second : Registers) : Registers where
  a := first.a + second.a
  b := first.b + second.b
  c := first.c + second.c
  d := first.d + second.d
  e := first.e + second.e
  f := first.f + second.f
  g := first.g + second.g
  h := first.h + second.h

/-- A block is folded into the state. -/
def compress (state : Registers) (block : List UInt8) : Registers :=
  (rounds block state 64).add state

/-! ## Texts -/

/-- The least number of zeros that leave eight bytes for the length in the last block. -/
def zeroCount (length : Nat) : Nat := (119 - length % 64) % 64

/-- What comes behind a text of a length. -/
def padding (length : Nat) : List UInt8 :=
  128 :: (List.replicate (zeroCount length) 0 ++ bigEndian 8 (8 * length))

def Registers.bytes (registers : Registers) : List UInt8 :=
  bigEndian 4 registers.a.toNat ++ bigEndian 4 registers.b.toNat ++
    bigEndian 4 registers.c.toNat ++ bigEndian 4 registers.d.toNat ++
    bigEndian 4 registers.e.toNat ++ bigEndian 4 registers.f.toNat ++
    bigEndian 4 registers.g.toNat ++ bigEndian 4 registers.h.toNat

/-- The digest of a text. -/
def digest (text : List UInt8) : List UInt8 :=
  (absorb compress 64 initialState (text ++ padding text.length)).bytes

/-- The authentication code of a message under a key that fits a block. -/
def hmac (key message : List UInt8) : List UInt8 :=
  let block := key ++ List.replicate (64 - key.length) 0
  digest (block.map (· ^^^ 92) ++ digest (block.map (· ^^^ 54) ++ message))

/-! ## Numbers as bytes -/

theorem length_bigEndian (count value : Nat) : (bigEndian count value).length = count := by
  rw [bigEndian, List.length_map, List.length_range]

/-- The last byte is the lowest. -/
theorem bigEndian_succ (count value : Nat) :
    bigEndian (count + 1) value = bigEndian count (value / 256) ++ [.ofNat value] := by
  have hlower : (List.range count).map (fun place =>
      UInt8.ofNat (value / 256 ^ (count - place))) = bigEndian count (value / 256) := by
    apply List.map_congr_left
    intro place hplace
    rw [List.mem_range] at hplace
    have hpower : 256 ^ (count - place) = 256 * 256 ^ (count - 1 - place) := by
      rw [← Nat.pow_succ']
      congr 1
      omega
    rw [hpower, Nat.div_div_eq_div_mul]
  rw [bigEndian, Nat.add_sub_cancel, List.range_succ, List.map_append, hlower, List.map_singleton,
    Nat.sub_self, Nat.pow_zero, Nat.div_one]

theorem bigEndian_add (high low value : Nat) :
    bigEndian (high + low) value = bigEndian high (value / 256 ^ low) ++ bigEndian low value := by
  induction low generalizing value with
  | zero => simp [bigEndian]
  | succ low ih =>
      rw [← Nat.add_assoc, bigEndian_succ, ih, bigEndian_succ, Nat.div_div_eq_div_mul,
        ← Nat.pow_succ', List.append_assoc]

/-- The bytes give the number back, as far as they go. -/
theorem bigEndianValue_bigEndian (count value : Nat) :
    bigEndianValue (bigEndian count value) = value % 256 ^ count := by
  induction count generalizing value with
  | zero => rw [Nat.pow_zero, Nat.mod_one]; rfl
  | succ count ih =>
      have hlast : ∀ (front : List UInt8) (last : UInt8),
          bigEndianValue (front ++ [last]) = 256 * bigEndianValue front + last.toNat := by
        intro front last
        rw [bigEndianValue, List.foldl_append, List.foldl_cons, List.foldl_nil, bigEndianValue]
      rw [bigEndian_succ, hlast, ih, Nat.pow_succ', Nat.mod_mul, UInt8.toNat_ofNat', Nat.add_comm]

/-- Numbers that agree so far have the same bytes. -/
theorem bigEndian_congr {count value other : Nat}
    (hsame : value % 256 ^ count = other % 256 ^ count) :
    bigEndian count value = bigEndian count other := by
  induction count generalizing value other with
  | zero => rfl
  | succ count ih =>
      rw [Nat.pow_succ', Nat.mod_mul, Nat.mod_mul] at hsame
      have hvalue := Nat.mod_lt value (by decide : 0 < 256)
      have hother := Nat.mod_lt other (by decide : 0 < 256)
      have hbyte : UInt8.ofNat value = UInt8.ofNat other := by
        rw [← UInt8.toNat_inj, UInt8.toNat_ofNat', UInt8.toNat_ofNat']
        omega
      have hhigher : value / 256 % 256 ^ count = other / 256 % 256 ^ count := by omega
      rw [bigEndian_succ, bigEndian_succ, hbyte, ih hhigher]

/-! ## Padded texts -/

theorem length_padding (length : Nat) : (padding length).length = zeroCount length + 9 := by
  rw [padding, List.length_cons, List.length_append, List.length_replicate, length_bigEndian]

/-- A padded text consists of whole blocks. -/
theorem dvd_length_padded (text : List UInt8) :
    64 ∣ (text ++ padding text.length).length := by
  rw [List.length_append, length_padding, zeroCount]
  omega

/-- No fewer zeros do. -/
theorem zeroCount_le {length zeros : Nat} (hwhole : 64 ∣ length + 1 + zeros + 8) :
    zeroCount length ≤ zeros := by
  rw [zeroCount]
  omega

theorem length_bytes (registers : Registers) : registers.bytes.length = 32 := by
  simp only [Registers.bytes, List.length_append, length_bigEndian]

theorem length_digest (text : List UInt8) : (digest text).length = 32 := length_bytes _

/-! ## Digests of different texts -/

/-- A number that has enough bytes is decided by them. -/
theorem bigEndian_inj {count value other : Nat} (hvalue : value < 256 ^ count)
    (hother : other < 256 ^ count) (hsame : bigEndian count value = bigEndian count other) :
    value = other := by
  have hvalues := congrArg bigEndianValue hsame
  rwa [bigEndianValue_bigEndian, bigEndianValue_bigEndian, Nat.mod_eq_of_lt hvalue,
    Nat.mod_eq_of_lt hother] at hvalues

theorem word_inj {word other : UInt32} (hsame : bigEndian 4 word.toNat = bigEndian 4 other.toNat) :
    word = other :=
  UInt32.toNat_inj.mp (bigEndian_inj word.toNat_lt other.toNat_lt hsame)

/-- A state is decided by its bytes. -/
theorem bytes_inj {state other : Registers} (hsame : state.bytes = other.bytes) :
    state = other := by
  have hlengths : ∀ word word' : UInt32,
      (bigEndian 4 word.toNat).length = (bigEndian 4 word'.toNat).length := by
    intro word word'
    rw [length_bigEndian, length_bigEndian]
  rw [Registers.bytes, Registers.bytes] at hsame
  obtain ⟨hsame, hh⟩ := List.append_inj' hsame (hlengths _ _)
  obtain ⟨hsame, hg⟩ := List.append_inj' hsame (hlengths _ _)
  obtain ⟨hsame, hf⟩ := List.append_inj' hsame (hlengths _ _)
  obtain ⟨hsame, he⟩ := List.append_inj' hsame (hlengths _ _)
  obtain ⟨hsame, hd⟩ := List.append_inj' hsame (hlengths _ _)
  obtain ⟨hsame, hc⟩ := List.append_inj' hsame (hlengths _ _)
  obtain ⟨ha, hb⟩ := List.append_inj' hsame (hlengths _ _)
  exact Registers.ext (word_inj ha) (word_inj hb) (word_inj hc) (word_inj hd) (word_inj he)
    (word_inj hf) (word_inj hg) (word_inj hh)

/-- A padded text up to its last block, which ends with the length. -/
theorem padded_blocks (text : List UInt8) :
    ∃ front block, text ++ padding text.length = front ++ block ∧ 64 ∣ front.length ∧
      block.length = 64 ∧ block.drop 56 = bigEndian 8 (8 * text.length) := by
  obtain ⟨count, hcount⟩ := dvd_length_padded text
  have hlength : (text ++ padding text.length).length =
      text.length + zeroCount text.length + 9 := by
    rw [List.length_append, length_padding, Nat.add_assoc]
  refine ⟨(text ++ padding text.length).take (64 * (count - 1)),
    (text ++ padding text.length).drop (64 * (count - 1)), (List.take_append_drop _ _).symm,
    ⟨count - 1, List.length_take_of_le (by omega)⟩, by rw [List.length_drop]; omega, ?_⟩
  have hend : (text ++ 128 :: List.replicate (zeroCount text.length) 0).length =
      64 * (count - 1) + 56 := by
    rw [List.length_append, List.length_cons, List.length_replicate]
    omega
  have htext : text ++ padding text.length =
      (text ++ 128 :: List.replicate (zeroCount text.length) 0) ++
        bigEndian 8 (8 * text.length) := by
    rw [List.append_assoc, List.cons_append, padding]
  rw [List.drop_drop, htext, ← hend, List.drop_left]

/-- Different texts with the same digest collide on the way. -/
theorem collide_of_digest {first second : List UInt8} (hfirst : first.length < 2 ^ 61)
    (hsecond : second.length < 2 ^ 61) (hne : first ≠ second)
    (hsame : digest first = digest second) :
    Collide compress 64 initialState (first ++ padding first.length)
      (second ++ padding second.length) := by
  have hstates := bytes_inj hsame
  by_cases hlength : first.length = second.length
  · refine collide_of_length (by decide) (dvd_length_padded first) ?_ ?_ hstates
    · rw [List.length_append, List.length_append, hlength]
    · rw [← hlength]
      exact fun htexts => hne (List.append_cancel_right htexts)
  · obtain ⟨front, block, htext, hfront, hblock, hend⟩ := padded_blocks first
    obtain ⟨front', block', htext', hfront', hblock', hend'⟩ := padded_blocks second
    rw [htext, htext'] at hstates ⊢
    refine collide_of_last (by decide) hfront hfront' hblock hblock' ?_ hstates
    intro hinputs
    rw [(Prod.mk.inj hinputs).2] at hend
    have hbits := bigEndian_inj (by omega) (by omega) (hend.symm.trans hend')
    omega

end EnosDeviceSdk.Infra.Sha256
