/-
# The digests of the SDK

A context keeps the state, the bytes that wait for their block, and the number of bytes that it
was given, in two words. A block is processed with the words of the schedule computed between the
rounds, and with the bit functions in forms that need fewer operations.

The registers are renamed once in a round, and a round writes two of them.
-/

import EnosDeviceSdk.Infra.Sha256Standard
import EnosDeviceSdk.Library.Reading

namespace EnosDeviceSdk.Infra

open EnosDeviceSdk.Library Sha256

/-- `iot_sha256_context` -/
structure IotSha256Context where
  total : UInt32 × UInt32
  state : Registers
  buffer : List UInt8
  is224 : Int
  deriving DecidableEq

/-- A context of zeros. -/
def IotSha256Context.zero : IotSha256Context where
  total := (0, 0)
  state := ⟨0, 0, 0, 0, 0, 0, 0, 0⟩
  buffer := List.replicate 64 0
  is224 := 0

/-- `utils_sha256_init`, whatever the context was. -/
def utilsSha256Init (_ : IotSha256Context) : IotSha256Context := .zero

/-- `utils_sha256_free` -/
def utilsSha256Free (_ : IotSha256Context) : IotSha256Context := .zero

/-- `utils_sha256_starts` -/
def utilsSha256Starts (ctx : IotSha256Context) : IotSha256Context :=
  { ctx with
    total := (0, 0)
    state :=
      { a := 0x6A09E667
        b := 0xBB67AE85
        c := 0x3C6EF372
        d := 0xA54FF53A
        e := 0x510E527F
        f := 0x9B05688C
        g := 0x1F83D9AB
        h := 0x5BE0CD19 }
    is224 := 0 }

/-- `K` -/
def kTable : List UInt32 :=
  [0x428A2F98, 0x71374491, 0xB5C0FBCF, 0xE9B5DBA5,
    0x3956C25B, 0x59F111F1, 0x923F82A4, 0xAB1C5ED5,
    0xD807AA98, 0x12835B01, 0x243185BE, 0x550C7DC3,
    0x72BE5D74, 0x80DEB1FE, 0x9BDC06A7, 0xC19BF174,
    0xE49B69C1, 0xEFBE4786, 0x0FC19DC6, 0x240CA1CC,
    0x2DE92C6F, 0x4A7484AA, 0x5CB0A9DC, 0x76F988DA,
    0x983E5152, 0xA831C66D, 0xB00327C8, 0xBF597FC7,
    0xC6E00BF3, 0xD5A79147, 0x06CA6351, 0x14292967,
    0x27B70A85, 0x2E1B2138, 0x4D2C6DFC, 0x53380D13,
    0x650A7354, 0x766A0ABB, 0x81C2C92E, 0x92722C85,
    0xA2BFE8A1, 0xA81A664B, 0xC24B8B70, 0xC76C51A3,
    0xD192E819, 0xD6990624, 0xF40E3585, 0x106AA070,
    0x19A4C116, 0x1E376C08, 0x2748774C, 0x34B0BCB5,
    0x391C0CB3, 0x4ED8AA4A, 0x5B9CCA4F, 0x682E6FF3,
    0x748F82EE, 0x78A5636F, 0x84C87814, 0x8CC70208,
    0x90BEFFFA, 0xA4506CEB, 0xBEF9A3F7, 0xC67178F2]

/-! ## Macros -/

/-- `GET_UINT32_BE` -/
def getUint32Be (b : List UInt8) (i : Nat) : UInt32 :=
  (b.getD i 0).toUInt32 <<< 24 ||| (b.getD (i + 1) 0).toUInt32 <<< 16 |||
    (b.getD (i + 2) 0).toUInt32 <<< 8 ||| (b.getD (i + 3) 0).toUInt32

/-- `PUT_UINT32_BE`: the bytes that it writes. -/
def putUint32Be (n : UInt32) : List UInt8 :=
  [(n >>> 24).toUInt8, (n >>> 16).toUInt8, (n >>> 8).toUInt8, n.toUInt8]

/-- `SHR` -/
def shr (x n : UInt32) : UInt32 := (x &&& 0xFFFFFFFF) >>> n

/-- `ROTR` -/
def rotrMacro (x n : UInt32) : UInt32 := shr x n ||| x <<< (32 - n)

/-- `S0` -/
def s0 (x : UInt32) : UInt32 := rotrMacro x 7 ^^^ rotrMacro x 18 ^^^ shr x 3

/-- `S1` -/
def s1 (x : UInt32) : UInt32 := rotrMacro x 17 ^^^ rotrMacro x 19 ^^^ shr x 10

/-- `S2` -/
def s2 (x : UInt32) : UInt32 := rotrMacro x 2 ^^^ rotrMacro x 13 ^^^ rotrMacro x 22

/-- `S3` -/
def s3 (x : UInt32) : UInt32 := rotrMacro x 6 ^^^ rotrMacro x 11 ^^^ rotrMacro x 25

/-- `F0` -/
def f0 (x y z : UInt32) : UInt32 := (x &&& y) ||| (z &&& (x ||| y))

/-- `F1` -/
def f1 (x y z : UInt32) : UInt32 := z ^^^ (x &&& (y ^^^ z))

/-- `R`: the next word of the schedule. -/
def rMacro (w : List UInt32) (t : Nat) : UInt32 :=
  s1 (w.getD (t - 2) 0) + w.getD (t - 7) 0 + s0 (w.getD (t - 15) 0) + w.getD (t - 16) 0

/-- `P`, which writes the fourth register and the eighth. -/
def pMacro (A : Registers) (x k : UInt32) : Registers :=
  let temp1 := A.h + s3 A.e + f1 A.e A.f A.g + k + x
  let temp2 := s2 A.a + f0 A.a A.b A.c
  { A with d := A.d + temp1, h := temp1 + temp2 }

/-- The registers are renamed. -/
def rotateRegisters (A : Registers) : Registers := ⟨A.h, A.a, A.b, A.c, A.d, A.e, A.f, A.g⟩

/-! ## Blocks -/

/-- A turn of the loop of `utils_sha256_process`. -/
def processRound (data : List UInt8) (wA : List UInt32 × Registers) (i : Nat) :
    List UInt32 × Registers :=
  let word := if i < 16 then getUint32Be data (4 * i) else rMacro wA.1 i
  (wA.1 ++ [word], rotateRegisters (pMacro wA.2 word (kTable.getD i 0)))

/-- `utils_sha256_process`. It reads sixty-four bytes. -/
def utilsSha256Process (ctx : IotSha256Context) (data : List UInt8) : Outcome IotSha256Context :=
  if data.length < 64 then .stray
  else
    let wA := (List.range 64).foldl (processRound data) ([], ctx.state)
    .ok { ctx with state := ctx.state.add wA.2 }

/-- `memcpy` to a place of the buffer. Bytes that do not fit go astray. -/
def copyToBuffer (ctx : IotSha256Context) (left : Nat) (input : List UInt8) :
    Outcome IotSha256Context :=
  if left + input.length ≤ ctx.buffer.length then
    .ok { ctx with
      buffer := ctx.buffer.take left ++ input ++ ctx.buffer.drop (left + input.length) }
  else .stray

/-- The loop over the whole blocks of an input, with what is left of it. -/
def processBlocks : Nat → IotSha256Context → List UInt8 →
    Outcome (IotSha256Context × List UInt8)
  | 0, _, _ => .running
  | fuel + 1, ctx, input =>
      if input.length < 64 then .ok (ctx, input)
      else do
        let ctx ← utilsSha256Process ctx input
        processBlocks fuel ctx (input.drop 64)

/-- What is left of an input waits in the buffer. -/
def takeInput (ctx : IotSha256Context) (left : Nat) (input : List UInt8) :
    Outcome IotSha256Context := do
  let (ctx, input) ← processBlocks (input.length + 1) ctx input
  if input.length > 0 then copyToBuffer ctx left input else return ctx

/-- `utils_sha256_update`. The input has `ilen` bytes. -/
def utilsSha256Update (ctx : IotSha256Context) (input : List UInt8) : Outcome IotSha256Context :=
  let ilen : UInt32 := .ofNat input.length
  if ilen = 0 then .ok ctx
  else
    let left := (ctx.total.1 &&& 0x3F).toNat
    let fill := 64 - left
    let low := (ctx.total.1 + ilen) &&& 0xFFFFFFFF
    let high := if low < ilen then ctx.total.2 + 1 else ctx.total.2
    let ctx := { ctx with total := (low, high) }
    if left ≠ 0 ∧ input.length ≥ fill then do
      let ctx ← copyToBuffer ctx left (input.take fill)
      let ctx ← utilsSha256Process ctx ctx.buffer
      takeInput ctx 0 (input.drop fill)
    else takeInput ctx left input

/-- `sha256_padding` -/
def sha256Padding : List UInt8 := 0x80 :: List.replicate 63 0

/-- `utils_sha256_finish`: the context and the bytes of the output, which go astray if it has no
room for them. -/
def utilsSha256Finish (ctx : IotSha256Context) (output : List UInt8) :
    Outcome (IotSha256Context × List UInt8) := do
  let high := ctx.total.1 >>> 29 ||| ctx.total.2 <<< 3
  let low := ctx.total.1 <<< 3
  let msglen := putUint32Be high ++ putUint32Be low
  let last := ctx.total.1 &&& 0x3F
  let padn := if last < 56 then 56 - last else 120 - last
  let ctx ← utilsSha256Update ctx (sha256Padding.take padn.toNat)
  let ctx ← utilsSha256Update ctx msglen
  let digest := putUint32Be ctx.state.a ++ putUint32Be ctx.state.b ++ putUint32Be ctx.state.c ++
    putUint32Be ctx.state.d ++ putUint32Be ctx.state.e ++ putUint32Be ctx.state.f ++
    putUint32Be ctx.state.g
  let digest := if ctx.is224 = 0 then digest ++ putUint32Be ctx.state.h else digest
  if output.length < digest.length then .stray
  else return (ctx, digest ++ output.drop digest.length)

/-- The updates that a caller makes. -/
def utilsSha256Updates (ctx : IotSha256Context) (inputs : List (List UInt8)) :
    Outcome IotSha256Context :=
  inputs.foldlM utilsSha256Update ctx

/-- What a caller does that has its text in pieces. -/
def sha256Session (stack : IotSha256Context) (inputs : List (List UInt8)) (output : List UInt8) :
    Outcome (IotSha256Context × List UInt8) := do
  let ctx ← utilsSha256Updates (utilsSha256Starts (utilsSha256Init stack)) inputs
  utilsSha256Finish ctx output

/-- `utils_sha256`: the output, and the context that is left on the stack. -/
def utilsSha256 (stack : IotSha256Context) (input output : List UInt8) :
    Outcome (IotSha256Context × List UInt8) := do
  let ctx := utilsSha256Starts (utilsSha256Init stack)
  let ctx ← utilsSha256Update ctx input
  let (ctx, output) ← utilsSha256Finish ctx output
  return (utilsSha256Free ctx, output)

/-- `SHA256_KEY_IOPAD_SIZE` -/
def sha256KeyIopadSize : Nat := 64

/-- `SHA256_DIGEST_SIZE` -/
def sha256DigestSize : Nat := 32

/-- `utils_hmac_sha256`: the output. A message, a key or an output may be missing. -/
def utilsHmacSha256 (stack : IotSha256Context) (msg key output : Option (List UInt8)) :
    Outcome (Option (List UInt8)) :=
  match msg, key, output with
  | some msg, some key, some output =>
      if key.length > sha256KeyIopadSize then .ok (some output)
      else do
        let pad := key ++ List.replicate (sha256KeyIopadSize - key.length) 0
        let kIpad := pad.map (· ^^^ 0x36)
        let kOpad := pad.map (· ^^^ 0x5c)
        let ctx := utilsSha256Starts (utilsSha256Init stack)
        let ctx ← utilsSha256Update ctx kIpad
        let ctx ← utilsSha256Update ctx msg
        let (ctx, output) ← utilsSha256Finish ctx output
        let ctx := utilsSha256Starts (utilsSha256Init ctx)
        let ctx ← utilsSha256Update ctx kOpad
        let ctx ← utilsSha256Update ctx (output.take sha256DigestSize)
        let (_, output) ← utilsSha256Finish ctx output
        return some output
  | _, _, output => .ok output

/-! ## Words -/

theorem shr_eq (x n : UInt32) : shr x n = x >>> n := by
  have hall : x &&& 0xFFFFFFFF = x := by
    apply UInt32.toBitVec_inj.mp
    exact BitVec.and_allOnes
  rw [shr, hall]

/-- The macro rotates a word by places that are not all of it. -/
theorem rotrMacro_eq {places : Nat} (hsome : 0 < places) (hfew : places < 32) (x : UInt32) :
    rotrMacro x (.ofNat places) = rotr x places := by
  have hrest : 32 - UInt32.ofNat places = UInt32.ofNat (32 - places) :=
    (UInt32.ofNat_sub (Nat.le_of_lt hfew)).symm
  rw [rotrMacro, shr_eq, hrest, rotr, BitVec.rotateRight_def, Nat.mod_eq_of_lt hfew,
    UInt32.ofBitVec_or, UInt32.ofBitVec_shiftRight _ _ hfew,
    UInt32.ofBitVec_shiftLeft _ _ (by omega)]

theorem f0_eq (x y z : UInt32) : f0 x y z = maj x y z := by
  apply UInt32.toBitVec_inj.mp
  apply BitVec.eq_of_getLsbD_eq
  intro place hplace
  simp only [f0, maj, UInt32.toBitVec_or, UInt32.toBitVec_and, UInt32.toBitVec_xor,
    BitVec.getLsbD_or, BitVec.getLsbD_and, BitVec.getLsbD_xor]
  cases x.toBitVec.getLsbD place <;> cases y.toBitVec.getLsbD place <;>
    cases z.toBitVec.getLsbD place <;> rfl

theorem f1_eq (x y z : UInt32) : f1 x y z = ch x y z := by
  apply UInt32.toBitVec_inj.mp
  apply BitVec.eq_of_getLsbD_eq
  intro place hplace
  simp only [f1, ch, UInt32.toBitVec_and, UInt32.toBitVec_xor, UInt32.toBitVec_not,
    BitVec.getLsbD_and, BitVec.getLsbD_xor, BitVec.getLsbD_not, hplace]
  cases x.toBitVec.getLsbD place <;> cases y.toBitVec.getLsbD place <;>
    cases z.toBitVec.getLsbD place <;> rfl

theorem s0_eq (x : UInt32) : s0 x = smallSigma0 x := by
  rw [s0, smallSigma0, shr_eq]
  exact congrArg₂ (fun first second => first ^^^ second ^^^ x >>> 3)
    (@rotrMacro_eq 7 (by decide) (by decide) x) (@rotrMacro_eq 18 (by decide) (by decide) x)

theorem s1_eq (x : UInt32) : s1 x = smallSigma1 x := by
  rw [s1, smallSigma1, shr_eq]
  exact congrArg₂ (fun first second => first ^^^ second ^^^ x >>> 10)
    (@rotrMacro_eq 17 (by decide) (by decide) x) (@rotrMacro_eq 19 (by decide) (by decide) x)

theorem s2_eq (x : UInt32) : s2 x = bigSigma0 x :=
  congrArg₂ (· ^^^ ·) (congrArg₂ (· ^^^ ·) (@rotrMacro_eq 2 (by decide) (by decide) x)
    (@rotrMacro_eq 13 (by decide) (by decide) x)) (@rotrMacro_eq 22 (by decide) (by decide) x)

theorem s3_eq (x : UInt32) : s3 x = bigSigma1 x :=
  congrArg₂ (· ^^^ ·) (congrArg₂ (· ^^^ ·) (@rotrMacro_eq 6 (by decide) (by decide) x)
    (@rotrMacro_eq 11 (by decide) (by decide) x)) (@rotrMacro_eq 25 (by decide) (by decide) x)

theorem toNat_shifted (byte : UInt8) {places : Nat} (hplaces : places ≤ 24) :
    (byte.toUInt32 <<< UInt32.ofNat places).toNat = byte.toNat <<< places := by
  have hbyte := byte.toNat_lt
  have hfew : (UInt32.ofNat places).toNat % 32 = places := by
    rw [UInt32.toNat_ofNat_of_lt' (Nat.lt_of_le_of_lt hplaces (by decide))]
    omega
  have hshort : byte.toNat <<< places < 2 ^ 32 :=
    calc byte.toNat <<< places = byte.toNat * 2 ^ places := Nat.shiftLeft_eq ..
      _ ≤ byte.toNat * 2 ^ 24 := Nat.mul_le_mul_left _ (Nat.pow_le_pow_right (by decide) hplaces)
      _ < 2 ^ 32 := by omega
  rw [UInt32.toNat_shiftLeft, UInt8.toNat_toUInt32, hfew, Nat.mod_eq_of_lt hshort]

/-- Shifted bytes do not overlap. -/
theorem shifted_bytes (first second third fourth : UInt8) :
    first.toUInt32 <<< 24 ||| second.toUInt32 <<< 16 ||| third.toUInt32 <<< 8 |||
        fourth.toUInt32 =
      .ofNat (bigEndianValue [first, second, third, fourth]) := by
  have hfirst := first.toNat_lt
  have hsecond := second.toNat_lt
  have hthird := third.toNat_lt
  have hfourth := fourth.toNat_lt
  have hvalue : bigEndianValue [first, second, third, fourth] =
      first.toNat * 2 ^ 24 + (second.toNat * 2 ^ 16 + (third.toNat * 2 ^ 8 + fourth.toNat)) := by
    simp only [bigEndianValue, List.foldl_cons, List.foldl_nil]
    omega
  have hword : bigEndianValue [first, second, third, fourth] < 2 ^ 32 := by omega
  apply UInt32.toNat_inj.mp
  rw [UInt32.toNat_or, UInt32.toNat_or, UInt32.toNat_or, UInt8.toNat_toUInt32, Nat.or_assoc,
    Nat.or_assoc, UInt32.toNat_ofNat_of_lt' hword, hvalue]
  have hshiftFirst := @toNat_shifted first 24 (by decide)
  have hshiftSecond := @toNat_shifted second 16 (by decide)
  have hshiftThird := @toNat_shifted third 8 (by decide)
  refine (congrArg₂ (· ||| ·) hshiftFirst (congrArg₂ (· ||| ·) hshiftSecond
    (congrArg (· ||| fourth.toNat) hshiftThird))).trans ?_
  have hor : ∀ high low places : Nat, low < 2 ^ places →
      high <<< places ||| low = high * 2 ^ places + low := by
    intro high low places hlow
    rw [← Nat.shiftLeft_add_eq_or_of_lt hlow, Nat.shiftLeft_eq]
  rw [hor _ _ 8 hfourth, hor _ _ 16 (by omega), hor _ _ 24 (by omega)]

theorem getUint32Be_eq {b : List UInt8} {i : Nat} (hroom : i + 4 ≤ b.length) :
    getUint32Be b i = .ofNat (bigEndianValue ((b.drop i).take 4)) := by
  have hat : ∀ place, place < 4 → ∃ byte, b.getD (i + place) 0 = byte ∧
      (b.drop i)[place]? = some byte := by
    intro place hplace
    refine ⟨_, rfl, ?_⟩
    rw [List.getElem?_drop, List.getD_eq_getElem?_getD, List.getElem?_eq_getElem (by omega)]
    rfl
  obtain ⟨first, hfirst, hfirst'⟩ := hat 0 (by decide)
  obtain ⟨second, hsecond, hsecond'⟩ := hat 1 (by decide)
  obtain ⟨third, hthird, hthird'⟩ := hat 2 (by decide)
  obtain ⟨fourth, hfourth, hfourth'⟩ := hat 3 (by decide)
  have hbytes : (b.drop i).take 4 = [first, second, third, fourth] := by
    simp [List.take_add_one, hfirst', hsecond', hthird', hfourth']
  rw [Nat.add_zero] at hfirst
  rw [getUint32Be, hfirst, hsecond, hthird, hfourth, hbytes, shifted_bytes]

/-- The bytes of a word. -/
theorem putUint32Be_eq (n : UInt32) : putUint32Be n = bigEndian 4 n.toNat := by
  have hbyte : ∀ places : UInt32,
      (n >>> places).toUInt8 = UInt8.ofNat (n.toNat / 2 ^ (places.toNat % 32)) := by
    intro places
    rw [← UInt8.ofNat_uInt32ToNat, UInt32.toNat_shiftRight, Nat.shiftRight_eq_div_pow]
  have hlast : n.toUInt8 = UInt8.ofNat (n.toNat / 256 ^ 0) := by
    rw [Nat.pow_zero, Nat.div_one, UInt8.ofNat_uInt32ToNat]
  rw [putUint32Be, hbyte, hbyte, hbyte, hlast]
  rfl

/-- The table has the constants of the standard. -/
theorem kTable_eq : kTable = roundConstants := by decide +kernel

theorem utilsSha256Starts_state (ctx : IotSha256Context) :
    (utilsSha256Starts ctx).state = initialState := by
  have hstate : (utilsSha256Starts .zero).state = initialState := by decide +kernel
  exact hstate

/-! ## Blocks against the standard -/

/-- A turn of the loop is a round. -/
theorem rotate_pMacro (A : Registers) (x k : UInt32) :
    rotateRegisters (pMacro A x k) = A.step x k := by
  simp only [rotateRegisters, pMacro, Registers.step, s2_eq, s3_eq, f0_eq, f1_eq]

theorem processRounds {data : List UInt8} (hdata : 64 ≤ data.length) (state : Registers)
    {count : Nat} (hcount : count ≤ 64) :
    (List.range count).foldl (processRound data) ([], state) =
      ((List.range count).map (schedule (data.take 64)), rounds (data.take 64) state count) := by
  induction count with
  | zero => rfl
  | succ count ih =>
      have hword : (if count < 16 then getUint32Be data (4 * count)
          else rMacro ((List.range count).map (schedule (data.take 64))) count) =
            schedule (data.take 64) count := by
        rw [schedule]
        split
        next hearly =>
          rw [getUint32Be_eq (by omega), List.drop_take, List.take_take,
            Nat.min_eq_left (by omega)]
        next hlate =>
          have hat : ∀ back, 0 < back → back ≤ 16 → ((List.range count).map
              (schedule (data.take 64))).getD (count - back) 0 =
                schedule (data.take 64) (count - back) := by
            intro back hsome hback
            have hless : count - back < count := by omega
            simp [List.getD_eq_getElem?_getD, List.getElem?_range hless]
          rw [rMacro, s0_eq, s1_eq, hat 2 (by decide) (by decide), hat 7 (by decide) (by decide),
            hat 15 (by decide) (by decide), hat 16 (by decide) (by decide)]
      rw [List.range_succ, List.foldl_append, ih (by omega), List.foldl_cons, List.foldl_nil,
        processRound, hword, rotate_pMacro, List.map_append, kTable_eq, rounds]
      rfl

theorem Registers.add_comm (first second : Registers) : first.add second = second.add first := by
  simp only [Registers.add, UInt32.add_comm]

/-- The first block of what is read is folded into the state. -/
theorem utilsSha256Process_eq {data : List UInt8} (hdata : 64 ≤ data.length)
    (ctx : IotSha256Context) :
    utilsSha256Process ctx data =
      .ok { ctx with state := compress ctx.state (data.take 64) } := by
  rw [utilsSha256Process, if_neg (Nat.not_lt.mpr hdata),
    processRounds hdata ctx.state (Nat.le_refl 64), compress, Registers.add_comm]

end EnosDeviceSdk.Infra
