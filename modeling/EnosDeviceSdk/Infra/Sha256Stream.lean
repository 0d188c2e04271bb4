/-
# Digests of texts that come in pieces

However a text is cut into the inputs of the updates, the context holds the state behind its whole
blocks, the bytes that wait, and its length. So the output is the digest of the whole text, and the
two passes of an authentication code are the digests of its two texts.

Different texts with the same digest contain a collision of the compression.
-/

import EnosDeviceSdk.Infra.Sha256

namespace EnosDeviceSdk.Infra

open EnosDeviceSdk.Library Sha256

/-- The context was given the text. -/
structure IotSha256Context.Holds (ctx : IotSha256Context) (text : List UInt8) : Prop where
  total : ctx.total.2.toNat * 2 ^ 32 + ctx.total.1.toNat = text.length % 2 ^ 64
  state : ctx.state = absorb compress 64 initialState text
  waiting : ctx.buffer.take (text.length % 64) = waiting 64 text
  buffer : ctx.buffer.length = 64
  is224 : ctx.is224 = 0

/-- A context that was started was given nothing. -/
theorem holds_starts (stack : IotSha256Context) :
    (utilsSha256Starts (utilsSha256Init stack)).Holds [] where
  total := by simp [utilsSha256Starts]
  state := utilsSha256Starts_state _
  waiting := by simp [Library.waiting]
  buffer := List.length_replicate
  is224 := rfl

/-! ## The loop over the blocks -/

/-- The loop folds the whole blocks of what it is given into the state, and leaves what waits. -/
theorem processBlocks_eq {input : List UInt8} {fuel : Nat} (hfuel : input.length < fuel)
    (ctx : IotSha256Context) :
    processBlocks fuel ctx input =
      .ok ({ ctx with state := absorb compress 64 ctx.state input }, waiting 64 input) := by
  induction fuel generalizing ctx input with
  | zero => exact absurd hfuel (Nat.not_lt_zero _)
  | succ fuel ih =>
      rw [processBlocks]
      split
      next hshort => rw [absorb_of_short hshort, waiting_of_short hshort]
      next hlong =>
        rw [Nat.not_lt] at hlong
        have hblock : (input.take 64).length = 64 := List.length_take_of_le hlong
        have hfirst := @absorb_block _ _ compress _ _ hblock (by decide) ctx.state (input.drop 64)
        have hrest := @waiting_block _ _ _ hblock (by decide) (input.drop 64)
        rw [List.take_append_drop] at hfirst hrest
        rw [utilsSha256Process_eq hlong, Outcome.ok_bind, ih (by rw [List.length_drop]; omega),
          hfirst, hrest]

theorem takeInput_eq {ctx : IotSha256Context} {left : Nat} {input : List UInt8}
    (hbuffer : ctx.buffer.length = 64) (hleft : left + (waiting 64 input).length ≤ 64) :
    takeInput ctx left input =
      .ok { ctx with
        state := absorb compress 64 ctx.state input
        buffer := ctx.buffer.take left ++ waiting 64 input ++
          ctx.buffer.drop (left + (waiting 64 input).length) } := by
  rw [takeInput, processBlocks_eq (Nat.lt_succ_self _), Outcome.ok_bind]
  dsimp only
  split
  next hsome => rw [copyToBuffer, if_pos (by rw [hbuffer]; exact hleft)]
  next hnone =>
    have hempty : waiting 64 input = [] := List.length_eq_zero_iff.mp (by omega)
    rw [hempty, List.append_nil, List.length_nil, Nat.add_zero, List.take_append_drop]
    rfl

/-! ## Updates -/

/-- A sum of two words that wraps is carried into the higher word. -/
theorem carry_eq {low high more length : Nat} (hlow : low < 2 ^ 32) (hhigh : high < 2 ^ 32)
    (hmore : more < 2 ^ 32) (htotal : high * 2 ^ 32 + low = length % 2 ^ 64) :
    (if (low + more) % 2 ^ 32 < more then (high + 1) % 2 ^ 32 else high) * 2 ^ 32 +
      (low + more) % 2 ^ 32 = (length + more) % 2 ^ 64 := by
  have hsum : (length + more) % 2 ^ 64 = (high * 2 ^ 32 + (low + more)) % (2 ^ 32 * 2 ^ 32) := by
    rw [← Nat.add_assoc, htotal, ← Nat.pow_add, Nat.mod_add_mod]
  have hlowest : (high * 2 ^ 32 + (low + more)) % 2 ^ 32 = (low + more) % 2 ^ 32 :=
    Nat.mul_add_mod_self_right ..
  have hhighest : (high * 2 ^ 32 + (low + more)) / 2 ^ 32 = high + (low + more) / 2 ^ 32 := by
    rw [Nat.mul_comm, Nat.mul_add_div (by decide)]
  clear htotal
  rw [hsum, Nat.mod_mul, hlowest, hhighest, Nat.mul_comm (2 ^ 32), Nat.add_comm]
  split
  next hwraps =>
    have hcarry : (low + more) / 2 ^ 32 = 1 := by omega
    rw [hcarry]
  next hfits =>
    have hnone : (low + more) / 2 ^ 32 = 0 := by omega
    rw [hnone, Nat.add_zero, Nat.mod_eq_of_lt hhigh]

/-- The number of bytes goes on in both words. -/
theorem total_add {low high : UInt32} {length more : Nat} (hmore : more < 2 ^ 32)
    (htotal : high.toNat * 2 ^ 32 + low.toNat = length % 2 ^ 64) :
    (if low + .ofNat more < .ofNat more then high + 1 else high).toNat * 2 ^ 32 +
      (low + .ofNat more).toNat = (length + more) % 2 ^ 64 := by
  have hilen : (UInt32.ofNat more).toNat = more := UInt32.toNat_ofNat_of_lt' hmore
  have hsum : (low + UInt32.ofNat more).toNat = (low.toNat + more) % 2 ^ 32 := by
    rw [UInt32.toNat_add, hilen]
  have hnext : (high + 1).toNat = (high.toNat + 1) % 2 ^ 32 := UInt32.toNat_add ..
  have hcarry : low + UInt32.ofNat more < UInt32.ofNat more ↔
      (low.toNat + more) % 2 ^ 32 < more := by
    rw [UInt32.lt_iff_toNat_lt, hsum, hilen]
  rw [apply_ite UInt32.toNat, hnext, if_congr hcarry rfl rfl, hsum]
  exact carry_eq low.toNat_lt high.toNat_lt hmore htotal

/-- The bytes that wait are as many as the lowest bits say. -/
theorem left_eq {low high : UInt32} {length : Nat}
    (htotal : high.toNat * 2 ^ 32 + low.toNat = length % 2 ^ 64) :
    (low &&& 0x3F).toNat = length % 64 := by
  have hbits : (low &&& 0x3F).toNat = low.toNat % 64 := by
    rw [UInt32.toNat_and]
    exact Nat.and_two_pow_sub_one_eq_mod _ 6
  omega

/-- What the buffer begins with waits, if it has the right length. -/
theorem take_waiting {text front rest : List UInt8} (hfront : front = waiting 64 text) :
    (front ++ rest).take (text.length % 64) = waiting 64 text := by
  rw [hfront, ← length_waiting, List.take_left]

section Update

variable {ctx : IotSha256Context} {text input : List UInt8}

/-- What waits is filled up to a block, and what comes behind it goes on from there. -/
theorem filled_holds (hholds : ctx.Holds text) {total : UInt32 × UInt32}
    (htotal : total.2.toNat * 2 ^ 32 + total.1.toNat = (text ++ input).length % 2 ^ 64)
    (hfill : 64 - text.length % 64 ≤ input.length) :
    ∃ ctx', (do
        let ctx ← copyToBuffer { ctx with total } (text.length % 64)
          (input.take (64 - text.length % 64))
        let ctx ← utilsSha256Process ctx ctx.buffer
        takeInput ctx 0 (input.drop (64 - text.length % 64))) = .ok ctx' ∧
      ctx'.Holds (text ++ input) := by
  have hfew : text.length % 64 < 64 := Nat.mod_lt _ (by decide)
  have hinput : (input.take (64 - text.length % 64)).length = 64 - text.length % 64 :=
    List.length_take_of_le hfill
  have hblock : (waiting 64 text ++ input.take (64 - text.length % 64)).length = 64 := by
    rw [List.length_append, length_waiting, hinput]
    omega
  have hrest : (waiting 64 (input.drop (64 - text.length % 64))).length < 64 := by
    rw [length_waiting]
    exact Nat.mod_lt _ (by decide)
  have hwhole := @absorb_append _ _ compress 64 (by decide) initialState text input
  have hjoin : waiting 64 text ++ input = waiting 64 text ++ input.take (64 - text.length % 64) ++
      input.drop (64 - text.length % 64) := by
    rw [List.append_assoc, List.take_append_drop]
  rw [hjoin, absorb_block hblock (by decide), waiting_block hblock (by decide)] at hwhole
  have hroom : text.length % 64 + (input.take (64 - text.length % 64)).length ≤ 64 := by omega
  rw [copyToBuffer, hholds.buffer, if_pos hroom, Outcome.ok_bind]
  dsimp only
  rw [hholds.waiting, List.drop_eq_nil_of_le (by rw [hholds.buffer]; omega), List.append_nil,
    utilsSha256Process_eq (Nat.le_of_eq hblock.symm), Outcome.ok_bind,
    List.take_of_length_le (Nat.le_of_eq hblock), takeInput_eq hblock (by omega)]
  refine ⟨_, rfl, htotal, ?_, ?_, ?_, hholds.is224⟩
  · rw [hwhole.1, hholds.state]
  · rw [List.take_zero, List.nil_append]
    exact take_waiting hwhole.2.symm
  · dsimp only
    rw [List.take_zero, List.nil_append, List.length_append, List.length_drop, hblock]
    omega

/-- What does not fill the buffer goes on behind what waits. -/
theorem unfilled_holds (hholds : ctx.Holds text) {total : UInt32 × UInt32}
    (htotal : total.2.toNat * 2 ^ 32 + total.1.toNat = (text ++ input).length % 2 ^ 64)
    (hfill : text.length % 64 = 0 ∨ input.length < 64 - text.length % 64) :
    ∃ ctx', takeInput { ctx with total } (text.length % 64) input = .ok ctx' ∧
      ctx'.Holds (text ++ input) := by
  have hwhole := @absorb_append _ _ compress 64 (by decide) initialState text input
  have hmost : (waiting 64 input).length < 64 := by
    rw [length_waiting]
    exact Nat.mod_lt _ (by decide)
  have hgoes : absorb compress 64 ctx.state (waiting 64 text ++ input) =
        absorb compress 64 ctx.state input ∧
      waiting 64 (waiting 64 text ++ input) = waiting 64 text ++ waiting 64 input ∧
      text.length % 64 + (waiting 64 input).length ≤ 64 := by
    rcases hfill with hnone | hshort
    · rw [waiting_of_dvd (Nat.dvd_of_mod_eq_zero hnone), List.nil_append, List.nil_append, hnone]
      exact ⟨rfl, rfl, by omega⟩
    · have hjoined : (waiting 64 text ++ input).length < 64 := by
        rw [List.length_append, length_waiting]
        omega
      have hinput : input.length < 64 := by omega
      rw [absorb_of_short hjoined, waiting_of_short hjoined, absorb_of_short hinput,
        waiting_of_short hinput]
      exact ⟨rfl, rfl, by omega⟩
  rw [@takeInput_eq { ctx with total } _ _ hholds.buffer hgoes.2.2]
  refine ⟨_, rfl, htotal, ?_, ?_, ?_, hholds.is224⟩
  · rw [hwhole.1, ← hholds.state, hgoes.1]
  · dsimp only
    rw [hholds.waiting, take_waiting (hgoes.2.1.symm.trans hwhole.2.symm)]
  · dsimp only
    rw [hholds.waiting, List.length_append, List.length_append, List.length_drop, hholds.buffer,
      length_waiting]
    omega

/-- An update gives the context the input, and writes nothing beside the buffer. -/
theorem utilsSha256Update_holds (hholds : ctx.Holds text) (hinput : input.length < 2 ^ 32) :
    ∃ ctx', utilsSha256Update ctx input = .ok ctx' ∧ ctx'.Holds (text ++ input) := by
  have hleft := left_eq hholds.total
  have htotal := total_add hinput hholds.total
  rw [← List.length_append] at htotal
  have hall : ∀ word : UInt32, word &&& 0xFFFFFFFF = word := fun word =>
    UInt32.toBitVec_inj.mp BitVec.and_allOnes
  rw [utilsSha256Update]
  dsimp only
  split
  next hzero =>
    have hnone : input = [] := by
      have hilen := congrArg UInt32.toNat hzero
      rw [UInt32.toNat_ofNat_of_lt' hinput] at hilen
      exact List.length_eq_zero_iff.mp hilen
    rw [hnone, List.append_nil]
    exact ⟨ctx, rfl, hholds⟩
  next hsome =>
    rw [hall, hleft]
    split
    next hfill => exact filled_holds hholds htotal hfill.2
    next hfill =>
      rw [not_and_or, not_not, Nat.not_le] at hfill
      exact unfilled_holds hholds htotal hfill

end Update

/-- The updates give the context their inputs, one behind the other. -/
theorem utilsSha256Updates_holds {ctx : IotSha256Context} {text : List UInt8}
    {inputs : List (List UInt8)} (hholds : ctx.Holds text)
    (hinputs : ∀ input ∈ inputs, input.length < 2 ^ 32) :
    ∃ ctx', utilsSha256Updates ctx inputs = .ok ctx' ∧ ctx'.Holds (text ++ inputs.flatten) := by
  induction inputs generalizing ctx text with
  | nil =>
      rw [List.flatten_nil, List.append_nil]
      exact ⟨ctx, rfl, hholds⟩
  | cons input inputs ih =>
      obtain ⟨hfirst, hrest⟩ := List.forall_mem_cons.mp hinputs
      obtain ⟨next, hnext, hholds⟩ := utilsSha256Update_holds hholds hfirst
      obtain ⟨ctx', hctx', hholds⟩ := ih hholds hrest
      rw [List.flatten_cons, ← List.append_assoc]
      refine ⟨ctx', ?_, hholds⟩
      rw [utilsSha256Updates, List.foldlM_cons, hnext, Outcome.ok_bind]
      exact hctx'

/-! ## The end of a text -/

theorem toNat_rest {last : UInt32} {limit : Nat} (hlimit : limit < 2 ^ 32)
    (hlast : last.toNat ≤ limit) : (UInt32.ofNat limit - last).toNat = limit - last.toNat := by
  have hvalue : (UInt32.ofNat limit).toNat = limit := UInt32.toNat_ofNat_of_lt' hlimit
  have hle : last ≤ UInt32.ofNat limit := UInt32.le_iff_toNat_le.mpr (hvalue.symm ▸ hlast)
  rw [UInt32.toNat_sub_of_le _ _ hle, hvalue]

/-- So many bytes of the padding leave room for the length. -/
theorem padn_eq {low : UInt32} {length : Nat} (hlow : (low &&& 0x3F).toNat = length % 64) :
    (if low &&& 0x3F < 56 then 56 - (low &&& 0x3F) else 120 - (low &&& 0x3F)).toNat =
      zeroCount length + 1 := by
  have hfew : length % 64 < 64 := Nat.mod_lt _ (by decide)
  have hroom : low &&& 0x3F < 56 ↔ length % 64 < 56 := by
    rw [UInt32.lt_iff_toNat_lt, hlow]
    rfl
  rw [zeroCount]
  by_cases hless : length % 64 < 56
  · have hrest := @toNat_rest (low &&& 0x3F) 56 (by decide) (by omega)
    rw [if_pos (hroom.mpr hless)]
    refine hrest.trans ?_
    omega
  · have hrest := @toNat_rest (low &&& 0x3F) 120 (by decide) (by omega)
    rw [if_neg (mt hroom.mp hless)]
    refine hrest.trans ?_
    omega

theorem take_sha256Padding (length : Nat) :
    sha256Padding.take (zeroCount length + 1) = 128 :: List.replicate (zeroCount length) 0 := by
  have hzeros : zeroCount length ≤ 63 := Nat.le_of_lt_succ (Nat.mod_lt _ (by decide))
  rw [sha256Padding, List.take_succ_cons, List.take_replicate, Nat.min_eq_left hzeros]

/-- The two words of the number of bits. -/
theorem toNat_bits (low high : UInt32) :
    (low >>> 29 ||| high <<< 3).toNat = high.toNat % 2 ^ 29 * 8 + low.toNat / 2 ^ 29 ∧
      (low <<< 3).toNat = low.toNat * 8 % 2 ^ 32 := by
  have hlow := low.toNat_lt
  have hright : (low >>> 29).toNat = low.toNat / 2 ^ 29 := by
    rw [UInt32.toNat_shiftRight]
    exact Nat.shiftRight_eq_div_pow _ 29
  have hleft : ∀ word : UInt32, (word <<< 3).toNat = word.toNat * 8 % 2 ^ 32 := by
    intro word
    rw [UInt32.toNat_shiftLeft]
    exact congrArg (· % 2 ^ 32) (Nat.shiftLeft_eq _ 3)
  have hmultiple : high.toNat * 8 % 2 ^ 32 = (high.toNat % 2 ^ 29) <<< 3 := by
    rw [Nat.shiftLeft_eq]
    omega
  refine ⟨?_, hleft low⟩
  rw [UInt32.toNat_or, hright, hleft, hmultiple, Nat.or_comm,
    ← Nat.shiftLeft_add_eq_or_of_lt (by omega), Nat.shiftLeft_eq]

/-- The number of bits, from the number of bytes in two words. -/
theorem msglen_eq {low high : UInt32} {length : Nat}
    (htotal : high.toNat * 2 ^ 32 + low.toNat = length % 2 ^ 64) :
    putUint32Be (low >>> 29 ||| high <<< 3) ++ putUint32Be (low <<< 3) =
      bigEndian 8 (8 * length) := by
  obtain ⟨hhighWord, hlowWord⟩ := toNat_bits low high
  have hlow := low.toNat_lt
  have hhigh := high.toNat_lt
  -- Only the lower word of the upper bytes is kept.
  obtain ⟨upper, hupper, hlength⟩ : ∃ upper, upper % 2 ^ 32 = high.toNat ∧
      length = upper * 2 ^ 32 + low.toNat := by
    refine ⟨length / 2 ^ 64 * 2 ^ 32 + high.toNat, ?_, ?_⟩
    · rw [Nat.mul_add_mod_self_right, Nat.mod_eq_of_lt hhigh]
    · have hsplit := Nat.div_add_mod' length (2 ^ 64)
      rw [← htotal, ← Nat.add_assoc] at hsplit
      rw [Nat.add_mul, Nat.mul_assoc, ← Nat.pow_add]
      exact hsplit.symm
  clear htotal
  rw [putUint32Be_eq, putUint32Be_eq, hhighWord, hlowWord, hlength, bigEndian_add 4 4]
  have hpower : 256 ^ 4 = 2 ^ 32 := rfl
  congr 1
  · apply bigEndian_congr
    rw [hpower]
    omega
  · apply bigEndian_congr
    rw [hpower]
    omega

/-- The output is the digest of the text. -/
theorem utilsSha256Finish_eq {ctx : IotSha256Context} {text output : List UInt8}
    (hholds : ctx.Holds text) (houtput : 32 ≤ output.length) :
    ∃ ctx', utilsSha256Finish ctx output = .ok (ctx', digest text ++ output.drop 32) := by
  have hshort : (128 :: List.replicate (zeroCount text.length) (0 : UInt8)).length < 2 ^ 32 := by
    rw [List.length_cons, List.length_replicate, zeroCount]
    omega
  obtain ⟨padded, hpadded, hholdsPadded⟩ := utilsSha256Update_holds hholds hshort
  obtain ⟨last, hlast, hholdsLast⟩ := utilsSha256Update_holds hholdsPadded
    (by rw [length_bigEndian]; decide : (bigEndian 8 (8 * text.length)).length < 2 ^ 32)
  rw [List.append_assoc, List.cons_append] at hholdsLast
  have hstate : last.state = absorb compress 64 initialState (text ++ padding text.length) :=
    hholdsLast.state
  have hbytes : putUint32Be last.state.a ++ putUint32Be last.state.b ++ putUint32Be last.state.c ++
      putUint32Be last.state.d ++ putUint32Be last.state.e ++ putUint32Be last.state.f ++
      putUint32Be last.state.g ++ putUint32Be last.state.h = digest text := by
    simp only [putUint32Be_eq, digest, ← hstate, Registers.bytes]
  refine ⟨last, ?_⟩
  rw [utilsSha256Finish]
  dsimp only
  rw [padn_eq (left_eq hholds.total), take_sha256Padding, msglen_eq hholds.total, hpadded,
    Outcome.ok_bind, hlast, Outcome.ok_bind, if_pos hholdsLast.is224, hbytes, length_digest,
    if_neg (Nat.not_lt.mpr houtput)]
  rfl

/-! ## Digests -/

section Digests

variable (stack : IotSha256Context) {output : List UInt8}

/-- However a text is cut into inputs, the output is its digest. -/
theorem sha256Session_eq {inputs : List (List UInt8)}
    (hinputs : ∀ input ∈ inputs, input.length < 2 ^ 32) (houtput : 32 ≤ output.length) :
    ∃ ctx, sha256Session stack inputs output =
      .ok (ctx, digest inputs.flatten ++ output.drop 32) := by
  obtain ⟨ctx, hctx, hholds⟩ := utilsSha256Updates_holds (holds_starts stack) hinputs
  rw [sha256Session, hctx, Outcome.ok_bind]
  exact utilsSha256Finish_eq hholds houtput

/-- A text of three bytes in two inputs. -/
theorem sha256Session_pieces :
    ∃ ctx, sha256Session .zero [[97], [98, 99]] (List.replicate 32 0) =
      .ok (ctx, digest [97, 98, 99] ++ []) :=
  @sha256Session_eq .zero _ [[97], [98, 99]] (by decide) (by decide)

/-- The output is the digest of the input, and the context on the stack is cleared. -/
theorem utilsSha256_eq {input : List UInt8} (hinput : input.length < 2 ^ 32)
    (houtput : 32 ≤ output.length) :
    utilsSha256 stack input output = .ok (.zero, digest input ++ output.drop 32) := by
  obtain ⟨ctx, hctx, hholds⟩ := utilsSha256Update_holds (holds_starts stack) hinput
  obtain ⟨last, hlast⟩ := utilsSha256Finish_eq hholds houtput
  rw [utilsSha256]
  dsimp only
  rw [hctx, Outcome.ok_bind, hlast, Outcome.ok_bind]
  rfl

/-- The first example of the standard. -/
example : utilsSha256 .zero [97, 98, 99] (List.replicate 32 0) =
    .ok (.zero, [0xBA, 0x78, 0x16, 0xBF, 0x8F, 0x01, 0xCF, 0xEA, 0x41, 0x41, 0x40, 0xDE, 0x5D, 0xAE,
      0x22, 0x23, 0xB0, 0x03, 0x61, 0xA3, 0x96, 0x17, 0x7A, 0x9C, 0xB4, 0x10, 0xFF, 0x61, 0xF2,
      0x00, 0x15, 0xAD]) := by decide +kernel

/-- The output is the authentication code of the message, if the key fits a block. Otherwise
nothing is written. -/
theorem utilsHmacSha256_eq {msg key : List UInt8} (hmsg : msg.length < 2 ^ 32)
    (houtput : 32 ≤ output.length) :
    utilsHmacSha256 stack (some msg) (some key) (some output) =
      .ok (some (if key.length ≤ 64 then hmac key msg ++ output.drop 32 else output)) := by
  rw [utilsHmacSha256]
  dsimp only
  split
  next hlong => rw [if_neg (show ¬key.length ≤ 64 from Nat.not_le.mpr hlong)]
  next hfits =>
    have hkey : key.length ≤ 64 := Nat.not_lt.mp hfits
    have hpad : ∀ byte : UInt8, ((key ++ List.replicate (64 - key.length) 0).map
        (· ^^^ byte)).length < 2 ^ 32 := by
      intro byte
      rw [List.length_map, List.length_append, List.length_replicate]
      omega
    obtain ⟨first, hfirst, hholdsFirst⟩ := utilsSha256Update_holds (holds_starts stack) (hpad 0x36)
    obtain ⟨second, hsecond, hholdsSecond⟩ := utilsSha256Update_holds hholdsFirst hmsg
    obtain ⟨inner, hinner⟩ := utilsSha256Finish_eq hholdsSecond houtput
    rw [List.nil_append] at hinner
    rw [sha256KeyIopadSize, hfirst, Outcome.ok_bind, hsecond, Outcome.ok_bind, hinner,
      Outcome.ok_bind]
    dsimp only
    generalize hcode :
      digest ((key ++ List.replicate (64 - key.length) 0).map (· ^^^ 0x36) ++ msg) = code
    have hlength : code.length = 32 := hcode ▸ length_digest _
    have htake : (code ++ output.drop 32).take sha256DigestSize = code := by
      rw [sha256DigestSize, ← hlength, List.take_left]
    have hroom : 32 ≤ (code ++ output.drop 32).length := by
      rw [List.length_append, hlength]
      exact Nat.le_add_right ..
    obtain ⟨third, hthird, hholdsThird⟩ := utilsSha256Update_holds (holds_starts inner) (hpad 0x5c)
    obtain ⟨fourth, hfourth, hholdsFourth⟩ := utilsSha256Update_holds hholdsThird
      (by rw [hlength]; decide : code.length < 2 ^ 32)
    obtain ⟨outer, houter⟩ := utilsSha256Finish_eq hholdsFourth hroom
    rw [hthird, Outcome.ok_bind, htake, hfourth, Outcome.ok_bind, houter, Outcome.ok_bind,
      if_pos hkey, hmac, ← hlength, List.drop_left, List.nil_append, hlength, ← hcode]
    rfl

theorem utilsHmacSha256_plain :
    utilsHmacSha256 .zero (some [109]) (some [107]) (some (List.replicate 32 0)) =
      .ok (some (hmac [107] [109] ++ [])) :=
  utilsHmacSha256_eq .zero (by decide) (by decide)

/-- Inputs with the same output are the same, or while they are digested two different states or
blocks are processed to the same state. -/
theorem utilsSha256_collide {first second : List UInt8} (hfirst : first.length < 2 ^ 32)
    (hsecond : second.length < 2 ^ 32) (houtput : 32 ≤ output.length)
    (hsame : utilsSha256 stack first output = utilsSha256 stack second output) :
    first = second ∨
      Collide compress 64 initialState (first ++ padding first.length)
        (second ++ padding second.length) := by
  rw [utilsSha256_eq stack hfirst houtput, utilsSha256_eq stack hsecond houtput] at hsame
  have hdigests := List.append_cancel_right (Prod.mk.inj (Outcome.ok.inj hsame)).2
  by_cases hne : first = second
  · exact Or.inl hne
  · exact Or.inr (collide_of_digest (Nat.lt_trans hfirst (by decide))
      (Nat.lt_trans hsecond (by decide)) hne hdigests)

theorem utilsSha256_collide_plain :
    [97] = [(97 : UInt8)] ∨
      Collide compress 64 initialState ([97] ++ padding 1) ([97] ++ padding 1) :=
  @utilsSha256_collide .zero (List.replicate 32 0) [97] [97] (by decide) (by decide) (by decide) rfl

end Digests

end EnosDeviceSdk.Infra
