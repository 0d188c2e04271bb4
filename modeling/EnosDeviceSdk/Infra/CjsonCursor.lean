/-
# The parse buffer as a cursor in a text

A parse buffer is a window on the bytes that were given, with an offset in it. Here the
window is a list and the offset a place where the list is cut in two. In these terms each
of the small steps of the parser has one equation: a look at the next byte, a move, a
literal, the copy of a number, the end of a string.

White space has two. Where a byte above 32 is ahead, the offset moves there. Where only
white space is ahead, it moves to the last byte of the text, whatever that is.
-/

import EnosDeviceSdk.Infra.JsonText
import Mathlib.Data.List.TakeWhile

namespace EnosDeviceSdk.Infra

open EnosDeviceSdk.Library

/-- The buffer is a window on `text`, which follows `ahead` in the bytes that were given, and
its offset stands between `before` and `rest`. -/
structure At (src ahead text : List UInt8) (buffer : ParseBuffer) (before rest : List UInt8) :
    Prop where
  text_eq : text = before ++ rest
  window : ∃ behind, src = ahead ++ text ++ behind
  content_eq : buffer.content = ahead.length
  length_eq : buffer.length = text.length
  offset_eq : buffer.offset = before.length

variable {src ahead text before rest : List UInt8} {buffer : ParseBuffer}

@[simp]
theorem ParseBuffer.move_move (buffer : ParseBuffer) (first second : Int) :
    (buffer.move first).move second = buffer.move (first + second) := by
  simp [ParseBuffer.move, Int.add_assoc]

@[simp]
theorem ParseBuffer.move_zero (buffer : ParseBuffer) : buffer.move 0 = buffer := by
  simp [ParseBuffer.move]

@[simp]
theorem ParseBuffer.length_move (buffer : ParseBuffer) (count : Int) :
    (buffer.move count).length = buffer.length := rfl

@[simp]
theorem ParseBuffer.offset_move (buffer : ParseBuffer) (count : Int) :
    (buffer.move count).offset = buffer.offset + count := rfl

namespace At

/-- The same place, with the text cut differently on paper. -/
theorem congr {before' rest' : List UInt8} (hat : At src ahead text buffer before rest)
    (hbefore : before = before') (hrest : rest = rest') :
    At src ahead text buffer before' rest' := by
  subst hbefore hrest
  exact hat

/-- A place in a text is one buffer. -/
theorem unique {other : ParseBuffer} {rest' : List UInt8}
    (hat : At src ahead text buffer before rest) (hother : At src ahead text other before rest') :
    other = buffer := by
  cases buffer
  cases other
  simp only [ParseBuffer.mk.injEq]
  exact ⟨hother.content_eq.trans hat.content_eq.symm, hother.length_eq.trans hat.length_eq.symm,
    hother.offset_eq.trans hat.offset_eq.symm⟩

/-- A byte ahead is read where it stands. -/
theorem read (mid : List UInt8) {after : List UInt8} {byte : UInt8}
    (hat : At src ahead text buffer before (mid ++ byte :: after)) :
    readByte src (buffer.content + buffer.offset + mid.length) = .ok byte := by
  obtain ⟨behind, hsrc⟩ := hat.window
  have hsplit : src = (ahead ++ before ++ mid) ++ byte :: (after ++ behind) := by
    rw [hsrc, hat.text_eq]
    simp
  have hplace : buffer.content + buffer.offset + mid.length =
      ((ahead ++ before ++ mid).length : Int) := by
    rw [hat.content_eq, hat.offset_eq, List.length_append, List.length_append]
    omega
  rw [hplace, hsplit]
  exact readByte_append_cons _ _ _

theorem canAccess (hat : At src ahead text buffer before rest) (index : Int) :
    buffer.canAccessAtIndex index = decide (index < rest.length) := by
  have hlength : (text.length : Int) = before.length + rest.length := by
    rw [hat.text_eq]
    simp
  rw [ParseBuffer.canAccessAtIndex, hat.length_eq, hat.offset_eq, hlength]
  apply decide_eq_decide.mpr
  omega

theorem byteAt_zero {byte : UInt8} (hat : At src ahead text buffer before (byte :: rest)) :
    buffer.byteAt src 0 = .ok byte := by
  have hread := hat.read []
  simpa [ParseBuffer.byteAt] using hread

theorem peek (hat : At src ahead text buffer before rest) : buffer.peek src = .ok rest.head? := by
  rw [ParseBuffer.peek, hat.canAccess]
  cases rest with
  | nil => rfl
  | cons byte rest =>
      have hroom : decide ((0 : Int) < ((byte :: rest).length : Int)) = true := by simp
      rw [hroom, if_pos rfl, hat.byteAt_zero]
      rfl

/-- The offset moves over what is ahead. -/
theorem move (mid : List UInt8) (hat : At src ahead text buffer before (mid ++ rest)) :
    At src ahead text (buffer.move mid.length) (before ++ mid) rest where
  text_eq := by rw [hat.text_eq, List.append_assoc]
  window := hat.window
  content_eq := hat.content_eq
  length_eq := hat.length_eq
  offset_eq := by simp [hat.offset_eq]

theorem move_one {byte : UInt8} (hat : At src ahead text buffer before (byte :: rest)) :
    At src ahead text (buffer.move 1) (before ++ [byte]) rest :=
  At.move [byte] hat

/-- The offset moves back over what is behind it. -/
theorem back {byte : UInt8} (hat : At src ahead text buffer (before ++ [byte]) rest) :
    At src ahead text (buffer.move (-1)) before (byte :: rest) where
  text_eq := by rw [hat.text_eq, List.append_assoc, List.singleton_append]
  window := hat.window
  content_eq := hat.content_eq
  length_eq := hat.length_eq
  offset_eq := by
    rw [ParseBuffer.offset_move, hat.offset_eq, List.length_append, List.length_singleton]
    omega

/-- Where the offset stands in the bytes that were given. -/
theorem place (hat : At src ahead text buffer before rest) :
    buffer.content + buffer.offset = (ahead ++ before).length := by
  rw [hat.content_eq, hat.offset_eq, List.length_append]
  omega

theorem text_ne_nil {byte : UInt8} (hat : At src ahead text buffer before (byte :: rest)) :
    text ≠ [] := by
  rw [hat.text_eq]
  simp

theorem length_text_le (hat : At src ahead text buffer before rest) : text.length ≤ src.length := by
  obtain ⟨behind, hsrc⟩ := hat.window
  rw [hsrc, List.length_append, List.length_append]
  omega

theorem length_rest_le (hat : At src ahead text buffer before rest) : rest.length ≤ src.length := by
  have hlength := hat.length_text_le
  rw [hat.text_eq, List.length_append] at hlength
  omega

end At

/-! ## White space -/

theorem skipWhitespaceLoop_eq (steps : Nat) (hat : At src ahead text buffer before rest)
    (hsteps : rest.length < steps) :
    skipWhitespaceLoop src steps buffer =
      .ok (buffer.move (rest.takeWhile (· ≤ 32)).length) := by
  induction steps generalizing buffer before rest with
  | zero => exact absurd hsteps (Nat.not_lt_zero _)
  | succ steps ih =>
      rw [skipWhitespaceLoop, hat.peek, Outcome.ok_bind]
      cases rest with
      | nil => simp
      | cons byte rest =>
          by_cases hblank : byte ≤ 32
          · have hnext := ih hat.move_one (by simpa using hsteps)
            simp only [List.head?_cons, hblank, if_true, hnext, ParseBuffer.move_move,
              decide_true, List.takeWhile_cons_of_pos, List.length_cons]
            rw [Int.add_comm]
            rfl
          · simp [hblank]

/-- Up to the next byte that is not white space. -/
theorem bufferSkipWhitespace_ahead {blank : List UInt8} {byte : UInt8}
    (hat : At src ahead text buffer before (blank ++ byte :: rest)) (hblank : Blank blank)
    (hsolid : ¬byte ≤ 32) :
    bufferSkipWhitespace src buffer = .ok (buffer.move blank.length) := by
  have htake : (blank ++ byte :: rest).takeWhile (· ≤ 32) = blank := by
    rw [List.takeWhile_append_of_pos fun other hother => decide_eq_true (hblank other hother)]
    simp [hsolid]
  have hloop := skipWhitespaceLoop_eq (src.length + 1) hat
    (Nat.lt_succ_of_le hat.length_rest_le)
  have hinside : ¬buffer.offset + blank.length = buffer.length := by
    rw [hat.length_eq, hat.offset_eq, hat.text_eq]
    simp only [List.length_append, List.length_cons]
    omega
  rw [htake] at hloop
  simp [bufferSkipWhitespace, hloop, hinside]

/-- At the end of the text, back to its last byte. -/
theorem bufferSkipWhitespace_back {init : List UInt8} {last : UInt8}
    (hat : At src ahead text buffer before rest) (hblank : Blank rest)
    (htext : text = init ++ [last]) :
    ∃ next, bufferSkipWhitespace src buffer = .ok next ∧ At src ahead text next init [last] := by
  have htake : rest.takeWhile (· ≤ 32) = rest := by
    rw [List.takeWhile_eq_self_iff]
    exact fun other hother => decide_eq_true (hblank other hother)
  have hloop := skipWhitespaceLoop_eq (src.length + 1) hat
    (Nat.lt_succ_of_le hat.length_rest_le)
  have hend : At src ahead text (buffer.move rest.length) (init ++ [last]) [] :=
    (At.move rest (hat.congr rfl (List.append_nil rest).symm)).congr
      (by rw [← hat.text_eq, htext]) rfl
  have hlength : buffer.offset + rest.length = buffer.length := by
    rw [hat.length_eq, hat.offset_eq, hat.text_eq, List.length_append]
    omega
  refine ⟨(buffer.move rest.length).move (-1), ?_, hend.back⟩
  rw [htake] at hloop
  simp [bufferSkipWhitespace, hloop, hlength]

/-- Where the offset stands after white space was skipped: ahead, or back at the end. -/
inductive Skipped (src ahead text : List UInt8) (buffer : ParseBuffer)
    (before rest : List UInt8) : Prop
  | ahead (blank : List UInt8) (byte : UInt8) (after : List UInt8)
      (hrest : rest = blank ++ byte :: after) (hblank : Blank blank) (hsolid : ¬byte ≤ 32)
      (hat : At src ahead text buffer (before ++ blank) (byte :: after))
  | back (init : List UInt8) (last : UInt8) (hblank : Blank rest) (htext : text = init ++ [last])
      (hat : At src ahead text buffer init [last])

/-- Skipping white space twice is skipping it once. -/
theorem bufferSkipWhitespace_again (hskipped : Skipped src ahead text buffer before rest) :
    bufferSkipWhitespace src buffer = .ok buffer := by
  have hsolid : ∀ {before : List UInt8} {byte : UInt8} {after : List UInt8},
      At src ahead text buffer before (byte :: after) → ¬byte ≤ 32 →
        bufferSkipWhitespace src buffer = .ok buffer := by
    intro before byte after hat hbyte
    have hplace : At src ahead text buffer before ([] ++ byte :: after) := hat
    have hsame := bufferSkipWhitespace_ahead hplace
      blank_nil hbyte
    simpa using hsame
  cases hskipped with
  | ahead blank byte after _ _ hbyte hat => exact hsolid hat hbyte
  | back init last _ htext hat =>
      by_cases hlast : last ≤ 32
      · have hblank : Blank [last] := by
          intro byte hbyte
          rwa [List.mem_singleton.mp hbyte]
        obtain ⟨next, hnext, hback⟩ := bufferSkipWhitespace_back hat hblank htext
        rw [hnext, hat.unique hback]
      · exact hsolid hat hlast

theorem bufferSkipWhitespace_skipped (hat : At src ahead text buffer before rest)
    (htext : text ≠ []) : ∃ next, bufferSkipWhitespace src buffer = .ok next ∧
      Skipped src ahead text next before rest := by
  have hcut : rest = rest.takeWhile (· ≤ 32) ++ rest.dropWhile (· ≤ 32) :=
    List.takeWhile_append_dropWhile.symm
  have hblank : Blank (rest.takeWhile (· ≤ 32)) := by
    intro byte hbyte
    simpa using List.mem_takeWhile_imp hbyte
  cases hdrop : rest.dropWhile (· ≤ 32) with
  | nil =>
      rw [hdrop, List.append_nil] at hcut
      rw [← hcut] at hblank
      obtain ⟨init, last, htext⟩ := (List.eq_nil_or_concat' text).resolve_left htext
      obtain ⟨next, hnext, hback⟩ := bufferSkipWhitespace_back hat hblank htext
      exact ⟨next, hnext, .back init last hblank htext hback⟩
  | cons byte after =>
      rw [hdrop] at hcut
      have hsolid : ¬byte ≤ 32 := by
        have hne : rest.dropWhile (· ≤ 32) ≠ [] := by
          rw [hdrop]
          exact List.cons_ne_nil byte after
        have hhead := List.head_dropWhile_not _ hne
        simpa [hdrop] using hhead
      have hplace := hat.congr rfl hcut
      exact ⟨_, bufferSkipWhitespace_ahead hplace hblank hsolid,
        .ahead _ byte after hcut hblank hsolid (hplace.move _)⟩

/-! ## Literals and numbers -/

/-- A comparison of bytes that are there. -/
theorem sameBytes_eq (literal : List UInt8) {ahead found behind : List UInt8} {address : Int}
    (hsrc : src = ahead ++ found ++ behind) (haddress : address = ahead.length)
    (hroom : literal.length ≤ found.length) :
    sameBytes src address literal = .ok (literal.isPrefixOf found) := by
  induction literal generalizing ahead found address with
  | nil => rfl
  | cons byte literal ih =>
      cases found with
      | nil => simp at hroom
      | cons first found =>
          have hsplit : src = ahead ++ first :: (found ++ behind) := by
            rw [hsrc]
            simp
          have hread : readByte src address = .ok first := by
            rw [haddress, hsplit]
            exact readByte_append_cons _ _ _
          rw [sameBytes, hread, Outcome.ok_bind]
          by_cases hsame : first = byte
          · have hrest := @ih (ahead ++ [first]) found (address + 1) (by rw [hsrc]; simp)
              (by rw [haddress, List.length_append, List.length_singleton]; omega)
              (by simpa using hroom)
            rw [if_pos hsame, hrest, hsame]
            simp
          · have hdiff : ¬byte = first := fun h => hsame h.symm
            simp [hsame, hdiff, List.isPrefixOf]

/-- A literal is found exactly where the text goes on with it. -/
theorem literalAt_eq (literal : List UInt8) (hat : At src ahead text buffer before rest) :
    literalAt src literal buffer = .ok (literal.isPrefixOf rest) := by
  have hlength : (text.length : Int) = before.length + rest.length := by
    rw [hat.text_eq, List.length_append]
    omega
  unfold literalAt ParseBuffer.canRead
  rw [hat.length_eq, hat.offset_eq, hlength]
  by_cases hroom : literal.length ≤ rest.length
  · have hfits : decide ((before.length : Int) + literal.length ≤ before.length + rest.length) =
        true := by
      apply decide_eq_true
      omega
    obtain ⟨behind, hsrc⟩ := hat.window
    have hsplit : src = (ahead ++ before) ++ rest ++ behind := by
      rw [hsrc, hat.text_eq]
      simp
    rw [if_pos hfits]
    apply sameBytes_eq literal hsplit _ hroom
    rw [hat.content_eq, List.length_append]
    omega
  · have hover : decide ((before.length : Int) + literal.length ≤ before.length + rest.length) =
        false := by
      apply decide_eq_false
      omega
    have hlong : literal.isPrefixOf rest = false := by
      apply Bool.eq_false_iff.mpr
      intro hbegins
      exact hroom (List.isPrefixOf_iff_prefix.mp hbegins).length_le
    rw [if_neg (by rw [hover]; exact Bool.false_ne_true), hlong]

/-- The characters that are copied for `strtod`. -/
theorem numberText_eq (room : Nat) (done : List UInt8)
    (hat : At src ahead text buffer before (done ++ rest)) :
    numberText src buffer room done.length = .ok ((rest.take room).takeWhile isNumberByte) := by
  induction room generalizing done rest with
  | zero => simp [numberText]
  | succ room ih =>
      have haccess : buffer.canAccessAtIndex done.length = !rest.isEmpty := by
        rw [hat.canAccess, List.length_append]
        cases rest with
        | nil => simp
        | cons byte rest =>
            apply decide_eq_true
            rw [List.length_cons]
            omega
      rw [numberText, haccess]
      cases rest with
      | nil => rfl
      | cons byte rest =>
          have hread : buffer.byteAt src done.length = .ok byte := hat.read done
          have hnext := @ih rest (done ++ [byte]) (hat.congr rfl (by simp))
          have hindex : ((done ++ [byte]).length : Int) = done.length + 1 := by
            rw [List.length_append, List.length_singleton]
            omega
          rw [hindex] at hnext
          by_cases hnumber : isNumberByte byte = true
          · simp [hread, hnumber, hnext]
          · simp [hread, hnumber]

/-- What `strtod` converts has the form it expects. -/
theorem isDecimal_take_strtodLength {text : List UInt8} (hpositive : strtodLength text ≠ 0) :
    isDecimal (text.take (strtodLength text)) = true ∧ strtodLength text ≤ text.length := by
  unfold strtodLength at *
  let good := (List.range (text.length + 1)).filter fun count => isDecimal (text.take count)
  have hmem : good.getLastD 0 ∈ good := by
    cases hgood : good with
    | nil =>
        have hzero : good.getLastD 0 = 0 := by
          rw [hgood]
          rfl
        exact absurd hzero hpositive
    | cons count rest =>
        rw [List.getLastD_cons]
        exact List.getLastD_mem_cons ..
  obtain ⟨hrange, hdecimal⟩ := List.mem_filter.mp hmem
  exact ⟨hdecimal, Nat.lt_succ_iff.mp (List.mem_range.mp hrange)⟩

/-- All of a text that has the form is converted. -/
theorem strtodLength_of_isDecimal {text : List UInt8} (hdecimal : isDecimal text = true) :
    strtodLength text = text.length := by
  unfold strtodLength
  rw [List.range_succ, List.filter_append]
  simp [hdecimal]

/-- A number is the part of the text that `strtod` converts. -/
theorem parseNumber_keeps (item : LiteCjson) {byte : UInt8}
    (hat : At src ahead text buffer before (byte :: rest))
    (hhead : byte = 45 ∨ isDigit byte = true) :
    (parseNumber src item buffer).Keeps fun result =>
      ∃ token after, byte :: rest = token ++ after ∧ NumberToken token ∧
        Denotes result.1 (.scalar (.number token)) (ahead ++ before).length ∧
        At src ahead text result.2 (before ++ token) after := by
  let copy := ((byte :: rest).take 63).takeWhile isNumberByte
  have hcopy : numberText src buffer 63 0 = .ok copy := numberText_eq 63 [] hat
  unfold parseNumber
  rw [hcopy, Outcome.ok_bind]
  by_cases hnone : strtodLength copy = 0
  · simp only [hnone, if_true]
    exact Outcome.keeps_failed
  obtain ⟨hdecimal, hlength⟩ := isDecimal_take_strtodLength hnone
  let token := copy.take (strtodLength copy)
  have htoken : token.length = strtodLength copy := List.length_take_of_le hlength
  have hbegins : copy <+: byte :: rest :=
    (List.takeWhile_prefix _).trans (List.take_prefix 63 _)
  obtain ⟨behind, hbehind⟩ := hbegins
  have hsplit : byte :: rest = token ++ (copy.drop (strtodLength copy) ++ behind) := by
    rw [← List.append_assoc, List.take_append_drop, hbehind]
  have hnumber : NumberToken token :=
    { decimal := hdecimal
      bytes := by
        intro other hother
        exact List.mem_takeWhile_imp (List.mem_of_mem_take hother)
      head := by
        cases hcases : token with
        | nil =>
            rw [hcases] at htoken
            exact absurd htoken.symm hnone
        | cons first tail =>
            rw [hcases, List.cons_append] at hsplit
            exact ⟨first, tail, rfl, (List.cons.inj hsplit).1 ▸ hhead⟩
      short := by
        have hshort : copy.length ≤ 63 :=
          (List.takeWhile_prefix _).length_le.trans (List.length_take_le 63 _)
        omega }
  simp only [hnone, if_false]
  refine ⟨token, copy.drop (strtodLength copy) ++ behind, hsplit, hnumber, ?_, ?_⟩
  · exact
      { type := rfl
        value := by simp [Doc.indent, hat.place]
        valueLength := by simp [Doc.contents, Doc.render, Token.render, htoken]
        size := by simp }
  · have hmoved := (hat.congr rfl hsplit).move token
    rwa [htoken] at hmoved

/-- A number token is parsed as a whole where no character of a number follows. -/
theorem parseNumber_eq (item : LiteCjson) {token after : List UInt8}
    (hat : At src ahead text buffer before (token ++ after)) (htoken : NumberToken token)
    (hafter : ∀ byte ∈ after.head?, isNumberByte byte = false) :
    ∃ result, parseNumber src item buffer = .ok (result, buffer.move token.length) ∧
      Denotes result (.scalar (.number token)) (ahead ++ before).length := by
  have hcopy : numberText src buffer 63 0 = .ok token := by
    have htext : ((token ++ after).take 63).takeWhile isNumberByte = token := by
      have hstop : (after.take (63 - token.length)).takeWhile isNumberByte = [] := by
        cases after with
        | nil => simp
        | cons byte rest =>
            have hbyte := hafter byte rfl
            cases 63 - token.length <;> simp [hbyte]
      rw [List.take_append, List.take_of_length_le htoken.short,
        List.takeWhile_append_of_pos htoken.bytes, hstop, List.append_nil]
    rw [← htext]
    exact numberText_eq 63 [] hat
  have hlength := strtodLength_of_isDecimal htoken.decimal
  have hsome : token.length ≠ 0 := by
    obtain ⟨byte, rest, rfl, _⟩ := htoken.head
    simp
  unfold parseNumber
  rw [hcopy, Outcome.ok_bind]
  simp only [hlength, hsome, if_false]
  refine ⟨_, rfl, ?_⟩
  exact
    { type := rfl
      value := by simp [Doc.indent, hat.place]
      valueLength := by simp [Doc.contents, Doc.render, Token.render]
      size := by simp }

/-! ## Strings -/

theorem At.length_eq_offset (done : List UInt8)
    (hat : At src ahead text buffer before (done ++ rest)) :
    buffer.length = buffer.offset + done.length + rest.length := by
  rw [hat.length_eq, hat.offset_eq, hat.text_eq, List.length_append, List.length_append]
  omega

/-- One turn of the loop in a string, behind what it has passed. -/
theorem stringEnd_step (steps : Nat) (done : List UInt8) {byte : UInt8}
    (hat : At src ahead text buffer before (done ++ byte :: rest)) :
    stringEnd src buffer (steps + 1) (buffer.offset + done.length) =
      if byte = 34 then .ok (buffer.offset + done.length)
      else if byte = 92 then
        if rest = [] then .failed
        else stringEnd src buffer steps (buffer.offset + done.length + 2)
      else stringEnd src buffer steps (buffer.offset + done.length + 1) := by
  have hlength := hat.length_eq_offset done
  have hread : readByte src (buffer.content + (buffer.offset + done.length)) = .ok byte := by
    rw [← Int.add_assoc]
    exact hat.read done
  have hend : buffer.offset + done.length + 1 ≥ buffer.length ↔ rest = [] := by
    rw [hlength, List.length_cons, ← List.length_eq_zero_iff]
    omega
  rw [stringEnd, if_pos (by rw [hlength, List.length_cons]; omega), hread, Outcome.ok_bind]
  simp only [hend, Outcome.pure_eq]

/-- The loop of a string stops at the closing quote or at the end of the text. -/
theorem stringEnd_keeps (steps : Nat) (done : List UInt8)
    (hat : At src ahead text buffer before (done ++ rest)) (hsteps : rest.length < steps) :
    (stringEnd src buffer steps (buffer.offset + done.length)).Keeps fun inputEnd =>
      ∃ body after, rest = body ++ after ∧ StringBody body ∧
        inputEnd = buffer.offset + done.length + body.length ∧
        (after = [] ∨ after.head? = some 34) := by
  induction steps generalizing done rest with
  | zero => exact absurd hsteps (Nat.not_lt_zero _)
  | succ steps ih =>
      cases rest with
      | nil =>
          have hlength := hat.length_eq_offset done
          rw [stringEnd, if_neg (by rw [hlength, List.length_nil]; omega)]
          exact ⟨[], [], rfl, .nil, by simp, Or.inl rfl⟩
      | cons byte rest =>
          rw [stringEnd_step steps done hat]
          by_cases hquote : byte = 34
          · rw [if_pos hquote]
            exact ⟨[], byte :: rest, rfl, .nil, by simp, Or.inr (by rw [hquote]; rfl)⟩
          rw [if_neg hquote]
          by_cases hescape : byte = 92
          · rw [if_pos hescape]
            cases rest with
            | nil => exact Outcome.keeps_failed
            | cons next rest =>
                have hrest := @ih rest (done ++ [byte, next]) (hat.congr rfl (by simp))
                  (by simp only [List.length_cons] at hsteps; omega)
                rw [if_neg (List.cons_ne_nil next rest)]
                rw [List.length_append, Int.natCast_add, ← Int.add_assoc] at hrest
                apply hrest.mono
                rintro inputEnd ⟨body, after, rfl, hbody, hend, hafter⟩
                subst hescape
                refine ⟨92 :: next :: body, after, rfl, .escaped hbody, ?_, hafter⟩
                simp only [List.length_cons, List.length_nil] at hend ⊢
                omega
          · have hrest := @ih rest (done ++ [byte]) (hat.congr rfl (by simp))
              (by simp only [List.length_cons] at hsteps; omega)
            rw [if_neg hescape]
            rw [List.length_append, Int.natCast_add, ← Int.add_assoc] at hrest
            apply hrest.mono
            rintro inputEnd ⟨body, after, rfl, hbody, hend, hafter⟩
            refine ⟨byte :: body, after, rfl, .plain hquote hescape hbody, ?_, hafter⟩
            simp only [List.length_cons, List.length_nil] at hend ⊢
            omega

/-- It stops at the first quote that is not escaped. -/
theorem stringEnd_eq (steps : Nat) (done : List UInt8) {body after : List UInt8}
    (hbody : StringBody body)
    (hat : At src ahead text buffer before (done ++ (body ++ 34 :: after)))
    (hsteps : body.length < steps) :
    stringEnd src buffer steps (buffer.offset + done.length) =
      .ok (buffer.offset + done.length + body.length) := by
  induction hbody generalizing steps done with
  | nil =>
      obtain ⟨steps, rfl⟩ := Nat.exists_eq_add_one_of_ne_zero (Nat.ne_of_gt hsteps)
      rw [stringEnd_step steps done hat, if_pos rfl]
      simp
  | @plain byte rest hquote hescape hrest ih =>
      obtain ⟨steps, rfl⟩ :=
        Nat.exists_eq_add_one_of_ne_zero (Nat.ne_of_gt (Nat.zero_lt_of_lt hsteps))
      have hnext := ih steps (done ++ [byte]) (hat.congr rfl (by simp))
        (by simpa using hsteps)
      rw [List.length_append, Int.natCast_add, ← Int.add_assoc] at hnext
      rw [List.cons_append] at hat
      rw [stringEnd_step steps done hat, if_neg hquote, if_neg hescape]
      refine hnext.trans (congrArg Outcome.ok ?_)
      simp only [List.length_cons, List.length_nil]
      omega
  | @escaped byte rest hrest ih =>
      obtain ⟨steps, rfl⟩ :=
        Nat.exists_eq_add_one_of_ne_zero (Nat.ne_of_gt (Nat.zero_lt_of_lt hsteps))
      have hnext := ih steps (done ++ [92, byte]) (hat.congr rfl (by simp))
        (by simp only [List.length_cons] at hsteps; omega)
      rw [List.length_append, Int.natCast_add, ← Int.add_assoc] at hnext
      rw [List.cons_append, List.cons_append] at hat
      rw [stringEnd_step steps done hat, if_neg (by decide), if_pos rfl,
        if_neg (List.cons_ne_nil byte _)]
      refine hnext.trans (congrArg Outcome.ok ?_)
      simp only [List.length_cons, List.length_nil]
      omega

/-- The text of a string. -/
def quoted (body : List UInt8) : List UInt8 := 34 :: body ++ [34]

/-- What `parse_string` does from the closing quote on. -/
theorem parseString_of_end (item : LiteCjson) {body after : List UInt8}
    (hat : At src ahead text buffer before (quoted body ++ after))
    (hend : stringEnd src buffer (src.length + 1) (buffer.offset + 1) =
      .ok (buffer.offset + 1 + body.length)) :
    ∃ result, parseString src item buffer = .ok (result, buffer.move (quoted body).length) ∧
      Denotes result (.scalar (.string body)) (ahead ++ before).length := by
  have hfirst : buffer.byteAt src 0 = .ok 34 := At.byteAt_zero (hat.congr rfl rfl)
  have hplace : At src ahead text buffer before ((34 :: body) ++ 34 :: after) :=
    hat.congr rfl (by simp [quoted])
  have hlast : readByte src (buffer.content + (buffer.offset + 1 + body.length)) = .ok 34 := by
    have hread := hplace.read (34 :: body)
    rw [List.length_cons] at hread
    rw [← hread]
    congr 1
    omega
  have hlength := hplace.length_eq_offset (34 :: body)
  simp only [List.length_cons] at hlength
  unfold parseString
  rw [hfirst, Outcome.ok_bind, if_neg (by decide), hend, Outcome.ok_bind,
    if_neg (by omega), hlast, Outcome.ok_bind, if_neg (by decide)]
  have hnext : { buffer with offset := buffer.offset + 1 + (body.length : Int) + 1 } =
      buffer.move (quoted body).length := by
    simp only [ParseBuffer.move, quoted, List.length_append, List.length_cons, List.length_nil,
      ParseBuffer.mk.injEq, true_and]
    omega
  rw [hnext]
  refine ⟨_, rfl, ?_⟩
  exact
    { type := rfl
      value := by simp [Doc.indent, hat.place]
      valueLength := by
        simp only [Doc.contents]
        omega
      size := by simp }

/-- A string ends at its closing quote. -/
theorem parseString_keeps (item : LiteCjson) {byte : UInt8}
    (hat : At src ahead text buffer before (byte :: rest)) :
    (parseString src item buffer).Keeps fun result =>
      ∃ body after, byte :: rest = quoted body ++ after ∧ StringBody body ∧
        Denotes result.1 (.scalar (.string body)) (ahead ++ before).length ∧
        At src ahead text result.2 (before ++ quoted body) after := by
  by_cases hquote : byte = 34
  · subst hquote
    have hroom : rest.length < src.length + 1 := by
      have hlength := hat.length_rest_le
      rw [List.length_cons] at hlength
      omega
    have hscan : (stringEnd src buffer (src.length + 1) (buffer.offset + 1)).Keeps fun inputEnd =>
        ∃ body after, rest = body ++ after ∧ StringBody body ∧
          inputEnd = buffer.offset + 1 + body.length ∧ (after = [] ∨ after.head? = some 34) :=
      stringEnd_keeps (src.length + 1) [34] hat hroom
    cases hend : stringEnd src buffer (src.length + 1) (buffer.offset + 1) with
    | ok inputEnd =>
        obtain ⟨body, after, hrest, hbody, hinputEnd, hafter⟩ := hscan.of_ok hend
        rw [hinputEnd] at hend
        cases after with
        | nil =>
            have hlength := hat.length_eq_offset [34]
            rw [hrest, List.append_nil] at hlength
            unfold parseString
            rw [hat.byteAt_zero, Outcome.ok_bind, if_neg (by decide), hend, Outcome.ok_bind,
              if_pos (by rw [hlength]; exact Int.le_refl _)]
            exact Outcome.keeps_failed
        | cons last after =>
            have hlast : last = 34 := by simpa using hafter
            have hsplit : 34 :: rest = quoted body ++ after := by
              rw [hrest, hlast, quoted]
              simp
            have hplace := hat.congr rfl hsplit
            obtain ⟨result, hresult, hdenotes⟩ := parseString_of_end item hplace hend
            rw [hresult]
            exact ⟨body, after, hsplit, hbody, hdenotes, hplace.move _⟩
    | failed =>
        unfold parseString
        rw [hat.byteAt_zero, Outcome.ok_bind, if_neg (by decide), hend]
        exact Outcome.keeps_failed
    | stray =>
        rw [hend] at hscan
        exact hscan.elim
    | running =>
        rw [hend] at hscan
        exact hscan.elim
  · unfold parseString
    rw [hat.byteAt_zero, Outcome.ok_bind, if_pos hquote]
    exact Outcome.keeps_failed

/-- A string is parsed as a whole. -/
theorem parseString_eq (item : LiteCjson) {body after : List UInt8} (hbody : StringBody body)
    (hat : At src ahead text buffer before (quoted body ++ after)) :
    ∃ result, parseString src item buffer = .ok (result, buffer.move (quoted body).length) ∧
      Denotes result (.scalar (.string body)) (ahead ++ before).length := by
  have hplace : At src ahead text buffer before ([34] ++ (body ++ 34 :: after)) :=
    hat.congr rfl (by simp [quoted])
  have hroom : body.length < src.length + 1 := by
    have hlength := hplace.length_rest_le
    simp only [List.length_append, List.length_cons] at hlength
    omega
  apply parseString_of_end item hat
  exact stringEnd_eq (src.length + 1) [34] hbody hplace hroom

end EnosDeviceSdk.Infra
