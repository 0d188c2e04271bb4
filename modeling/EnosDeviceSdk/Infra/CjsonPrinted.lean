/-
# The text of a JSON item

What the printer makes of a tree, as a text. A number has the shortest of three texts that `sscanf`
reads back, a string is escaped, and a formatted object has a line for every member.

Printing a tree either shows this text in the buffer, or gives up where it is not easy to go on, or
it goes astray at a number whose text is too long for the array on the stack.
-/

import EnosDeviceSdk.Infra.CjsonPrintRoom

namespace EnosDeviceSdk.Infra.Printer

open EnosDeviceSdk.Library

variable {δ : Type}

/-! ## Texts -/

/-- What a byte of a string is printed as. -/
def escapedByte (byte : UInt8) : List UInt8 :=
  if 31 < byte ∧ byte ≠ 34 ∧ byte ≠ 92 then [byte]
  else
    match escapeLetter byte with
    | some letter => [92, letter]
    | none => 92 :: unicodeEscape byte

/-- What is printed between the quotes of a string. -/
def escaped (bytes : List UInt8) : List UInt8 := bytes.flatMap escapedByte

/-- The bytes of a string, none for a null pointer. -/
def stringBytes (string : Option CString) : List UInt8 := (string.map CString.bytes).getD []

/-- A string in its quotes. -/
def quoted (string : Option CString) : List UInt8 := 34 :: escaped (stringBytes string) ++ [34]

/-- The zeros at the end of a number and then a point, from behind. -/
def stripReversed : List UInt8 → List UInt8
  | [] => []
  | byte :: rest =>
      if byte = 48 then stripReversed rest else if byte = 46 then rest else byte :: rest

/-- A number without the zeros at the end of its fraction. -/
def trimmed (text : List UInt8) : List UInt8 :=
  if 46 ∈ text then (stripReversed text.reverse).reverse else text

/-- The text of a number. -/
def printedNumber (N : NumberFormat δ) (d : δ) : List UInt8 :=
  if N.notFinite d then nullText.bytes
  else if N.fixedExact d then trimmed (N.fixed d).bytes
  else if N.shortExact d then (N.short d).bytes
  else (N.long d).bytes

/-- The texts of a number that are tried have room in the array. -/
def NumberFits (N : NumberFormat δ) (d : δ) : Prop :=
  N.notFinite d = true ∨ (N.fixed d).strlen < numberBufferSize ∧
    (N.fixedExact d = true ∨ (N.short d).strlen < numberBufferSize ∧
      (N.shortExact d = true ∨ (N.long d).strlen < numberBufferSize))

instance (N : NumberFormat δ) (d : δ) : Decidable (NumberFits N d) :=
  inferInstanceAs (Decidable (_ ∨ _ ∧ (_ ∨ _ ∧ (_ ∨ _))))

/-- What stands behind an element of an array. -/
def commaText (format last : Bool) : List UInt8 :=
  if last then [] else if format then [44, 32] else [44]

/-- What stands in front of a key. -/
def indentText (format : Bool) (depth : Nat) : List UInt8 := if format then tabs depth else []

/-- What stands between a key and its value. -/
def colonText (format : Bool) : List UInt8 := if format then [58, 9] else [58]

/-- What stands behind a member of an object. -/
def lineEndText (format last : Bool) : List UInt8 :=
  (if last then [] else [44]) ++ (if format then [10] else [])

/-- What an object begins with. -/
def openingText (format : Bool) : List UInt8 := if format then [123, 10] else [123]

mutual

/-- The text of an item. -/
def printed (N : NumberFormat δ) (format : Bool) : Nat → LiteCjsonItem δ → List UInt8
  | depth, .mk type valuestring d _ child =>
      match itemKind type with
      | some .null => [110, 117, 108, 108]
      | some .false => [102, 97, 108, 115, 101]
      | some .true => [116, 114, 117, 101]
      | some .number => printedNumber N d
      | some .raw => stringBytes valuestring
      | some .string => quoted valuestring
      | some .array => 91 :: printedElements N format (depth + 1) child ++ [93]
      | some .object =>
          openingText format ++ printedMembers N format (depth + 1) child ++
            (indentText format depth ++ [125])
      | none => []

/-- The texts of the elements of an array. -/
def printedElements (N : NumberFormat δ) (format : Bool) :
    Nat → List (LiteCjsonItem δ) → List UInt8
  | _, [] => []
  | depth, element :: next =>
      printed N format depth element ++ commaText format next.isEmpty ++
        printedElements N format depth next

/-- The texts of the members of an object. -/
def printedMembers (N : NumberFormat δ) (format : Bool) :
    Nat → List (LiteCjsonItem δ) → List UInt8
  | _, [] => []
  | depth, item :: next =>
      indentText format depth ++ quoted item.string ++ colonText format ++
        printed N format depth item ++ lineEndText format next.isEmpty ++
          printedMembers N format depth next

end

/-! ## Items that are visited -/

mutual

/-- The item and everything below it that is printed. -/
def visited : LiteCjsonItem δ → List (LiteCjsonItem δ)
  | .mk type valuestring d string child =>
      .mk type valuestring d string child ::
        match itemKind type with
        | some .array | some .object => visitedAll child
        | _ => []

/-- What is visited in a chain of items. -/
def visitedAll : List (LiteCjsonItem δ) → List (LiteCjsonItem δ)
  | [] => []
  | item :: next => visited item ++ visitedAll next

end

/-- The item has a known type, and if it is raw, a text. -/
def CanPrint : LiteCjsonItem δ → Prop
  | .mk type valuestring _ _ _ =>
      itemKind type ≠ none ∧ (itemKind type = some .raw → valuestring ≠ none)

instance : ∀ item : LiteCjsonItem δ, Decidable (CanPrint item)
  | .mk .. => inferInstanceAs (Decidable (_ ∧ (_ → _)))

/-- If the item is a number, its texts have room in the array. -/
def IsNarrow (N : NumberFormat δ) : LiteCjsonItem δ → Prop
  | .mk type _ d _ _ => itemKind type = some .number → NumberFits N d

instance (N : NumberFormat δ) : ∀ item : LiteCjsonItem δ, Decidable (IsNarrow N item)
  | .mk .. => inferInstanceAs (Decidable (_ → _))

/-! ## Strings -/

/-- The text of a byte is as long as the code counts, and it has no terminator. -/
theorem escapedByte_counted (byte : UInt8) :
    (escapedByte byte).length = 1 + escapeCharacters byte ∧ (byte ≠ 0 → 0 ∉ escapedByte byte) := by
  revert byte
  exact forall_byte (by decide +kernel)

theorem length_escaped (bytes : List UInt8) :
    (escaped bytes).length = bytes.length + (bytes.map escapeCharacters).sum := by
  induction bytes with
  | nil => rfl
  | cons byte rest ih =>
      have hbyte := (escapedByte_counted byte).1
      rw [escaped, List.flatMap_cons, List.length_append, ← escaped, ih, hbyte, List.length_cons,
        List.map_cons, List.sum_cons]
      omega

/-- Where nothing is counted, nothing is escaped. -/
theorem escaped_of_none {bytes : List UInt8} (hnone : (bytes.map escapeCharacters).sum = 0) :
    escaped bytes = bytes := by
  induction bytes with
  | nil => rfl
  | cons byte rest ih =>
      rw [List.map_cons, List.sum_cons] at hnone
      have hself : ∀ byte : UInt8, escapeCharacters byte = 0 → escapedByte byte = [byte] :=
        forall_byte (by decide +kernel)
      rw [escaped, List.flatMap_cons, ← escaped, ih (by omega), hself byte (by omega)]
      rfl

theorem zero_not_mem_escaped {bytes : List UInt8} (hbytes : 0 ∉ bytes) : 0 ∉ escaped bytes := by
  intro hzero
  obtain ⟨byte, hbyte, hmem⟩ := List.mem_flatMap.mp hzero
  exact (escapedByte_counted byte).2 (fun hnul => hbytes (hnul ▸ hbyte)) hmem

theorem zero_not_mem_stringBytes (string : Option CString) : 0 ∉ stringBytes string := by
  cases string with
  | none => exact List.not_mem_nil
  | some string => exact string.noNul

theorem zero_not_mem_quoted (string : Option CString) : 0 ∉ quoted string := by
  have hescaped := zero_not_mem_escaped (zero_not_mem_stringBytes string)
  simp [quoted, hescaped]

/-! ## Numbers -/

theorem removeZeroScan_eq {text : List UInt8} (htext : 0 ∉ text) (behind : List UInt8) (idx : Nat)
    (found : Bool) :
    removeZeroScan (text ++ 0 :: behind) idx found =
      (idx + text.length, found || decide (46 ∈ text)) := by
  induction text generalizing idx found with
  | nil => simp [removeZeroScan]
  | cons byte rest ih =>
      rw [List.mem_cons, not_or] at htext
      rw [List.cons_append, removeZeroScan]
      have hplace : idx + 1 + rest.length = idx + (byte :: rest).length := by
        rw [List.length_cons]
        omega
      by_cases hpoint : byte = 46
      · rw [if_pos hpoint, ih htext.2, hplace]
        simp [hpoint]
      · rw [if_neg hpoint, if_neg (Ne.symm htext.1), ih htext.2, hplace]
        simp [Ne.symm hpoint]

/-- The second loop goes over the text from behind. -/
theorem removeZeroStrip_eq (reversed behind : List UInt8) :
    ∃ rest, removeZeroStrip reversed.length (reversed.reverse ++ behind) reversed.length =
      ((stripReversed reversed).reverse ++ rest, (stripReversed reversed).length) := by
  induction reversed generalizing behind with
  | nil => exact ⟨behind, rfl⟩
  | cons byte reversed ih =>
      have hsplit : (byte :: reversed).reverse ++ behind = reversed.reverse ++ byte :: behind := by
        simp
      have hplace : (reversed.reverse ++ byte :: behind).getD reversed.length 0 = byte := by
        rw [List.getD_eq_getElem?_getD, List.getElem?_append_right (by simp)]
        simp
      have hset : (reversed.reverse ++ byte :: behind).set reversed.length 0 =
          reversed.reverse ++ 0 :: behind := by
        rw [List.set_append_right _ _ (by simp)]
        simp
      rw [hsplit, List.length_cons, removeZeroStrip, hplace, hset, stripReversed,
        Nat.add_sub_cancel]
      by_cases hzero : byte = 48
      · rw [if_pos hzero, if_pos hzero]
        exact ih (0 :: behind)
      · rw [if_neg hzero, if_neg hzero]
        by_cases hpoint : byte = 46
        · rw [if_pos hpoint, if_pos hpoint]
          exact ⟨0 :: behind, rfl⟩
        · rw [if_neg hpoint, if_neg hpoint, ← hsplit]
          exact ⟨behind, rfl⟩

theorem stripReversed_suffix (reversed : List UInt8) : stripReversed reversed <:+ reversed := by
  induction reversed with
  | nil => exact List.suffix_refl _
  | cons byte rest ih =>
      rw [stripReversed]
      split_ifs with hzero hpoint
      · exact ih.trans (List.suffix_cons byte rest)
      · exact List.suffix_cons byte rest
      · exact List.suffix_refl _

/-- What is left of a number is its beginning. -/
theorem trimmed_prefix_text (text : List UInt8) : trimmed text <+: text := by
  unfold trimmed
  split_ifs
  · have hsuffix := stripReversed_suffix text.reverse
    rwa [← List.reverse_prefix, List.reverse_reverse] at hsuffix
  · exact List.prefix_refl text

/-- `remove_zero` leaves the trimmed number, and its length. -/
theorem removeZero_eq {text : List UInt8} (htext : 0 ∉ text) (behind : List UInt8) :
    ∃ rest, removeZero (text ++ 0 :: behind) text.length =
      (trimmed text ++ rest, (trimmed text).length) := by
  rw [removeZero, removeZeroScan_eq htext, trimmed]
  by_cases hpoint : 46 ∈ text
  · obtain ⟨rest, hstrip⟩ := removeZeroStrip_eq text.reverse (0 :: behind)
    rw [List.reverse_reverse, List.length_reverse] at hstrip
    refine ⟨rest, ?_⟩
    simp [hpoint, hstrip]
  · exact ⟨0 :: behind, by simp [hpoint]⟩

theorem zero_not_mem_printedNumber (N : NumberFormat δ) (d : δ) : 0 ∉ printedNumber N d := by
  unfold printedNumber
  split_ifs
  · exact nullText.noNul
  · exact fun hzero => (N.fixed d).noNul ((trimmed_prefix_text _).subset hzero)
  · exact (N.short d).noNul
  · exact (N.long d).noNul

/-- A text that has room stands at the beginning of the array. -/
theorem printToNumberBuffer_eq {text : CString} (hfits : text.strlen < numberBufferSize) :
    ∃ zeros, printToNumberBuffer text = .ok (text.bytes ++ 0 :: zeros) := by
  obtain ⟨room, hroom⟩ : ∃ room, numberBufferSize - text.bytes.length = room + 1 := by
    rw [CString.strlen] at hfits
    exact ⟨numberBufferSize - text.bytes.length - 1, by omega⟩
  refine ⟨List.replicate room 0, ?_⟩
  rw [printToNumberBuffer, if_pos hfits, padded, hroom, List.replicate_succ]

/-- Where the texts have room, the number's text is in the array, and otherwise they go astray. -/
theorem numberInBuffer_cases (N : NumberFormat δ) (d : δ) :
    (NumberFits N d ∧ (printedNumber N d).length < numberBufferSize ∧
      ∃ rest, numberInBuffer N d =
        .ok (printedNumber N d ++ rest, (printedNumber N d).length)) ∨
      (¬NumberFits N d ∧ numberInBuffer N d = .stray) := by
  have hlong : ∀ text : CString, ¬text.strlen < numberBufferSize →
      printToNumberBuffer text = .stray := fun text htext => if_neg htext
  unfold numberInBuffer printedNumber NumberFits
  by_cases hnull : N.notFinite d
  · obtain ⟨zeros, hbuffer⟩ := printToNumberBuffer_eq (show nullText.strlen < _ by decide)
    refine .inl ⟨.inl hnull, ?_⟩
    rw [if_pos hnull, if_pos hnull, hbuffer]
    exact ⟨by decide, _, rfl⟩
  rw [if_neg hnull, if_neg hnull]
  by_cases hfixed : (N.fixed d).strlen < numberBufferSize
  · obtain ⟨zeros, hbuffer⟩ := printToNumberBuffer_eq hfixed
    rw [hbuffer, Outcome.ok_bind]
    by_cases hexact : N.fixedExact d
    · obtain ⟨rest, hremove⟩ := removeZero_eq (N.fixed d).noNul zeros
      have hshorter := (trimmed_prefix_text (N.fixed d).bytes).length_le
      rw [if_pos hexact, if_pos hexact]
      refine .inl ⟨.inr ⟨hfixed, .inl hexact⟩, Nat.lt_of_le_of_lt hshorter hfixed, rest, ?_⟩
      exact congrArg Outcome.ok hremove
    rw [if_neg hexact, if_neg hexact]
    by_cases hshort : (N.short d).strlen < numberBufferSize
    · obtain ⟨zeros, hbuffer⟩ := printToNumberBuffer_eq hshort
      rw [hbuffer, Outcome.ok_bind]
      by_cases hexact : N.shortExact d
      · rw [if_pos hexact, if_pos hexact]
        exact .inl ⟨.inr ⟨hfixed, .inr ⟨hshort, .inl hexact⟩⟩, hshort, _, rfl⟩
      rw [if_neg hexact, if_neg hexact]
      by_cases hlast : (N.long d).strlen < numberBufferSize
      · obtain ⟨zeros, hbuffer⟩ := printToNumberBuffer_eq hlast
        rw [hbuffer]
        exact .inl ⟨.inr ⟨hfixed, .inr ⟨hshort, .inr hlast⟩⟩, hlast, _, rfl⟩
      · rw [hlong _ hlast]
        exact .inr ⟨by simp [*], rfl⟩
    · rw [hlong _ hshort]
      exact .inr ⟨by simp [*], rfl⟩
  · rw [hlong _ hfixed]
    exact .inr ⟨by simp [*], rfl⟩

section Contracts

variable {ι : Type} [DecidableEq ι] {A : BlockAllocator ι} {S : Setting ι}
  {text done : List UInt8} {room : Nat} {block : ι} {p : PrintBuffer ι} {easy astray : Prop}

/-- The loop escapes the bytes one after another. Behind an escape with digits it writes a
terminator that the next byte takes the place of. -/
theorem copyEscaped_meets {dropped : PrintBuffer ι → Prop} (bytes : List UInt8)
    (hroom : Room S text done room block p) {place : Nat}
    (hplace : place = text.length + done.length) {left : Nat} (hleft : 0 < left)
    (hfits : (escaped bytes).length + left ≤ room) :
    (copyEscaped bytes ⟨block, place⟩).Meets p
      (fun _ q => Room S text (done ++ escaped bytes) left block q) dropped astray := by
  induction bytes generalizing done room p place with
  | nil =>
      apply Attempt.meets_pure
      rw [escaped, List.flatMap_nil, List.append_nil]
      exact hroom.less (by simpa [escaped] using hfits)
  | cons byte rest ih =>
      have hsplit : escaped (byte :: rest) = escapedByte byte ++ escaped rest := rfl
      rw [hsplit, List.length_append] at hfits
      rw [hsplit, ← List.append_assoc]
      rw [copyEscaped]
      by_cases hplain : 31 < byte ∧ byte ≠ 34 ∧ byte ≠ 92
      · have hself : escapedByte byte = [byte] := if_pos hplain
        rw [hself] at hfits ⊢
        rw [if_pos hplain]
        refine Attempt.Meets.bind
          (write_meets hroom hplace ((escaped rest).length + left) (by simp at hfits ⊢; omega)) ?_
        intro _ q hq
        exact ih hq (by simp [hplace, Nat.add_assoc]) (Nat.le_refl _)
      · rw [if_neg hplain]
        cases hletter : escapeLetter byte with
        | some letter =>
            have hself : escapedByte byte = [92] ++ [letter] := by
              rw [escapedByte, if_neg hplain, hletter]
              rfl
            rw [hself] at hfits ⊢
            rw [← List.append_assoc]
            refine Attempt.Meets.bind
              (write_meets hroom hplace (1 + (escaped rest).length + left)
                (by simp at hfits ⊢; omega)) ?_
            intro _ q hq
            refine Attempt.Meets.bind
              (write_meets hq ?_ ((escaped rest).length + left) (by simp; omega)) ?_
            · simp [hplace, Nat.add_assoc]
            intro _ r hr
            exact ih hr (by simp [hplace, Nat.add_assoc]) (Nat.le_refl _)
        | none =>
            have hself : escapedByte byte = [92] ++ unicodeEscape byte := by
              rw [escapedByte, if_neg hplain, hletter]
              rfl
            have hlength : (unicodeEscape byte).length = 5 := rfl
            rw [hself] at hfits ⊢
            rw [← List.append_assoc]
            refine Attempt.Meets.bind
              (write_meets hroom hplace (5 + (escaped rest).length + left)
                (by simp [hlength] at hfits ⊢; omega)) ?_
            intro _ q hq
            refine Attempt.Meets.bind
              (write_meets hq ?_ ((escaped rest).length + left - 1) (by simp [hlength]; omega)) ?_
            · simp [hplace, Nat.add_assoc]
            intro _ r hr
            rw [← List.append_assoc] at hr
            exact ih hr.back (by simp [hplace, hlength, Nat.add_assoc]) (by simp; omega)

/-- `print_string_ptr` shows the string in its quotes. -/
theorem printStringPtr_meets (hholds : Holds S text p) (string : Option CString)
    (heasy : easy → text.length + (quoted string).length + 2 ≤ intMaxSize) :
    (printStringPtr A string).Meets p (fun _ q => Shows S text (quoted string) q)
      (Dropped S.base easy) astray := by
  cases string with
  | none =>
      refine Attempt.Meets.bind (ensure_meets hholds heasy) ?_
      rintro _ q ⟨block, rfl, hq⟩
      refine (write_meets hq rfl 0 (by simp)).imp ?_
      exact fun _ r hr => hr.shows
  | some input =>
      have hlength := length_escaped input.bytes
      have hquoted : quoted (some input) = [34] ++ escaped input.bytes ++ [34] := rfl
      rw [hquoted] at heasy ⊢
      refine Attempt.Meets.bind (ensure_meets hholds ?_) ?_
      · intro h
        have hsmall := heasy h
        simp only [List.length_append, List.length_singleton, CString.strlen] at hsmall ⊢
        omega
      rintro _ q ⟨block, rfl, hq⟩
      refine Attempt.Meets.bind
        (write_meets hq rfl ((escaped input.bytes).length + 2) ?_) ?_
      · simp only [List.length_singleton, CString.strlen]
        omega
      intro _ r hr
      have hcopy : (copyString input (input.bytes.map escapeCharacters).sum
          ⟨block, text.length + 1⟩).Meets r
            (fun _ s => Room S text ([34] ++ escaped input.bytes) 2 block s)
              (Dropped S.base easy) astray := by
        unfold copyString
        by_cases hnone : (input.bytes.map escapeCharacters).sum = 0
        · rw [if_pos hnone, escaped_of_none hnone] at *
          exact write_meets hr rfl 2 (by omega)
        · rw [if_neg hnone]
          exact copyEscaped_meets input.bytes hr rfl (by omega) (Nat.le_refl _)
      refine Attempt.Meets.bind hcopy ?_
      intro _ s hs
      refine Attempt.Meets.bind (write_meets hs ?_ 1 (by simp)) ?_
      · simp only [List.length_append, List.length_singleton, CString.strlen]
        omega
      intro _ t ht
      refine (write_meets ht ?_ 0 (by simp)).imp ?_
      · simp only [List.length_append, List.length_singleton, CString.strlen]
        omega
      exact fun _ u hu => hu.shows

/-- `print_number` shows the number, if the texts that it tries have room in the array. -/
theorem printNumber_meets (N : NumberFormat δ) (d : δ) (hholds : Holds S text p)
    (heasy : easy → text.length + (printedNumber N d).length + 2 ≤ intMaxSize) :
    (printNumber A N d).Meets p
      (fun _ q => Shows S text (printedNumber N d) q ∧ NumberFits N d) (Dropped S.base easy)
      (¬NumberFits N d) := by
  rcases numberInBuffer_cases N d with ⟨hfits, hshort, rest, hbuffer⟩ | ⟨hwide, hstray⟩
  · have hread : (Attempt.attempt fun p => do return (← numberInBuffer N d, p) :
        Printing ι (List UInt8 × Nat)) p =
          .ok (some (printedNumber N d ++ rest, (printedNumber N d).length), p) := by
      simp only [Attempt.attempt, hbuffer, Outcome.ok_bind, Outcome.pure_eq]
    have hpoint : ∀ bytes : List UInt8,
        bytes.map (fun byte => if byte = getDecimalPoint then 46 else byte) = bytes := by
      intro bytes
      have hself : ∀ byte ∈ bytes, (if byte = getDecimalPoint then 46 else byte) = id byte := by
        intro byte _
        by_cases hpoint : byte = getDecimalPoint
        · rw [if_pos hpoint, hpoint]
          rfl
        · rw [if_neg hpoint]
          rfl
      rw [List.map_congr_left hself, List.map_id]
    unfold printNumber
    refine Attempt.meets_bind_of_eq hread ?_
    dsimp only
    rw [if_neg (by omega), List.take_left, hpoint]
    refine Attempt.Meets.bind (ensure_meets hholds heasy) ?_
    rintro _ q ⟨block, rfl, hq⟩
    refine Attempt.Meets.bind (write_meets hq rfl 1 (Nat.le_refl _)) ?_
    intro _ r hr
    refine Attempt.Meets.bind (write_meets hr rfl 0 (Nat.le_refl _)) ?_
    intro _ s hs
    exact ⟨hs.shows.moved hs.offset rfl, hfits⟩
  · have hread : (Attempt.attempt fun p => do return (← numberInBuffer N d, p) :
        Printing ι (List UInt8 × Nat)) p = .stray := by
      simp only [Attempt.attempt, hstray]
      rfl
    unfold printNumber
    exact Attempt.meets_bind_of_stray hread hwide

end Contracts

end EnosDeviceSdk.Infra.Printer
