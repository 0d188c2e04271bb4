/-
# What is printed is read back

An item without raw parts has a value, and its text is a JSON text that spells this value with the
white space of the format. The parser accepts the text as long as it is not nested too deep, and its
accessors give back the value from the root on. Two items with the same text have the same value.

Numbers are texts here. That the texts of the C library are numbers is assumed of it; that they are
still numbers without the zeros at their end is shown.
-/

import EnosDeviceSdk.Infra.CjsonPrintContract
import EnosDeviceSdk.Infra.CjsonMembers

namespace EnosDeviceSdk.Infra.Printer

open EnosDeviceSdk.Library

variable {δ ι : Type} {N : NumberFormat δ}

/-! ## Values -/

/-- A JSON value. A number is its text, and a string its bytes. -/
inductive Json
  | null
  | bool (value : Bool)
  | number (text : List UInt8)
  | string (bytes : List UInt8)
  | array (elements : List Json)
  | object (members : List (List UInt8 × Json))

mutual

/-- The value of an item, if it has no raw parts and no unknown types. -/
def itemJson (N : NumberFormat δ) : LiteCjsonItem δ → Option Json
  | .mk type valuestring d _ child =>
      match itemKind type with
      | some .null => some .null
      | some .false => some (.bool false)
      | some .true => some (.bool true)
      | some .number => some (if N.notFinite d then .null else .number (printedNumber N d))
      | some .string => some (.string (stringBytes valuestring))
      | some .array => (childJson N child).map fun members => .array (members.map Prod.snd)
      | some .object => (childJson N child).map .object
      | some .raw => none
      | none => none

/-- The keys and the values of a chain of items. -/
def childJson (N : NumberFormat δ) : List (LiteCjsonItem δ) → Option (List (List UInt8 × Json))
  | [] => some []
  | item :: next => do
      let value ← itemJson N item
      let rest ← childJson N next
      return (stringBytes item.string, value) :: rest

end

mutual

/-- How many levels of nesting an item has. -/
def levels : LiteCjsonItem δ → Nat
  | .mk type _ _ _ child =>
      match itemKind type with
      | some .array | some .object => levelsAll child + 1
      | _ => 0

/-- The levels of the deepest item of a chain. -/
def levelsAll : List (LiteCjsonItem δ) → Nat
  | [] => 0
  | item :: next => max (levels item) (levelsAll next)

end

/-- The beginning of a line of a formatted object. -/
def lineText (format : Bool) (depth : Nat) : List UInt8 := if format then 10 :: tabs depth else []

mutual

/-- The text of a value as a tree with the white space of the format. -/
def Json.doc (format : Bool) : Nat → Json → Doc
  | _, .null => .scalar .null
  | _, .bool true => .scalar .true
  | _, .bool false => .scalar .false
  | _, .number text => .scalar (.number text)
  | _, .string bytes => .scalar (.string (escaped bytes))
  | depth, .array elements => .nest .array [] (elementDocs format (depth + 1) [] elements)
  | depth, .object members =>
      .nest .object (lineText format depth) (memberDocs format depth members)

/-- The elements of an array, with the white space in front of the first one. -/
def elementDocs (format : Bool) : Nat → List UInt8 → List Json → List (Frame × Doc)
  | _, _, [] => []
  | depth, blank, element :: rest =>
      (⟨blank, none, []⟩, element.doc format depth) ::
        elementDocs format depth (if format then [32] else []) rest

/-- The members of an object at a depth, each on its line. -/
def memberDocs (format : Bool) : Nat → List (List UInt8 × Json) → List (Frame × Doc)
  | _, [] => []
  | depth, (key, value) :: rest =>
      (⟨lineText format (depth + 1), some ⟨escaped key, [], if format then [9] else []⟩,
          if rest.isEmpty then lineText format depth else []⟩,
        value.doc format (depth + 1)) ::
        memberDocs format depth rest

end

/-! ## The text of a value -/

theorem joinCommas_cons_cons (first second : List UInt8) (rest : List (List UInt8)) :
    joinCommas (first :: second :: rest) = first ++ 44 :: joinCommas (second :: rest) := by
  simp [joinCommas]

/-- The value of a chain, item by item. -/
theorem childJson_cons {item : LiteCjsonItem δ} {next : List (LiteCjsonItem δ)}
    {members : List (List UInt8 × Json)} :
    childJson N (item :: next) = some members ↔ ∃ value rest, itemJson N item = some value ∧
      childJson N next = some rest ∧ members = (stringBytes item.string, value) :: rest := by
  rw [childJson]
  cases hitem : itemJson N item with
  | none => simp
  | some value =>
      cases hnext : childJson N next with
      | none => simp
      | some rest => simp [eq_comm]

/-- Only an empty chain has no values. -/
theorem nil_of_childJson {items : List (LiteCjsonItem δ)} {members : List (List UInt8 × Json)}
    (hmembers : childJson N items = some members) (hnil : members = []) : items = [] := by
  cases items with
  | nil => rfl
  | cons item next =>
      obtain ⟨_, _, _, _, rfl⟩ := childJson_cons.mp hmembers
      exact absurd hnil (List.cons_ne_nil _ _)

theorem ne_nil_of_childJson {items : List (LiteCjsonItem δ)} {members : List (List UInt8 × Json)}
    (hmembers : childJson N items = some members) (hsome : members ≠ []) : items ≠ [] := by
  rintro rfl
  obtain rfl := Option.some.inj hmembers
  exact hsome rfl

theorem childJson_isEmpty {items : List (LiteCjsonItem δ)} {members : List (List UInt8 × Json)}
    (hmembers : childJson N items = some members) : members.isEmpty = items.isEmpty := by
  rw [Bool.eq_iff_iff, List.isEmpty_iff, List.isEmpty_iff]
  constructor
  · exact nil_of_childJson hmembers
  · rintro rfl
    exact (Option.some.inj hmembers).symm

/-- An element and a comma, and the elements behind. -/
theorem elements_cons {format : Bool} {depth : Nat} {blank : List UInt8} {value : Json}
    {values : List Json} {text rest : List UInt8}
    (hvalue : text = (value.doc format depth).render)
    (hrest : values ≠ [] → (if format then [32] else []) ++ rest =
      joinCommas ((elementDocs format depth (if format then [32] else []) values).map entryText))
    (hnone : values = [] → rest = []) :
    blank ++ (text ++ commaText format values.isEmpty ++ rest) =
      joinCommas ((elementDocs format depth blank (value :: values)).map entryText) := by
  rw [elementDocs, List.map_cons, entryText]
  cases values with
  | nil =>
      rw [hnone rfl]
      simp [elementDocs, joinCommas, Frame.wrap, Frame.lead, commaText, hvalue]
  | cons second later =>
      have hmore := hrest (List.cons_ne_nil second later)
      rw [elementDocs, List.map_cons] at hmore ⊢
      rw [joinCommas_cons_cons, ← hmore]
      cases format <;> simp [Frame.wrap, Frame.lead, commaText, hvalue]

/-- A member on its line, and the members behind. -/
theorem members_cons {format : Bool} {depth : Nat} {key : List UInt8} {value : Json}
    {members : List (List UInt8 × Json)} {text rest : List UInt8}
    (hvalue : text = (value.doc format (depth + 1)).render)
    (hrest : members ≠ [] → (if format then [10] else []) ++ rest ++ indentText format depth =
      joinCommas ((memberDocs format depth members).map entryText))
    (hnone : members = [] → rest = []) :
    (if format then [10] else []) ++ (indentText format (depth + 1) ++
      (34 :: escaped key ++ [34]) ++
        colonText format ++ text ++ lineEndText format members.isEmpty ++ rest) ++
          indentText format depth =
      joinCommas ((memberDocs format depth ((key, value) :: members)).map entryText) := by
  rw [memberDocs, List.map_cons, entryText]
  cases members with
  | nil =>
      rw [hnone rfl]
      cases format <;> simp [memberDocs, joinCommas, Frame.wrap, Frame.lead, Label.render, lineText,
        indentText, colonText, lineEndText, hvalue]
  | cons second later =>
      obtain ⟨key', value'⟩ := second
      have hmore := hrest (List.cons_ne_nil _ later)
      rw [memberDocs, List.map_cons] at hmore ⊢
      rw [joinCommas_cons_cons, ← hmore]
      cases format <;> simp [Frame.wrap, Frame.lead, Label.render, lineText, indentText, colonText,
        lineEndText, hvalue]

/-- What the text of a chain has to be, in an array and in an object. -/
def SpellsElements (N : NumberFormat δ) (items : List (LiteCjsonItem δ)) : Prop :=
  ∀ {members : List (List UInt8 × Json)} (format : Bool) (depth : Nat) (blank : List UInt8),
    childJson N items = some members → items ≠ [] →
      blank ++ printedElements N format depth items =
        joinCommas ((elementDocs format depth blank (members.map Prod.snd)).map entryText)

@[inherit_doc SpellsElements]
def SpellsMembers (N : NumberFormat δ) (items : List (LiteCjsonItem δ)) : Prop :=
  ∀ {members : List (List UInt8 × Json)} (format : Bool) (depth : Nat),
    childJson N items = some members → items ≠ [] →
      (if format then [10] else []) ++ printedMembers N format (depth + 1) items ++
          indentText format depth =
        joinCommas ((memberDocs format depth members).map entryText)

/-- An item's text spells its value, if the texts of the items below it do. -/
theorem printed_of_child {type : UInt32} {valuestring string : Option CString} {d : δ}
    {child : List (LiteCjsonItem δ)} {value : Json} (helements : SpellsElements N child)
    (hmembers : SpellsMembers N child) (format : Bool) (depth : Nat)
    (hvalue : itemJson N (.mk type valuestring d string child) = some value) :
    printed N format depth (.mk type valuestring d string child) =
      (value.doc format depth).render := by
  rw [itemJson] at hvalue
  rw [printed]
  cases hkind : itemKind type with
  | none => simp [hkind] at hvalue
  | some kind =>
      rw [hkind] at hvalue
      cases kind with
      | null | false | true =>
          obtain rfl := Option.some.inj hvalue
          rfl
      | string =>
          obtain rfl := Option.some.inj hvalue
          rfl
      | raw => simp at hvalue
      | number =>
          obtain rfl := Option.some.inj hvalue
          by_cases hnull : N.notFinite d
          · simp only [printedNumber, hnull, if_true]
            rfl
          · simp only [hnull]
            rfl
      | array =>
          obtain ⟨members, hchild, rfl⟩ := Option.map_eq_some_iff.mp hvalue
          simp only [Json.doc, render_nest]
          cases child with
          | nil =>
              obtain rfl := Option.some.inj hchild
              rfl
          | cons item next =>
              have hbody := helements format (depth + 1) [] hchild (List.cons_ne_nil item next)
              obtain ⟨_, _, _, _, rfl⟩ := childJson_cons.mp hchild
              rw [List.nil_append] at hbody
              rw [hbody]
              rfl
      | object =>
          obtain ⟨members, hchild, rfl⟩ := Option.map_eq_some_iff.mp hvalue
          simp only [Json.doc, render_nest]
          cases child with
          | nil =>
              obtain rfl := Option.some.inj hchild
              cases format <;> rfl
          | cons item next =>
              have hbody := hmembers format depth hchild (List.cons_ne_nil item next)
              obtain ⟨_, _, _, _, rfl⟩ := childJson_cons.mp hchild
              rw [memberDocs] at hbody ⊢
              rw [bodyText, ← hbody]
              cases format <;> simp [openingText, Nest.opening, Nest.closing]

mutual

/-- The text of an item is that of its value. -/
theorem printed_eq : ∀ (item : LiteCjsonItem δ) {value : Json} (format : Bool) (depth : Nat),
    itemJson N item = some value → printed N format depth item = (value.doc format depth).render
  | .mk _ _ _ _ child, _, format, depth, hvalue =>
      printed_of_child (spellsElements child) (spellsMembers child) format depth hvalue

theorem spellsElements : ∀ items : List (LiteCjsonItem δ), SpellsElements N items
  | [] => fun _ _ _ _ hnil => absurd rfl hnil
  | item :: next => fun format depth blank hmembers _ => by
      obtain ⟨value, rest, hvalue, hrest, rfl⟩ := childJson_cons.mp hmembers
      have hempty := childJson_isEmpty hrest
      rw [printedElements, ← hempty, ← List.isEmpty_map, List.map_cons]
      apply elements_cons (printed_eq item format depth hvalue)
      · intro hsome
        exact spellsElements next format depth _ hrest
          (ne_nil_of_childJson hrest (by simpa using hsome))
      · intro hnone
        rw [nil_of_childJson hrest (List.map_eq_nil_iff.mp hnone), printedElements]

theorem spellsMembers : ∀ items : List (LiteCjsonItem δ), SpellsMembers N items
  | [] => fun _ _ _ hnil => absurd rfl hnil
  | item :: next => fun format depth hmembers _ => by
      obtain ⟨value, rest, hvalue, hrest, rfl⟩ := childJson_cons.mp hmembers
      have hempty := childJson_isEmpty hrest
      rw [printedMembers, ← hempty]
      apply members_cons (printed_eq item format (depth + 1) hvalue)
      · exact fun hsome => spellsMembers next format depth hrest (ne_nil_of_childJson hrest hsome)
      · intro hnone
        rw [nil_of_childJson hrest hnone, printedMembers]

end

/-! ## The text is well formed -/

/-- The numbers are number tokens, and there are at most so many levels. -/
inductive Json.Within : Nat → Json → Prop
  | null {levels : Nat} : Within levels .null
  | bool {levels : Nat} {value : Bool} : Within levels (.bool value)
  | number {levels : Nat} {text : List UInt8} (htoken : NumberToken text) :
      Within levels (.number text)
  | string {levels : Nat} {bytes : List UInt8} : Within levels (.string bytes)
  | array {levels : Nat} {elements : List Json}
      (helements : ∀ element ∈ elements, Within levels element) :
      Within (levels + 1) (.array elements)
  | object {levels : Nat} {members : List (List UInt8 × Json)}
      (hmembers : ∀ member ∈ members, Within levels member.2) :
      Within (levels + 1) (.object members)

/-- What a byte is printed as may stand in a JSON string. -/
theorem jsonString_escapedByte (byte : UInt8) {rest : List UInt8} (hrest : JsonString rest) :
    JsonString (escapedByte byte ++ rest) := by
  unfold escapedByte
  by_cases hplain : 31 < byte ∧ byte ≠ 34 ∧ byte ≠ 92
  · rw [if_pos hplain]
    have hcontrol : ∀ byte : UInt8, 31 < byte → 32 ≤ byte := forall_byte (by decide +kernel)
    exact .plain hplain.2.1 hplain.2.2 (hcontrol byte hplain.1) hrest
  · rw [if_neg hplain]
    cases hletter : escapeLetter byte with
    | some letter =>
        have hletters : ∀ byte : UInt8,
            (escapeLetter byte).all (· ∈ [34, 92, 47, 98, 102, 110, 114, 116]) = true :=
          forall_byte (by decide +kernel)
        have hmem := hletters byte
        rw [hletter, Option.all_some, decide_eq_true_eq] at hmem
        exact .escaped hmem hrest
    | none =>
        have hdigits : ∀ byte : UInt8, (unicodeEscape byte).tail.all isHexDigit = true :=
          forall_byte (by decide +kernel)
        exact .unicode rfl (List.all_eq_true.mp (hdigits byte)) hrest

theorem jsonString_escaped (bytes : List UInt8) : JsonString (escaped bytes) := by
  induction bytes with
  | nil => exact .nil
  | cons byte rest ih =>
      rw [escaped, List.flatMap_cons]
      exact jsonString_escapedByte byte ih

theorem blank_lineText (format : Bool) (depth : Nat) : Blank (lineText format depth) := by
  cases format with
  | false => exact blank_nil
  | true =>
      intro byte hbyte
      rcases List.mem_cons.mp hbyte with rfl | htab
      · decide
      · rw [List.eq_of_mem_replicate htab]
        decide

/-- The elements of an array stand in frames that fit, and they are those of the value. -/
theorem mem_elementDocs {format : Bool} {depth : Nat} {blank : List UInt8} {values : List Json}
    (hblank : Blank blank) {entry : Frame × Doc}
    (hentry : entry ∈ elementDocs format depth blank values) :
    entry.1.Fits .array ∧ ∃ value ∈ values, entry.2 = value.doc format depth := by
  induction values generalizing blank with
  | nil => simp [elementDocs] at hentry
  | cons value rest ih =>
      rw [elementDocs, List.mem_cons] at hentry
      rcases hentry with rfl | hrest
      · exact ⟨elementFrame_fits hblank, value, List.mem_cons_self, rfl⟩
      · have hspace : Blank (if format then [32] else []) := by cases format <;> simp [Blank]
        obtain ⟨hfits, other, hother, heq⟩ := ih hspace hrest
        exact ⟨hfits, other, List.mem_cons_of_mem _ hother, heq⟩

/-- So do the members of an object. -/
theorem mem_memberDocs {format : Bool} {depth : Nat} {members : List (List UInt8 × Json)}
    {entry : Frame × Doc} (hentry : entry ∈ memberDocs format depth members) :
    entry.1.Fits .object ∧
      ∃ member ∈ members, entry.2 = member.2.doc format (depth + 1) := by
  induction members with
  | nil => simp [memberDocs] at hentry
  | cons member rest ih =>
      obtain ⟨key, value⟩ := member
      rw [memberDocs, List.mem_cons] at hentry
      rcases hentry with rfl | hrest
      · have hspace : Blank (if format then [9] else []) := by cases format <;> simp [Blank]
        have hend : Blank (if rest.isEmpty then lineText format depth else []) := by
          split_ifs
          · exact blank_lineText format depth
          · exact blank_nil
        exact ⟨(memberFrame_fits (blank_lineText format _) (jsonString_escaped key).body blank_nil
          hspace).complete hend _, (key, value), List.mem_cons_self, rfl⟩
      · obtain ⟨hfits, other, hother, heq⟩ := ih hrest
        exact ⟨hfits, other, List.mem_cons_of_mem _ hother, heq⟩

/-- The text of a value is well formed. -/
theorem Json.Within.wellFormed {levels : Nat} {value : Json} (hvalue : value.Within levels)
    (format : Bool) (depth : Nat) : (value.doc format depth).WellFormed levels := by
  induction hvalue generalizing depth with
  | null => exact .scalar trivial
  | @bool _ value => cases value <;> exact .scalar trivial
  | number htoken => exact .scalar htoken
  | string => exact .scalar (jsonString_escaped _).body
  | array _ ih =>
      apply Doc.WellFormed.nest blank_nil
      · exact fun entry hentry => (mem_elementDocs blank_nil hentry).1
      · intro entry hentry
        obtain ⟨-, value, hmem, heq⟩ := mem_elementDocs blank_nil hentry
        rw [heq]
        exact ih value hmem (depth + 1)
  | object _ ih =>
      apply Doc.WellFormed.nest (blank_lineText format depth)
      · exact fun entry hentry => (mem_memberDocs hentry).1
      · intro entry hentry
        obtain ⟨-, member, hmem, heq⟩ := mem_memberDocs hentry
        rw [heq]
        exact ih member hmem (depth + 1)

/-! ## Numbers -/

/-- What `%f` prints: a sign, digits without leading zeros, a point, and digits. -/
inductive FixedNumber : List UInt8 → Prop
  | intro {sign whole digits : List UInt8} (hsign : sign = [] ∨ sign = [45])
      (hwhole : Digits whole) (hzero : whole.head? = some 48 → whole = [48])
      (hdigits : Digits digits) : FixedNumber (sign ++ (whole ++ 46 :: digits))

/-- The texts of finite numbers are numbers. -/
structure NumberFormat.Lawful (N : NumberFormat δ) : Prop where
  fixed : ∀ d, N.notFinite d = false → FixedNumber (N.fixed d).bytes
  short : ∀ d, N.notFinite d = false → JsonNumber (N.short d).bytes
  long : ∀ d, N.notFinite d = false → JsonNumber (N.long d).bytes

/-- Of the digits behind the point the zeros at the end are gone, and with the last digit goes the
point. -/
theorem stripReversed_digits {digits : List UInt8} (hdigits : ∀ byte ∈ digits, isDigit byte = true)
    (back : List UInt8) :
    stripReversed (digits ++ 46 :: back) = back ∨
      ∃ front kept, digits = front ++ kept ∧ kept ≠ [] ∧
        stripReversed (digits ++ 46 :: back) = kept ++ 46 :: back := by
  induction digits with
  | nil => exact .inl rfl
  | cons byte rest ih =>
      rw [List.forall_mem_cons] at hdigits
      rw [List.cons_append, stripReversed]
      by_cases hzero : byte = 48
      · rw [if_pos hzero]
        rcases ih hdigits.2 with hback | ⟨front, kept, hsplit, hkept, hstrip⟩
        · exact .inl hback
        · exact .inr ⟨byte :: front, kept, by rw [hsplit, List.cons_append], hkept, hstrip⟩
      · have hpoint : byte ≠ 46 := by
          rintro rfl
          exact absurd hdigits.1 (by decide)
        rw [if_neg hzero, if_neg hpoint]
        exact .inr ⟨[], byte :: rest, rfl, List.cons_ne_nil _ _, rfl⟩

/-- A trimmed number is still a number. -/
theorem FixedNumber.trimmed {text : List UInt8} (hfixed : FixedNumber text) :
    JsonNumber (trimmed text) := by
  cases hfixed with
  | @intro sign whole digits hsign hwhole hzero hdigits =>
      have hreverse : (sign ++ (whole ++ 46 :: digits)).reverse =
          digits.reverse ++ 46 :: (sign ++ whole).reverse := by simp
      have hall : ∀ byte ∈ digits.reverse, isDigit byte = true := fun byte hbyte =>
        hdigits.all byte (List.mem_reverse.mp hbyte)
      rw [Printer.trimmed, if_pos (by simp), hreverse]
      rcases stripReversed_digits hall (sign ++ whole).reverse with
        hback | ⟨front, kept, hsplit, hkept, hstrip⟩
      · rw [hback, List.reverse_reverse]
        simpa using JsonNumber.intro hsign hwhole hzero .none .none
      · have hkeptDigits : Digits kept.reverse := by
          refine ⟨by simpa using hkept, fun byte hbyte => hall byte ?_⟩
          rw [hsplit]
          exact List.mem_append_right _ (List.mem_reverse.mp hbyte)
        have hnumber := JsonNumber.intro hsign hwhole hzero (.some hkeptDigits) .none
        rw [hstrip]
        simpa using hnumber

/-- The text of a finite number is a number token. -/
theorem printedNumber_token (hlawful : N.Lawful) {d : δ} (hfinite : N.notFinite d = false)
    (hfits : NumberFits N d) : NumberToken (printedNumber N d) := by
  have hshort : (printedNumber N d).length ≤ 63 := by
    rcases numberInBuffer_cases N d with ⟨-, hlength, -⟩ | ⟨hwide, -⟩
    · rw [numberBufferSize] at hlength
      omega
    · exact absurd hfits hwide
  have hnumber : JsonNumber (printedNumber N d) := by
    rw [printedNumber, hfinite, if_neg (by simp)]
    split_ifs
    · exact (hlawful.fixed d hfinite).trimmed
    · exact hlawful.short d hfinite
    · exact hlawful.long d hfinite
  exact hnumber.token hshort

/-- The values of a chain have no more levels than its items, and their numbers are number
tokens. -/
def ChildWithin (N : NumberFormat δ) (items : List (LiteCjsonItem δ)) : Prop :=
  ∀ {members : List (List UInt8 × Json)} {limit : Nat}, childJson N items = some members →
    (∀ other ∈ visitedAll items, IsNarrow N other) → levelsAll items ≤ limit →
      ∀ member ∈ members, member.2.Within limit

/-- A value is within a limit if what is below it is. -/
theorem within_of_child (hlawful : N.Lawful) {type : UInt32} {valuestring string : Option CString}
    {d : δ} {child : List (LiteCjsonItem δ)} {value : Json} {limit : Nat}
    (hchild : ChildWithin N child)
    (hvalue : itemJson N (.mk type valuestring d string child) = some value)
    (hnarrow : ∀ other ∈ visited (.mk type valuestring d string child), IsNarrow N other)
    (hlevels : levels (.mk type valuestring d string child) ≤ limit) : value.Within limit := by
  rw [itemJson] at hvalue
  rw [visited, List.forall_mem_cons] at hnarrow
  rw [levels] at hlevels
  cases hkind : itemKind type with
  | none => simp [hkind] at hvalue
  | some kind =>
      rw [hkind] at hvalue hnarrow hlevels
      cases kind with
      | null =>
          obtain rfl := Option.some.inj hvalue
          exact .null
      | false | true =>
          obtain rfl := Option.some.inj hvalue
          exact .bool
      | string =>
          obtain rfl := Option.some.inj hvalue
          exact .string
      | raw => simp at hvalue
      | number =>
          obtain rfl := Option.some.inj hvalue
          cases hfinite : N.notFinite d with
          | true => exact .null
          | false => exact .number (printedNumber_token hlawful hfinite (hnarrow.1 hkind))
      | array | object =>
          obtain ⟨members, hmembers, rfl⟩ := Option.map_eq_some_iff.mp hvalue
          have hdeep : levelsAll child + 1 ≤ limit := hlevels
          obtain ⟨limit, rfl⟩ : ∃ inner, limit = inner + 1 := ⟨limit - 1, by omega⟩
          have hinner := hchild hmembers hnarrow.2 (Nat.le_of_succ_le_succ hdeep)
          first
            | exact .object hinner
            | exact .array (List.forall_mem_map.mpr hinner)

mutual

/-- The value of an item has no more levels than the item, and its numbers are number tokens. -/
theorem within_of_item (hlawful : N.Lawful) : ∀ (item : LiteCjsonItem δ) {value : Json}
    {limit : Nat}, itemJson N item = some value → (∀ other ∈ visited item, IsNarrow N other) →
      levels item ≤ limit → value.Within limit
  | .mk _ _ _ _ child, _, _, hvalue, hnarrow, hlevels =>
      within_of_child hlawful (childWithin hlawful child) hvalue hnarrow hlevels

theorem childWithin (hlawful : N.Lawful) : ∀ items : List (LiteCjsonItem δ), ChildWithin N items
  | [] => fun hmembers _ _ => by
      obtain rfl := Option.some.inj hmembers
      exact List.forall_mem_nil _
  | item :: next => fun hmembers hnarrow hlevels => by
      obtain ⟨value, rest, hvalue, hrest, rfl⟩ := childJson_cons.mp hmembers
      rw [visitedAll, List.forall_mem_append] at hnarrow
      rw [levelsAll] at hlevels
      refine List.forall_mem_cons.mpr ⟨?_, ?_⟩
      · exact within_of_item hlawful item hvalue hnarrow.1 (by omega)
      · exact childWithin hlawful next hrest hnarrow.2 (by omega)

end

end EnosDeviceSdk.Infra.Printer
