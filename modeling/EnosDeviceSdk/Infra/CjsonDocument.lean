/-
# The accessors give back the document

For a document of the grammar, the item of the parser stands for its tree. An accessor of a
nesting gives out just its entries, in their order, and what it gives out stands for the
entry's tree in turn. So a caller that goes down from the root meets the whole tree.

The grammar has room for more than JSON. That the numbers and strings of JSON are among its
tokens is shown here as well.
-/

import EnosDeviceSdk.Infra.CjsonComplete
import Mathlib.Tactic.Choose

namespace EnosDeviceSdk.Infra

open EnosDeviceSdk.Library

variable {src : List UInt8}

/-! ## Items and the trees they stand for -/

/-- The item stands for the tree, whose text follows `ahead` in the input. -/
structure Represents (src : List UInt8) (item : LiteCjson) (doc : Doc) (ahead : List UInt8) :
    Prop where
  placed : ahead ++ doc.render <+: src
  denotes : Denotes item doc ahead.length

/-- The span of one item lies inside the span of another. -/
def Within (item parent : LiteCjson) : Prop :=
  ∃ start parentStart, item.value = some start ∧ parent.value = some parentStart ∧
    parentStart ≤ start ∧ start + item.valueLength ≤ parentStart + parent.valueLength

/-- `lite_cjson_array_item` or `lite_cjson_object_item_by_index`, whichever fits the kind. An
element has no name. -/
def entryAt (src : List UInt8) (kind : Nest) (item : LiteCjson) (index : Int) : Outcome Entry :=
  match kind with
  | .array => do
      let value ← liteCjsonArrayItem src item index
      return ⟨none, value⟩
  | .object => liteCjsonObjectItemByIndex src item index

/-- What stands in front of an entry in the text of its nesting. -/
def entryAhead (kind : Nest) (entries : List (Frame × Doc)) (index : Nat) : List UInt8 :=
  kind.opening :: priorText (entries.take index)

/-- The item stands for the tree, and the accessors give out the rest of it: they refuse every
index but those of the entries, and give an entry's name and its value, which are inside the
span of the item and give back the entry's tree in turn. -/
inductive Recovered (src : List UInt8) : LiteCjson → Doc → List UInt8 → Prop
  | scalar {item : LiteCjson} {token : Token} {ahead : List UInt8}
      (hitem : Represents src item (.scalar token) ahead) :
      Recovered src item (.scalar token) ahead
  | nest {item : LiteCjson} {kind : Nest} {blank : List UInt8} {entries : List (Frame × Doc)}
      {ahead : List UInt8} (hitem : Represents src item (.nest kind blank entries) ahead)
      (hrefused : ∀ index : Int, ¬(0 ≤ index ∧ index < entries.length) →
        entryAt src kind item index = .failed)
      (child : Nat → Entry)
      (hread : ∀ index, index < entries.length → entryAt src kind item index = .ok (child index))
      (hname : ∀ index (hindex : index < entries.length),
        NameDenotes (child index).key entries[index].1
          (ahead ++ entryAhead kind entries index).length)
      (hinside : ∀ index, index < entries.length → Within (child index).value item ∧
        ∀ key, (child index).key = some key → Within key item)
      (hvalue : ∀ index (hindex : index < entries.length),
        Recovered src (child index).value entries[index].2
          (ahead ++ entryAhead kind entries index ++ entries[index].1.lead)) :
      Recovered src item (.nest kind blank entries) ahead

/-! ## Places -/

/-- An entry splits the entries it is among. -/
theorem split_entries (entries : List (Frame × Doc)) {index : Nat}
    (hindex : index < entries.length) :
    entries = entries.take index ++ entries[index] :: entries.drop (index + 1) := by
  rw [List.getElem_cons_drop, List.take_append_drop]

/-- Where an entry stands among the entries: a comma follows, or what follows all of them. -/
theorem split_listed (kind : Nest) (entries : List (Frame × Doc)) {index : Nat}
    (hindex : index < entries.length) (rest : List UInt8) :
    ∃ more, (more = [] ∨ ∃ later, more = 44 :: later) ∧
      kind.opening :: joinCommas (entries.map entryText) ++ rest =
        entryAhead kind entries index ++ (entryText entries[index] ++ (more ++ rest)) := by
  have hjoin := joinCommas_append_cons (entries.take index)
    (entries.drop (index + 1)) entries[index]
  rw [← split_entries entries hindex] at hjoin
  refine ⟨(((entries.drop (index + 1)).map entryText).map (44 :: ·)).flatten, ?_, ?_⟩
  · cases entries.drop (index + 1) with
    | nil => exact Or.inl rfl
    | cons next later => exact Or.inr ⟨_, rfl⟩
  · rw [hjoin]
    simp [entryAhead]

/-- The text between the brackets is that of the entries, if there are any. -/
theorem bodyText_of_entry (blank : List UInt8) {entries : List (Frame × Doc)} {index : Nat}
    (hindex : index < entries.length) :
    bodyText blank entries = joinCommas (entries.map entryText) := by
  cases entries with
  | nil => exact absurd hindex (Nat.not_lt_zero _)
  | cons entry rest => rfl

/-- Where an entry stands in the text of its nesting: a comma or the closing bracket follows. -/
theorem render_entry (kind : Nest) (blank : List UInt8) (entries : List (Frame × Doc)) {index : Nat}
    (hindex : index < entries.length) :
    ∃ byte rest, (Doc.nest kind blank entries).render =
        entryAhead kind entries index ++ (entryText entries[index] ++ byte :: rest) ∧
      ¬byte ≤ 32 ∧ isNumberByte byte = false := by
  obtain ⟨more, hmore, hsplit⟩ := split_listed kind entries hindex [kind.closing]
  rw [render_nest, bodyText_of_entry blank hindex, hsplit]
  rcases hmore with rfl | ⟨later, rfl⟩
  · exact ⟨kind.closing, [], rfl, closing_not_blank kind, by cases kind <;> decide⟩
  · exact ⟨44, later ++ [kind.closing], rfl, by decide, by decide⟩

/-- The item is a nesting whose span begins with these entries. Its closing bracket may be
missing. -/
structure Lists (src : List UInt8) (item : LiteCjson) (kind : Nest) (entries : List (Frame × Doc))
    (ahead : List UInt8) : Prop where
  type : item.type = kind.type
  value : item.value = some (ahead.length : Int)
  size : item.size ≠ 0
  span : ∃ rest, (rest = [] ∨ rest = [kind.closing]) ∧
    ahead ++ (kind.opening :: joinCommas (entries.map entryText) ++ rest) <+: src ∧
    item.valueLength = (kind.opening :: joinCommas (entries.map entryText) ++ rest).length

/-- A complete nesting has both brackets. -/
theorem Represents.lists {item : LiteCjson} {kind : Nest} {blank ahead : List UInt8}
    {entries : List (Frame × Doc)} {index : Nat}
    (hitem : Represents src item (.nest kind blank entries) ahead)
    (hindex : index < entries.length) : Lists src item kind entries ahead where
  type := hitem.denotes.type
  value := by
    rw [hitem.denotes.value]
    simp [Doc.indent]
  size := by
    have hsize := hitem.denotes.size kind blank entries rfl
    omega
  span := by
    have hrender := render_nest kind blank entries
    rw [bodyText_of_entry blank hindex] at hrender
    refine ⟨[kind.closing], Or.inr rfl, ?_, ?_⟩
    · rw [← hrender]
      exact hitem.placed
    · rw [← hrender]
      exact hitem.denotes.valueLength

/-- An entry in the window that an accessor parses. -/
theorem Lists.window {item : LiteCjson} {kind : Nest} {ahead : List UInt8}
    {entries : List (Frame × Doc)} (hitem : Lists src item kind entries ahead) {index : Nat}
    (hindex : index < entries.length) :
    ∃ text tail, Delimited tail ∧ ahead ++ text <+: src ∧
      text = entryAhead kind entries index ++ (entryText entries[index] ++ tail) ∧
      At src ahead text ⟨ahead.length, item.valueLength, 0⟩ [] text := by
  obtain ⟨rest, hrest, hplaced, hlength⟩ := hitem.span
  obtain ⟨more, hmore, hsplit⟩ := split_listed kind entries hindex rest
  refine ⟨_, more ++ rest, ?_, hplaced, hsplit, ?_⟩
  · rcases hmore with rfl | ⟨later, rfl⟩
    · rcases hrest with rfl | rfl
      · exact Or.inl rfl
      · exact Or.inr ⟨kind.closing, [], rfl, closing_not_blank kind, by cases kind <;> decide⟩
    · exact Or.inr ⟨44, later ++ rest, rfl, by decide, by decide⟩
  · obtain ⟨behind, hsrc⟩ := hplaced
    exact
      { text_eq := rfl
        window := ⟨behind, hsrc.symm⟩
        content_eq := rfl
        length_eq := hlength
        offset_eq := rfl }

/-! ## The accessors -/

/-- An accessor finds an entry. -/
theorem searchEntries_found {ρ : Type} {kind : Nest} {item : LiteCjson} {ahead : List UInt8}
    {entries : List (Frame × Doc)} {visit : Nat → Entry → Outcome (Option ρ)} (result : Entry → ρ)
    (hitem : Lists src item kind entries ahead)
    (hframes : ∀ entry ∈ entries, entry.1.Fits kind)
    (hvalues : ∀ entry ∈ entries, entry.2.WellFormed liteCjsonNestingLimit)
    {index : Nat} (hindex : index < entries.length)
    (hpass : PassesOver visit 0 (entries.take index) (ahead ++ [kind.opening]))
    (hfound : ∀ entry, EntryDenotes entry entries[index].1 entries[index].2
        (ahead ++ entryAhead kind entries index).length →
      visit index entry = .ok (some (result entry))) :
    ∃ entry, EntryDenotes entry entries[index].1 entries[index].2
        (ahead ++ entryAhead kind entries index).length ∧
      searchEntries src kind item visit = .ok (result entry) := by
  let prior := entries.take index
  let frame := entries[index].1
  let doc := entries[index].2
  have hmem : entries[index] ∈ entries := List.getElem_mem hindex
  have hlength : prior.length = index := List.length_take_of_le (Nat.le_of_lt hindex)
  obtain ⟨text, tail, htail, _, htext, hwhole⟩ := hitem.window hindex
  have hat := hwhole.congr rfl htext
  have hreach : At src ahead text ⟨ahead.length, item.valueLength, 0⟩ []
      (kind.opening :: (priorText prior ++
        (frame.lead ++ (doc.render ++ (frame.after ++ tail))))) :=
    hat.congr rfl (by simp [entryAhead, entryText, Frame.wrap, prior, frame, doc])
  have hparse : ParsesDocs src ahead text liteCjsonNestingLimit
      (parseValue src liteCjsonNestingLimit .zero) :=
    parseValue_complete liteCjsonNestingLimit .zero
  obtain ⟨inner, steps, hopen, hscan⟩ := reach_entry visit kind hparse hreach
    (fun entry hentry => hframes entry (List.mem_of_mem_take hentry))
    (fun entry hentry => hvalues entry (List.mem_of_mem_take hentry)) (hframes _ hmem)
    (startsValue_render (hvalues _ hmem)) hpass
  have hlast := hat.move_one.move (priorText prior)
  rw [ParseBuffer.move_move, Int.add_comm, ← ParseBuffer.move_move] at hlast
  obtain ⟨entry, next, hentry, hread⟩ := readEntry_delimited kind hparse hlast
    (hframes _ hmem) (hvalues _ hmem) htail
  have hplaced : EntryDenotes entry entries[index].1 entries[index].2
      (ahead ++ entryAhead kind entries index).length := by
    simpa [entryAhead] using hentry
  refine ⟨entry, hplaced, ?_⟩
  unfold searchEntries
  rw [hitem.value]
  dsimp only
  rw [hopen, Outcome.ok_bind]
  dsimp only
  rw [hscan, scanEntries, hread, Outcome.ok_bind]
  dsimp only
  rw [hlength, hfound entry hplaced]
  rfl

/-- The accessor of a nesting gives out the entry with the index. -/
theorem entryAt_read {kind : Nest} {item : LiteCjson} {blank ahead : List UInt8}
    {entries : List (Frame × Doc)}
    (hitem : Represents src item (.nest kind blank entries) ahead)
    (hframes : ∀ entry ∈ entries, entry.1.Fits kind)
    (hvalues : ∀ entry ∈ entries, entry.2.WellFormed liteCjsonNestingLimit)
    (index : Nat) (hindex : index < entries.length) :
    ∃ entry, EntryDenotes entry entries[index].1 entries[index].2
        (ahead ++ entryAhead kind entries index).length ∧
      entryAt src kind item index = .ok entry := by
  have hsize := hitem.denotes.size kind blank entries rfl
  have hfind : ∀ {ρ : Type} (result : Entry → ρ), ∃ entry,
      EntryDenotes entry entries[index].1 entries[index].2
        (ahead ++ entryAhead kind entries index).length ∧
      searchEntries src kind item (fun (count : Nat) entry =>
        .ok (if (count : Int) = index then some (result entry) else none)) =
          .ok (result entry) := by
    intro ρ result
    apply searchEntries_found result (hitem.lists hindex) hframes hvalues hindex
    · intro count hcount entry _
      rw [List.length_take_of_le (Nat.le_of_lt hindex)] at hcount
      dsimp only
      rw [if_neg (by omega)]
    · intro entry _
      rw [if_pos rfl]
  cases kind with
  | array =>
      have haccept : ¬(item.type ≠ .array ∨ (index : Int) < 0 ∨ (index : Int) ≥ item.size) := by
        rintro (htype | hrange)
        · exact htype hitem.denotes.type
        · omega
      obtain ⟨entry, hentry, hsearch⟩ := hfind Entry.value
      refine ⟨⟨none, entry.value⟩, ⟨?_, hentry.value⟩, ?_⟩
      · have hlabel := (hframes _ (List.getElem_mem hindex)).array_label
        simp [NameDenotes, hlabel]
      · unfold entryAt liteCjsonArrayItem
        dsimp only
        rw [if_neg haccept, hsearch]
        rfl
  | object =>
      have haccept : ¬(item.type ≠ .object ∨ item.size = 0 ∨ (index : Int) < 0 ∨
          (index : Int) ≥ item.size) := by
        rintro (htype | hrange)
        · exact htype hitem.denotes.type
        · omega
      obtain ⟨entry, hentry, hsearch⟩ := hfind id
      refine ⟨entry, hentry, ?_⟩
      unfold entryAt liteCjsonObjectItemByIndex
      dsimp only
      rw [if_neg haccept]
      exact hsearch

/-- It refuses every other index. -/
theorem entryAt_refused {kind : Nest} {item : LiteCjson} {blank ahead : List UInt8}
    {entries : List (Frame × Doc)}
    (hitem : Represents src item (.nest kind blank entries) ahead) {index : Int}
    (hindex : ¬(0 ≤ index ∧ index < entries.length)) : entryAt src kind item index = .failed := by
  have hsize := hitem.denotes.size kind blank entries rfl
  have houtside : index < 0 ∨ index ≥ item.size := by omega
  cases kind with
  | array =>
      unfold entryAt liteCjsonArrayItem
      dsimp only
      rw [if_pos (Or.inr houtside)]
      rfl
  | object =>
      unfold entryAt liteCjsonObjectItemByIndex
      dsimp only
      rw [if_pos (Or.inr (Or.inr houtside))]

/-- The names and values of entries lie inside the span of their nesting. -/
theorem EntryDenotes.within {kind : Nest} {item : LiteCjson} {blank ahead : List UInt8}
    {entries : List (Frame × Doc)} {entry : Entry} {index : Nat}
    (hitem : Represents src item (.nest kind blank entries) ahead) (hindex : index < entries.length)
    (hentry : EntryDenotes entry entries[index].1 entries[index].2
      (ahead ++ entryAhead kind entries index).length) :
    Within entry.value item ∧ ∀ key, entry.key = some key → Within key item := by
  obtain ⟨byte, tail, hrender, _, _⟩ := render_entry kind blank entries hindex
  have hlength := congrArg List.length hrender
  have hvalue : item.value = some (ahead.length : Int) := by
    rw [hitem.denotes.value]
    simp [Doc.indent]
  have hspan : item.valueLength = (Doc.nest kind blank entries).render.length :=
    hitem.denotes.valueLength
  simp only [entryText, Frame.wrap, List.length_append] at hlength
  constructor
  · have hinside := entries[index].2.span_le
    refine ⟨_, _, hentry.value.value, hvalue, ?_, ?_⟩
    · rw [List.length_append]
      omega
    · rw [hentry.value.valueLength, hspan, List.length_append]
      omega
  · intro key hkey
    have hname := hentry.key
    cases hlabel : entries[index].1.label with
    | none =>
        rw [NameDenotes, hlabel, hkey] at hname
        exact absurd hname (by simp)
    | some label =>
        rw [NameDenotes, hlabel, hkey] at hname
        obtain ⟨name, hsame, hdenotes⟩ := hname
        obtain rfl : key = name := by simpa using hsame
        have hlead : entries[index].1.lead.length =
            entries[index].1.before.length + label.render.length := by
          simp [Frame.lead, hlabel]
        have hquotes : label.key.length + 2 ≤ label.render.length := by
          simp only [Label.render, List.length_append, List.length_cons]
          omega
        refine ⟨_, _, hdenotes.value, hvalue, ?_, ?_⟩
        · rw [List.length_append]
          omega
        · rw [hdenotes.valueLength, hspan, List.length_append]
          simp only [Doc.indent, Doc.contents]
          omega

/-- The value of an entry stands for the entry's tree. -/
theorem EntryDenotes.represents {kind : Nest} {item : LiteCjson} {ahead : List UInt8}
    {entries : List (Frame × Doc)} {entry : Entry} {index : Nat}
    (hitem : Lists src item kind entries ahead) (hindex : index < entries.length)
    (hentry : EntryDenotes entry entries[index].1 entries[index].2
      (ahead ++ entryAhead kind entries index).length) :
    Represents src entry.value entries[index].2
      (ahead ++ entryAhead kind entries index ++ entries[index].1.lead) where
  placed := by
    obtain ⟨text, tail, _, hplaced, htext, _⟩ := hitem.window hindex
    apply List.IsPrefix.trans _ hplaced
    refine ⟨entries[index].1.after ++ tail, ?_⟩
    rw [htext, entryText, Frame.wrap]
    simp
  denotes := by
    have hvalue := hentry.value
    rwa [← Int.natCast_add, ← List.length_append] at hvalue

/-! ## The tokens of JSON proper -/

/-- At least one digit. -/
structure Digits (text : List UInt8) : Prop where
  some : text ≠ []
  all : ∀ byte ∈ text, isDigit byte = true

/-- The fraction of a number, if it has one. -/
inductive JsonFraction : List UInt8 → Prop
  | none : JsonFraction []
  | some {digits : List UInt8} (hdigits : Digits digits) : JsonFraction (46 :: digits)

/-- The exponent of a number, if it has one. -/
inductive JsonExponent : List UInt8 → Prop
  | none : JsonExponent []
  | some {letter : UInt8} {sign digits : List UInt8} (hletter : letter = 101 ∨ letter = 69)
      (hsign : sign = [] ∨ sign = [43] ∨ sign = [45]) (hdigits : Digits digits) :
      JsonExponent (letter :: (sign ++ digits))

/-- A number as JSON writes it, without leading zeros. -/
inductive JsonNumber : List UInt8 → Prop
  | intro {sign whole fraction exponent : List UInt8} (hsign : sign = [] ∨ sign = [45])
      (hwhole : Digits whole) (hzero : whole.head? = some 48 → whole = [48])
      (hfraction : JsonFraction fraction) (hexponent : JsonExponent exponent) :
      JsonNumber (sign ++ (whole ++ (fraction ++ exponent)))

/-- A hexadecimal digit. -/
def isHexDigit (byte : UInt8) : Bool :=
  isDigit byte ∨ (65 ≤ byte ∧ byte ≤ 70) ∨ (97 ≤ byte ∧ byte ≤ 102)

/-- What JSON allows between the quotes of a string. -/
inductive JsonString : List UInt8 → Prop
  | nil : JsonString []
  | plain {byte : UInt8} {rest : List UInt8} (hquote : byte ≠ 34) (hescape : byte ≠ 92)
      (hcontrol : 32 ≤ byte) (hrest : JsonString rest) : JsonString (byte :: rest)
  | escaped {letter : UInt8} {rest : List UInt8}
      (hletter : letter ∈ [34, 92, 47, 98, 102, 110, 114, 116]) (hrest : JsonString rest) :
      JsonString (92 :: letter :: rest)
  | unicode {digits rest : List UInt8} (hlength : digits.length = 4)
      (hdigits : ∀ byte ∈ digits, isHexDigit byte = true) (hrest : JsonString rest) :
      JsonString (92 :: 117 :: (digits ++ rest))

theorem stringBody_append {plain rest : List UInt8}
    (hplain : ∀ byte ∈ plain, byte ≠ 34 ∧ byte ≠ 92) (hrest : StringBody rest) :
    StringBody (plain ++ rest) := by
  induction plain with
  | nil => exact hrest
  | cons byte plain ih =>
      obtain ⟨hbyte, hothers⟩ := List.forall_mem_cons.mp hplain
      exact .plain hbyte.1 hbyte.2 (ih hothers)

/-- The strings of JSON are strings of the parser. -/
theorem JsonString.body {text : List UInt8} (hstring : JsonString text) : StringBody text := by
  induction hstring with
  | nil => exact .nil
  | plain hquote hescape _ _ ih => exact .plain hquote hescape ih
  | escaped _ _ ih => exact .escaped ih
  | unicode _ hdigits _ ih =>
      apply StringBody.escaped
      apply stringBody_append _ ih
      intro byte hbyte
      have hhex := hdigits byte hbyte
      constructor <;>
        (rintro rfl
         exact absurd hhex (by decide))

theorem dropSign_digits {sign digits : List UInt8} (rest : List UInt8)
    (hsign : sign = [] ∨ sign = [43] ∨ sign = [45]) (hdigits : Digits digits) :
    dropSign (sign ++ (digits ++ rest)) = digits ++ rest := by
  rcases hsign with rfl | rfl | rfl
  · obtain ⟨byte, others, rfl⟩ := List.exists_cons_of_ne_nil hdigits.some
    have hbyte := hdigits.all byte (List.mem_cons_self ..)
    have hother : ¬(byte = 43 ∨ byte = 45) := by
      rintro (rfl | rfl) <;> exact absurd hbyte (by decide)
    simp only [List.nil_append, List.cons_append, dropSign, if_neg hother]
  · rfl
  · rfl

theorem isExponent_of_json {exponent : List UInt8} (hexponent : JsonExponent exponent) :
    isExponent exponent = true := by
  cases hexponent with
  | none => rfl
  | @some letter sign digits hletter hsign hdigits =>
      have hdrop := dropSign_digits [] hsign hdigits
      rw [List.append_nil] at hdrop
      simp only [isExponent, hdrop]
      simpa using ⟨hletter, hdigits.some, hdigits.all⟩

/-- No digit is ahead. -/
theorem takeWhile_digits {digits rest : List UInt8} (hdigits : ∀ byte ∈ digits, isDigit byte = true)
    (hrest : ∀ byte ∈ rest.head?, isDigit byte = false) :
    (digits ++ rest).takeWhile isDigit = digits ∧ (digits ++ rest).dropWhile isDigit = rest := by
  have hstop : rest.takeWhile isDigit = [] ∧ rest.dropWhile isDigit = rest := by
    cases rest with
    | nil => exact ⟨rfl, rfl⟩
    | cons byte rest =>
        have hbyte := hrest byte rfl
        simp [hbyte]
  rw [List.takeWhile_append_of_pos hdigits, List.dropWhile_append_of_pos hdigits, hstop.1, hstop.2,
    List.append_nil]
  exact ⟨rfl, rfl⟩

theorem JsonExponent.stops {exponent : List UInt8} (hexponent : JsonExponent exponent) :
    ∀ byte ∈ exponent.head?, isDigit byte = false ∧ byte ≠ 46 := by
  cases hexponent with
  | none => simp
  | some hletter _ _ =>
      intro byte hbyte
      obtain rfl := Option.some.inj hbyte
      rcases hletter with rfl | rfl <;> decide

theorem isDecimal_of_json {text : List UInt8} (hnumber : JsonNumber text) :
    isDecimal text = true := by
  cases hnumber with
  | @intro sign whole fraction exponent hsign hwhole _ hfraction hexponent =>
      have hdrop := dropSign_digits (fraction ++ exponent)
        (hsign.imp_right fun h => Or.inr h) hwhole
      have hend := isExponent_of_json hexponent
      cases hfraction with
      | none =>
          have hcut := takeWhile_digits hwhole.all fun byte hbyte => (hexponent.stops byte hbyte).1
          rw [List.nil_append] at hdrop ⊢
          simp only [isDecimal, hdrop, hcut.1, hcut.2]
          split
          · exact absurd rfl (hexponent.stops 46 rfl).2
          · simpa using ⟨hwhole.some, hend⟩
      | @some digits hdigits =>
          have hpoint : ∀ byte ∈ (46 :: (digits ++ exponent)).head?, isDigit byte = false := by
            intro byte hbyte
            obtain rfl := Option.some.inj hbyte
            decide
          have hcut := takeWhile_digits hwhole.all hpoint
          have hfrac := takeWhile_digits hdigits.all
            fun byte hbyte => (hexponent.stops byte hbyte).1
          rw [List.cons_append] at hdrop ⊢
          simp only [isDecimal, hdrop, hcut.1, hcut.2, hfrac.1, hfrac.2]
          simpa using ⟨Or.inl hwhole.some, hend⟩

theorem Digits.numberBytes {digits : List UInt8} (hdigits : Digits digits) :
    ∀ byte ∈ digits, isNumberByte byte = true := by
  intro byte hbyte
  apply decide_eq_true
  exact Or.inl (hdigits.all byte hbyte)

theorem JsonNumber.numberBytes {text : List UInt8} (hnumber : JsonNumber text) :
    ∀ byte ∈ text, isNumberByte byte = true := by
  cases hnumber with
  | intro hsign hwhole _ hfraction hexponent =>
      rw [List.forall_mem_append, List.forall_mem_append, List.forall_mem_append]
      refine ⟨?_, hwhole.numberBytes, ?_, ?_⟩
      · rcases hsign with rfl | rfl
        · exact List.forall_mem_nil _
        · exact List.forall_mem_singleton.mpr (by decide)
      · cases hfraction with
        | none => exact List.forall_mem_nil _
        | some hdigits => exact List.forall_mem_cons.mpr ⟨by decide, hdigits.numberBytes⟩
      · cases hexponent with
        | none => exact List.forall_mem_nil _
        | some hletter hsign hdigits =>
            rw [List.forall_mem_cons, List.forall_mem_append]
            refine ⟨?_, ?_, hdigits.numberBytes⟩
            · rcases hletter with rfl | rfl <;> decide
            · rcases hsign with rfl | rfl | rfl
              · exact List.forall_mem_nil _
              · exact List.forall_mem_singleton.mpr (by decide)
              · exact List.forall_mem_singleton.mpr (by decide)

/-- A number of JSON is a number of the grammar, whatever its length. -/
theorem JsonNumber.spelled {text : List UInt8} (hnumber : JsonNumber text) :
    (Token.number text).Spelled := by
  refine ⟨?_, hnumber.numberBytes⟩
  cases hnumber with
  | intro _ hwhole _ _ _ => simp [hwhole.some]

/-- A number of JSON begins with its sign or with a digit. -/
theorem JsonNumber.head {text : List UInt8} (hnumber : JsonNumber text) :
    ∃ byte rest, text = byte :: rest ∧ (byte = 45 ∨ isDigit byte = true) := by
  cases hnumber with
  | @intro sign whole fraction exponent hsign hwhole _ _ _ =>
      rcases hsign with rfl | rfl
      · obtain ⟨byte, others, hcons⟩ := List.exists_cons_of_ne_nil hwhole.some
        have hbyte := hwhole.all byte (by rw [hcons]; exact List.mem_cons_self ..)
        exact ⟨byte, others ++ (fraction ++ exponent), by rw [hcons]; rfl, Or.inr hbyte⟩
      · exact ⟨45, whole ++ (fraction ++ exponent), rfl, Or.inl rfl⟩

/-- A number of JSON is a number of the parser, up to the 63 characters that it copies. -/
theorem JsonNumber.token {text : List UInt8} (hnumber : JsonNumber text)
    (hshort : text.length ≤ 63) : NumberToken text where
  decimal := isDecimal_of_json hnumber
  short := hshort
  bytes := hnumber.numberBytes
  head := hnumber.head

/-! ## Documents -/

/-- An item that stands for a tree gives back all of it. -/
theorem recovered_of_represents {levels : Nat} {doc : Doc} {item : LiteCjson} {ahead : List UInt8}
    (hdoc : doc.WellFormed levels) (hlevels : levels ≤ liteCjsonNestingLimit)
    (hitem : Represents src item doc ahead) : Recovered src item doc ahead := by
  induction hdoc generalizing item ahead with
  | scalar hvalid => exact .scalar hitem
  | @nest levels kind blank entries hblank hframes hvalues ih =>
      have hdeep : ∀ entry ∈ entries, entry.2.WellFormed liteCjsonNestingLimit :=
        fun entry hentry => (hvalues entry hentry).mono (by omega)
      have hread : ∀ index : Nat, ∃ entry, ∀ hindex : index < entries.length,
          EntryDenotes entry entries[index].1 entries[index].2
              (ahead ++ entryAhead kind entries index).length ∧
            entryAt src kind item index = .ok entry := by
        intro index
        by_cases hindex : index < entries.length
        · obtain ⟨entry, hentry⟩ := entryAt_read hitem hframes hdeep index hindex
          exact ⟨entry, fun _ => hentry⟩
        · exact ⟨⟨none, .zero⟩, fun h => absurd h hindex⟩
      choose child hchild using hread
      refine .nest hitem (fun index hindex => entryAt_refused hitem hindex) child
        (fun index hindex => (hchild index hindex).2)
        (fun index hindex => (hchild index hindex).1.key)
        (fun index hindex => (hchild index hindex).1.within hitem hindex) ?_
      intro index hindex
      exact ih entries[index] (List.getElem_mem hindex) (by omega)
        ((hchild index hindex).1.represents (hitem.lists hindex) hindex)

/-- A document of the grammar with at most 1000 levels of nesting is accepted, and the
accessors give back its tree from the root on. White space may stand around it. -/
theorem document_recovered {lead trail : List UInt8} {doc : Doc} (lite : LiteCjson)
    (hlead : Blank lead) (htrail : Blank trail) (hdoc : doc.WellFormed liteCjsonNestingLimit) :
    ∃ item, liteCjsonParse (lead ++ doc.render ++ trail) lite = .ok item ∧
      Denotes item doc lead.length ∧ Recovered (lead ++ doc.render ++ trail) item doc lead := by
  have hends : Ends trail := by
    have hnil : Ends [] := fun _ hbyte => absurd hbyte (by simp)
    simpa using ends_blank_append htrail hnil
  obtain ⟨item, hitem, hdenotes⟩ := liteCjsonParse_of_value lite
    (by simp : lead ++ doc.render ++ trail = [] ++ (lead ++ (doc.render ++ trail))) (Or.inl rfl)
    hlead (startsValue_render hdoc) (parseValue_complete liteCjsonNestingLimit lite hdoc hends)
  have hplaced : lead ++ doc.render <+: lead ++ doc.render ++ trail := List.prefix_append _ _
  exact ⟨item, hitem, hdenotes, recovered_of_represents hdoc (Nat.le_refl _) ⟨hplaced, hdenotes⟩⟩

/-- `[1]` in an object, with white space around it. -/
def nestedDocument : Doc :=
  .nest .object [] [(⟨[32], some ⟨[97], [], [32]⟩, [10]⟩,
    .nest .array [] [(⟨[], none, []⟩, .scalar (.number [49]))])]

theorem nestedDocument_wellFormed : nestedDocument.WellFormed liteCjsonNestingLimit := by
  have hnumber : NumberToken [49] :=
    { decimal := by decide
      bytes := List.forall_mem_singleton.mpr (by decide)
      head := ⟨49, [], rfl, Or.inr (by decide)⟩
      short := by decide }
  have helement : (elementFrame []).Fits .array := elementFrame_fits blank_nil
  have hname : StringBody [97] := .plain (by decide) (by decide) .nil
  have hspace : Blank [32] := by simp [Blank]
  have hmember := memberFrame_fits hspace hname blank_nil hspace
  have hscalar : (Doc.scalar (.number [49])).WellFormed 998 := .scalar hnumber
  have harray : (Doc.nest .array [] [(⟨[], none, []⟩, .scalar (.number [49]))]).WellFormed 999 :=
    .nest blank_nil (List.forall_mem_singleton.mpr helement) (List.forall_mem_singleton.mpr hscalar)
  have hline : Blank [10] := by simp [Blank]
  exact .nest blank_nil (List.forall_mem_singleton.mpr (hmember.complete hline _))
    (List.forall_mem_singleton.mpr harray)

/-- `{ "a": [1]⏎}` between white space is recovered. -/
theorem nestedDocument_recovered :
    ∃ item, liteCjsonParse ([9] ++ nestedDocument.render ++ [10]) .zero = .ok item ∧
      Denotes item nestedDocument 1 ∧
      Recovered ([9] ++ nestedDocument.render ++ [10]) item nestedDocument [9] :=
  document_recovered .zero (by simp [Blank]) (by simp [Blank]) nestedDocument_wellFormed

end EnosDeviceSdk.Infra
