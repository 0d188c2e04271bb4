/-
# Reading a printed text

The parser accepts what the printer made of an item, and its accessors give back the item's value
from the root on. So nothing of a value is lost, and two items with the same text have the same
value, whatever their formats leave between the tokens.
-/

import EnosDeviceSdk.Infra.CjsonPrintDocument
import EnosDeviceSdk.Infra.JsonUnique
import EnosDeviceSdk.Library.Unescape

namespace EnosDeviceSdk.Infra.Printer

open EnosDeviceSdk.Library

variable {δ ι : Type} {N : NumberFormat δ}

/-! ## Strings -/

/-- What a byte is printed as says this byte. -/
theorem unescape_escapedByte (byte : UInt8) (rest : List UInt8) :
    unescape (escapedByte byte ++ rest) = (unescape rest).map (byte :: ·) := by
  unfold escapedByte
  by_cases hplain : 31 < byte ∧ byte ≠ 34 ∧ byte ≠ 92
  · rw [if_pos hplain]
    exact unescape_plain hplain.2.2 rest
  · rw [if_neg hplain]
    cases hletter : escapeLetter byte with
    | some letter =>
        have hletters : ∀ byte : UInt8,
            (escapeLetter byte).all (fun letter => letterMeaning letter = some byte) = true :=
          forall_byte (by decide +kernel)
        have hmeaning := hletters byte
        rw [hletter, Option.all_some, decide_eq_true_eq] at hmeaning
        exact unescape_letter hmeaning rest
    | none =>
        have hunits : ∀ byte : UInt8,
            codeUnit 48 48 (hexLetter (byte / 16)) (hexLetter (byte % 16)) = some byte.toNat :=
          forall_byte (by decide +kernel)
        have hself : ∀ byte : UInt8, ¬(31 < byte ∧ byte ≠ 34 ∧ byte ≠ 92) →
            utf8 byte.toNat = [byte] :=
          forall_byte (by decide +kernel)
        have hsmall : byte.toNat < 0xD800 := Nat.lt_of_lt_of_le byte.toNat_lt (by decide)
        have hunit := unescape_unit (hunits byte) hsmall rest
        rw [hself byte hplain] at hunit
        exact hunit

/-- What is printed between the quotes of a string says the string. -/
theorem unescape_escaped (bytes : List UInt8) : unescape (escaped bytes) = some bytes := by
  induction bytes with
  | nil => rfl
  | cons byte rest ih =>
      rw [escaped, List.flatMap_cons, unescape_escapedByte, ← escaped, ih]
      rfl

/-- Different strings are printed differently. -/
theorem escaped_unique {first second : List UInt8} (hsame : escaped first = escaped second) :
    first = second := by
  rw [← Option.some.injEq, ← unescape_escaped, hsame, unescape_escaped]

/-! ## Reading back -/

/-- The parser's item stands for the value, and its accessors give back what is in it: an array has
the elements and an object the members with their names, in order and no others. -/
inductive ReadsBack (src : List UInt8) : LiteCjson → Json → Prop
  | null {item : LiteCjson} (htype : item.type = .null) : ReadsBack src item .null
  | bool {item : LiteCjson} {value : Bool} (htype : item.type = if value then .true else .false) :
      ReadsBack src item (.bool value)
  | number {item : LiteCjson} {text : List UInt8} (htype : item.type = .number)
      (htext : itemText src item = text) : ReadsBack src item (.number text)
  | string {item : LiteCjson} {bytes : List UInt8} (htype : item.type = .string)
      (htext : unescape (itemText src item) = some bytes) : ReadsBack src item (.string bytes)
  | array {item : LiteCjson} {elements : List Json} (htype : item.type = .array)
      (hrefused : ∀ index : Int, ¬(0 ≤ index ∧ index < elements.length) →
        liteCjsonArrayItem src item index = .failed)
      (child : Nat → LiteCjson)
      (hread : ∀ index, index < elements.length →
        liteCjsonArrayItem src item index = .ok (child index))
      (hvalue : ∀ index (hindex : index < elements.length),
        ReadsBack src (child index) elements[index]) : ReadsBack src item (.array elements)
  | object {item : LiteCjson} {members : List (List UInt8 × Json)} (htype : item.type = .object)
      (hrefused : ∀ index : Int, ¬(0 ≤ index ∧ index < members.length) →
        liteCjsonObjectItemByIndex src item index = .failed)
      (key child : Nat → LiteCjson)
      (hread : ∀ index, index < members.length →
        liteCjsonObjectItemByIndex src item index = .ok ⟨some (key index), child index⟩)
      (hkey : ∀ index (hindex : index < members.length),
        unescape (itemText src (key index)) = some members[index].1)
      (hvalue : ∀ index (hindex : index < members.length),
        ReadsBack src (child index) members[index].2) : ReadsBack src item (.object members)

theorem length_elementDocs (format : Bool) (depth : Nat) (blank : List UInt8) (values : List Json) :
    (elementDocs format depth blank values).length = values.length := by
  induction values generalizing blank with
  | nil => rfl
  | cons value rest ih => rw [elementDocs, List.length_cons, ih, List.length_cons]

theorem getElem_elementDocs {format : Bool} {depth : Nat} {blank : List UInt8} {values : List Json}
    {index : Nat} (hindex : index < (elementDocs format depth blank values).length)
    (hvalue : index < values.length) :
    (elementDocs format depth blank values)[index].2 = values[index].doc format depth := by
  induction values generalizing blank index with
  | nil => exact absurd hvalue (Nat.not_lt_zero _)
  | cons value rest ih =>
      cases index with
      | zero => simp [elementDocs]
      | succ index =>
          have hrest : index < rest.length := Nat.lt_of_succ_lt_succ hvalue
          simpa [elementDocs] using ih (by rwa [length_elementDocs]) hrest

theorem length_memberDocs (format : Bool) (depth : Nat) (members : List (List UInt8 × Json)) :
    (memberDocs format depth members).length = members.length := by
  induction members with
  | nil => rfl
  | cons member rest ih =>
      obtain ⟨key, value⟩ := member
      rw [memberDocs, List.length_cons, ih, List.length_cons]

theorem getElem_memberDocs {format : Bool} {depth : Nat} {members : List (List UInt8 × Json)}
    {index : Nat} (hindex : index < (memberDocs format depth members).length)
    (hmember : index < members.length) :
    (memberDocs format depth members)[index].2 = members[index].2.doc format (depth + 1) ∧
      ∃ label, (memberDocs format depth members)[index].1.label = some label ∧
        label.key = escaped members[index].1 := by
  induction members generalizing index with
  | nil => exact absurd hmember (Nat.not_lt_zero _)
  | cons member rest ih =>
      obtain ⟨key, value⟩ := member
      cases index with
      | zero => simp [memberDocs]
      | succ index =>
          have hrest : index < rest.length := Nat.lt_of_succ_lt_succ hmember
          have hinside : index < (memberDocs format depth rest).length := by
            rwa [length_memberDocs]
          simpa [memberDocs] using ih hinside hrest

theorem wellFormed_nest {limit : Nat} {kind : Nest} {blank : List UInt8}
    {entries : List (Frame × Doc)} (hdoc : (Doc.nest kind blank entries).WellFormed (limit + 1)) :
    (∀ entry ∈ entries, entry.1.Fits kind) ∧ ∀ entry ∈ entries, entry.2.WellFormed limit := by
  cases hdoc with
  | nest _ hframes hvalues => exact ⟨hframes, hvalues⟩

section Accessors

variable {src : List UInt8}

/-- The name of a member is the text of its key. -/
theorem itemText_of_name {item key : LiteCjson} {ahead : List UInt8} {entries : List (Frame × Doc)}
    (hitem : Lists src item .object entries ahead) {index : Nat} (hindex : index < entries.length)
    {label : Label} (hlabel : entries[index].1.label = some label)
    (hkey : Denotes key (.scalar (.string label.key))
      ((ahead ++ entryAhead .object entries index).length + entries[index].1.before.length)) :
    itemText src key = label.key := by
  obtain ⟨rest, hsrc⟩ := hitem.name_at hindex hlabel
  have hvalue : (key.value.getD 0).toNat =
      (ahead ++ entryAhead .object entries index ++ entries[index].1.before ++ [34]).length := by
    rw [hkey.value, Option.getD_some]
    simp only [Doc.indent, List.length_append, List.length_singleton]
    omega
  have hlength : key.valueLength.toNat = label.key.length := by
    rw [hkey.valueLength]
    rfl
  rw [itemText, hvalue, hlength]
  conv_lhs => rw [hsrc]
  rw [List.append_assoc _ label.key, List.drop_left, List.take_left]

/-- Each index of an array's text finds an item that stands for the text of its element. -/
theorem arrayItem_represents {limit : Nat} {elements : List Json}
    (helements : (Json.array elements).Within limit) (hlimit : limit ≤ liteCjsonNestingLimit)
    {format : Bool} {depth : Nat} {item : LiteCjson} {ahead : List UInt8}
    (hitem : Represents src item ((Json.array elements).doc format depth) ahead) {index : Nat}
    (hindex : index < elements.length) :
    ∃ found before, liteCjsonArrayItem src item index = .ok found ∧
      Represents src found (elements[index].doc format (depth + 1)) before := by
  obtain ⟨limit, rfl⟩ : ∃ rest, limit = rest + 1 := by
    cases helements
    exact ⟨_, rfl⟩
  have hwell := helements.wellFormed format depth
  rw [Json.doc] at hitem hwell
  obtain ⟨hframes, hvalues⟩ := wellFormed_nest hwell
  have hdeep : ∀ entry ∈ elementDocs format (depth + 1) [] elements,
      entry.2.WellFormed liteCjsonNestingLimit :=
    fun entry hentry => (hvalues entry hentry).mono (by omega)
  have hinside : index < (elementDocs format (depth + 1) [] elements).length := by
    rwa [length_elementDocs]
  obtain ⟨entry, hentry, hfound⟩ := entryAt_read hitem hframes hdeep index hinside
  have hrepresents := hentry.represents (hitem.lists hinside) hinside
  rw [getElem_elementDocs hinside hindex] at hrepresents
  obtain ⟨found, harray, hsame⟩ := Outcome.bind_eq_ok_iff.mp hfound
  obtain rfl := Outcome.ok.inj hsame
  exact ⟨found, _, harray, hrepresents⟩

/-- An index that no element of the array has finds nothing. -/
theorem arrayItem_refused {elements : List Json} {format : Bool} {depth : Nat} {item : LiteCjson}
    {ahead : List UInt8}
    (hitem : Represents src item ((Json.array elements).doc format depth) ahead) {index : Int}
    (houtside : ¬(0 ≤ index ∧ index < elements.length)) :
    liteCjsonArrayItem src item index = .failed := by
  rw [Json.doc] at hitem
  rw [← length_elementDocs format (depth + 1) [] elements] at houtside
  have hrefused := entryAt_refused hitem houtside
  rw [entryAt] at hrefused
  cases hfound : liteCjsonArrayItem src item index with
  | failed => rfl
  | ok | stray | running =>
      rw [hfound] at hrefused
      cases hrefused

/-- Each index of an object's text finds the name of its member and an item that stands for the
text of its value. -/
theorem objectItemByIndex_represents {limit : Nat} {members : List (List UInt8 × Json)}
    (hmembers : (Json.object members).Within limit) (hlimit : limit ≤ liteCjsonNestingLimit)
    {format : Bool} {depth : Nat} {item : LiteCjson} {ahead : List UInt8}
    (hitem : Represents src item ((Json.object members).doc format depth) ahead) {index : Nat}
    (hindex : index < members.length) :
    ∃ name found before, liteCjsonObjectItemByIndex src item index = .ok ⟨some name, found⟩ ∧
      itemText src name = escaped members[index].1 ∧
      Represents src found (members[index].2.doc format (depth + 1)) before := by
  obtain ⟨limit, rfl⟩ : ∃ rest, limit = rest + 1 := by
    cases hmembers
    exact ⟨_, rfl⟩
  have hwell := hmembers.wellFormed format depth
  rw [Json.doc] at hitem hwell
  obtain ⟨hframes, hvalues⟩ := wellFormed_nest hwell
  have hdeep : ∀ entry ∈ memberDocs format depth members,
      entry.2.WellFormed liteCjsonNestingLimit :=
    fun entry hentry => (hvalues entry hentry).mono (by omega)
  have hinside : index < (memberDocs format depth members).length := by
    rwa [length_memberDocs]
  obtain ⟨entry, hentry, hfound⟩ := entryAt_read hitem hframes hdeep index hinside
  have hrepresents := hentry.represents (hitem.lists hinside) hinside
  obtain ⟨hdoc, label, hlabel, hkey⟩ := getElem_memberDocs hinside hindex
  have hname := hentry.key
  rw [NameDenotes, hlabel] at hname
  obtain ⟨name, hsome, hname⟩ := hname
  rw [hdoc] at hrepresents
  refine ⟨name, entry.value, _, ?_, ?_, hrepresents⟩
  · rw [← hsome]
    exact hfound
  · rw [itemText_of_name (hitem.lists hinside) hinside hlabel hname, hkey]

/-- An item that stands for the text of a value gives back the value. -/
theorem readsBack_of_represents {limit : Nat} {value : Json} (hvalue : value.Within limit)
    (hlimit : limit ≤ liteCjsonNestingLimit) {format : Bool} {depth : Nat} {item : LiteCjson}
    {ahead : List UInt8} (hitem : Represents src item (value.doc format depth) ahead) :
    ReadsBack src item value := by
  induction hvalue generalizing depth item ahead with
  | null => exact .null hitem.denotes.type
  | @bool _ value =>
      apply ReadsBack.bool
      cases value <;> exact hitem.denotes.type
  | number => exact .number hitem.denotes.type hitem.itemText
  | string =>
      refine .string hitem.denotes.type ?_
      rw [hitem.itemText]
      exact unescape_escaped _
  | @array limit elements helements ih =>
      have hread : ∀ index : Nat, ∃ found, ∀ hindex : index < elements.length,
          liteCjsonArrayItem src item index = .ok found ∧ ReadsBack src found elements[index] := by
        intro index
        by_cases hindex : index < elements.length
        · obtain ⟨found, before, harray, hrepresents⟩ :=
            arrayItem_represents (.array helements) hlimit hitem hindex
          exact ⟨found, fun _ => ⟨harray, ih elements[index] (List.getElem_mem hindex) (by omega)
            hrepresents⟩⟩
        · exact ⟨.zero, fun h => absurd h hindex⟩
      choose child hchild using hread
      exact .array hitem.denotes.type (fun index => arrayItem_refused hitem) child
        (fun index hindex => (hchild index hindex).1) fun index hindex => (hchild index hindex).2
  | @object limit members hmembers ih =>
      have hread : ∀ index : Nat, ∃ key found, ∀ hindex : index < members.length,
          liteCjsonObjectItemByIndex src item index = .ok ⟨some key, found⟩ ∧
            unescape (itemText src key) = some members[index].1 ∧
              ReadsBack src found members[index].2 := by
        intro index
        by_cases hindex : index < members.length
        · obtain ⟨name, found, before, hobject, hname, hrepresents⟩ :=
            objectItemByIndex_represents (.object hmembers) hlimit hitem hindex
          refine ⟨name, found, fun _ => ⟨hobject, ?_, ?_⟩⟩
          · rw [hname]
            exact unescape_escaped _
          · exact ih members[index] (List.getElem_mem hindex) (by omega) hrepresents
        · exact ⟨.zero, .zero, fun h => absurd h hindex⟩
      choose key child hchild using hread
      refine .object hitem.denotes.type ?_ key child (fun index hindex => (hchild index hindex).1)
        (fun index hindex => (hchild index hindex).2.1)
        fun index hindex => (hchild index hindex).2.2
      intro index houtside
      rw [Json.doc] at hitem
      rw [← length_memberDocs format depth members] at houtside
      exact entryAt_refused hitem houtside

end Accessors

/-! ## Texts and values -/

/-- Elements that are spelled alike are the same, if each of them is. -/
theorem elements_unique {format format' : Bool} {depth depth' : Nat} {blank blank' : List UInt8}
    {first second : List Json}
    (hvalues : ∀ value ∈ first, ∀ value' ∈ second,
      (value.doc format depth).render = (value'.doc format' depth').render → value = value')
    (hsame : (elementDocs format depth blank first).map spelling =
      (elementDocs format' depth' blank' second).map spelling) : first = second := by
  induction first generalizing second blank blank' with
  | nil =>
      cases second with
      | nil => rfl
      | cons => simp [elementDocs] at hsame
  | cons value rest ih =>
      cases second with
      | nil => simp [elementDocs] at hsame
      | cons value' rest' =>
          simp only [elementDocs, List.map_cons, List.cons.injEq, spelling, Prod.mk.injEq] at hsame
          have hhead := hvalues value List.mem_cons_self value' List.mem_cons_self hsame.1.2
          have htail := ih (fun other hother other' hother' =>
            hvalues other (List.mem_cons_of_mem _ hother) other' (List.mem_cons_of_mem _ hother'))
            hsame.2
          rw [hhead, htail]

/-- So are members, whose names are spelled too. -/
theorem members_unique {format format' : Bool} {depth depth' : Nat}
    {first second : List (List UInt8 × Json)}
    (hvalues : ∀ member ∈ first, ∀ member' ∈ second,
      (member.2.doc format (depth + 1)).render = (member'.2.doc format' (depth' + 1)).render →
        member.2 = member'.2)
    (hsame : (memberDocs format depth first).map spelling =
      (memberDocs format' depth' second).map spelling) : first = second := by
  induction first generalizing second with
  | nil =>
      cases second with
      | nil => rfl
      | cons member rest =>
          obtain ⟨key, value⟩ := member
          simp [memberDocs] at hsame
  | cons member rest ih =>
      obtain ⟨key, value⟩ := member
      cases second with
      | nil => simp [memberDocs] at hsame
      | cons member' rest' =>
          obtain ⟨key', value'⟩ := member'
          simp only [memberDocs, List.map_cons, List.cons.injEq, spelling, Prod.mk.injEq,
            Frame.mk.injEq, Option.some.injEq, Label.mk.injEq] at hsame
          have hkey := escaped_unique hsame.1.1.2.1.1
          have hhead : value = value' :=
            hvalues _ List.mem_cons_self _ List.mem_cons_self hsame.1.2
          have htail := ih (fun other hother other' hother' =>
            hvalues other (List.mem_cons_of_mem _ hother) other' (List.mem_cons_of_mem _ hother'))
            hsame.2
          rw [hkey, hhead, htail]

theorem Json.Within.type_unique {limit limit' : Nat} {value value' : Json}
    (hvalue : value.Within limit) (hvalue' : value'.Within limit') {format format' : Bool}
    {depth depth' : Nat}
    (hsame : (value.doc format depth).render = (value'.doc format' depth').render) :
    (value.doc format depth).type = (value'.doc format' depth').type :=
  (hvalue.wellFormed format depth).spelled.type_unique (hvalue'.wellFormed format' depth').spelled
    (congrArg (· ++ []) hsame)

/-- Values that are spelled alike are the same. -/
theorem Json.Within.unique {limit : Nat} {value : Json} (hvalue : value.Within limit)
    {limit' : Nat} {value' : Json} (hvalue' : value'.Within limit') {format format' : Bool}
    {depth depth' : Nat}
    (hsame : (value.doc format depth).render = (value'.doc format' depth').render) :
    value = value' := by
  induction hvalue generalizing limit' value' depth depth' with
  | null =>
      have htype := (@Json.Within.null 0).type_unique hvalue' hsame
      cases hvalue' with
      | null => rfl
      | @bool _ value => cases value <;> cases htype
      | number | string | array | object => cases htype
  | @bool _ value =>
      have htype := (@Json.Within.bool 0 value).type_unique hvalue' hsame
      cases hvalue' with
      | @bool _ value' => cases value <;> cases value' <;> first | rfl | cases htype
      | null | number | string | array | object => cases value <;> cases htype
  | number htoken =>
      have htype := (@Json.Within.number 0 _ htoken).type_unique hvalue' hsame
      cases hvalue' with
      | number => exact congrArg Json.number hsame
      | @bool _ value => cases value <;> cases htype
      | null | string | array | object => cases htype
  | string =>
      have htype := (@Json.Within.string 0 _).type_unique hvalue' hsame
      cases hvalue' with
      | string => exact congrArg Json.string (escaped_unique (contents_eq_of_render htype hsame))
      | @bool _ value => cases value <;> cases htype
      | null | number | array | object => cases htype
  | array helements ih =>
      have hvalue := Json.Within.array helements
      have htype := hvalue.type_unique hvalue' hsame
      have hspelled := (hvalue.wellFormed format depth).spelled
      have hspelled' := (hvalue'.wellFormed format' depth').spelled
      cases hvalue' with
      | array helements' =>
          simp only [Json.doc] at hsame hspelled hspelled'
          refine congrArg Json.array (elements_unique ?_ (entries_unique hspelled hspelled' hsame))
          exact fun element helement element' helement' =>
            ih element helement (helements' element' helement')
      | @bool _ value => cases value <;> cases htype
      | null | number | string | object => cases htype
  | object hmembers ih =>
      have hvalue := Json.Within.object hmembers
      have htype := hvalue.type_unique hvalue' hsame
      have hspelled := (hvalue.wellFormed format depth).spelled
      have hspelled' := (hvalue'.wellFormed format' depth').spelled
      cases hvalue' with
      | object hmembers' =>
          simp only [Json.doc] at hsame hspelled hspelled'
          refine congrArg Json.object (members_unique ?_ (entries_unique hspelled hspelled' hsame))
          exact fun member hmember member' hmember' =>
            ih member hmember (hmembers' member' hmember')
      | @bool _ value => cases value <;> cases htype
      | null | number | string | array => cases htype

/-! ## The printer and the parser -/

/-- A printed item is read back: where printing an item gives a block, the parser accepts the text
in it, and its accessors give back the item's value. -/
theorem print_readsBack [DecidableEq ι] {A : BlockAllocator ι} (hlawful : N.Lawful)
    {item : LiteCjsonItem δ} {value : Json} (hvalue : itemJson N item = some value)
    (hlevels : levels item ≤ liteCjsonNestingLimit) {format : Bool} {heap after : BlockHeap ι}
    {block : ι} (hprint : print A N (some item) format heap = .ok (some block, after)) :
    ∃ text, after.blocks = (block, text ++ [0]) :: heap.blocks ∧
      ∃ found, liteCjsonParse text .zero = .ok found ∧ ReadsBack text found value := by
  have hends := @print_ends δ ι _ N A item format heap False True False.elim fun _ _ _ => trivial
  rw [hprint] at hends
  rcases hends with ⟨hstray, -⟩ | ⟨_, hnull, -⟩ | ⟨_, _, hsame, -, hblocks, -, hsound⟩
  · cases hstray
  · cases hnull
  · cases hsame
    have hwithin := within_of_item hlawful item hvalue (fun other hother => (hsound other hother).2)
      hlevels
    obtain ⟨found, hfound, hdenotes, -⟩ :=
      document_recovered .zero blank_nil blank_nil (hwithin.wellFormed format 0)
    rw [List.nil_append, List.append_nil] at hfound
    rw [printed_eq item format 0 hvalue] at hblocks
    exact ⟨_, hblocks, found, hfound, readsBack_of_represents hwithin (Nat.le_refl _)
      ⟨List.prefix_rfl, hdenotes⟩⟩

/-- The number 1.5, as the C library prints it. -/
def threeHalves : NumberFormat Unit where
  notFinite _ := false
  fixed _ := CString.ofArray [49, 46, 53, 48, 48, 48, 48, 48]
  fixedExact _ := true
  short _ := CString.ofArray [49, 46, 53]
  shortExact _ := true
  long _ := CString.ofArray [49, 46, 53]

theorem threeHalves_lawful : threeHalves.Lawful := by
  have hone : Digits [49] := ⟨by simp, List.all_eq_true.mp (by decide)⟩
  have hfive : Digits [53] := ⟨by simp, List.all_eq_true.mp (by decide)⟩
  have hzeros : Digits [53, 48, 48, 48, 48, 48] := ⟨by simp, List.all_eq_true.mp (by decide)⟩
  have hnumber : JsonNumber [49, 46, 53] :=
    .intro (.inl rfl) hone (by simp) (.some hfive) .none
  exact ⟨fun _ _ => .intro (.inl rfl) hone (by simp) hzeros, fun _ _ => hnumber,
    fun _ _ => hnumber⟩

/-- An object with a quote in the name of its member, which is an array of the number 1.5 and a
string with a line feed and the byte 1. -/
def nestedItem : LiteCjsonItem Unit :=
  .mk 64 none () none
    [.mk 32 none () (some (CString.ofArray [97, 34]))
      [.mk 8 none () none [], .mk 16 (some (CString.ofArray [10, 1])) () none []]]

/-- It is printed with line breaks and read back. -/
theorem print_readsBack_nestedItem :
    ∃ block after,
      print BlockAllocator.unbounded threeHalves (some nestedItem) true ⟨[], 0, 0⟩ =
        .ok (some block, after) ∧
          ∃ text, after.blocks = [(block, text ++ [0])] ∧
            ∃ found, liteCjsonParse text .zero = .ok found ∧
              ReadsBack text found
                (.object [([97, 34], .array [.number [49, 46, 53], .string [10, 1]])]) := by
  have hsome : ((print BlockAllocator.unbounded threeHalves (some nestedItem) true
      ⟨[], 0, 0⟩).toOption.bind Prod.fst).isSome = true := by decide +kernel
  obtain ⟨block, hblock⟩ := Option.isSome_iff_exists.mp hsome
  obtain ⟨⟨printed, after⟩, hprint, hsame⟩ := Option.bind_eq_some_iff.mp hblock
  obtain rfl : printed = some block := hsame
  have hok := Outcome.toOption_eq_some.mp hprint
  exact ⟨block, after, hok, print_readsBack threeHalves_lawful rfl (by decide) hok⟩

/-- Two items, in whatever formats they are printed, have the same text only if they have the same
value: the same nesting, the same names and strings, and the same numerals. In one format they have
the same text just then. -/
theorem printed_unique (hlawful : N.Lawful) {first second : LiteCjsonItem δ} {value value' : Json}
    (hfirst : itemJson N first = some value) (hsecond : itemJson N second = some value')
    (hnarrow : ∀ other ∈ visited first ++ visited second, IsNarrow N other)
    (format format' : Bool) :
    (printed N format 0 first = printed N format' 0 second → value = value') ∧
      (value = value' → printed N format 0 first = printed N format 0 second) := by
  rw [List.forall_mem_append] at hnarrow
  have hwithin := within_of_item hlawful first hfirst hnarrow.1 (Nat.le_refl _)
  have hwithin' := within_of_item hlawful second hsecond hnarrow.2 (Nat.le_refl _)
  constructor
  · intro hsame
    rw [printed_eq first format 0 hfirst, printed_eq second format' 0 hsecond] at hsame
    exact hwithin.unique hwithin' hsame
  · rintro rfl
    rw [printed_eq first format 0 hfirst, printed_eq second format 0 hsecond]

/-- A string with a flag in its type prints as the string without it. -/
theorem printed_unique_flagged :
    (printed threeHalves true 0 (.mk 16 (some (CString.ofArray [97])) () none []) =
        printed threeHalves false 0 (.mk 528 (some (CString.ofArray [97])) () none []) →
      Json.string [97] = .string (stringBytes (some (CString.ofArray [97])))) ∧
    (Json.string [97] = .string (stringBytes (some (CString.ofArray [97]))) →
      printed threeHalves true 0 (.mk 16 (some (CString.ofArray [97])) () none []) =
        printed threeHalves true 0 (.mk 528 (some (CString.ofArray [97])) () none [])) :=
  printed_unique threeHalves_lawful rfl rfl (by decide) true false

end EnosDeviceSdk.Infra.Printer
