/-
# Documents that a buffer has cut off

The code prints events into buffers whose lengths it computes, and the parser then reads what has
found room. Whatever it accepts, a string that an accessor gives out can stand between quotes, and
an object begins with its bracket.

An object of numbers and strings is not read if any of its end is missing. An object whose last
member is an object itself is read without its closing bracket, members and all.
-/

import EnosDeviceSdk.Infra.CjsonMembers
import EnosDeviceSdk.Infra.CjsonAccess

namespace EnosDeviceSdk.Infra

open EnosDeviceSdk.Library

variable {src : List UInt8}

/-! ## Items of whatever was accepted -/

theorem mem_of_mem_itemText {item : LiteCjson} {byte : UInt8} (hbyte : byte ∈ itemText src item) :
    byte ∈ src :=
  List.mem_of_mem_drop (List.mem_of_mem_take hbyte)

/-- A member of an item that the parser gave out. -/
theorem jsonObjectItem_embedded {lite item : LiteCjson} {key : List UInt8}
    (hparse : jsonParse src = some lite) (hitem : jsonObjectItem src lite key = some item) :
    Embedded src item := by
  have hparsed := Outcome.toOption_eq_some.mp hparse
  have hinside := ((liteCjsonParse_keeps src .zero).of_ok hparsed).inside
  exact (liteCjsonObjectItemByKey_embedded hinside key).of_ok (Outcome.toOption_eq_some.mp hitem)

/-- A string can stand between quotes. -/
theorem Embedded.stringBody {item : LiteCjson} (hitem : Embedded src item)
    (htype : item.type = .string) : StringBody (itemText src item) := by
  obtain ⟨levels, ahead, used, after, behind, hsrc, _, hparsed⟩ := hitem
  cases hparsed with
  | cut kind _ _ hkind _ _ =>
      rw [htype] at hkind
      cases kind <;> exact absurd hkind nofun
  | complete doc hdoc hused hdenotes =>
      have hrepresents : Represents src item doc ahead := ⟨⟨behind, hused ▸ hsrc.symm⟩, hdenotes⟩
      rw [hrepresents.itemText]
      have hdocType := hdenotes.type.symm.trans htype
      cases hdoc with
      | @scalar levels token hvalid =>
          cases token with
          | string body => exact hvalid
          | null | true | false | number => exact absurd hdocType nofun
      | @nest levels kind => cases kind <;> exact absurd hdocType nofun

/-- What a member has for a text is the text of an item inside the input. -/
theorem jsonMember_embedded {lite : LiteCjson} {key text : List UInt8} {type : CjsonType}
    (hparse : jsonParse src = some lite) (htext : jsonMember src lite key type = some text) :
    ∃ item, Embedded src item ∧ item.type = type ∧ itemText src item = text := by
  obtain ⟨item, hitem, htyped⟩ := Option.bind_eq_some_iff.mp htext
  obtain ⟨htype, hsame⟩ := Option.ite_none_right_eq_some.mp htyped
  exact ⟨item, jsonObjectItem_embedded hparse hitem, htype, Option.some.inj hsame⟩

/-- So can the text of a member that is a string. -/
theorem stringBody_of_jsonMember {lite : LiteCjson} {key text : List UInt8}
    (hparse : jsonParse src = some lite) (htext : jsonMember src lite key .string = some text) :
    StringBody text := by
  obtain ⟨item, hitem, htype, rfl⟩ := jsonMember_embedded hparse htext
  exact hitem.stringBody htype

/-- What a member has for a text stands in the input. -/
theorem mem_of_jsonMember {lite : LiteCjson} {key text : List UInt8} {type : CjsonType}
    (htext : jsonMember src lite key type = some text) {byte : UInt8} (hbyte : byte ∈ text) :
    byte ∈ src := by
  obtain ⟨item, -, htyped⟩ := Option.bind_eq_some_iff.mp htext
  obtain ⟨-, hsame⟩ := Option.ite_none_right_eq_some.mp htyped
  rw [← Option.some.inj hsame] at hbyte
  exact mem_of_mem_itemText hbyte

/-- An object begins with its bracket, and not at the beginning of the input. -/
theorem Embedded.object {item : LiteCjson} (hitem : Embedded src item)
    (htype : item.type = .object) :
    ∃ ahead rest, ahead ≠ [] ∧ ahead ++ itemText src item <+: src ∧
      itemText src item = 123 :: rest := by
  obtain ⟨levels, ahead, used, after, behind, hsrc, hahead, hparsed⟩ := hitem
  have hplaced : ahead ++ used <+: src := ⟨behind, hsrc.symm⟩
  cases hparsed with
  | cut kind hcut _ hkind hvalue hlength =>
      have htext : itemText src item = used := by
        rw [itemText, hvalue, hlength, hsrc]
        simp
      rw [htype] at hkind
      obtain rfl : kind = .object := by cases kind <;> first | rfl | cases hkind
      rw [htext]
      cases hcut with
      | last => exact ⟨ahead, _, hahead, hplaced, rfl⟩
      | deeper => exact ⟨ahead, _, hahead, hplaced, rfl⟩
  | complete doc hdoc hused hdenotes =>
      have hrepresents : Represents src item doc ahead := ⟨hused ▸ hplaced, hdenotes⟩
      have hdocType := hdenotes.type.symm.trans htype
      rw [hrepresents.itemText]
      cases doc with
      | scalar token => cases token <;> cases hdocType
      | nest kind blank entries =>
          obtain rfl : kind = .object := by
            cases kind <;> first | rfl | cases hdocType
          rw [hused] at hplaced
          refine ⟨ahead, bodyText blank entries ++ [125], hahead, hplaced, ?_⟩
          rw [Doc.contents, render_nest]
          · rfl
          · simp

/-! ## Objects of numbers and strings -/

/-- A text without brackets, except in its strings. -/
inductive Flat : List UInt8 → Prop
  | nil : Flat []
  | plain {byte : UInt8} {rest : List UInt8}
      (hplain : byte ≠ 34 ∧ byte ≠ 91 ∧ byte ≠ 93 ∧ byte ≠ 123 ∧ byte ≠ 125)
      (hrest : Flat rest) : Flat (byte :: rest)
  | string {body rest : List UInt8} (hbody : StringBody body) (hrest : Flat rest) :
      Flat (34 :: (body ++ 34 :: rest))

theorem Flat.append {first second : List UInt8} (hfirst : Flat first) (hsecond : Flat second) :
    Flat (first ++ second) := by
  induction hfirst with
  | nil => exact hsecond
  | plain hplain _ ih => exact .plain hplain ih
  | string hbody _ ih =>
      rw [List.cons_append, List.append_assoc, List.cons_append]
      exact .string hbody ih

theorem flat_of_plain {text : List UInt8}
    (hplain : ∀ byte ∈ text, byte ≠ 34 ∧ byte ≠ 91 ∧ byte ≠ 93 ∧ byte ≠ 123 ∧ byte ≠ 125) :
    Flat text := by
  induction text with
  | nil => exact .nil
  | cons byte rest ih =>
      rw [List.forall_mem_cons] at hplain
      exact .plain hplain.1 (ih hplain.2)

theorem flat_token {token : Token} (htoken : token.Spelled) : Flat token.render := by
  cases token with
  | null | true | false => exact flat_of_plain (by simp [Token.render])
  | number text =>
      apply flat_of_plain
      intro byte hbyte
      have hnumber := htoken.2 byte hbyte
      refine ⟨?_, ?_, ?_, ?_, ?_⟩ <;>
        (rintro rfl
         exact absurd hnumber (by decide))
  | string body =>
      have hstring := Flat.string htoken .nil
      simpa [Token.render] using hstring

theorem flat_joinCommas {texts : List (List UInt8)} (htexts : ∀ text ∈ texts, Flat text) :
    Flat (joinCommas texts) := by
  have hrest : ∀ rest : List (List UInt8), (∀ text ∈ rest, Flat text) →
      Flat (rest.map (44 :: ·)).flatten := by
    intro rest
    induction rest with
    | nil => exact fun _ => .nil
    | cons text rest ih =>
        intro hflat
        rw [List.forall_mem_cons] at hflat
        exact .plain (by decide) (hflat.1.append (ih hflat.2))
  cases texts with
  | nil => exact .nil
  | cons text rest =>
      rw [List.forall_mem_cons] at htexts
      exact htexts.1.append (hrest rest htexts.2)

/-- Brackets in a string do not count. -/
theorem StringBody.level {body rest front : List UInt8} (hbody : StringBody body) (level : Int)
    (hrest : ∀ front, front <+: rest → (front.foldl Balance.step (.outside level)).level = level)
    (hfront : front <+: body ++ 34 :: rest) :
    (front.foldl Balance.step ⟨true, false, level⟩).level = level := by
  induction hbody generalizing front with
  | nil =>
      rcases List.prefix_cons_iff.mp hfront with rfl | ⟨later, rfl, hlater⟩
      · rfl
      · exact hrest later hlater
  | plain hquote hescape _ ih =>
      rcases List.prefix_cons_iff.mp hfront with rfl | ⟨later, rfl, hlater⟩
      · rfl
      · rw [List.foldl_cons]
        simpa [Balance.step, hquote, hescape] using ih hlater
  | escaped _ ih =>
      rcases List.prefix_cons_iff.mp hfront with rfl | ⟨later, rfl, hlater⟩
      · rfl
      · rcases List.prefix_cons_iff.mp hlater with rfl | ⟨final, rfl, hfinal⟩
        · rfl
        · rw [List.foldl_cons, List.foldl_cons]
          simpa [Balance.step] using ih hfinal

/-- The level of the brackets does not change in a flat text. -/
theorem Flat.level {text front : List UInt8} (hflat : Flat text) (level : Int)
    (hfront : front <+: text) :
    (front.foldl Balance.step (.outside level)).level = level := by
  induction hflat generalizing front with
  | nil =>
      rw [List.prefix_nil.mp hfront]
      rfl
  | @plain byte rest hplain _ ih =>
      rcases List.prefix_cons_iff.mp hfront with rfl | ⟨later, rfl, hlater⟩
      · rfl
      · obtain ⟨hquote, harray, harrayEnd, hobject, hobjectEnd⟩ := hplain
        have hsame : Balance.step (.outside level) byte = .outside level := by
          simp [Balance.step, Balance.outside, hquote, harray, harrayEnd, hobject, hobjectEnd]
        rw [List.foldl_cons, hsame]
        exact ih hlater
  | string hbody _ ih =>
      rcases List.prefix_cons_iff.mp hfront with rfl | ⟨later, rfl, hlater⟩
      · rfl
      · exact hbody.level level (fun _ => ih) hlater

/-- Somewhere in a text that is cut short two brackets are open. -/
theorem CutShort.deep {kind : Nest} {levels : Nat} {text : List UInt8}
    (hcut : CutShort kind levels text) :
    ∃ front count, front <+: text ∧ 2 ≤ count ∧ Opens count front := by
  cases hcut with
  | @last levels prior frame blank entries hframes hvalues hframe hvalue =>
      cases hvalue with
      | nest hblank hentries hinner =>
          have hprior := opens_priorText hframes fun entry hentry =>
            opens_render (hvalues entry hentry)
          have hall := (((opens_opening kind).append hprior).append (opens_lead hframe)).append
            (opens_opening kind)
          refine ⟨_, _, ?_, by decide, hall⟩
          rw [render_nest]
          exact ⟨bodyText blank entries ++ [kind.closing], by simp⟩
  | @deeper levels prior frame inner hframes hvalues hframe hinner =>
      obtain ⟨count, hpositive, hopens⟩ := opens_cutShort hinner
      have hprior := opens_priorText hframes fun entry hentry =>
        opens_render (hvalues entry hentry)
      have hall := (((opens_opening kind).append hprior).append (opens_lead hframe)).append hopens
      refine ⟨_, _, ?_, ?_, hall⟩
      · simp
      · omega

/-- What begins with a byte of a value is read from its first byte on. -/
theorem jsonParse_from_start {head : UInt8} {rest : List UInt8} {item : LiteCjson}
    (hsolid : ¬head ≤ 32) (hbom : head ≠ 0xEF) (hparse : jsonParse (head :: rest) = some item) :
    ∃ used after, head :: rest = used ++ after ∧
      Parsed liteCjsonNestingLimit item 0 used after := by
  obtain ⟨mark, blank, used, after, htext, hmark, hblank, hparsed⟩ :=
    (liteCjsonParse_keeps (head :: rest) .zero).of_ok (Outcome.toOption_eq_some.mp hparse)
  obtain ⟨rfl, rfl⟩ : mark = [] ∧ blank = [] := by
    rcases hmark with rfl | rfl
    · cases blank with
      | nil => exact ⟨rfl, rfl⟩
      | cons byte blank =>
          have hbyte := hblank byte (List.mem_cons_self ..)
          exact absurd ((List.cons.inj htext).1 ▸ hbyte) hsolid
    · exact absurd (List.cons.inj htext).1 hbom
  exact ⟨used, after, htext, hparsed⟩

/-- An object of numbers and strings is refused if any of its end is missing. -/
theorem jsonParse_of_front {body text : List UInt8} (hflat : Flat body)
    (hfront : text <+: 123 :: body) : jsonParse text = none := by
  rcases List.prefix_cons_iff.mp hfront with rfl | ⟨front, rfl, hprefix⟩
  · rfl
  · rw [Option.eq_none_iff_forall_ne_some]
    intro item hparse
    have hopened : ∀ {count : Int} {used : List UInt8}, used <+: 123 :: front → used ≠ [] →
        Opens count used → count = 1 := by
      intro count used hused hsome hopens
      rcases List.prefix_cons_iff.mp hused with rfl | ⟨later, rfl, hlater⟩
      · exact absurd rfl hsome
      · have hlevel := hflat.level 1 (hlater.trans hprefix)
        have htotal := congrArg Balance.level (hopens 0)
        rw [List.foldl_cons] at htotal
        exact (Int.zero_add count).symm.trans (htotal.symm.trans hlevel)
    obtain ⟨used, after, htext, hparsed⟩ :=
      jsonParse_from_start (by decide) (by decide) hparse
    have hused : used <+: 123 :: front := ⟨after, htext.symm⟩
    cases hparsed with
    | complete doc hdoc hrender _ =>
        obtain ⟨byte, rest, hcons, _⟩ := startsValue_render hdoc
        have hsome : used ≠ [] := by
          rw [hrender, hcons]
          exact List.cons_ne_nil byte rest
        have hone := hopened hused hsome (hrender ▸ opens_render hdoc)
        exact absurd hone (by decide)
    | cut kind hcut _ _ _ _ =>
        obtain ⟨front, count, hlater, hcount, hopens⟩ := hcut.deep
        have hsome : front ≠ [] := by
          rintro rfl
          have hnone := hopens.unique (opens_of_plain (List.forall_mem_nil _))
          omega
        have hone := hopened (hlater.trans hused) hsome hopens
        omega

/-! ## Objects without their closing bracket -/

/-- The entries of an object with these members. -/
def framed (members : List (List UInt8 × Doc)) : List (Frame × Doc) :=
  members.map fun entry => member entry.1 entry.2

/-- The text of an object with these members, up to its closing bracket. -/
def openText (members : List (List UInt8 × Doc)) : List UInt8 :=
  123 :: joinCommas ((framed members).map entryText)

theorem render_openText {members : List (List UInt8 × Doc)} (hsome : members ≠ []) :
    (objectOf members).render = openText members ++ [125] := by
  have hindex : 0 < (framed members).length := by
    rw [framed, List.length_map]
    exact List.length_pos_iff.mpr hsome
  rw [objectOf, render_nest, ← framed, bodyText_of_entry [] hindex]
  rfl

/-- The members of an object are entries of the grammar. -/
theorem framed_fits {levels : Nat} {members : List (List UInt8 × Doc)}
    (hobject : (objectOf members).WellFormed (levels + 1)) :
    (∀ entry ∈ framed members, entry.1.Fits .object) ∧
      ∀ entry ∈ framed members, entry.2.WellFormed levels := by
  cases hobject with
  | nest _ hframes hvalues => exact ⟨hframes, hvalues⟩

/-- The parser reads an object with its bracket, and one without it whose last member is an object
itself. -/
theorem jsonParse_members {members : List (List UInt8 × Doc)} {rest : List UInt8}
    (hobject : (objectOf members).WellFormed liteCjsonNestingLimit) (hsome : members ≠ [])
    (hrest : rest = [125] ∨ rest = [] ∧ ∃ prior key blank entries,
      members = prior ++ [(key, .nest .object blank entries)]) :
    ∃ item, jsonParse (openText members ++ rest) = some item ∧
      Lists (openText members ++ rest) item .object (framed members) [] := by
  rcases hrest with rfl | ⟨rfl, prior, key, blank, entries, rfl⟩
  · have hindex : 0 < (framed members).length := by
      rw [framed, List.length_map]
      exact List.length_pos_iff.mpr hsome
    obtain ⟨item, hparse, hitem⟩ := jsonParse_render hobject
    rw [render_openText hsome] at hparse hitem
    exact ⟨item, hparse, hitem.lists hindex⟩
  · obtain ⟨hframes, hvalues⟩ := @framed_fits 999 _ hobject
    have hentries : framed (prior ++ [(key, .nest .object blank entries)]) =
        framed prior ++ [member key (.nest .object blank entries)] := by
      rw [framed, List.map_append]
      rfl
    have htext : openText (prior ++ [(key, .nest .object blank entries)]) =
        Nest.object.opening :: priorText (framed prior) ++
          (member key (.nest .object blank entries)).1.lead ++
          (Doc.nest .object blank entries).render := by
      rw [openText, hentries, joinCommas_append_singleton]
      simp [entryText, Frame.wrap, member, Nest.opening]
    rw [hentries, List.forall_mem_append, List.forall_mem_singleton] at hframes hvalues
    have hcut : CutShort .object liteCjsonNestingLimit
        (openText (prior ++ [(key, .nest .object blank entries)])) := by
      rw [htext]
      exact .last hframes.1 hvalues.1 hframes.2 hvalues.2
    obtain ⟨item, hparse, hitem⟩ := liteCjsonParse_of_value .zero
      (by simp : openText (prior ++ [(key, .nest .object blank entries)]) =
        [] ++ ([] ++ (openText (prior ++ [(key, .nest .object blank entries)]) ++ [])))
      (Or.inl rfl) blank_nil hcut.starts (parseValue_cut liteCjsonNestingLimit .zero hcut)
    rw [List.append_nil]
    refine ⟨item, by rw [jsonParse, hparse, Outcome.toOption_ok], ?_⟩
    exact
      { type := hitem.type
        value := hitem.value
        size := hitem.size
        span := ⟨[], Or.inl rfl, by rw [List.append_nil]; exact List.prefix_rfl,
          by rw [List.append_nil]; exact hitem.valueLength⟩ }

end EnosDeviceSdk.Infra
