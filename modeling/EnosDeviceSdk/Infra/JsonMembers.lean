/-
# The members of an object

Whether the loop over an object runs on its own members, and whether the search by a name finds the
value of the first one, is decided by the text. A name or a string with an escaped quote is cut
short, a null is taken for what comes next, and white space in front of the object that is not a
space hides it. The brackets in an array or an object may be miscounted if there are escaped quotes
in it. The search leaves out empty names and values, which the loop does not.
-/

import EnosDeviceSdk.Infra.JsonParser
import EnosDeviceSdk.Infra.JsonUnique
import Mathlib.Data.List.Find

namespace EnosDeviceSdk.Infra

open EnosDeviceSdk.Library

/-! ## What is meant -/

/-- Where the key and the value of a member stand, if it begins at a place. -/
def memberSlices (start : Nat) (entry : Frame × Doc) : Slices :=
  ⟨start + entry.1.before.length + 1, (keyOf entry).length,
    start + entry.1.lead.length + entry.2.indent, entry.2.contents.length⟩

/-- The names of an object's own members and where they stand, from a place on. -/
def ownMembers : Nat → List (Frame × Doc) → List (List UInt8 × Slices)
  | _, [] => []
  | start, entry :: entries =>
      (keyOf entry, memberSlices start entry) ::
        ownMembers (start + (entryText entry).length + 1) entries

/-- The loop runs its body on just these keys and values. -/
def Enumerates (text : CString) (members : List Slices) : Prop :=
  ∀ (σ : Type) (body : Slices → σ → σ × Bool) (state : σ),
    jsonObjectForEachKv text text.strlen (fun item => body item.toSlices) state =
      .ok (visit body members state)

/-- The value of the first member with the name is found, if there is one. -/
def FindsByName (text name : CString) (members : List (List UInt8 × Slices)) : Prop :=
  ∃ found, jsonGetValueByName text text.strlen name = .ok found ∧
    found.map (fun value => (value.1, value.2.1)) =
      (members.find? (·.1 = name.bytes)).map fun member => (member.2.val, member.2.vlen)

/-- A text that holds one object of the grammar, with the numbers among its values as JSON writes
them. -/
structure ObjectText (text : CString) (lead blank : List UInt8) (entries : List (Frame × Doc))
    (trail : List UInt8) : Prop where
  bytes : text.bytes = lead ++ (Doc.nest .object blank entries).render ++ trail
  lead : Blank lead
  trail : Blank trail
  object : (Doc.nest .object blank entries).Spelled
  numbers : ∀ entry ∈ entries, ∀ number, entry.2 = .scalar (.number number) → JsonNumber number

/-- If there are members there are just spaces in front of the object, no name has a quote in it,
and every value is of a kind that is scanned rightly. -/
def Enumerable (lead : List UInt8) (entries : List (Frame × Doc)) : Prop :=
  entries = [] ∨ (∀ byte ∈ lead, byte = 32) ∧ ∀ entry ∈ entries, 34 ∉ keyOf entry ∧ Scanned entry.2

/-! ## A member -/

section Member

variable {ahead junk key gap blank behind : List UInt8} {value : Doc}

/-- The text around a member, with what stands behind its name set apart. -/
def memberText (ahead junk key gap blank behind : List UInt8) (value : Doc) : List UInt8 :=
  ahead ++ (junk ++ 34 :: (key ++ 34 :: (gap ++ 58 :: (blank ++ (value.render ++ behind)))))

/-- The place of the name is found, and its end if that is the next quote. -/
theorem strchr_name (hjunk : 34 ∉ junk) :
    strchr (memberText ahead junk key gap blank behind value) ahead.length 34 =
        some (ahead.length + junk.length) ∧
      (strchr (memberText ahead junk key gap blank behind value)
          (ahead.length + junk.length + 1) 34 =
        some (ahead.length + junk.length + 1 + key.length) ↔ 34 ∉ key) := by
  have hsplit : memberText ahead junk key gap blank behind value =
      (ahead ++ junk ++ [34]) ++
        (key ++ 34 :: (gap ++ 58 :: (blank ++ (value.render ++ behind)))) := by
    simp [memberText]
  have hlength : (ahead ++ junk ++ [34]).length = ahead.length + junk.length + 1 := by
    rw [List.length_append, List.length_append, List.length_singleton]
  refine ⟨strchr_eq_iff.mpr hjunk, ?_⟩
  rw [hsplit, ← hlength]
  exact strchr_eq_iff

/-- The colon is the next one behind the name. -/
theorem strchr_colon (hgap : Blank gap) :
    strchr (memberText ahead junk key gap blank behind value)
        (ahead.length + junk.length + 1 + key.length) 58 =
      some (ahead.length + junk.length + 1 + key.length + 1 + gap.length) := by
  have hsplit : memberText ahead junk key gap blank behind value =
      (ahead ++ junk ++ 34 :: key) ++
        ((34 :: gap) ++ 58 :: (blank ++ (value.render ++ behind))) := by
    simp [memberText]
  have hlength : (ahead ++ junk ++ 34 :: key).length =
      ahead.length + junk.length + 1 + key.length := by
    rw [List.length_append, List.length_append, List.length_cons]
    omega
  have hcolon : (58 : UInt8) ∉ 34 :: gap := by
    intro hmem
    rcases List.mem_cons.mp hmem with hquote | hblank
    · exact absurd hquote (by decide)
    · exact absurd (hgap 58 hblank) (by decide)
  have hfound := (@strchr_eq_iff (ahead ++ junk ++ 34 :: key) (34 :: gap)
    (blank ++ (value.render ++ behind)) 58).mpr hcolon
  rw [hsplit, ← hlength, hfound, List.length_cons]
  congr 1
  omega

/-- The text with what stands in front of the colon set apart. -/
theorem memberText_colon :
    memberText ahead junk key gap blank behind value =
        (ahead ++ junk ++ 34 :: key ++ 34 :: gap) ++ ((58 :: blank) ++ (value.render ++ behind)) ∧
      (ahead ++ junk ++ 34 :: key ++ 34 :: gap).length =
        ahead.length + junk.length + 1 + key.length + 1 + gap.length := by
  constructor
  · simp [memberText]
  · simp only [List.length_append, List.length_cons]
    omega

theorem valueMark_colon (hblank : Blank blank) : ∀ char ∈ 58 :: blank, valueMark char = none :=
  List.forall_mem_cons.mpr ⟨by decide, fun char hchar => valueMark_blank (hblank char hchar)⟩

theorem indent_add_contents_le (value : Doc) :
    value.indent + value.contents.length ≤ value.render.length := by
  cases value with
  | nest => exact Nat.le_of_eq (Nat.zero_add _)
  | scalar token =>
      cases token with
      | null | true | false | number => exact Nat.le_of_eq (Nat.zero_add _)
      | string body =>
          rw [Doc.render, Token.render, List.length_append, List.length_cons,
            List.length_singleton, Doc.indent, Doc.contents]
          omega

/-- A member whose name has no quote and whose value is scanned rightly is found. -/
theorem jsonGetNextObject_scanned (hjunk : 34 ∉ junk) (hkey : 34 ∉ key) (hgap : Blank gap)
    (hblank : Blank blank) (hvalue : value.Spelled)
    (hnumbers : ∀ number, value = .scalar (.number number) → JsonNumber number)
    (hends : Ends behind) (hbehind : behind ≠ []) (hscanned : Scanned value) :
    ∃ type, jsonGetNextObject (memberText ahead junk key gap blank behind value) ahead.length
        (memberText ahead junk key gap blank behind value).length =
      some (ahead.length + junk.length + 1 + key.length + 1 + gap.length + 1 + blank.length +
          value.render.length,
        ⟨⟨ahead.length + junk.length + 1, key.length,
          ahead.length + junk.length + 1 + key.length + 1 + gap.length + 1 + blank.length +
            value.indent, value.contents.length⟩, type⟩) := by
  obtain ⟨hquote, hname⟩ := @strchr_name ahead junk key gap blank behind value hjunk
  have hcolon := @strchr_colon ahead junk key gap blank behind value hgap
  obtain ⟨hsplit, hlength⟩ := @memberText_colon ahead junk key gap blank behind value
  obtain ⟨type, hfound⟩ := @jsonGetNextValue_scanned (ahead ++ junk ++ 34 :: key ++ 34 :: gap) _ _ _
    (valueMark_colon hblank) hvalue hnumbers hends hbehind hscanned
  rw [← hsplit, hlength, List.length_cons, ← Nat.add_assoc,
    Nat.add_right_comm _ blank.length] at hfound
  have hwhole : (memberText ahead junk key gap blank behind value).length =
      ahead.length + junk.length + 1 + key.length + 1 + gap.length + 1 + blank.length +
        value.render.length + behind.length := by
    rw [hsplit, List.length_append, hlength, List.length_append, List.length_append,
      List.length_cons]
    omega
  have hinside := indent_add_contents_le value
  refine ⟨type, Option.bind_eq_some_iff.mpr ⟨_, hquote, Option.bind_eq_some_iff.mpr
    ⟨_, hname.mpr hkey, Option.bind_eq_some_iff.mpr ⟨_, hcolon, Option.bind_eq_some_iff.mpr
      ⟨_, hfound, ?_⟩⟩⟩⟩⟩
  dsimp only
  rw [Nat.add_sub_cancel_left, if_neg (by omega)]
  rfl

/-- A member that is found with its key and its value has no quote in its name and a value that is
scanned rightly. -/
theorem scanned_of_jsonGetNextObject (hjunk : 34 ∉ junk) (hgap : Blank gap) (hblank : Blank blank)
    {next : Nat} {item : KeyValue}
    (hfound : jsonGetNextObject (memberText ahead junk key gap blank behind value) ahead.length
        (memberText ahead junk key gap blank behind value).length = some (next, item))
    (hslices : item.toSlices = ⟨ahead.length + junk.length + 1, key.length,
      ahead.length + junk.length + 1 + key.length + 1 + gap.length + 1 + blank.length +
        value.indent, value.contents.length⟩) : 34 ∉ key ∧ Scanned value := by
  obtain ⟨hquote, hname⟩ := @strchr_name ahead junk key gap blank behind value hjunk
  obtain ⟨quote, hfirst, hfound⟩ := Option.bind_eq_some_iff.mp hfound
  rw [hquote] at hfirst
  cases hfirst
  obtain ⟨second, hsecond, hfound⟩ := Option.bind_eq_some_iff.mp hfound
  have hbehind := le_strchr hsecond
  obtain ⟨colon, hcolon, hfound⟩ := Option.bind_eq_some_iff.mp hfound
  obtain ⟨⟨after, place, len, type⟩, hvalue, hfound⟩ := Option.bind_eq_some_iff.mp hfound
  dsimp only at hfound
  split at hfound
  · exact nomatch hfound
  · cases hfound
    rw [Slices.mk.injEq] at hslices
    obtain ⟨-, hklen, hval, hvlen⟩ := hslices
    have hend : second = ahead.length + junk.length + 1 + key.length := by omega
    rw [hend] at hsecond hcolon
    rw [strchr_colon hgap] at hcolon
    cases hcolon
    obtain ⟨hsplit, hlength⟩ := @memberText_colon ahead junk key gap blank behind value
    refine ⟨hname.mp hsecond, ?_⟩
    rw [← hlength, hsplit, hval, hvlen] at hvalue
    have hplace : ahead.length + junk.length + 1 + key.length + 1 + gap.length + 1 + blank.length +
        value.indent = (ahead ++ junk ++ 34 :: key ++ 34 :: gap).length + (58 :: blank).length +
          value.indent := by
      rw [hlength, List.length_cons]
      omega
    rw [hplace] at hvalue
    exact scanned_of_jsonGetNextValue (valueMark_colon hblank) hvalue

end Member

/-! ## An object -/

section Object

variable {text ahead junk behind : List UInt8}

/-- The lead of a member of an object. -/
theorem lead_member {frame : Frame} {label : Label} (hlabel : frame.label = some label) :
    frame.lead = frame.before ++ (34 :: (label.key ++ 34 :: (label.gap ++ 58 :: label.blank))) := by
  rw [Frame.lead, hlabel, Option.map_some, Option.getD_some, Label.render]
  simp

/-- The loop finds a member as it should if its name has no quote and its value is scanned rightly,
and then goes on behind the value. -/
theorem walks_member {entry : Frame × Doc} (hfits : entry.1.Fits .object) (hvalue : entry.2.Spelled)
    (hnumbers : ∀ number, entry.2 = .scalar (.number number) → JsonNumber number)
    (hjunk : 34 ∉ junk) (hends : Ends behind) (hbehind : behind ≠ [])
    (htext : text = ahead ++ (junk ++ (entry.1.lead ++ (entry.2.render ++ behind))))
    (slices : List Slices) :
    (∃ items, Walks text text.length ahead.length items ∧
        items.map KeyValue.toSlices =
          memberSlices (ahead.length + junk.length) entry :: slices) ↔
      (34 ∉ keyOf entry ∧ Scanned entry.2) ∧
        ∃ items, Walks text text.length
            (ahead ++ (junk ++ (entry.1.lead ++ entry.2.render))).length items ∧
          items.map KeyValue.toSlices = slices := by
  obtain ⟨label, hlabel⟩ := Option.isSome_iff_exists.mp (hfits.label.mp rfl)
  have hkeyOf : keyOf entry = label.key := by rw [keyOf, hlabel]; rfl
  have hlead := lead_member hlabel
  have hmember : text = memberText ahead (junk ++ entry.1.before) label.key label.gap label.blank
      behind entry.2 := by
    rw [htext, hlead, memberText]
    simp
  have hquote : 34 ∉ junk ++ entry.1.before := by
    rw [List.mem_append, not_or]
    exact ⟨hjunk, fun hmem => absurd (hfits.before 34 hmem) (by decide)⟩
  have hgap := hfits.gap label hlabel
  have hblank := hfits.blank label hlabel
  have hleadLength : entry.1.lead.length = entry.1.before.length + 1 + label.key.length + 1 +
      label.gap.length + 1 + label.blank.length := by
    rw [hlead]
    simp only [List.length_append, List.length_cons]
    omega
  have hslices : memberSlices (ahead.length + junk.length) entry =
      ⟨ahead.length + (junk ++ entry.1.before).length + 1, label.key.length,
        ahead.length + (junk ++ entry.1.before).length + 1 + label.key.length + 1 +
          label.gap.length + 1 + label.blank.length + entry.2.indent, entry.2.contents.length⟩ := by
    rw [memberSlices, hkeyOf, hleadLength, List.length_append, Slices.mk.injEq]
    omega
  have hplace : (ahead ++ (junk ++ (entry.1.lead ++ entry.2.render))).length =
      ahead.length + (junk ++ entry.1.before).length + 1 + label.key.length + 1 +
        label.gap.length + 1 + label.blank.length + entry.2.render.length := by
    simp only [List.length_append, hleadLength]
    omega
  have hinside : ahead.length < text.length := by
    rw [hmember, memberText, List.length_append, List.length_append, List.length_cons]
    omega
  rw [hkeyOf, hslices, hplace]
  constructor
  · rintro ⟨items, hwalks, hitems⟩
    generalize hpos : ahead.length = pos at hwalks
    cases hwalks with
    | terminated => cases hitems
    | done => cases hitems
    | @next _ later item items _ hitem hlater =>
        rw [List.map_cons, List.cons.injEq] at hitems
        subst hpos
        rw [hmember] at hitem
        obtain ⟨hkey, hscanned⟩ := scanned_of_jsonGetNextObject hquote hgap hblank hitem hitems.1
        obtain ⟨type, hfound⟩ := jsonGetNextObject_scanned hquote hkey hgap hblank hvalue hnumbers
          hends hbehind hscanned
        rw [hitem] at hfound
        cases hfound
        exact ⟨⟨hkey, hscanned⟩, items, hlater, hitems.2⟩
  · rintro ⟨⟨hkey, hscanned⟩, items, hwalks, hitems⟩
    obtain ⟨type, hfound⟩ := jsonGetNextObject_scanned hquote hkey hgap hblank hvalue hnumbers
      hends hbehind hscanned
    rw [← hmember] at hfound
    exact ⟨_ :: items, .next hinside hfound hwalks, by rw [List.map_cons, hitems]⟩

/-- Behind the last quote the loop ends. -/
theorem walks_end (hbehind : behind ≠ []) (hquote : 34 ∉ behind) :
    Walks (ahead ++ behind) (ahead ++ behind).length ahead.length [] := by
  have hpositive := List.length_pos_iff.mpr hbehind
  apply Walks.done
  · rw [List.length_append]
    omega
  · rw [jsonGetNextObject, strchr_eq_none hquote]
    rfl

/-- The loop finds the members as it should where all of them are as it expects. -/
theorem walks_entries {entry : Frame × Doc} {entries : List (Frame × Doc)} {trail : List UInt8}
    (hfits : ∀ member ∈ entry :: entries, member.1.Fits .object)
    (hvalues : ∀ member ∈ entry :: entries, member.2.Spelled)
    (hnumbers : ∀ member ∈ entry :: entries, ∀ number, member.2 = .scalar (.number number) →
      JsonNumber number)
    (hjunk : 34 ∉ junk) (htrail : Blank trail)
    (htext : text = ahead ++ (junk ++ (entryText entry ++ (laterText entries ++ 125 :: trail)))) :
    (∃ items, Walks text text.length ahead.length items ∧
        items.map KeyValue.toSlices =
          (ownMembers (ahead.length + junk.length) (entry :: entries)).map Prod.snd) ↔
      ∀ member ∈ entry :: entries, 34 ∉ keyOf member ∧ Scanned member.2 := by
  induction entries generalizing entry ahead junk with
  | nil =>
      have hentry := hfits entry (List.mem_cons_self ..)
      have hquote : (34 : UInt8) ∉ entry.1.after ++ 125 :: trail := by
        rw [List.mem_append, List.mem_cons, not_or, not_or]
        exact ⟨fun hmem => absurd (hentry.after 34 hmem) (by decide), by decide,
          fun hmem => absurd (htrail 34 hmem) (by decide)⟩
      have hstops : Ends (entry.1.after ++ 125 :: trail) :=
        ends_blank_append hentry.after (stops_laterText .object [] trail).ends
      have hsplit : text = ahead ++ (junk ++ (entry.1.lead ++ (entry.2.render ++
          (entry.1.after ++ 125 :: trail)))) := by
        rw [htext, entryText, Frame.wrap, laterText]
        simp
      have hend : text = (ahead ++ (junk ++ (entry.1.lead ++ entry.2.render))) ++
          (entry.1.after ++ 125 :: trail) := by
        rw [hsplit]
        simp
      have hwalks := @walks_end (ahead ++ (junk ++ (entry.1.lead ++ entry.2.render)))
        (entry.1.after ++ 125 :: trail) (by simp) hquote
      rw [ownMembers, List.map_cons, walks_member hentry (hvalues entry (List.mem_cons_self ..))
        (hnumbers entry (List.mem_cons_self ..)) hjunk hstops (by simp) hsplit,
        List.forall_mem_singleton]
      refine and_iff_left ⟨[], ?_, rfl⟩
      rwa [← hend] at hwalks
  | cons second entries ih =>
      obtain ⟨hentry, hothers⟩ := List.forall_mem_cons.mp hfits
      obtain ⟨hvalue, hvalues⟩ := List.forall_mem_cons.mp hvalues
      obtain ⟨hnumber, hnumbers⟩ := List.forall_mem_cons.mp hnumbers
      have hafter : 34 ∉ entry.1.after := fun hmem => absurd (hentry.after 34 hmem) (by decide)
      have hstops : Ends (entry.1.after ++ (laterText (second :: entries) ++ 125 :: trail)) :=
        ends_blank_append hentry.after (stops_laterText .object (second :: entries) trail).ends
      have hsplit : text = ahead ++ (junk ++ (entry.1.lead ++ (entry.2.render ++
          (entry.1.after ++ (laterText (second :: entries) ++ 125 :: trail))))) := by
        rw [htext, entryText, Frame.wrap]
        simp
      have hnext : text = (ahead ++ (junk ++ (entry.1.lead ++ entry.2.render))) ++
          ((entry.1.after ++ [44]) ++
            (entryText second ++ (laterText entries ++ 125 :: trail))) := by
        rw [hsplit, laterText, laterText]
        simp
      have hcomma : (34 : UInt8) ∉ entry.1.after ++ [44] := by
        rw [List.mem_append, List.mem_singleton, or_iff_left (by decide)]
        exact hafter
      have hplace : ahead.length + junk.length + (entryText entry).length + 1 =
          (ahead ++ (junk ++ (entry.1.lead ++ entry.2.render))).length +
            (entry.1.after ++ [44]).length := by
        simp only [entryText, Frame.wrap, List.length_append, List.length_singleton]
        omega
      rw [ownMembers, List.map_cons,
        walks_member hentry hvalue hnumber hjunk hstops (by simp) hsplit, hplace,
        ih hothers hvalues hnumbers hcomma hnext]
      exact (List.forall_mem_cons (p := fun member => 34 ∉ keyOf member ∧ Scanned member.2)).symm

end Object

/-! ## The enumeration -/

section Enumeration

variable {text : CString}

theorem visit_map {α β σ : Type} (f : α → β) (body : β → σ → σ × Bool) (items : List α)
    (state : σ) :
    visit body (items.map f) state = visit (fun item => body (f item)) items state := by
  induction items generalizing state with
  | nil => rfl
  | cons item items ih =>
      rw [List.map_cons, visit, visit]
      dsimp only
      split
      · rfl
      · exact ih _

/-- The loop runs its body on the members that it finds, and on nothing if there is no object. -/
theorem enumerates_iff_walks {slices : List Slices} :
    Enumerates text slices ↔
      match jsonGetObject .object text.bytes text.strlen with
      | none => slices = []
      | some pos => ∃ items, Walks text.bytes text.strlen pos items ∧
          items.map KeyValue.toSlices = slices := by
  constructor
  · intro hall
    have hcollect := hall _ collect []
    rw [visit_collect, List.nil_append, jsonObjectForEachKv] at hcollect
    cases hobject : jsonGetObject .object text.bytes text.strlen with
    | none =>
        rw [hobject] at hcollect
        exact (Outcome.ok.inj hcollect).symm
    | some pos =>
        rw [hobject] at hcollect
        obtain ⟨items, hwalks, hresult⟩ := walks_of_collect hcollect
        exact ⟨items, hwalks, hresult.symm⟩
  · intro hwalks σ body state
    rw [jsonObjectForEachKv]
    cases hobject : jsonGetObject .object text.bytes text.strlen with
    | none =>
        rw [hobject] at hwalks
        rw [hwalks]
        rfl
    | some pos =>
        rw [hobject] at hwalks
        obtain ⟨items, hwalks, rfl⟩ := hwalks
        dsimp only
        rw [hwalks.loop (by rw [CString.strlen]; omega), visit_map]

theorem getObjectLoop_spaces {lead : List UInt8} (hlead : ∀ byte ∈ lead, byte = 32)
    (rest : List UInt8) (pos : Nat) :
    getObjectLoop 123 (lead ++ 123 :: rest) pos = some (pos + lead.length) := by
  induction lead generalizing pos with
  | nil => rfl
  | cons byte lead ih =>
      obtain ⟨rfl, hothers⟩ := List.forall_mem_cons.mp hlead
      rw [List.cons_append, getObjectLoop, if_pos rfl, ih hothers, List.length_cons, Nat.add_assoc,
        Nat.add_comm 1]

theorem getObjectLoop_other {lead : List UInt8} (hlead : Blank lead)
    (hother : ¬∀ byte ∈ lead, byte = 32) (rest : List UInt8) (pos : Nat) :
    getObjectLoop 123 (lead ++ rest) pos = none := by
  induction lead generalizing pos with
  | nil => exact absurd (List.forall_mem_nil _) hother
  | cons byte lead ih =>
      obtain ⟨hbyte, hblank⟩ := List.forall_mem_cons.mp hlead
      rw [List.cons_append, getObjectLoop]
      by_cases hspace : byte = 32
      · rw [if_pos hspace]
        exact ih hblank (fun hall => hother (List.forall_mem_cons.mpr ⟨hspace, hall⟩)) _
      · have hopening : byte ≠ 123 := by
          rintro rfl
          exact absurd hbyte (by decide)
        rw [if_neg hspace, if_neg hopening]

variable {lead blank : List UInt8} {entries : List (Frame × Doc)} {trail : List UInt8}

theorem ObjectText.jsonGetObject_eq (hobject : ObjectText text lead blank entries trail) :
    jsonGetObject .object text.bytes text.strlen =
      getObjectLoop 123 (lead ++ 123 :: (bodyText blank entries ++ [125] ++ trail)) 0 := by
  have htext : text.bytes.take text.strlen =
      lead ++ 123 :: (bodyText blank entries ++ [125] ++ trail) := by
    rw [CString.strlen, List.take_length, hobject.bytes, render_nest]
    simp [Nest.opening, Nest.closing]
  rw [jsonGetObject, htext, if_pos rfl]

/-- The object is where it is looked for if there are just spaces in front of it. -/
theorem ObjectText.jsonGetObject_spaces (hobject : ObjectText text lead blank entries trail)
    (hspaces : ∀ byte ∈ lead, byte = 32) :
    jsonGetObject .object text.bytes text.strlen = some lead.length := by
  rw [hobject.jsonGetObject_eq, getObjectLoop_spaces hspaces, Nat.zero_add]

theorem ObjectText.jsonGetObject_other (hobject : ObjectText text lead blank entries trail)
    (hother : ¬∀ byte ∈ lead, byte = 32) :
    jsonGetObject .object text.bytes text.strlen = none := by
  rw [hobject.jsonGetObject_eq]
  exact getObjectLoop_other hobject.lead hother _ 0

/-- The members are enumerated exactly where the scans are up to them. -/
theorem enumerates_iff (hobject : ObjectText text lead blank entries trail) :
    Enumerates text ((ownMembers (lead.length + 1) entries).map Prod.snd) ↔
      Enumerable lead entries := by
  rw [enumerates_iff_walks]
  obtain ⟨hblank, hfits, hvalues⟩ : Blank blank ∧ (∀ entry ∈ entries, entry.1.Fits .object) ∧
      ∀ entry ∈ entries, entry.2.Spelled := by
    cases hobject.object with
    | nest hblank hframes hvalues => exact ⟨hblank, hframes, hvalues⟩
  cases entries with
  | nil =>
      refine iff_of_true ?_ (Or.inl rfl)
      by_cases hspaces : ∀ byte ∈ lead, byte = 32
      · rw [hobject.jsonGetObject_spaces hspaces]
        have hquote : (34 : UInt8) ∉ 123 :: blank ++ 125 :: trail := by
          rw [List.mem_append, List.mem_cons, List.mem_cons, not_or, not_or, not_or]
          exact ⟨⟨by decide, fun hmem => absurd (hblank 34 hmem) (by decide)⟩, by decide,
            fun hmem => absurd (hobject.trail 34 hmem) (by decide)⟩
        have htext : text.bytes = lead ++ (123 :: blank ++ 125 :: trail) := by
          rw [hobject.bytes, render_nest]
          simp [bodyText, Nest.opening, Nest.closing]
        have hwalks := @walks_end lead _ (List.cons_ne_nil 123 _) hquote
        refine ⟨[], ?_, rfl⟩
        rw [CString.strlen, htext]
        exact hwalks
      · rw [hobject.jsonGetObject_other hspaces]
        rfl
  | cons entry entries =>
      have htext : text.bytes = lead ++ ([123] ++ (entryText entry ++
          (laterText entries ++ 125 :: trail))) := by
        rw [hobject.bytes, render_nest_cons]
        simp [Nest.opening, Nest.closing]
      have hbrace : (34 : UInt8) ∉ [(123 : UInt8)] := by decide
      have hentries := walks_entries hfits hvalues hobject.numbers hbrace hobject.trail htext
      by_cases hspaces : ∀ byte ∈ lead, byte = 32
      · rw [hobject.jsonGetObject_spaces hspaces, Enumerable,
          or_iff_right (List.cons_ne_nil entry entries),
          and_iff_right hspaces]
        exact hentries
      · rw [hobject.jsonGetObject_other hspaces]
        refine iff_of_false (List.cons_ne_nil _ _) ?_
        rintro (hnil | ⟨hall, -⟩)
        · exact List.cons_ne_nil entry entries hnil
        · exact hspaces hall

/-- What the search takes: a key with the name, if neither it nor the value is empty. -/
def Takes (text name : CString) (slices : Slices) : Prop :=
  (slices.klen ≠ 0 ∧ slices.vlen ≠ 0) ∧ KeyIs text name slices

instance (text name : CString) (slices : Slices) : Decidable (Takes text name slices) :=
  inferInstanceAs (Decidable (_ ∧ _))

/-- The search comes to the first member that it takes. -/
theorem visit_search (text name : CString) (items : List KeyValue) (anything : Bool) :
    (visit
      (fun item state =>
        if item.klen ≠ 0 ∧ item.vlen ≠ 0 then
          let (data, finished) := jsonGetValueByNameCb text name item state.2
          ((true, data), finished)
        else (state, false))
      items (anything, none)).2 = items.find? fun item => Takes text name item.toSlices := by
  induction items generalizing anything with
  | nil => rfl
  | cons item items ih =>
      have hskip : ¬Takes text name item.toSlices →
          (item :: items).find? (fun item => Takes text name item.toSlices) =
            items.find? fun item => Takes text name item.toSlices :=
        fun hnot => List.find?_cons_of_neg fun hall => hnot (of_decide_eq_true hall)
      by_cases hsome : item.klen ≠ 0 ∧ item.vlen ≠ 0
      · by_cases hkey : KeyIs text name item.toSlices
        · have htakes : (item :: items).find? (fun item => Takes text name item.toSlices) =
              some item := List.find?_cons_of_pos (decide_eq_true (And.intro hsome hkey))
          rw [visit, if_pos hsome, jsonGetValueByNameCb, if_pos hkey, htakes]
          rfl
        · rw [visit, if_pos hsome, jsonGetValueByNameCb, if_neg hkey,
            hskip fun hall => hkey hall.2]
          exact ih true
      · rw [visit, if_neg hsome, hskip fun hall => hsome hall.1]
        exact ih anything

/-- What is found by a name. -/
theorem jsonGetValueByName_eq {slices : List Slices} (hsome : text.strlen ≠ 0)
    (hall : Enumerates text slices) (name : CString) :
    ∃ found, jsonGetValueByName text text.strlen name = .ok found ∧
      found.map (fun value => (value.1, value.2.1)) =
        (slices.find? fun item => Takes text name item).map fun item => (item.val, item.vlen) := by
  rw [enumerates_iff_walks] at hall
  rw [jsonGetValueByName, jsonParseNameValue, if_neg hsome, jsonObjectForEachKv]
  cases hobject : jsonGetObject .object text.bytes text.strlen with
  | none =>
      rw [hobject] at hall
      rw [hall]
      exact ⟨none, rfl, rfl⟩
  | some pos =>
      rw [hobject] at hall
      obtain ⟨items, hwalks, rfl⟩ := hall
      dsimp only
      rw [hwalks.loop (by rw [CString.strlen]; omega), Outcome.ok_bind]
      refine ⟨_, rfl, ?_⟩
      rw [visit_search, List.find?_map, Option.map_map, Option.map_map]
      rfl

/-- The bytes of a key are the name. -/
theorem memberSlices_key {bytes ahead behind : List UInt8} {entry : Frame × Doc}
    (hfits : entry.1.Fits .object) (hbytes : bytes = ahead ++ (entryText entry ++ behind)) :
    (bytes.drop (memberSlices ahead.length entry).key).take (memberSlices ahead.length entry).klen =
      keyOf entry := by
  obtain ⟨label, hlabel⟩ := Option.isSome_iff_exists.mp (hfits.label.mp rfl)
  have hkeyOf : keyOf entry = label.key := by rw [keyOf, hlabel]; rfl
  have hsplit : bytes = (ahead ++ entry.1.before ++ [34]) ++ (label.key ++
      (34 :: (label.gap ++ 58 :: label.blank) ++
        (entry.2.render ++ (entry.1.after ++ behind)))) := by
    rw [hbytes, entryText, Frame.wrap, lead_member hlabel]
    simp
  have hplace : ahead.length + entry.1.before.length + 1 =
      (ahead ++ entry.1.before ++ [34]).length := by
    simp only [List.length_append, List.length_singleton]
  rw [memberSlices, hkeyOf]
  dsimp only
  rw [hplace, hsplit, List.drop_left, List.take_left]

theorem ownMembers_key {bytes ahead behind : List UInt8} {entry : Frame × Doc}
    {entries : List (Frame × Doc)} (hfits : ∀ member ∈ entry :: entries, member.1.Fits .object)
    (hbytes : bytes = ahead ++ (entryText entry ++ (laterText entries ++ behind))) :
    ∀ member ∈ ownMembers ahead.length (entry :: entries),
      (bytes.drop member.2.key).take member.2.klen = member.1 ∧
        member.2.klen = member.1.length := by
  induction entries generalizing entry ahead with
  | nil =>
      rw [ownMembers, ownMembers, List.forall_mem_singleton]
      exact ⟨memberSlices_key (hfits entry (List.mem_cons_self ..)) hbytes, rfl⟩
  | cons second entries ih =>
      obtain ⟨hentry, hothers⟩ := List.forall_mem_cons.mp hfits
      have hnext : bytes = (ahead ++ entryText entry ++ [44]) ++
          (entryText second ++ (laterText entries ++ behind)) := by
        rw [hbytes, laterText, laterText]
        simp
      have hplace : ahead.length + (entryText entry).length + 1 =
          (ahead ++ entryText entry ++ [44]).length := by
        simp only [List.length_append, List.length_singleton]
      rw [ownMembers, List.forall_mem_cons, hplace]
      exact ⟨⟨memberSlices_key hentry hbytes, rfl⟩, ih hothers hnext⟩

/-- What is known of the members by their names is known of the entries. -/
theorem find?_ownMembers (key : List UInt8) (start : Nat) (entries : List (Frame × Doc)) :
    ((ownMembers start entries).find? (·.1 = key)).map
        (fun member => (member.2.klen, member.2.vlen)) =
      (entries.find? (keyOf · = key)).map fun entry =>
        ((keyOf entry).length, entry.2.contents.length) := by
  induction entries generalizing start with
  | nil => rfl
  | cons entry entries ih =>
      by_cases hkey : keyOf entry = key
      · have hfirst : (entry :: entries).find? (keyOf · = key) = some entry :=
          List.find?_cons_of_pos (decide_eq_true hkey)
        have hmember : (ownMembers start (entry :: entries)).find? (·.1 = key) =
            some (keyOf entry, memberSlices start entry) :=
          List.find?_cons_of_pos (decide_eq_true hkey)
        rw [hfirst, hmember]
        rfl
      · have hfirst : (entry :: entries).find? (keyOf · = key) = entries.find? (keyOf · = key) :=
          List.find?_cons_of_neg fun hsame => hkey (of_decide_eq_true hsame)
        have hmember : (ownMembers start (entry :: entries)).find? (·.1 = key) =
            (ownMembers (start + (entryText entry).length + 1) entries).find? (·.1 = key) :=
          List.find?_cons_of_neg fun hsame => hkey (of_decide_eq_true hsame)
        rw [hfirst, hmember]
        exact ih _

theorem ObjectText.fits (hobject : ObjectText text lead blank entries trail) :
    ∀ entry ∈ entries, entry.1.Fits .object := by
  cases hobject.object with
  | nest _ hframes _ => exact hframes

theorem ObjectText.key (hobject : ObjectText text lead blank entries trail) :
    ∀ member ∈ ownMembers (lead.length + 1) entries,
      (text.bytes.drop member.2.key).take member.2.klen = member.1 ∧
        member.2.klen = member.1.length := by
  have hfits := hobject.fits
  cases entries with
  | nil => exact List.forall_mem_nil _
  | cons entry entries =>
      have htext : text.bytes = (lead ++ [123]) ++ (entryText entry ++
          (laterText entries ++ (125 :: trail))) := by
        rw [hobject.bytes, render_nest_cons]
        simp [Nest.opening, Nest.closing]
      have hplace : lead.length + 1 = (lead ++ [123]).length := by
        rw [List.length_append, List.length_singleton]
      rw [hplace]
      exact ownMembers_key hfits htext

/-- A search with one more condition comes to the same where the condition holds of what the search
finds. -/
theorem find?_and_iff {α β : Type} {more wanted : α → Bool} {f : α → β} {list : List α}
    (hsame : ∀ first ∈ list, ∀ second ∈ list, wanted first = true → wanted second = true →
      f first = f second → more first = true → more second = true) :
    (list.find? fun item => more item && wanted item).map f = (list.find? wanted).map f ↔
      ∀ item, list.find? wanted = some item → more item = true := by
  constructor
  · intro hmap item hitem
    rw [hitem, Option.map_some, Option.map_eq_some_iff] at hmap
    obtain ⟨other, hother, hvalue⟩ := hmap
    have hboth := (Bool.and_eq_true _ _).mp
      (List.find?_some (p := fun item => more item && wanted item) hother)
    exact hsame other (List.mem_of_find?_eq_some hother) item (List.mem_of_find?_eq_some hitem)
      hboth.2 (List.find?_some hitem) hvalue hboth.1
  · intro hmore
    cases hfound : list.find? wanted with
    | none =>
        have hnone : (list.find? fun item => more item && wanted item) = none := by
          rw [List.find?_eq_none] at hfound ⊢
          intro item hitem hboth
          exact hfound item hitem ((Bool.and_eq_true _ _).mp hboth).2
        rw [hnone]
    | some item =>
        have hfirst : (list.find? fun item => more item && wanted item) = some item := by
          rw [List.find?_eq_some_iff_append] at hfound ⊢
          obtain ⟨hwanted, front, back, hsplit, hfront⟩ := hfound
          have hitem := hmore item (by
            rw [List.find?_eq_some_iff_append]
            exact ⟨hwanted, front, back, hsplit, hfront⟩)
          refine ⟨(Bool.and_eq_true _ _).mpr ⟨hitem, hwanted⟩, front, back, hsplit, ?_⟩
          intro other hother
          have hnot := hfront other hother
          simp_all
        rw [hfirst]

/-- Where the members are enumerated, the value of the first one with the name is found if neither
it nor the name is empty. -/
theorem findsByName_iff (hobject : ObjectText text lead blank entries trail)
    (hall : Enumerates text ((ownMembers (lead.length + 1) entries).map Prod.snd))
    (name : CString) :
    FindsByName text name (ownMembers (lead.length + 1) entries) ↔
      ∀ entry, entries.find? (keyOf · = name.bytes) = some entry →
        name.bytes ≠ [] ∧ entry.2.contents ≠ [] := by
  have hsome : text.strlen ≠ 0 := by
    rw [CString.strlen, hobject.bytes, render_nest]
    simp
  obtain ⟨found, hfound, hslices⟩ := jsonGetValueByName_eq hsome hall name
  have htakes : ((ownMembers (lead.length + 1) entries).map Prod.snd).find?
        (fun item => Takes text name item) =
      ((ownMembers (lead.length + 1) entries).find? fun member =>
        decide (member.2.klen ≠ 0 ∧ member.2.vlen ≠ 0) && decide (member.1 = name.bytes)).map
          Prod.snd := by
    rw [List.find?_map]
    refine congrArg _ (List.find?_congr fun member hmember => ?_)
    obtain ⟨hkey, hlength⟩ := hobject.key member hmember
    have hname : KeyIs text name member.2 ↔ member.1 = name.bytes := by
      constructor
      · rintro ⟨hklen, hbytes⟩
        rw [← hkey, hklen]
        exact hbytes
      · intro hsame
        refine ⟨by rw [hlength, hsame]; rfl, ?_⟩
        rw [hsame] at hkey hlength
        rw [CString.strlen, ← hlength]
        exact hkey
    rw [Function.comp_apply, ← Bool.decide_and]
    exact decide_eq_decide.mpr (and_congr_right' hname)
  have hmembers := hobject.key
  have hvalues : FindsByName text name (ownMembers (lead.length + 1) entries) ↔
      ∀ member, (ownMembers (lead.length + 1) entries).find? (·.1 = name.bytes) = some member →
        decide (member.2.klen ≠ 0 ∧ member.2.vlen ≠ 0) = true := by
    rw [← find?_and_iff (f := fun member => (member.2.val, member.2.vlen))]
    · rw [htakes, Option.map_map] at hslices
      constructor
      · rintro ⟨other, hother, hvalue⟩
        rw [hfound] at hother
        cases hother
        exact hslices.symm.trans hvalue
      · intro hvalue
        exact ⟨found, hfound, hslices.trans hvalue⟩
    · intro first hfirst second hsecond hname hname' hvalue hmore
      have hboth := of_decide_eq_true hmore
      have hklen : second.2.klen = first.2.klen := by
        rw [(hobject.key first hfirst).2, (hobject.key second hsecond).2,
          of_decide_eq_true hname, of_decide_eq_true hname']
      exact decide_eq_true ⟨hklen ▸ hboth.1, (Prod.mk.inj hvalue).2 ▸ hboth.2⟩
  have hlengths := find?_ownMembers name.bytes (lead.length + 1) entries
  rw [hvalues]
  constructor
  · intro hmember entry hentry
    rw [hentry, Option.map_some, Option.map_eq_some_iff] at hlengths
    obtain ⟨member, hfirst, hsame⟩ := hlengths
    obtain ⟨hklen, hvlen⟩ := of_decide_eq_true (hmember member hfirst)
    obtain ⟨hkey, hcontents⟩ := Prod.mk.inj hsame
    have hname : keyOf entry = name.bytes := of_decide_eq_true
      (List.find?_some (p := fun entry => keyOf entry = name.bytes) hentry)
    rw [hkey, hname] at hklen
    rw [hcontents] at hvlen
    exact ⟨List.ne_nil_of_length_pos (Nat.pos_of_ne_zero hklen),
      List.ne_nil_of_length_pos (Nat.pos_of_ne_zero hvlen)⟩
  · intro hentry member hmember
    rw [hmember, Option.map_some, eq_comm, Option.map_eq_some_iff] at hlengths
    obtain ⟨entry, hfirst, hsame⟩ := hlengths
    obtain ⟨hname, hcontents⟩ := hentry entry hfirst
    obtain ⟨hkey, hvlen⟩ := Prod.mk.inj hsame
    have hkeyOf : keyOf entry = name.bytes := of_decide_eq_true
      (List.find?_some (p := fun entry => keyOf entry = name.bytes) hfirst)
    rw [hkeyOf] at hkey
    apply decide_eq_true
    rw [← hkey, ← hvlen]
    exact ⟨Nat.ne_of_gt (List.length_pos_iff.mpr hname),
      Nat.ne_of_gt (List.length_pos_iff.mpr hcontents)⟩

/-- The loop and the search do what they should exactly where there are just spaces in front of the
object, no name and no string among the values has a quote in it, no value is null, the brackets of
the others close where they should in spite of escaped quotes, and neither the name searched for nor
the value of its first member is empty. -/
theorem readsMembers_iff (hobject : ObjectText text lead blank entries trail) (name : CString) :
    Enumerates text ((ownMembers (lead.length + 1) entries).map Prod.snd) ∧
        FindsByName text name (ownMembers (lead.length + 1) entries) ↔
      Enumerable lead entries ∧
        ∀ entry, entries.find? (keyOf · = name.bytes) = some entry →
          name.bytes ≠ [] ∧ entry.2.contents ≠ [] := by
  constructor
  · rintro ⟨hall, hname⟩
    exact ⟨(enumerates_iff hobject).mp hall, (findsByName_iff hobject hall name).mp hname⟩
  · rintro ⟨henumerable, hname⟩
    have hall := (enumerates_iff hobject).mpr henumerable
    exact ⟨hall, (findsByName_iff hobject hall name).mpr hname⟩

end Enumeration

/-! ## An object that is read as it should be and one that is not -/

/-- The members `"a":"x"` and `"b":[1]`. -/
def plainEntries : List (Frame × Doc) :=
  [member [97] (.scalar (.string [120])),
    member [98] (.nest .array [] [(⟨[], none, []⟩, .scalar (.number [49]))])]

/-- They stand in an object behind a space. -/
def plainText : CString :=
  ⟨[32] ++ (Doc.nest .object [] plainEntries).render ++ [10], by decide⟩

theorem stringBody_singleton {byte : UInt8} (hquote : byte ≠ 34) (hescape : byte ≠ 92) :
    StringBody [byte] := .plain hquote hescape .nil

theorem number_spelled : (Doc.scalar (.number [49])).Spelled :=
  .scalar ⟨List.cons_ne_nil _ _, List.forall_mem_singleton.mpr (by decide)⟩

theorem plainText_object : ObjectText plainText [32] [] plainEntries [10] where
  bytes := rfl
  lead := by simp [Blank]
  trail := by simp [Blank]
  numbers := List.forall_mem_cons.mpr ⟨nofun, List.forall_mem_singleton.mpr nofun⟩
  object := by
    have harray : (Doc.nest .array [] [(⟨[], none, []⟩, .scalar (.number [49]))]).Spelled :=
      .nest blank_nil (List.forall_mem_singleton.mpr (elementFrame_fits blank_nil))
        (List.forall_mem_singleton.mpr number_spelled)
    refine .nest blank_nil (List.forall_mem_cons.mpr ⟨member_fits ?_ _,
      List.forall_mem_singleton.mpr (member_fits ?_ _)⟩)
      (List.forall_mem_cons.mpr ⟨.scalar ?_, List.forall_mem_singleton.mpr harray⟩)
    · exact stringBody_singleton (by decide) (by decide)
    · exact stringBody_singleton (by decide) (by decide)
    · exact stringBody_singleton (by decide) (by decide)

theorem readsMembers_plain :
    Enumerates plainText ((ownMembers 2 plainEntries).map Prod.snd) ∧
      FindsByName plainText ⟨[98], by decide⟩ (ownMembers 2 plainEntries) := by
  refine (readsMembers_iff plainText_object ⟨[98], by decide⟩).mpr ⟨Or.inr ⟨?_, ?_⟩, ?_⟩
  · exact List.forall_mem_singleton.mpr rfl
  · refine List.forall_mem_cons.mpr ⟨⟨by decide, ?_⟩,
      List.forall_mem_singleton.mpr ⟨by decide, rfl, ?_⟩⟩
    · have hbody : (34 : UInt8) ∉ [(120 : UInt8)] := by decide
      exact hbody
    · intro front hfront
      have hmem : (93 : UInt8) ∈ [(49 : UInt8)] :=
        hfront.subset (by simp [Nest.jsonType, JsonType.jsonMark])
      exact absurd hmem (by decide)
  · intro entry hentry
    have hsecond : plainEntries.find? (keyOf · = [98]) =
        some (member [98] (.nest .array [] [(⟨[], none, []⟩, .scalar (.number [49]))])) := rfl
    obtain rfl := Option.some.inj (hsecond.symm.trans hentry)
    exact ⟨by decide, by decide⟩

/-- The members `"a":null` and `"b":1`. -/
def nullEntries : List (Frame × Doc) :=
  [member [97] (.scalar .null), member [98] (.scalar (.number [49]))]

/-- The object with them. -/
def nullText : CString := ⟨[] ++ (Doc.nest .object [] nullEntries).render ++ [], by decide⟩

theorem nullText_object : ObjectText nullText [] [] nullEntries [] where
  bytes := rfl
  lead := blank_nil
  trail := blank_nil
  numbers := by
    have hdigit : Digits [49] :=
      { some := List.cons_ne_nil _ _, all := List.forall_mem_singleton.mpr (by decide) }
    have hone : JsonNumber [49] := .intro (Or.inl rfl) hdigit nofun .none .none
    refine List.forall_mem_cons.mpr ⟨nofun, List.forall_mem_singleton.mpr ?_⟩
    rintro number hnumber
    cases hnumber
    exact hone
  object := by
    refine .nest blank_nil (List.forall_mem_cons.mpr ⟨member_fits ?_ _,
      List.forall_mem_singleton.mpr (member_fits ?_ _)⟩)
      (List.forall_mem_cons.mpr ⟨.scalar trivial, List.forall_mem_singleton.mpr number_spelled⟩)
    · exact stringBody_singleton (by decide) (by decide)
    · exact stringBody_singleton (by decide) (by decide)

/-- The key of the second member is taken for the value of the first. -/
theorem not_readsMembers_null :
    ¬(Enumerates nullText ((ownMembers 1 nullEntries).map Prod.snd) ∧
      FindsByName nullText ⟨[97], by decide⟩ (ownMembers 1 nullEntries)) := by
  rintro ⟨hall, -⟩
  rcases (enumerates_iff nullText_object).mp hall with hnil | ⟨-, hscanned⟩
  · exact List.cons_ne_nil _ _ hnil
  · exact (hscanned _ (List.mem_cons_self ..)).2

end EnosDeviceSdk.Infra
