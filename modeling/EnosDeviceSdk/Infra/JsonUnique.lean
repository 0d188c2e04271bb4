/-
# A text has one reading

Where a value of the grammar begins decides where it ends. A string ends at the first quote that is
not escaped, a number in front of the first byte that no number has, and a nesting where its
brackets balance for the first time. So the same text has the same entries in every tree that
spells it, and a text that the parser accepts keeps the parser's limits in whatever tree it was
written as.
-/

import EnosDeviceSdk.Infra.CjsonTruncated
import EnosDeviceSdk.Infra.CjsonListing

namespace EnosDeviceSdk.Infra

open EnosDeviceSdk.Library

/-! ## Types and contents -/

/-- The type of the value that begins with the byte. -/
def typeAt (byte : UInt8) : CjsonType :=
  if byte = 110 then .null
  else if byte = 116 then .true
  else if byte = 102 then .false
  else if byte = 34 then .string
  else if byte = 91 then .array
  else if byte = 123 then .object
  else .number

/-- A number begins with none of the other types' bytes. -/
theorem typeAt_number {byte : UInt8} (hnumber : isNumberByte byte = true) :
    typeAt byte = .number := by
  have hother : ∀ other : UInt8, isNumberByte other = false → byte ≠ other := by
    rintro other hother rfl
    exact absurd (hnumber.symm.trans hother) (by decide)
  simp only [typeAt, hother 110 (by decide), hother 116 (by decide), hother 102 (by decide),
    hother 34 (by decide), hother 91 (by decide), hother 123 (by decide), if_false]

theorem not_blank_of_number {byte : UInt8} (hnumber : isNumberByte byte = true) : ¬byte ≤ 32 := by
  intro hblank
  exact absurd (hnumber.symm.trans (isNumberByte_of_blank hblank)) (by decide)

/-- A value begins with a byte that tells its type. -/
theorem Doc.Spelled.head {doc : Doc} (hdoc : doc.Spelled) :
    ∃ byte rest, doc.render = byte :: rest ∧ ¬byte ≤ 32 ∧ typeAt byte = doc.type := by
  cases hdoc with
  | @nest kind blank entries =>
      rw [render_nest]
      exact ⟨kind.opening, _, rfl, by cases kind <;> decide, by cases kind <;> rfl⟩
  | @scalar token htoken =>
      cases token with
      | null => exact ⟨110, _, rfl, by decide, rfl⟩
      | true => exact ⟨116, _, rfl, by decide, rfl⟩
      | false => exact ⟨102, _, rfl, by decide, rfl⟩
      | string body => exact ⟨34, _, rfl, by decide, rfl⟩
      | number text =>
          obtain ⟨byte, rest, rfl⟩ := List.exists_cons_of_ne_nil htoken.1
          have hbyte := htoken.2 byte (List.mem_cons_self ..)
          exact ⟨byte, rest, rfl, not_blank_of_number hbyte, typeAt_number hbyte⟩

/-- Two values at the same place have the same type. -/
theorem Doc.Spelled.type_unique {first second : Doc} (hfirst : first.Spelled)
    (hsecond : second.Spelled) {rest rest' : List UInt8}
    (hsame : first.render ++ rest = second.render ++ rest') : first.type = second.type := by
  obtain ⟨byte, more, hrender, -, htype⟩ := hfirst.head
  obtain ⟨byte', more', hrender', -, htype'⟩ := hsecond.head
  rw [hrender, hrender', List.cons_append, List.cons_append] at hsame
  rw [← htype, ← htype', (List.cons.inj hsame).1]

/-- The text of a value decides its contents, once its type is known. -/
theorem contents_eq_of_render {first second : Doc} (htype : first.type = second.type)
    (hrender : first.render = second.render) : first.contents = second.contents := by
  have hcontents : ∀ doc : Doc, doc.contents =
      if doc.type = .string then doc.render.tail.dropLast else doc.render := by
    intro doc
    cases doc with
    | nest kind blank entries => cases kind <;> rfl
    | scalar token =>
        cases token with
        | string body => simp [Doc.contents, Doc.type, Token.type, Doc.render, Token.render]
        | null | true | false | number => rfl
  rw [hcontents first, hcontents second, htype, hrender]

/-! ## Where a value ends -/

/-- Two texts of the same kind of bytes are the same if they stand at the same place and another
kind of byte follows, or nothing. -/
theorem span_unique {α : Type} {kind : α → Bool} {first second rest rest' : List α}
    (hfirst : ∀ byte ∈ first, kind byte = true) (hsecond : ∀ byte ∈ second, kind byte = true)
    (hrest : ∀ byte ∈ rest.head?, kind byte = false)
    (hrest' : ∀ byte ∈ rest'.head?, kind byte = false)
    (hsame : first ++ rest = second ++ rest') : first = second ∧ rest = rest' := by
  have hstop : ∀ {rest : List α}, (∀ byte ∈ rest.head?, kind byte = false) →
      rest.takeWhile kind = [] := by
    intro rest hrest
    cases rest with
    | nil => rfl
    | cons byte rest => rw [List.takeWhile_cons_of_neg (by simp [hrest byte rfl])]
  have hspan := congrArg (List.takeWhile kind) hsame
  rw [List.takeWhile_append_of_pos hfirst, List.takeWhile_append_of_pos hsecond, hstop hrest,
    hstop hrest', List.append_nil, List.append_nil] at hspan
  subst hspan
  exact ⟨rfl, List.append_cancel_left hsame⟩

/-- A byte that is not white space follows, or nothing. -/
def Solid (rest : List UInt8) : Prop := ∀ byte ∈ rest.head?, ¬byte ≤ 32

theorem solid_cons {byte : UInt8} (hbyte : ¬byte ≤ 32) (rest : List UInt8) :
    Solid (byte :: rest) := by
  intro other hother
  obtain rfl : byte = other := Option.some.inj hother
  exact hbyte

theorem Doc.Spelled.solid {doc : Doc} (hdoc : doc.Spelled) (behind : List UInt8) :
    Solid (doc.render ++ behind) := by
  obtain ⟨byte, more, hrender, hbyte, -⟩ := hdoc.head
  rw [hrender]
  exact solid_cons hbyte _

/-- White space ends in front of the first other byte. -/
theorem Blank.unique {first second rest rest' : List UInt8} (hfirst : Blank first)
    (hsecond : Blank second) (hrest : Solid rest) (hrest' : Solid rest')
    (hsame : first ++ rest = second ++ rest') : first = second ∧ rest = rest' := by
  apply @span_unique _ fun byte => decide (byte ≤ 32)
  · exact fun byte hbyte => decide_eq_true (hfirst byte hbyte)
  · exact fun byte hbyte => decide_eq_true (hsecond byte hbyte)
  · exact fun byte hbyte => decide_eq_false (hrest byte hbyte)
  · exact fun byte hbyte => decide_eq_false (hrest' byte hbyte)
  · exact hsame

/-- A string ends at the first quote that is not escaped. -/
theorem StringBody.unique {first second rest rest' : List UInt8} (hfirst : StringBody first)
    (hsecond : StringBody second) (hsame : first ++ 34 :: rest = second ++ 34 :: rest') :
    first = second ∧ rest = rest' := by
  induction hfirst generalizing second with
  | nil =>
      cases hsecond with
      | nil => exact ⟨rfl, (List.cons.inj hsame).2⟩
      | plain hquote => exact absurd (List.cons.inj hsame).1.symm hquote
      | escaped => exact absurd (List.cons.inj hsame).1 (by decide)
  | plain hquote hescape _ ih =>
      cases hsecond with
      | nil => exact absurd (List.cons.inj hsame).1 hquote
      | plain _ _ hsecond =>
          obtain ⟨rfl, hmore⟩ := List.cons.inj hsame
          obtain ⟨rfl, hrest⟩ := ih hsecond hmore
          exact ⟨rfl, hrest⟩
      | escaped => exact absurd (List.cons.inj hsame).1 hescape
  | escaped _ ih =>
      cases hsecond with
      | nil => exact absurd (List.cons.inj hsame).1 (by decide)
      | plain _ hescape => exact absurd (List.cons.inj hsame).1.symm hescape
      | escaped hsecond =>
          obtain ⟨rfl, hmore⟩ := List.cons.inj (List.cons.inj hsame).2
          obtain ⟨rfl, hrest⟩ := ih hsecond hmore
          exact ⟨rfl, hrest⟩

/-- What stands in front of a place in a string can stand between quotes itself, unless the place
is behind an escape. -/
theorem StringBody.front {front back : List UInt8} (hbody : StringBody (front ++ back)) :
    StringBody front ∨ ∃ body, front = body ++ [92] ∧ StringBody body := by
  generalize hwhole : front ++ back = whole at hbody
  induction hbody generalizing front with
  | nil =>
      obtain ⟨rfl, -⟩ := List.append_eq_nil_iff.mp hwhole
      exact Or.inl .nil
  | plain hquote hescape _ ih =>
      cases front with
      | nil => exact Or.inl .nil
      | cons byte front =>
          obtain ⟨rfl, hmore⟩ := List.cons.inj hwhole
          rcases ih hmore with hfront | ⟨body, rfl, hfront⟩
          · exact Or.inl (.plain hquote hescape hfront)
          · exact Or.inr ⟨byte :: body, rfl, .plain hquote hescape hfront⟩
  | @escaped escaped rest _ ih =>
      cases front with
      | nil => exact Or.inl .nil
      | cons first front =>
          obtain ⟨rfl, hmore⟩ := List.cons.inj hwhole
          cases front with
          | nil => exact Or.inr ⟨[], rfl, .nil⟩
          | cons byte front =>
              obtain ⟨rfl, hrest⟩ := List.cons.inj hmore
              rcases ih hrest with hfront | ⟨body, rfl, hfront⟩
              · exact Or.inl (.escaped hfront)
              · exact Or.inr ⟨92 :: byte :: body, rfl, .escaped hfront⟩

theorem StringBody.append {first second : List UInt8} (hfirst : StringBody first)
    (hsecond : StringBody second) : StringBody (first ++ second) := by
  induction hfirst with
  | nil => exact hsecond
  | plain hquote hescape _ ih => exact .plain hquote hescape ih
  | escaped _ ih => exact .escaped ih

theorem not_stringBody_escape {body : List UInt8} (hbody : StringBody body) :
    ¬StringBody (body ++ [92]) := by
  intro hescape
  have hlonger : StringBody (body ++ [92, 34, 44]) :=
    hbody.append (.escaped (.plain (by decide) (by decide) .nil))
  have htexts : body ++ [92] ++ 34 :: [44, 34] = body ++ [92, 34, 44] ++ 34 :: [] := by simp
  have hsame := (hescape.unique hlonger htexts).1
  simp at hsame

/-! ### Nestings -/

/-- No front of the text closes more brackets than it opens. -/
def NeverBelow (text : List UInt8) : Prop :=
  ∀ level front, front <+: text → level ≤ (front.foldl Balance.step (.outside level)).level

theorem Flat.neverBelow {text : List UInt8} (hflat : Flat text) : NeverBelow text :=
  fun level _ hfront => Int.le_of_eq (hflat.level level hfront).symm

theorem NeverBelow.append {first second : List UInt8} (hfirst : NeverBelow first)
    (hopens : Opens 0 first) (hsecond : NeverBelow second) : NeverBelow (first ++ second) := by
  intro level front hfront
  rcases List.prefix_or_prefix_of_prefix hfront (List.prefix_append first second) with
    hinside | ⟨later, rfl⟩
  · exact hfirst level front hinside
  · rw [List.foldl_append, hopens level, Int.add_zero]
    exact hsecond level later ((List.prefix_append_right_inj first).mp hfront)

theorem flat_blank {text : List UInt8} (hblank : Blank text) : Flat text := by
  apply flat_of_plain
  intro byte hbyte
  have hle := hblank byte hbyte
  refine ⟨?_, ?_, ?_, ?_, ?_⟩ <;>
    (rintro rfl
     exact absurd hle (by decide))

theorem flat_lead {kind : Nest} {frame : Frame} (hfits : frame.Fits kind) : Flat frame.lead := by
  cases hlabel : frame.label with
  | none => simpa [Frame.lead, hlabel] using flat_blank hfits.before
  | some label =>
      have hcolon : Flat [58] := flat_of_plain (by simp)
      have hname : Flat (34 :: (label.key ++ 34 :: label.gap)) :=
        .string (hfits.key label hlabel) (flat_blank (hfits.gap label hlabel))
      have hall := (flat_blank hfits.before).append
        (hname.append (hcolon.append (flat_blank (hfits.blank label hlabel))))
      simpa [Frame.lead, hlabel, Label.render] using hall

theorem neverBelow_entryText {kind : Nest} {entry : Frame × Doc} (hfits : entry.1.Fits kind)
    (hvalue : entry.2.Spelled) (hbelow : NeverBelow entry.2.render) :
    NeverBelow (entryText entry) := by
  have hlead := (flat_lead hfits).neverBelow
  have hafter := (flat_blank hfits.after).neverBelow
  have hall := hlead.append (opens_lead hfits) (hbelow.append hvalue.opens hafter)
  simpa [entryText, Frame.wrap] using hall

theorem neverBelow_priorText {kind : Nest} {prior : List (Frame × Doc)}
    (hframes : ∀ entry ∈ prior, entry.1.Fits kind) (hvalues : ∀ entry ∈ prior, entry.2.Spelled)
    (hbelow : ∀ entry ∈ prior, NeverBelow entry.2.render) : NeverBelow (priorText prior) := by
  induction prior with
  | nil => exact Flat.nil.neverBelow
  | cons entry prior ih =>
      rw [List.forall_mem_cons] at hframes hvalues hbelow
      have hfirst := neverBelow_entryText hframes.1 hvalues.1 hbelow.1
      have hcomma : Flat [44] := flat_of_plain (by simp)
      have hopens := opens_entryText hframes.1 hvalues.1.opens
      have hall := hfirst.append hopens (hcomma.neverBelow.append
        (opens_of_plain (by simp)) (ih hframes.2 hvalues.2 hbelow.2))
      simpa [priorText] using hall

/-- Between the brackets of a nesting no bracket closes that was not opened there. -/
theorem neverBelow_bodyText {kind : Nest} {blank : List UInt8} {entries : List (Frame × Doc)}
    (hblank : Blank blank) (hframes : ∀ entry ∈ entries, entry.1.Fits kind)
    (hvalues : ∀ entry ∈ entries, entry.2.Spelled)
    (hbelow : ∀ entry ∈ entries, NeverBelow entry.2.render) :
    NeverBelow (bodyText blank entries) := by
  rcases List.eq_nil_or_concat' entries with rfl | ⟨prior, last, rfl⟩
  · exact (flat_blank hblank).neverBelow
  · rw [List.forall_mem_append, List.forall_mem_singleton] at hframes hvalues hbelow
    rw [bodyText_append_singleton, joinCommas_append_singleton]
    apply NeverBelow.append
    · exact neverBelow_priorText hframes.1 hvalues.1 hbelow.1
    · exact opens_priorText hframes.1 fun entry hentry => (hvalues.1 entry hentry).opens
    · exact neverBelow_entryText hframes.2 hvalues.2 hbelow.2

/-- No value has a front that closes more than it opens. -/
theorem Doc.Spelled.neverBelow {doc : Doc} (hdoc : doc.Spelled) : NeverBelow doc.render := by
  induction hdoc with
  | scalar htoken => exact (flat_token htoken).neverBelow
  | @nest kind blank entries hblank hframes hvalues ih =>
      have hbody := neverBelow_bodyText hblank hframes hvalues ih
      intro level front hfront
      rw [render_nest] at hfront
      rcases List.prefix_cons_iff.mp hfront with rfl | ⟨later, rfl, hlater⟩
      · exact Int.le_refl level
      · have hopened := opens_opening kind level
        rw [List.foldl_cons, List.foldl_nil] at hopened
        rw [List.foldl_cons, hopened]
        rcases List.prefix_concat_iff.mp hlater with rfl | hinside
        · have hclosed := (Doc.Spelled.nest hblank hframes hvalues).opens level
          rw [render_nest, List.cons_append, List.foldl_cons, hopened, Int.add_zero] at hclosed
          rw [hclosed]
          exact Int.le_refl level
        · exact Int.le_trans (by omega) (hbody (level + 1) later hinside)

/-- Before its end a bracket of a nesting is open. -/
theorem level_of_part {kind : Nest} {blank front : List UInt8} {entries : List (Frame × Doc)}
    (hdoc : (Doc.nest kind blank entries).Spelled) (hsome : front ≠ [])
    (hfront : front <+: (Doc.nest kind blank entries).render)
    (hpart : front ≠ (Doc.nest kind blank entries).render) : ¬Opens 0 front := by
  cases hdoc with
  | nest hblank hframes hvalues =>
      have hbody := neverBelow_bodyText hblank hframes hvalues
        fun entry hentry => (hvalues entry hentry).neverBelow
      intro hopens
      rw [render_nest] at hfront hpart
      rcases List.prefix_cons_iff.mp hfront with rfl | ⟨later, rfl, hlater⟩
      · exact hsome rfl
      · rcases List.prefix_concat_iff.mp hlater with rfl | hinside
        · exact hpart rfl
        · have hopened := opens_opening kind 0
          have hzero := congrArg Balance.level (hopens 0)
          have hone := hbody (0 + 1) later hinside
          rw [List.foldl_cons, List.foldl_nil] at hopened
          rw [List.foldl_cons, hopened] at hzero
          simp only [Balance.outside] at hzero hone
          omega

/-- A nesting ends where its brackets balance for the first time. -/
theorem nest_unique {kind kind' : Nest} {blank blank' : List UInt8}
    {entries entries' : List (Frame × Doc)} {rest rest' : List UInt8}
    (hfirst : (Doc.nest kind blank entries).Spelled)
    (hsecond : (Doc.nest kind' blank' entries').Spelled)
    (hsame : (Doc.nest kind blank entries).render ++ rest =
      (Doc.nest kind' blank' entries').render ++ rest') :
    (Doc.nest kind blank entries).render = (Doc.nest kind' blank' entries').render := by
  have hsome : ∀ (kind : Nest) (blank : List UInt8) (entries : List (Frame × Doc)),
      (Doc.nest kind blank entries).render ≠ [] := by
    intro kind blank entries
    simp [render_nest]
  by_contra hdiffer
  rcases List.prefix_or_prefix_of_prefix (List.prefix_append _ rest)
      (hsame ▸ List.prefix_append _ rest') with hshort | hshort
  · exact level_of_part hsecond (hsome _ _ _) hshort hdiffer hfirst.opens
  · exact level_of_part hfirst (hsome _ _ _) hshort (Ne.symm hdiffer) hsecond.opens

/-- A value ends where it does, whatever tree spells it. Behind a number no byte of a number may
follow. -/
theorem Doc.Spelled.render_unique {first second : Doc} (hfirst : first.Spelled)
    (hsecond : second.Spelled) {rest rest' : List UInt8} (hrest : Ends rest) (hrest' : Ends rest')
    (hsame : first.render ++ rest = second.render ++ rest') :
    first.render = second.render ∧ rest = rest' := by
  suffices hrender : first.render = second.render from
    ⟨hrender, List.append_cancel_left (hrender ▸ hsame)⟩
  have htype := hfirst.type_unique hsecond hsame
  cases hfirst with
  | @nest kind blank entries hblank hframes hvalues =>
      cases hsecond with
      | scalar => cases kind <;> rename_i token _ <;> cases token <;> cases htype
      | nest hblank' hframes' hvalues' =>
          exact nest_unique (.nest hblank hframes hvalues) (.nest hblank' hframes' hvalues') hsame
  | @scalar token htoken =>
      cases hsecond with
      | @nest kind => cases kind <;> cases token <;> cases htype
      | @scalar other hother =>
          cases token with
          | null | true | false => cases other <;> first | rfl | cases htype
          | number text =>
              cases other with
              | number text' =>
                  exact (span_unique htoken.2 hother.2 hrest hrest' hsame).1
              | null | true | false | string => cases htype
          | string body =>
              cases other with
              | string body' =>
                  simp only [Doc.render, Token.render, List.cons_append, List.append_assoc,
                    List.nil_append, List.cons.injEq, true_and] at hsame
                  rw [(htoken.unique hother hsame).1]
              | null | true | false | number => cases htype

/-! ## Entries -/

/-- What follows ends every value: a comma or a bracket. -/
def Stops (rest : List UInt8) : Prop :=
  ∃ byte more, rest = byte :: more ∧ ¬byte ≤ 32 ∧ isNumberByte byte = false

theorem Stops.solid {rest : List UInt8} (hrest : Stops rest) : Solid rest := by
  obtain ⟨byte, more, rfl, hsolid, -⟩ := hrest
  exact solid_cons hsolid more

theorem Stops.ends {rest : List UInt8} (hrest : Stops rest) : Ends rest := by
  obtain ⟨byte, more, rfl, -, hnumber⟩ := hrest
  intro other hother
  obtain rfl : byte = other := Option.some.inj hother
  exact hnumber

/-- The frame of an entry and the text of its value. -/
def spelling (entry : Frame × Doc) : Frame × List UInt8 := (entry.1, entry.2.render)

/-- The white space and the name in front of a value are decided by the text. -/
theorem lead_unique {kind : Nest} {first second : Frame} {rest rest' : List UInt8}
    (hfirst : first.Fits kind) (hsecond : second.Fits kind) (hrest : Solid rest)
    (hrest' : Solid rest') (hsame : first.lead ++ rest = second.lead ++ rest') :
    first.before = second.before ∧ first.label = second.label ∧ rest = rest' := by
  cases hlabel : first.label with
  | none =>
      have hother : second.label = none := by
        rw [← Option.not_isSome_iff_eq_none, ← hsecond.label, hfirst.label, hlabel]
        decide
      rw [Frame.lead, Frame.lead, hlabel, hother, Option.map_none, Option.getD_none,
        List.append_nil, List.append_nil] at hsame
      obtain ⟨hbefore, hmore⟩ := hfirst.before.unique hsecond.before hrest hrest' hsame
      exact ⟨hbefore, hother.symm, hmore⟩
  | some label =>
      obtain ⟨label', hother⟩ : ∃ label', second.label = some label' := by
        rw [← Option.isSome_iff_exists, ← hsecond.label, hfirst.label, hlabel]
        rfl
      have hquote : ¬(34 : UInt8) ≤ 32 := by decide
      have hcolon : ¬(58 : UInt8) ≤ 32 := by decide
      simp only [Frame.lead, hlabel, hother, Option.map_some, Option.getD_some, Label.render,
        List.append_assoc, List.cons_append, List.nil_append] at hsame
      obtain ⟨hbefore, hname⟩ := hfirst.before.unique hsecond.before (solid_cons hquote _)
        (solid_cons hquote _) hsame
      obtain ⟨hkey, hgap⟩ := (hfirst.key label hlabel).unique (hsecond.key label' hother)
        (List.cons.inj hname).2
      obtain ⟨hgap, hblank⟩ := (hfirst.gap label hlabel).unique (hsecond.gap label' hother)
        (solid_cons hcolon _) (solid_cons hcolon _) hgap
      obtain ⟨hblank, hmore⟩ := (hfirst.blank label hlabel).unique (hsecond.blank label' hother)
        hrest hrest' (List.cons.inj hblank).2
      refine ⟨hbefore, ?_, hmore⟩
      cases label
      cases label'
      simp_all

/-- Entries at the same place have the same frame and the same text of their value. -/
theorem entryText_unique {kind : Nest} {first second : Frame × Doc} {rest rest' : List UInt8}
    (hfirst : first.1.Fits kind) (hsecond : second.1.Fits kind) (hvalue : first.2.Spelled)
    (hvalue' : second.2.Spelled) (hrest : Stops rest) (hrest' : Stops rest')
    (hsame : entryText first ++ rest = entryText second ++ rest') :
    spelling first = spelling second ∧ rest = rest' := by
  simp only [entryText, Frame.wrap, List.append_assoc] at hsame
  obtain ⟨hbefore, hlabel, hvalues⟩ := lead_unique hfirst hsecond (hvalue.solid _)
    (hvalue'.solid _) hsame
  obtain ⟨hrender, hbehind⟩ := hvalue.render_unique hvalue'
    (ends_blank_append hfirst.after hrest.ends)
    (ends_blank_append hsecond.after hrest'.ends) hvalues
  obtain ⟨hafter, hmore⟩ := hfirst.after.unique hsecond.after hrest.solid hrest'.solid hbehind
  refine ⟨Prod.ext ?_ hrender, hmore⟩
  obtain ⟨⟨before, label, after⟩, value⟩ := first
  obtain ⟨⟨before', label', after'⟩, value'⟩ := second
  simp_all [spelling]

/-- The entries behind the first one, each with the comma in front of it. -/
def laterText (entries : List (Frame × Doc)) : List UInt8 :=
  ((entries.map entryText).map (44 :: ·)).flatten

theorem stops_laterText (kind : Nest) (entries : List (Frame × Doc)) (rest : List UInt8) :
    Stops (laterText entries ++ kind.closing :: rest) := by
  cases entries with
  | nil => exact ⟨kind.closing, rest, rfl, closing_not_blank kind, by cases kind <;> decide⟩
  | cons entry entries => exact ⟨44, _, rfl, by decide, by decide⟩

/-- The entries up to the closing bracket are decided by the text. -/
theorem laterText_unique {kind : Nest} {first second : List (Frame × Doc)}
    {rest rest' : List UInt8} (hfirst : ∀ entry ∈ first, entry.1.Fits kind)
    (hsecond : ∀ entry ∈ second, entry.1.Fits kind) (hvalues : ∀ entry ∈ first, entry.2.Spelled)
    (hvalues' : ∀ entry ∈ second, entry.2.Spelled)
    (hsame : laterText first ++ kind.closing :: rest = laterText second ++ kind.closing :: rest') :
    first.map spelling = second.map spelling := by
  have hcomma : kind.closing ≠ 44 := by cases kind <;> decide
  induction first generalizing second with
  | nil =>
      cases second with
      | nil => rfl
      | cons entry second => exact absurd (List.cons.inj hsame).1 hcomma
  | cons entry first ih =>
      cases second with
      | nil => exact absurd (List.cons.inj hsame).1.symm hcomma
      | cons entry' second =>
          rw [List.forall_mem_cons] at hfirst hsecond hvalues hvalues'
          have hentries : entryText entry ++ (laterText first ++ kind.closing :: rest) =
              entryText entry' ++ (laterText second ++ kind.closing :: rest') := by
            simpa [laterText] using hsame
          obtain ⟨hentry, hmore⟩ := entryText_unique hfirst.1 hsecond.1 hvalues.1 hvalues'.1
            (stops_laterText ..) (stops_laterText ..) hentries
          rw [List.map_cons, List.map_cons, hentry,
            ih hfirst.2 hsecond.2 hvalues.2 hvalues'.2 hmore]

/-- White space in front of the closing bracket is no entry. -/
theorem blank_ne_entryText {kind : Nest} {blank : List UInt8} {entry : Frame × Doc}
    (hblank : Blank blank) (hfits : entry.1.Fits kind) (hvalue : entry.2.Spelled)
    (more : List UInt8) : blank ++ [kind.closing] ≠ entryText entry ++ more := by
  intro hsame
  obtain ⟨solid, rest, htext, hsolid, hclosing⟩ :=
    hfits.starts (hvalue.starts.append (entry.1.after ++ more))
  have hentry : blank ++ [kind.closing] = entry.1.before ++ solid :: rest := by
    rw [← htext, hsame]
    simp [entryText, Frame.wrap]
  obtain ⟨-, hmore⟩ := hblank.unique hfits.before (solid_cons (closing_not_blank kind) _)
    (solid_cons hsolid _) hentry
  exact hclosing (List.cons.inj hmore).1.symm

/-- The text of a nesting with entries. -/
theorem render_nest_cons (kind : Nest) (blank : List UInt8) (entry : Frame × Doc)
    (entries : List (Frame × Doc)) :
    (Doc.nest kind blank (entry :: entries)).render =
      kind.opening :: (entryText entry ++ (laterText entries ++ [kind.closing])) := by
  rw [render_nest]
  simp [bodyText, joinCommas, laterText]

/-- Two nestings with the same text have the same entries. -/
theorem entries_unique {kind : Nest} {blank blank' : List UInt8} {first second : List (Frame × Doc)}
    (hfirst : (Doc.nest kind blank first).Spelled) (hsecond : (Doc.nest kind blank' second).Spelled)
    (hsame : (Doc.nest kind blank first).render = (Doc.nest kind blank' second).render) :
    first.map spelling = second.map spelling := by
  cases hfirst with
  | nest hblank hframes hvalues =>
      cases hsecond with
      | nest hblank' hframes' hvalues' =>
          cases first with
          | nil =>
              cases second with
              | nil => rfl
              | cons entry second =>
                  rw [List.forall_mem_cons] at hframes' hvalues'
                  rw [render_nest_cons] at hsame
                  exact absurd (List.cons.inj hsame).2
                    (blank_ne_entryText hblank hframes'.1 hvalues'.1 _)
          | cons entry first =>
              rw [List.forall_mem_cons] at hframes hvalues
              rw [render_nest_cons] at hsame
              cases second with
              | nil =>
                  exact absurd (List.cons.inj hsame).2.symm
                    (blank_ne_entryText hblank' hframes.1 hvalues.1 _)
              | cons entry' second =>
                  rw [List.forall_mem_cons] at hframes' hvalues'
                  rw [render_nest_cons] at hsame
                  obtain ⟨hentry, hmore⟩ := entryText_unique hframes.1 hframes'.1 hvalues.1
                    hvalues'.1 (stops_laterText ..) (stops_laterText ..) (List.cons.inj hsame).2
                  rw [List.map_cons, List.map_cons, hentry,
                    laterText_unique hframes.2 hframes'.2 hvalues.2 hvalues'.2 hmore]

/-- The values of an object's members can be spelled. -/
theorem Doc.Spelled.field {doc value : Doc} {key : List UInt8} (hdoc : doc.Spelled)
    (hfield : doc.field key = some value) : value.Spelled := by
  cases hdoc with
  | scalar => simp [Doc.field] at hfield
  | @nest kind blank entries _ _ hvalues =>
      cases kind with
      | array => simp [Doc.field] at hfield
      | object =>
          obtain ⟨entry, hfind, rfl⟩ := Option.map_eq_some_iff.mp hfield
          exact hvalues entry (List.mem_of_find?_eq_some hfind)

/-- Objects with the same text have the same texts under a name. -/
theorem field_unique {blank blank' : List UInt8} {first second : List (Frame × Doc)}
    (hfirst : (Doc.nest .object blank first).Spelled)
    (hsecond : (Doc.nest .object blank' second).Spelled)
    (hsame : (Doc.nest .object blank first).render = (Doc.nest .object blank' second).render)
    (key : List UInt8) :
    ((Doc.nest .object blank first).field key).map Doc.render =
      ((Doc.nest .object blank' second).field key).map Doc.render := by
  have hfield : ∀ (blank : List UInt8) (entries : List (Frame × Doc)),
      ((Doc.nest .object blank entries).field key).map Doc.render =
        ((entries.map spelling).find? fun entry =>
          (entry.1.label.map Label.key).getD [] = key).map Prod.snd := by
    intro blank entries
    rw [Doc.field, List.find?_map, Option.map_map, Option.map_map]
    rfl
  rw [hfield, hfield, entries_unique hfirst hsecond hsame]

/-! ## Limits -/

theorem Token.Spelled.type_ne (token : Token) (kind : Nest) : token.type ≠ kind.type := by
  cases token <;> cases kind <;> exact nofun

/-- A tree that has the text of a document within the parser's limits is within them, too. -/
theorem Doc.WellFormed.of_render {levels : Nat} {doc other : Doc} (hother : other.WellFormed levels)
    (hdoc : doc.Spelled) (hsame : doc.render = other.render) : doc.WellFormed levels := by
  induction hother generalizing doc with
  | @scalar levels token hvalid =>
      have htype := hdoc.type_unique (.scalar hvalid.spelled) (congrArg (· ++ []) hsame)
      have hcontents := contents_eq_of_render htype hsame
      cases hdoc with
      | @nest kind => exact absurd htype.symm (Token.Spelled.type_ne token kind)
      | @scalar token' =>
          obtain rfl : token' = token := by
            cases token' <;> cases token <;>
              first
              | rfl
              | exact congrArg Token.number hcontents
              | exact congrArg Token.string hcontents
              | exact absurd htype nofun
          exact .scalar hvalid
  | @nest levels kind blank entries hblank hframes hvalues ih =>
      have hspelled : (Doc.nest kind blank entries).Spelled :=
        .nest hblank hframes fun entry hentry => (hvalues entry hentry).spelled
      have htype := hdoc.type_unique hspelled (congrArg (· ++ []) hsame)
      cases hdoc with
      | @scalar token => exact absurd htype (Token.Spelled.type_ne token kind)
      | @nest kind' blank' entries' hblank' hframes' hvalues' =>
          obtain rfl : kind' = kind := by
            cases kind <;> cases kind' <;> first | rfl | exact absurd htype nofun
          have hentries := entries_unique (.nest hblank' hframes' hvalues') hspelled hsame
          refine .nest hblank' hframes' fun entry hentry => ?_
          have hmem : spelling entry ∈ entries.map spelling :=
            hentries ▸ List.mem_map_of_mem hentry
          obtain ⟨entry', hentry', hspelling⟩ := List.mem_map.mp hmem
          exact ih entry' hentry' (hvalues' entry hentry) (congrArg Prod.snd hspelling).symm

/-- Where the parser accepts a nesting with white space behind it, the nesting keeps the parser's
limits. -/
theorem wellFormed_of_accepted {kind : Nest} {blank behind : List UInt8}
    {entries : List (Frame × Doc)} (hdoc : (Doc.nest kind blank entries).Spelled)
    (hbehind : Blank behind)
    (haccepted : (jsonParse ((Doc.nest kind blank entries).render ++ behind)).isSome = true) :
    (Doc.nest kind blank entries).WellFormed liteCjsonNestingLimit := by
  obtain ⟨item, hparse⟩ := Option.isSome_iff_exists.mp haccepted
  obtain ⟨head, rest, hrender, hhead, hbom, -⟩ := hdoc.starts
  obtain ⟨used, after, hsplit, hparsed⟩ : ∃ used after,
      (Doc.nest kind blank entries).render ++ behind = used ++ after ∧
        Parsed liteCjsonNestingLimit item 0 used after := by
    rw [hrender] at hparse ⊢
    exact jsonParse_from_start hhead hbom hparse
  cases hparsed with
  | complete doc hwell hused _ =>
      subst hused
      have htype := hdoc.type_unique hwell.spelled hsplit
      cases doc with
      | scalar token => exact absurd htype.symm (Token.Spelled.type_ne token kind)
      | nest kind' blank' entries' =>
          exact hwell.of_render hdoc (nest_unique hdoc hwell.spelled hsplit)
  | cut kind' hcut hend _ _ _ =>
      -- with all its brackets closed the text is not cut short
      obtain ⟨count, hpositive, hopens⟩ := opens_cutShort hcut
      have hall := hdoc.opens.append (opens_blank hbehind)
      rw [hsplit, hend, List.append_nil] at hall
      have hzero := hopens.unique hall
      omega

/-- What spells the text of an item that was given out keeps the limits of the item. -/
theorem Known.wellFormed {src blank : List UInt8} {levels : Nat} {item : LiteCjson} {kind : Nest}
    {entries : List (Frame × Doc)} (hitem : Known src levels item) (htype : item.type = kind.type)
    (hdoc : (Doc.nest kind blank entries).Spelled)
    (hrender : (Doc.nest kind blank entries).render = itemText src item) :
    (Doc.nest kind blank entries).WellFormed levels := by
  cases hitem with
  | plain hplain => exact absurd htype (hplain kind)
  | complete doc ahead hwell hitem =>
      rw [hitem.itemText] at hrender
      have hsame := hitem.denotes.type.symm.trans htype
      cases doc with
      | scalar token => exact absurd hsame (Token.Spelled.type_ne token kind)
      | nest => exact hwell.of_render hdoc hrender
  | cut kind' prior frame inner ahead fewer _ hsrc hnest =>
      have hcut : CutShort kind' (fewer + 1)
          (kind'.opening :: priorText prior ++ frame.lead ++ inner) := by
        rcases hnest.nested with ⟨blank', entries', hinner, rfl⟩ | hinner
        · exact .last hnest.fits hnest.values hnest.lastFits hinner
        · exact .deeper hnest.fits hnest.values hnest.lastFits hinner
      have htext : itemText src item = kind'.opening :: priorText prior ++ frame.lead ++ inner := by
        rw [itemText, hnest.cut.value, hnest.cut.valueLength, hsrc, Option.getD_some,
          Int.toNat_natCast, Int.toNat_natCast, List.drop_left, List.take_length]
      obtain ⟨count, hpositive, hopens⟩ := opens_cutShort hcut
      have hzero := hopens.unique (htext ▸ hrender ▸ hdoc.opens)
      omega

/-- A nesting in what the parser accepted has one level less than that. -/
theorem wellFormed_of_member {src key blank : List UInt8} {lite item : LiteCjson} {kind : Nest}
    {entries : List (Frame × Doc)} (hparse : jsonParse src = some lite)
    (hitem : jsonObjectItem src lite key = some item) (htype : item.type = kind.type)
    (hdoc : (Doc.nest kind blank entries).Spelled)
    (hrender : (Doc.nest kind blank entries).render = itemText src item) :
    (Doc.nest kind blank entries).WellFormed (liteCjsonNestingLimit - 1) := by
  have hlite : Known src (999 + 1) lite :=
    liteCjsonParse_known (Outcome.toOption_eq_some.mp hparse)
  have hknown := hlite.objectItemByKey (by decide) (Outcome.toOption_eq_some.mp hitem)
  exact hknown.wellFormed htype hdoc hrender

theorem wellFormed_nest_iff {levels : Nat} {kind : Nest} {blank : List UInt8}
    {entries : List (Frame × Doc)} (hdoc : (Doc.nest kind blank entries).Spelled) :
    (Doc.nest kind blank entries).WellFormed (levels + 1) ↔
      ∀ entry ∈ entries, entry.2.WellFormed levels := by
  constructor
  · intro hwell
    cases hwell with
    | nest _ _ hvalues => exact hvalues
  · intro hvalues
    cases hdoc with
    | nest hblank hframes _ => exact .nest hblank hframes hvalues

/-! ## The first member of an object -/

/-- Behind a member whose value is a string stands what stands there in every tree. -/
theorem stringMember_unique {key body rest more : List UInt8} {entry : Frame × Doc}
    (hkey : StringBody key) (hbody : StringBody body) (hfits : entry.1.Fits .object)
    (hvalue : entry.2.Spelled)
    (hsame : 34 :: (key ++ 34 :: 58 :: 34 :: (body ++ 34 :: rest)) = entryText entry ++ more) :
    rest = entry.1.after ++ more := by
  let string : Doc := .scalar (.string body)
  have hstring : string.Spelled := .scalar hbody
  have hleads : (member key string).1.lead ++ (string.render ++ rest) =
      entry.1.lead ++ (entry.2.render ++ (entry.1.after ++ more)) := by
    simpa [member, Frame.lead, Label.render, string, Doc.render, Token.render, entryText,
      Frame.wrap] using hsame
  obtain ⟨-, -, hvalues⟩ := lead_unique (member_fits hkey string) hfits (hstring.solid _)
    (hvalue.solid _) hleads
  have htype := hstring.type_unique hvalue hvalues
  cases hvalue' : entry.2 with
  | nest kind =>
      rw [hvalue'] at htype
      cases kind <;> cases htype
  | scalar token =>
      rw [hvalue'] at htype hvalue hvalues
      cases token with
      | string other =>
          cases hvalue with
          | scalar hother =>
              simp only [string, Doc.render, Token.render, List.cons_append, List.append_assoc,
                List.nil_append, List.cons.injEq, true_and] at hvalues
              exact (hbody.unique hother hvalues).2
      | null | true | false | number => cases htype

/-- A text that is cut short has entries with a comma behind each, and then another nesting. -/
theorem CutShort.entries {kind : Nest} {levels : Nat} {text : List UInt8}
    (hcut : CutShort kind (levels + 1) text) :
    ∃ (prior : List (Frame × Doc)) (frame : Frame) (tail : List UInt8),
      text = kind.opening :: (priorText prior ++
        (frame.lead ++ kind.opening :: tail)) ∧
      (∀ entry ∈ prior, entry.1.Fits kind) ∧
      (∀ entry ∈ prior, entry.2.WellFormed levels) ∧ frame.Fits kind := by
  cases hcut with
  | @last _ prior frame blank entries hframes hvalues hframe hvalue =>
      refine ⟨prior, frame, bodyText blank entries ++ [kind.closing], ?_, hframes, hvalues, hframe⟩
      rw [render_nest]
      simp
  | @deeper _ prior frame inner hframes hvalues hframe hinner =>
      obtain ⟨tail, rfl⟩ : ∃ tail, inner = kind.opening :: tail := by
        cases hinner with
        | last => exact ⟨_, rfl⟩
        | deeper => exact ⟨_, rfl⟩
      exact ⟨prior, frame, tail, by simp, hframes, hvalues, hframe⟩

/-- In what the parser accepts, a comma or the closing bracket follows the first member. -/
theorem behind_stringMember {key body rest : List UInt8} {item : LiteCjson}
    (hkey : StringBody key) (hbody : StringBody body)
    (hparse : jsonParse (123 :: 34 :: (key ++ 34 :: 58 :: 34 :: (body ++ 34 :: rest))) =
      some item) :
    ∃ space byte more, rest = space ++ byte :: more ∧ Blank space ∧ (byte = 44 ∨ byte = 125) := by
  obtain ⟨used, after, htext, hparsed⟩ := jsonParse_from_start (by decide) (by decide) hparse
  cases hparsed with
  | complete doc hdoc hused _ =>
      subst hused
      obtain ⟨byte, tail, hrender, -, htype⟩ := hdoc.spelled.head
      obtain rfl : 123 = byte := by
        rw [hrender] at htext
        exact (List.cons.inj htext).1
      cases doc with
      | scalar token => cases token <;> exact absurd htype nofun
      | nest kind blank entries =>
          obtain rfl : kind = .object := by cases kind <;> first | rfl | exact absurd htype nofun
          cases hdoc with
          | nest hblank hframes hvalues =>
              cases entries with
              | nil =>
                  have hquote : ¬(34 : UInt8) ≤ 32 := by decide
                  have hbracket : ¬(125 : UInt8) ≤ 32 := by decide
                  have hinside : 34 :: (key ++ 34 :: 58 :: 34 :: (body ++ 34 :: rest)) =
                      blank ++ 125 :: after := by
                    rw [(List.cons.inj htext).2]
                    simp [Nest.closing]
                  obtain ⟨-, hmore⟩ := blank_nil.unique hblank (solid_cons hquote _)
                    (solid_cons hbracket _) hinside
                  exact absurd (List.cons.inj hmore).1 (by decide)
              | cons entry entries =>
                  rw [List.forall_mem_cons] at hframes hvalues
                  have hinside : 34 :: (key ++ 34 :: 58 :: 34 :: (body ++ 34 :: rest)) =
                      entryText entry ++ (laterText entries ++ 125 :: after) := by
                    rw [render_nest_cons] at htext
                    rw [(List.cons.inj htext).2]
                    simp [Nest.closing]
                  have hrest := stringMember_unique hkey hbody hframes.1 hvalues.1.spelled hinside
                  cases entries with
                  | nil => exact ⟨_, 125, _, hrest, hframes.1.after, Or.inr rfl⟩
                  | cons => exact ⟨_, 44, _, hrest, hframes.1.after, Or.inl rfl⟩
  | cut kind hcut hend _ _ _ =>
      obtain ⟨prior, frame, tail, rfl, hframes, hvalues, hframe⟩ :=
        @CutShort.entries kind 999 used hcut
      rw [hend, List.append_nil] at htext
      obtain rfl : kind = .object := by
        cases kind
        · exact absurd (List.cons.inj htext).1 (by decide)
        · rfl
      have hinside := (List.cons.inj htext).2
      cases prior with
      | nil =>
          have hstring : (Doc.scalar (.string body)).Spelled := .scalar hbody
          have hbracket : ¬(123 : UInt8) ≤ 32 := by decide
          have hleads : (member key (.scalar (.string body))).1.lead ++
              ((Doc.scalar (.string body)).render ++ rest) = frame.lead ++ 123 :: tail := by
            rw [← show _ = frame.lead ++ 123 :: tail from hinside]
            simp [member, Frame.lead, Label.render, Doc.render, Token.render]
          obtain ⟨-, -, hvalue⟩ := lead_unique (member_fits hkey _) hframe (hstring.solid _)
            (solid_cons hbracket _) hleads
          exact absurd (List.cons.inj hvalue).1 (by decide)
      | cons entry prior =>
          rw [List.forall_mem_cons] at hframes hvalues
          have hentry : priorText (entry :: prior) = entryText entry ++ 44 :: priorText prior := by
            simp [priorText]
          rw [hentry, List.append_assoc] at hinside
          have hrest := stringMember_unique hkey hbody hframes.1 hvalues.1.spelled hinside
          exact ⟨_, 44, _, hrest, hframes.1.after, Or.inl rfl⟩

end EnosDeviceSdk.Infra
