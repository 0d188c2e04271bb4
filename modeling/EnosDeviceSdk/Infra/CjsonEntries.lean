/-
# What the loops of the JSON parser read

The loops over arrays and objects, in the parser and in the accessors, take one entry after
the other from a parser of values. Whatever that parser accepts, complete or cut short by the
end of the input, a loop leaves entries behind of which all but the last are complete, and it
reads only the bytes it was given.

The place that needs care is the end of the input, where skipping white space steps back
to the last byte. There that byte is read a second time. It is the bracket that ended an
inner value, or the parse fails: no other byte that can end a value, open a nesting or
separate two entries fits where it is read again.
-/

import EnosDeviceSdk.Infra.CjsonCursor

namespace EnosDeviceSdk.Infra

open EnosDeviceSdk.Library

/-! ## How values end -/

/-- A nesting that the parser accepts, complete or cut short. -/
def Nested (kind : Nest) (levels : Nat) (used : List UInt8) : Prop :=
  (∃ blank entries, (Doc.nest kind blank entries).WellFormed levels ∧
    used = (Doc.nest kind blank entries).render) ∨
  CutShort kind levels used

/-- What has been read of a value: a complete text, or one that the end cuts short. -/
inductive Parsed (levels : Nat) (item : LiteCjson) (start : Int) (used after : List UInt8) : Prop
  | complete (doc : Doc) (hdoc : doc.WellFormed levels) (hused : used = doc.render)
      (hdenotes : Denotes item doc start)
  | cut (kind : Nest) (hcut : CutShort kind levels used) (hend : after = [])
      (htype : item.type = kind.type) (hvalue : item.value = some start)
      (hlength : item.valueLength = used.length)

theorem closing_inj {first second : Nest} (hsame : first.closing = second.closing) :
    first = second := by
  cases first <;> cases second <;> first | rfl | exact absurd hsame (by decide)

theorem closing_not_blank (kind : Nest) : ¬kind.closing ≤ 32 := by
  cases kind <;> decide

theorem isDigit_of_blank {byte : UInt8} (hblank : byte ≤ 32) : isDigit byte = false := by
  apply decide_eq_false
  rintro ⟨hlow, _⟩
  exact absurd (UInt8.le_trans hlow hblank) (by decide)

theorem numberByte_ends {byte : UInt8} (hnumber : isNumberByte byte = true) :
    byte ≠ 44 ∧ byte ≠ 93 ∧ byte ≠ 125 := by
  refine ⟨?_, ?_, ?_⟩ <;>
    (rintro rfl
     exact absurd hnumber (by decide))

/-- A text that is cut short ends with the bracket it lacks. -/
theorem CutShort.ends {kind : Nest} {levels : Nat} {text : List UInt8}
    (hcut : CutShort kind levels text) : ∃ init, text = init ++ [kind.closing] ∧ init ≠ [] := by
  induction hcut with
  | @last levels prior frame blank entries _ _ _ _ =>
      refine ⟨kind.opening :: priorText prior ++ frame.lead ++
        (kind.opening :: bodyText blank entries), ?_, by simp⟩
      rw [render_nest]
      simp
  | @deeper levels prior frame inner _ _ _ _ ih =>
      obtain ⟨init, rfl, _⟩ := ih
      exact ⟨kind.opening :: priorText prior ++ frame.lead ++ init, by simp, by simp⟩

theorem CutShort.two_le_length {kind : Nest} {levels : Nat} {text : List UInt8}
    (hcut : CutShort kind levels text) : 2 ≤ text.length := by
  obtain ⟨init, rfl, hinit⟩ := hcut.ends
  have hpositive := List.length_pos_iff.mpr hinit
  rw [List.length_append, List.length_singleton]
  omega

/-- A value does not end with a comma, and it ends with a bracket only if it is a nesting of
that kind. -/
theorem Parsed.ends {levels : Nat} {item : LiteCjson} {start : Int} {used after : List UInt8}
    (hparsed : Parsed levels item start used after) :
    ∃ init last, used = init ++ [last] ∧ last ≠ 44 ∧
      ∀ kind : Nest, last = kind.closing → Nested kind levels used := by
  cases hparsed with
  | cut kind hcut _ _ _ _ =>
      obtain ⟨init, hused, _⟩ := hcut.ends
      refine ⟨init, kind.closing, hused, by cases kind <;> decide, ?_⟩
      intro other hsame
      exact Or.inr (closing_inj hsame ▸ hcut)
  | complete doc hdoc hused _ =>
      cases doc with
      | nest kind blank entries =>
          refine ⟨kind.opening :: bodyText blank entries, kind.closing, ?_,
            by cases kind <;> decide, ?_⟩
          · rw [hused, render_nest]
          · intro other hsame
            rw [← closing_inj hsame]
            exact Or.inl ⟨blank, entries, hdoc, hused⟩
      | scalar token =>
          have hother : ∀ {last : UInt8}, (last ≠ 93 ∧ last ≠ 125) →
              ∀ kind : Nest, last = kind.closing → Nested kind levels used := by
            intro last hnone kind hsame
            cases kind with
            | array => exact absurd hsame hnone.1
            | object => exact absurd hsame hnone.2
          cases token with
          | null => exact ⟨[110, 117, 108], 108, hused, by decide, hother (by decide)⟩
          | true => exact ⟨[116, 114, 117], 101, hused, by decide, hother (by decide)⟩
          | false => exact ⟨[102, 97, 108, 115], 101, hused, by decide, hother (by decide)⟩
          | string body => exact ⟨34 :: body, 34, hused, by decide, hother (by decide)⟩
          | number text =>
              cases hdoc with
              | scalar hvalid =>
                  obtain ⟨byte, rest, htext, _⟩ := hvalid.head
                  obtain ⟨init, last, hlast⟩ := (List.eq_nil_or_concat' text).resolve_left
                    (by rw [htext]; exact List.cons_ne_nil byte rest)
                  have hends := numberByte_ends (hvalid.bytes last (by simp [hlast]))
                  exact ⟨init, last, hused.trans hlast, hends.1, hother hends.2⟩

/-- A value of one byte is a digit. -/
theorem Parsed.digit {levels : Nat} {item : LiteCjson} {start : Int} {byte : UInt8}
    {after : List UInt8} (hparsed : Parsed levels item start [byte] after) :
    isDigit byte = true := by
  cases hparsed with
  | cut kind hcut _ _ _ _ =>
      obtain ⟨init, hused, hinit⟩ := hcut.ends
      have hlength := congrArg List.length hused
      have hpositive := List.length_pos_iff.mpr hinit
      simp only [List.length_append, List.length_singleton] at hlength
      omega
  | complete doc hdoc hused _ =>
      have hlength := congrArg List.length hused
      cases doc with
      | nest kind blank entries => simp [render_nest] at hlength
      | scalar token =>
          cases token with
          | null => simp [Doc.render, Token.render] at hlength
          | true => simp [Doc.render, Token.render] at hlength
          | false => simp [Doc.render, Token.render] at hlength
          | string body => simp [Doc.render, Token.render] at hlength
          | number text =>
              cases hdoc with
              | scalar hvalid =>
                  obtain ⟨first, rest, htext, hhead⟩ := hvalid.head
                  have hsame : [byte] = text := hused
                  rw [htext, List.cons.injEq] at hsame
                  obtain ⟨rfl, rfl⟩ := hsame
                  rcases hhead with rfl | hdigit
                  · have hdecimal := hvalid.decimal
                    rw [htext] at hdecimal
                    exact absurd hdecimal (by decide)
                  · exact hdigit

/-! ## Spans inside the input -/

/-- The span of an item lies inside the input, and a nesting has at least one byte. -/
structure Inside (src : List UInt8) (item : LiteCjson) : Prop where
  span : ∃ start, item.value = some start ∧ 0 ≤ start ∧ 0 ≤ item.valueLength ∧
    start + item.valueLength ≤ src.length
  nonempty : item.type = .array ∨ item.type = .object → 0 < item.valueLength

/-- The value of an item lies inside the text it stands for. -/
theorem Doc.span_le (doc : Doc) : doc.indent + doc.contents.length ≤ doc.render.length := by
  cases doc with
  | nest kind blank entries => simp [Doc.indent, Doc.contents]
  | scalar token =>
      cases token with
      | string body =>
          simp only [Doc.indent, Doc.contents, Doc.render, Token.render, List.length_append,
            List.length_cons]
          omega
      | _ => simp [Doc.indent, Doc.contents]

/-- An item lies inside the input with the text it stands for. -/
theorem Denotes.inside {src ahead behind : List UInt8} {item : LiteCjson} {doc : Doc}
    (hdenotes : Denotes item doc ahead.length) (hsrc : src = ahead ++ doc.render ++ behind) :
    Inside src item := by
  have hlength : src.length = ahead.length + doc.render.length + behind.length := by
    rw [hsrc, List.length_append, List.length_append]
  have hspan := doc.span_le
  constructor
  · refine ⟨_, hdenotes.value, by omega, by rw [hdenotes.valueLength]; omega, ?_⟩
    rw [hdenotes.valueLength]
    omega
  · intro htype
    rw [hdenotes.type] at htype
    rw [hdenotes.valueLength]
    cases doc with
    | nest kind blank entries =>
        simp only [Doc.contents, render_nest, List.length_append, List.length_cons]
        omega
    | scalar token => cases token <;> simp [Doc.type, Token.type] at htype

theorem Parsed.inside {src ahead behind used after : List UInt8} {levels : Nat}
    {item : LiteCjson} (hparsed : Parsed levels item ahead.length used after)
    (hsrc : src = ahead ++ used ++ behind) : Inside src item := by
  cases hparsed with
  | complete doc hdoc hused hdenotes => exact hdenotes.inside (hused ▸ hsrc)
  | cut kind hcut _ _ hvalue hlength =>
      obtain ⟨init, hused, _⟩ := hcut.ends
      have hsize : src.length = ahead.length + used.length + behind.length := by
        rw [hsrc, List.length_append, List.length_append]
      have hpositive : 0 < used.length := by
        rw [hused]
        simp
      refine ⟨⟨ahead.length, hvalue, by omega, by omega, by omega⟩, ?_⟩
      intro _
      omega

/-- An item that stands for a piece of the input, complete or cut short, behind the first byte. -/
def Embedded (src : List UInt8) (item : LiteCjson) : Prop :=
  ∃ (levels : Nat) (ahead used after behind : List UInt8),
    src = ahead ++ used ++ behind ∧ ahead ≠ [] ∧ Parsed levels item ahead.length used after

theorem Embedded.inside {src : List UInt8} {item : LiteCjson} (hitem : Embedded src item) :
    Inside src item := by
  obtain ⟨levels, ahead, used, after, behind, hsrc, _, hparsed⟩ := hitem
  exact hparsed.inside hsrc

/-! ## The bodies of the loops -/

section Entries

variable {src ahead text : List UInt8} {levels : Nat} {parse : ValueParser}

/-- What a parser of values leaves behind: a value of at least one byte, and the buffer
behind it. -/
def ValueRead (src ahead text : List UInt8) (levels : Nat) (before rest : List UInt8)
    (result : LiteCjson × ParseBuffer) : Prop :=
  ∃ used after, rest = used ++ after ∧ used ≠ [] ∧
    Parsed levels result.1 (ahead ++ before).length used after ∧
    At src ahead text result.2 (before ++ used) after

/-- What it has to do wherever there is a byte to read. -/
def ReadsValues (src ahead text : List UInt8) (levels : Nat) (parse : ValueParser) : Prop :=
  ∀ {buffer : ParseBuffer} {before rest : List UInt8}, At src ahead text buffer before rest →
    rest ≠ [] → (parse buffer).Keeps (ValueRead src ahead text levels before rest)

/-- Where one byte is left, a value is read only if it is a digit. -/
theorem ReadsValues.digit (hparse : ReadsValues src ahead text levels parse)
    {buffer : ParseBuffer} {before : List UInt8} {last : UInt8}
    (hat : At src ahead text buffer before [last]) :
    (parse buffer).Keeps fun _ => isDigit last = true := by
  apply (hparse hat (List.cons_ne_nil last [])).mono
  rintro ⟨item, next⟩ ⟨used, after, hsplit, hused, hparsed, _⟩
  obtain ⟨rfl, rfl⟩ : used = [last] ∧ after = [] := by
    cases used with
    | nil => exact absurd rfl hused
    | cons byte tail => simpa [eq_comm, and_assoc] using hsplit
  exact hparsed.digit

/-- The last byte of a text that ends in white space is white space, or what stands before
it. -/
theorem last_of_blank {before rest init : List UInt8} {last previous : UInt8}
    {earlier : List UInt8} (hbefore : before = earlier ++ [previous]) (hblank : Blank rest)
    (htext : before ++ rest = init ++ [last]) : rest = [] ∧ last = previous ∨ last ≤ 32 := by
  rcases List.eq_nil_or_concat' rest with rfl | ⟨front, final, rfl⟩
  · rw [List.append_nil, hbefore] at htext
    exact Or.inl ⟨rfl, (List.append_inj' htext rfl).2 |> List.cons.inj |>.1 |>.symm⟩
  · rw [← List.append_assoc] at htext
    have hsame := (List.cons.inj (List.append_inj' htext rfl).2).1
    exact Or.inr (hsame ▸ hblank final (by simp))

/-- So a byte that is neither of them does not stand there. -/
theorem last_ne_of_blank {before rest init earlier : List UInt8} {last previous other : UInt8}
    (hbefore : before = earlier ++ [previous]) (hblank : Blank rest)
    (htext : before ++ rest = init ++ [last]) (hprevious : previous ≠ other)
    (hsolid : ¬other ≤ 32) :
    last ≠ other := by
  rintro rfl
  rcases last_of_blank hbefore hblank htext with ⟨_, hlast⟩ | hle
  · exact hprevious hlast.symm
  · exact hsolid hle

/-- What the body of an array's loop reads. The byte before the offset is the bracket or the
comma, or the colon of an object. -/
theorem readElement_keeps (hparse : ReadsValues src ahead text levels parse)
    {buffer : ParseBuffer} {earlier rest : List UInt8} {previous : UInt8}
    (hat : At src ahead text buffer (earlier ++ [previous]) rest)
    (hprevious : isDigit previous = false) :
    (readElement src parse buffer).Keeps fun result =>
      result.1.key = none ∧ ∃ blank used after, rest = blank ++ used ++ after ∧ Blank blank ∧
        Parsed levels result.1.value (ahead ++ (earlier ++ [previous] ++ blank)).length used after ∧
        Skipped src ahead text result.2 (earlier ++ [previous] ++ blank ++ used) after := by
  have htext : text ≠ [] := by
    rw [hat.text_eq]
    simp
  obtain ⟨first, hfirst, hskipped⟩ := bufferSkipWhitespace_skipped hat htext
  unfold readElement
  rw [hfirst, Outcome.ok_bind]
  cases hskipped with
  | back init last hblank hlast hback =>
      -- stepped back to the end: no value is read from the last byte again
      apply Outcome.Keeps.bind_of_none
      apply (hparse.digit hback).mono
      intro _ hdigit
      rcases last_of_blank rfl hblank (hat.text_eq.symm.trans hlast) with ⟨_, rfl⟩ | hle
      · rw [hprevious] at hdigit
        exact Bool.false_ne_true hdigit
      · rw [isDigit_of_blank hle] at hdigit
        exact Bool.false_ne_true hdigit
  | ahead blank byte after hrest hblank hsolid hahead =>
      apply (hparse hahead (List.cons_ne_nil _ _)).bind
      rintro ⟨item, next⟩ ⟨used, behind, hsplit, hused, hparsed, hnext⟩
      obtain ⟨final, hfinal, hskipped⟩ := bufferSkipWhitespace_skipped hnext htext
      dsimp only
      rw [hfinal, Outcome.ok_bind]
      refine ⟨rfl, blank, used, behind, ?_, hblank, hparsed, hskipped⟩
      rw [hrest, hsplit, List.append_assoc]

/-- What the body of a loop leaves behind: the text of an entry in its frame. -/
inductive EntryRead (src ahead text : List UInt8) (levels : Nat) (kind : Nest)
    (before rest : List UInt8) (result : Entry × ParseBuffer) : Prop
  | intro (frame : Frame) (used after : List UInt8) (hrest : rest = frame.lead ++ used ++ after)
      (hfits : frame.Fits kind)
      (hvalue : Parsed levels result.1.value (ahead ++ (before ++ frame.lead)).length used after)
      (hkey : ∀ key, result.1.key = some key → Inside src key)
      (hnext : Skipped src ahead text result.2 (before ++ frame.lead ++ used) after)

/-- The frame of an array's element, up to its value. -/
def elementFrame (blank : List UInt8) : Frame := ⟨blank, none, []⟩

/-- The frame of an object's member, up to its value. -/
def memberFrame (blank key gap blank' : List UInt8) : Frame := ⟨blank, some ⟨key, gap, blank'⟩, []⟩

@[simp]
theorem elementFrame_lead (blank : List UInt8) : (elementFrame blank).lead = blank := by
  simp [elementFrame, Frame.lead]

theorem memberFrame_lead (blank key gap blank' : List UInt8) :
    (memberFrame blank key gap blank').lead = blank ++ (quoted key ++ gap ++ 58 :: blank') := rfl

theorem elementFrame_fits {blank : List UInt8} (hblank : Blank blank) :
    (elementFrame blank).Fits .array where
  before := hblank
  after := blank_nil
  label := by simp [elementFrame]
  key := by simp [elementFrame]
  gap := by simp [elementFrame]
  blank := by simp [elementFrame]

theorem memberFrame_fits {blank key gap blank' : List UInt8} (hblank : Blank blank)
    (hkey : StringBody key) (hgap : Blank gap) (hblank' : Blank blank') :
    (memberFrame blank key gap blank').Fits .object where
  before := hblank
  after := blank_nil
  label := by simp [memberFrame]
  key := by
    rintro _ ⟨⟩
    exact hkey
  gap := by
    rintro _ ⟨⟩
    exact hgap
  blank := by
    rintro _ ⟨⟩
    exact hblank'

/-- What the body of an object's loop reads. -/
theorem readMember_keeps (hparse : ReadsValues src ahead text levels parse)
    {buffer : ParseBuffer} {earlier rest : List UInt8} {previous : UInt8}
    (hat : At src ahead text buffer (earlier ++ [previous]) rest) :
    (readMember src parse buffer).Keeps
      (EntryRead src ahead text levels .object (earlier ++ [previous]) rest) := by
  have htext : text ≠ [] := by
    rw [hat.text_eq]
    simp
  obtain ⟨first, hfirst, hskipped⟩ := bufferSkipWhitespace_skipped hat htext
  unfold readMember
  rw [hfirst, Outcome.ok_bind]
  cases hskipped with
  | back init last hblank hlast hback =>
      -- stepped back to the end: a name does not fit in the last byte
      apply Outcome.Keeps.bind_of_none
      apply (parseString_keeps .zero hback).mono
      rintro ⟨key, next⟩ ⟨body, after, hsplit, _⟩
      have hlength := congrArg List.length hsplit
      simp [quoted] at hlength
  | ahead blank byte after hrest hblank hsolid hahead =>
      apply (parseString_keeps .zero hahead).bind
      rintro ⟨key, next⟩ ⟨body, behind, hsplit, hbody, hdenotes, hnext⟩
      dsimp only at hdenotes hnext ⊢
      obtain ⟨second, hsecond, hskipped⟩ := bufferSkipWhitespace_skipped hnext htext
      rw [hsecond, Outcome.ok_bind]
      cases hskipped with
      | back init last hblank' hlast hback =>
          -- stepped back to the end: the last byte is not a colon
          have hcolon : last ≠ 58 := by
            have hquote : earlier ++ [previous] ++ blank ++ quoted body =
                (earlier ++ [previous] ++ blank ++ 34 :: body) ++ [34] := by
              simp [quoted]
            exact last_ne_of_blank hquote hblank' (hnext.text_eq.symm.trans hlast) (by decide)
              (by decide)
          rw [hback.peek, Outcome.ok_bind, if_pos (by simpa using hcolon)]
          exact Outcome.keeps_failed
      | ahead gap colon beyond hbehind hgap _ hat' =>
          rw [hat'.peek, Outcome.ok_bind]
          by_cases hcolon : colon = 58
          · subst hcolon
            rw [if_neg (by simp)]
            apply (readElement_keeps hparse hat'.move_one (by decide)).bind
            rintro ⟨entry, final⟩ ⟨_, blank', used, last, hbeyond, hblank', hvalue, hfinal⟩
            let frame := memberFrame blank body gap blank'
            have hlead : frame.lead = blank ++ (quoted body ++ gap ++ 58 :: blank') :=
              memberFrame_lead blank body gap blank'
            have hplace : earlier ++ [previous] ++ blank ++ quoted body ++ gap ++ [58] ++ blank' =
                earlier ++ [previous] ++ frame.lead := by
              rw [hlead]
              simp
            have hfits := memberFrame_fits hblank hbody hgap hblank'
            refine .intro frame used last ?_ hfits ?_ ?_ ?_
            · rw [hrest, hsplit, hbehind, hbeyond, hlead]
              simp
            · rw [← hplace]
              exact hvalue
            · rintro _ ⟨⟩
              obtain ⟨behind', hsrc⟩ := hat.window
              have htext' : text = earlier ++ [previous] ++ blank ++ quoted body ++ behind := by
                rw [hat.text_eq, hrest, hsplit]
                simp
              have hsrc' : src = (ahead ++ (earlier ++ [previous] ++ blank)) ++
                  (Doc.scalar (.string body)).render ++ (behind ++ behind') := by
                rw [hsrc, htext']
                simp [Doc.render, Token.render, quoted]
              exact hdenotes.inside hsrc'
            · rw [← hplace]
              exact hfinal
          · rw [if_pos (by simpa using hcolon)]
            exact Outcome.keeps_failed

/-- What the body of either loop reads. -/
theorem readEntry_keeps (kind : Nest) (hparse : ReadsValues src ahead text levels parse)
    {buffer : ParseBuffer} {earlier rest : List UInt8} {previous : UInt8}
    (hat : At src ahead text buffer (earlier ++ [previous]) rest)
    (hprevious : isDigit previous = false) :
    (readEntry src kind parse buffer).Keeps
      (EntryRead src ahead text levels kind (earlier ++ [previous]) rest) := by
  cases kind with
  | object => exact readMember_keeps hparse hat
  | array =>
      apply (readElement_keeps hparse hat hprevious).mono
      rintro result ⟨hkey, blank, used, after, hrest, hblank, hvalue, hnext⟩
      have hlead := elementFrame_lead blank
      refine .intro (elementFrame blank) used after ?_ (elementFrame_fits hblank) ?_ ?_ ?_
      · rwa [hlead]
      · rwa [hlead]
      · intro key hsome
        rw [hkey] at hsome
        exact absurd hsome (by simp)
      · rwa [hlead]

/-! ## The loops -/

/-- How a loop over entries ends: with something the visitor vouches for, or behind the
last entry, all but which are complete. -/
def ScanKept {ρ : Type} (src ahead text : List UInt8) (levels : Nat) (kind : Nest)
    (promise : ρ → Prop) (before rest : List UInt8) (count : Nat) : Scan ρ → Prop
  | .found result => promise result
  | .ended total buffer =>
      ∃ (prior : List (Frame × Doc)) (frame : Frame) (used after : List UInt8) (item : LiteCjson),
        (∀ entry ∈ prior, entry.1.Fits kind) ∧
        (∀ entry ∈ prior, entry.2.WellFormed levels) ∧ frame.Fits kind ∧
        rest = priorText prior ++ frame.lead ++ used ++ after ∧ total = count + prior.length + 1 ∧
        Parsed levels item (ahead ++ (before ++ priorText prior ++ frame.lead)).length used after ∧
        Skipped src ahead text buffer (before ++ priorText prior ++ frame.lead ++ used) after

/-- An entry that is complete, with the white space behind its value. -/
def Frame.complete (frame : Frame) (blank : List UInt8) (doc : Doc) : Frame × Doc :=
  ({ frame with after := blank }, doc)

theorem entryText_complete (frame : Frame) (blank : List UInt8) (doc : Doc) :
    entryText (frame.complete blank doc) = frame.lead ++ doc.render ++ blank := rfl

theorem Frame.Fits.complete {kind : Nest} {frame : Frame} (hfits : frame.Fits kind)
    {blank : List UInt8} (hblank : Blank blank) (doc : Doc) :
    (frame.complete blank doc).1.Fits kind :=
  { before := hfits.before
    after := hblank
    label := hfits.label
    key := hfits.key
    gap := hfits.gap
    blank := hfits.blank }

/-- A loop that goes on behind a complete entry and its comma. -/
theorem ScanKept.cons {ρ : Type} {kind : Nest} {promise : ρ → Prop} {before rest : List UInt8}
    {count : Nat} {scan : Scan ρ} {entry : Frame × Doc} (hfits : entry.1.Fits kind)
    (hvalue : entry.2.WellFormed levels)
    (hkept : ScanKept src ahead text levels kind promise (before ++ entryText entry ++ [44]) rest
      (count + 1) scan) :
    ScanKept src ahead text levels kind promise before (entryText entry ++ 44 :: rest) count
      scan := by
  cases scan with
  | found result => exact hkept
  | ended total buffer =>
      obtain ⟨prior, frame, used, after, item, hframes, hvalues, hframe, hrest, htotal, hparsed,
        hnext⟩ := hkept
      refine ⟨entry :: prior, frame, used, after, item, List.forall_mem_cons.mpr ⟨hfits, hframes⟩,
        List.forall_mem_cons.mpr ⟨hvalue, hvalues⟩, hframe, ?_, ?_, ?_, ?_⟩
      · rw [hrest]
        simp [priorText]
      · rw [htotal, List.length_cons]
        omega
      · simpa [priorText] using hparsed
      · simpa [priorText] using hnext

/-- A visitor of entries keeps its promise for entries inside the input. -/
def VisitsSafely {ρ : Type} (src : List UInt8) (promise : ρ → Prop)
    (visit : Nat → Entry → Outcome (Option ρ)) : Prop :=
  ∀ count entry, Inside src entry.value → (∀ key, entry.key = some key → Inside src key) →
    (visit count entry).Keeps fun found => ∀ result, found = some result → promise result

/-- Or for entries of which it knows more. -/
def VisitsEmbedded {ρ : Type} (src : List UInt8) (promise : ρ → Prop)
    (visit : Nat → Entry → Outcome (Option ρ)) : Prop :=
  ∀ count entry, Embedded src entry.value → (∀ key, entry.key = some key → Inside src key) →
    (visit count entry).Keeps fun found => ∀ result, found = some result → promise result

theorem VisitsSafely.embedded {ρ : Type} {promise : ρ → Prop}
    {visit : Nat → Entry → Outcome (Option ρ)} (hvisit : VisitsSafely src promise visit) :
    VisitsEmbedded src promise visit :=
  fun count entry hentry hkey => hvisit count entry hentry.inside hkey

theorem scanEntries_keeps {ρ : Type} {promise : ρ → Prop} (kind : Nest)
    (hparse : ReadsValues src ahead text levels parse)
    {visit : Nat → Entry → Outcome (Option ρ)} (hvisit : VisitsEmbedded src promise visit)
    (steps count : Nat) {buffer : ParseBuffer} {earlier rest : List UInt8} {previous : UInt8}
    (hat : At src ahead text (buffer.move 1) (earlier ++ [previous]) rest)
    (hprevious : isDigit previous = false) (hsteps : rest.length < steps) :
    (scanEntries src kind parse visit steps count buffer).Keeps
      (ScanKept src ahead text levels kind promise (earlier ++ [previous]) rest count) := by
  induction steps generalizing count buffer earlier rest previous with
  | zero => exact absurd hsteps (Nat.not_lt_zero _)
  | succ steps ih =>
      unfold scanEntries
      apply (readEntry_keeps kind hparse hat hprevious).bind
      rintro ⟨entry, next⟩ ⟨frame, used, after, hrest, hfits, hvalue, hkey, hnext⟩
      have hembedded : Embedded src entry.value := by
        obtain ⟨behind, hsrc⟩ := hat.window
        refine ⟨levels, ahead ++ (earlier ++ [previous] ++ frame.lead), used, after,
          after ++ behind, ?_, by simp, hvalue⟩
        rw [hsrc, hat.text_eq, hrest]
        simp
      apply (hvisit count entry hembedded hkey).bind
      intro found hfound
      cases found with
      | some result =>
          dsimp only
          exact hfound result rfl
      | none =>
          have hended : ScanKept src ahead text levels kind promise (earlier ++ [previous]) rest
              count (.ended (count + 1) next) := by
            refine ⟨[], frame, used, after, entry.value, ?_, ?_, hfits, ?_, rfl, ?_, ?_⟩
            · exact List.forall_mem_nil _
            · exact List.forall_mem_nil _
            · simpa [priorText] using hrest
            · simpa [priorText] using hvalue
            · simpa [priorText] using hnext
          cases hnext with
          | back init last hblank hlast hback =>
              -- stepped back to the end: the last byte of the value is not a comma
              have hcomma : last ≠ 44 := by
                obtain ⟨front, final, hused, hfinal, _⟩ := hvalue.ends
                have hbefore : earlier ++ [previous] ++ frame.lead ++ used =
                    (earlier ++ [previous] ++ frame.lead ++ front) ++ [final] := by
                  rw [hused]
                  simp
                have htext : text = earlier ++ [previous] ++ frame.lead ++ used ++ after := by
                  rw [hat.text_eq, hrest]
                  simp
                exact last_ne_of_blank hbefore hblank (htext.symm.trans hlast) hfinal (by decide)
              dsimp only
              rw [hback.peek, Outcome.ok_bind, if_neg (by simpa using hcomma)]
              exact hended
          | ahead blank byte beyond hafter hblank hsolid hahead =>
              dsimp only
              rw [hahead.peek, Outcome.ok_bind]
              by_cases hcomma : byte = 44
              · subst hcomma
                rw [List.head?_cons, if_pos rfl]
                cases hvalue with
                | cut _ _ hend _ _ _ =>
                    rw [hend] at hafter
                    exact absurd hafter.symm (by simp)
                | complete doc hdoc hused hdenotes =>
                    subst hused hafter
                    have hplace : earlier ++ [previous] ++ frame.lead ++ doc.render ++ blank =
                        earlier ++ [previous] ++ entryText (frame.complete blank doc) := by
                      rw [entryText_complete]
                      simp
                    have hrest' : rest = entryText (frame.complete blank doc) ++ 44 :: beyond := by
                      rw [hrest, entryText_complete]
                      simp
                    have hmoved := (hahead.congr hplace rfl).move_one
                    have hnext := ih (count + 1) hmoved (by decide)
                      (by rw [hrest', List.length_append, List.length_cons] at hsteps; omega)
                    apply hnext.mono
                    intro scan hkept
                    rw [hrest']
                    exact ScanKept.cons (hfits.complete hblank doc) hdoc hkept
              · rw [if_neg (by simpa using hcomma)]
                exact hended

end Entries

end EnosDeviceSdk.Infra
