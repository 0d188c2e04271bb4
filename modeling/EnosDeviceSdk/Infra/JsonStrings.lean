/-
# The strings of a JSON text

A message of the cloud is a JSON text as the standard has it: of white space it knows four bytes,
and of the escapes only some. What a name is said to be in such a text does not depend on a parser:
somewhere in it there is a member of the name with a string for its value.

Where the name stands between quotes at one place only, it says nothing but what follows there.
-/

import EnosDeviceSdk.Infra.JsonUnique
import EnosDeviceSdk.Library.Unescape

namespace EnosDeviceSdk.Infra

open EnosDeviceSdk.Library

/-! ## Texts of the standard -/

/-- The white space of the standard: space, tab, line feed and carriage return. -/
def StandardBlank (text : List UInt8) : Prop :=
  ∀ byte ∈ text, byte = 32 ∨ byte = 9 ∨ byte = 10 ∨ byte = 13

/-- Numbers and strings as the standard writes them. -/
def Token.Standard : Token → Prop
  | .number text => JsonNumber text
  | .string body => JsonString body
  | _ => True

/-- What stands around a value, as the standard writes it. -/
structure Frame.Standard (kind : Nest) (frame : Frame) : Prop where
  before : StandardBlank frame.before
  after : StandardBlank frame.after
  label : kind = .object ↔ frame.label.isSome = true
  key : ∀ label, frame.label = some label → JsonString label.key
  gap : ∀ label, frame.label = some label → StandardBlank label.gap
  blank : ∀ label, frame.label = some label → StandardBlank label.blank

/-- A text of the standard, of any number of levels. -/
inductive Doc.Standard : Doc → Prop
  | scalar {token : Token} (htoken : token.Standard) : Standard (.scalar token)
  | nest {kind : Nest} {blank : List UInt8} {entries : List (Frame × Doc)}
      (hblank : StandardBlank blank) (hframes : ∀ entry ∈ entries, entry.1.Standard kind)
      (hvalues : ∀ entry ∈ entries, Standard entry.2) : Standard (.nest kind blank entries)

/-- Somewhere in the tree a member of this name has a string with this text between its quotes. -/
inductive Doc.HasString (key body : List UInt8) : Doc → Prop
  | here {blank : List UInt8} {entries : List (Frame × Doc)} {entry : Frame × Doc} {label : Label}
      (hentry : entry ∈ entries) (hlabel : entry.1.label = some label) (hkey : label.key = key)
      (hvalue : entry.2 = .scalar (.string body)) : HasString key body (.nest .object blank entries)
  | deeper {kind : Nest} {blank : List UInt8} {entries : List (Frame × Doc)} {entry : Frame × Doc}
      (hentry : entry ∈ entries) (hinner : HasString key body entry.2) :
      HasString key body (.nest kind blank entries)

/-- The text is a text of the standard, and a member of this name is a string that says this. -/
def SaysString (text key string : List UInt8) : Prop :=
  ∃ (before after body : List UInt8) (doc : Doc), text = before ++ doc.render ++ after ∧
    StandardBlank before ∧ StandardBlank after ∧ doc.Standard ∧ doc.HasString key body ∧
      unescape body = some string

/-! ## Plain strings -/

/-- The bytes that stand for themselves in a string. -/
def isPlain (byte : UInt8) : Bool := 32 ≤ byte ∧ byte ≠ 34 ∧ byte ≠ 92

theorem jsonString_of_plain {text : List UInt8} (hplain : text.all isPlain = true) :
    JsonString text := by
  induction text with
  | nil => exact .nil
  | cons byte rest ih =>
      rw [List.all_cons, Bool.and_eq_true] at hplain
      obtain ⟨hcontrol, hquote, hescape⟩ := of_decide_eq_true hplain.1
      exact .plain hquote hescape hcontrol (ih hplain.2)

theorem unescape_of_plain {text : List UInt8} (hplain : text.all isPlain = true) :
    unescape text = some text := by
  induction text with
  | nil => rfl
  | cons byte rest ih =>
      rw [List.all_cons, Bool.and_eq_true] at hplain
      rw [unescape_plain (of_decide_eq_true hplain.1).2.2, ih hplain.2]
      rfl

/-- An object with one member, which is a plain string, and white space around the colon. -/
theorem saysString_of_plain {key gap blank body : List UInt8} (hkey : key.all isPlain = true)
    (hgap : StandardBlank gap) (hblank : StandardBlank blank) (hbody : body.all isPlain = true) :
    SaysString (123 :: (Label.mk key gap blank).render ++ (34 :: body ++ [34, 125])) key body := by
  have hframe : (⟨[], some ⟨key, gap, blank⟩, []⟩ : Frame).Standard .object :=
    { before := List.forall_mem_nil _
      after := List.forall_mem_nil _
      label := iff_of_true rfl rfl
      key := fun label hlabel => Option.some.inj hlabel ▸ jsonString_of_plain hkey
      gap := fun label hlabel => Option.some.inj hlabel ▸ hgap
      blank := fun label hlabel => Option.some.inj hlabel ▸ hblank }
  refine ⟨[], [], body,
    .nest .object [] [(⟨[], some ⟨key, gap, blank⟩, []⟩, .scalar (.string body))], ?_,
    List.forall_mem_nil _, List.forall_mem_nil _, ?_, ?_, unescape_of_plain hbody⟩
  · rw [render_nest]
    simp [bodyText, joinCommas, entryText, Frame.wrap, Frame.lead, Label.render, Doc.render,
      Token.render, Nest.opening, Nest.closing]
  · exact .nest (List.forall_mem_nil _) (List.forall_mem_singleton.mpr hframe)
      (List.forall_mem_singleton.mpr (.scalar (jsonString_of_plain hbody)))
  · exact .here (List.mem_singleton_self _) rfl rfl rfl

/-! ## Where a string stands -/

theorem StandardBlank.blank {text : List UInt8} (htext : StandardBlank text) : Blank text := by
  intro byte hbyte
  rcases htext byte hbyte with rfl | rfl | rfl | rfl <;> decide

/-- The text of an entry is a part of the text of its nesting. -/
theorem entryText_within {kind : Nest} {blank : List UInt8} {entries : List (Frame × Doc)}
    {entry : Frame × Doc} (hentry : entry ∈ entries) :
    entryText entry <:+: (Doc.nest kind blank entries).render := by
  obtain ⟨index, hindex, rfl⟩ := List.getElem_of_mem hentry
  obtain ⟨byte, rest, hrender, -⟩ := render_entry kind blank entries hindex
  rw [hrender]
  exact ⟨_, byte :: rest, List.append_assoc _ _ _⟩

/-- A member that is a string stands somewhere in the text, its name first. -/
theorem Doc.HasString.occurs {key body : List UInt8} {doc : Doc} (hstring : doc.HasString key body)
    (hdoc : doc.Standard) :
    ∃ label : Label, label.key = key ∧ Blank label.gap ∧ Blank label.blank ∧ StringBody body ∧
      label.render ++ (Token.string body).render <:+: doc.render := by
  induction hstring with
  | @here blank entries entry label hentry hlabel hkey hvalue =>
      cases hdoc with
      | nest _ hframes hvalues =>
          have hframe := hframes entry hentry
          have hbody := hvalues entry hentry
          rw [hvalue] at hbody
          cases hbody with
          | scalar htoken =>
              refine ⟨label, hkey, (hframe.gap label hlabel).blank,
                (hframe.blank label hlabel).blank,
                JsonString.body htoken, List.IsInfix.trans ?_ (entryText_within hentry)⟩
              refine ⟨entry.1.before, entry.1.after, ?_⟩
              rw [entryText, Frame.wrap, Frame.lead, hlabel, hvalue, Doc.render]
              simp
  | @deeper kind blank entries entry hentry _ ih =>
      cases hdoc with
      | nest _ _ hvalues =>
          obtain ⟨label, hkey, hgap, hblank, hbody, hinner⟩ := ih (hvalues entry hentry)
          have hentryText : entry.2.render <:+: entryText entry :=
            ⟨entry.1.lead, entry.1.after, rfl⟩
          exact ⟨label, hkey, hgap, hblank, hbody,
            (hinner.trans hentryText).trans (entryText_within hentry)⟩

/-- Two members that stand at one place are the same string. -/
theorem member_unique {label label' : Label} {body body' behind behind' : List UInt8}
    (hkey : label.key = label'.key) (hgap : Blank label.gap) (hgap' : Blank label'.gap)
    (hblank : Blank label.blank) (hblank' : Blank label'.blank) (hbody : StringBody body)
    (hbody' : StringBody body')
    (hsame : label.render ++ (Token.string body).render ++ behind =
      label'.render ++ (Token.string body').render ++ behind') : body = body' := by
  simp only [Label.render, Token.render, hkey, List.append_assoc, List.cons_append,
    List.nil_append, List.cons.injEq, true_and, List.append_cancel_left_eq] at hsame
  obtain ⟨-, hvalue⟩ := hgap.unique hgap' (solid_cons (by decide) _)
    (solid_cons (by decide) _) hsame
  rw [List.cons.injEq] at hvalue
  obtain ⟨-, hstring⟩ :=
    hblank.unique hblank' (solid_cons (by decide) _) (solid_cons (by decide) _) hvalue.2
  rw [List.cons.injEq] at hstring
  exact (hbody.unique hbody' hstring.2).1

/-- Where the quoted name stands at one place only, a text at the front of the bytes says nothing
but the string that follows there. -/
theorem SaysString.eq_of_only {bytes text key string body behind : List UInt8} {place : Nat}
    {label : Label} (hsaid : SaysString text key string) (htext : text <+: bytes)
    (honly : ∀ index < bytes.length, 34 :: key ++ [34] <+: bytes.drop index → index = place)
    (hplace : bytes.drop place = label.render ++ (Token.string body).render ++ behind)
    (hkey : label.key = key) (hgap : Blank label.gap) (hblank : Blank label.blank)
    (hbody : StringBody body) : unescape body = some string := by
  obtain ⟨before, after, body', doc, rfl, -, -, hdoc, hstring, hsaid⟩ := hsaid
  obtain ⟨label', hkey', hgap', hblank', hbody', front, back, hoccurs⟩ := hstring.occurs hdoc
  obtain ⟨rest, rfl⟩ := htext
  have hsplit : before ++ doc.render ++ after ++ rest = (before ++ front) ++
      (label'.render ++ (Token.string body').render ++ (back ++ after ++ rest)) := by
    rw [← hoccurs]
    simp
  have hdrop : (before ++ doc.render ++ after ++ rest).drop (before ++ front).length =
      label'.render ++ (Token.string body').render ++ (back ++ after ++ rest) := by
    rw [hsplit, List.drop_left]
  have hinside : (before ++ front).length < (before ++ doc.render ++ after ++ rest).length := by
    have hlength := congrArg List.length hsplit
    simp only [Label.render, List.length_append, List.length_cons] at hlength ⊢
    omega
  have hquoted : 34 :: key ++ [34] <+: (before ++ doc.render ++ after ++ rest).drop
      (before ++ front).length := by
    have hlead : 34 :: key ++ [34] <+: label'.render :=
      ⟨label'.gap ++ 58 :: label'.blank, by simp [Label.render, hkey']⟩
    rw [hdrop, List.append_assoc]
    exact hlead.trans (List.prefix_append _ _)
  rw [honly _ hinside hquoted, hplace] at hdrop
  rw [← hsaid, member_unique (hkey.trans hkey'.symm) hgap hgap' hblank hblank' hbody hbody' hdrop]

end EnosDeviceSdk.Infra
