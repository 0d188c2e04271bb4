/-
# JSON texts

The texts that the lite parser is meant for, as syntax trees with their white space. The
grammar is the parser's: every byte up to 32 is white space, a string may hold any bytes as
long as its quotes are escaped, and a number is what `strtod` converts, up to the 63
characters that `parse_number` copies. A tree spells one text.

Beside the complete texts stand the ones that are cut short: an array without its closing
bracket whose last element is an array and ends the text, or the same with objects. The
brackets of a complete text balance, and those of one that is cut short do not.
-/

import EnosDeviceSdk.Infra.Cjson

namespace EnosDeviceSdk.Infra

/-! ## Tokens -/

/-- White space between tokens. -/
def Blank (text : List UInt8) : Prop := ∀ byte ∈ text, byte ≤ 32

theorem blank_nil : Blank [] := by simp [Blank]

/-- What may stand between the quotes of a string. -/
inductive StringBody : List UInt8 → Prop
  | nil : StringBody []
  | plain {byte : UInt8} {rest : List UInt8} (hquote : byte ≠ 34) (hescape : byte ≠ 92)
      (hrest : StringBody rest) : StringBody (byte :: rest)
  | escaped {byte : UInt8} {rest : List UInt8} (hrest : StringBody rest) :
      StringBody (92 :: byte :: rest)

/-- A number token. -/
structure NumberToken (text : List UInt8) : Prop where
  decimal : isDecimal text = true
  bytes : ∀ byte ∈ text, isNumberByte byte = true
  head : ∃ byte rest, text = byte :: rest ∧ (byte = 45 ∨ isDigit byte = true)
  short : text.length ≤ 63

/-- The values without a nesting of their own. -/
inductive Token
  | null
  | true
  | false
  | number (text : List UInt8)
  | string (body : List UInt8)

/-- The text of a token. -/
def Token.render : Token → List UInt8
  | .null => [110, 117, 108, 108]
  | .true => [116, 114, 117, 101]
  | .false => [102, 97, 108, 115, 101]
  | .number text => text
  | .string body => 34 :: body ++ [34]

/-- The cJSON type of a token. -/
def Token.type : Token → CjsonType
  | .null => .null
  | .true => .true
  | .false => .false
  | .number _ => .number
  | .string _ => .string

/-- The texts of numbers and strings are as they should be. -/
def Token.Valid : Token → Prop
  | .number text => NumberToken text
  | .string body => StringBody body
  | _ => True

/-! ## Trees -/

/-- The name of an object's member, with the white space on both sides of the colon. -/
structure Label where
  key : List UInt8
  gap : List UInt8
  blank : List UInt8

/-- The text of a name up to its value. -/
def Label.render (label : Label) : List UInt8 :=
  (34 :: label.key ++ [34]) ++ label.gap ++ 58 :: label.blank

/-- What stands around a value in an array or an object. -/
structure Frame where
  before : List UInt8
  label : Option Label
  after : List UInt8

/-- The text in front of the value. -/
def Frame.lead (frame : Frame) : List UInt8 :=
  frame.before ++ (frame.label.map Label.render).getD []

/-- The text of a value in its frame. -/
def Frame.wrap (frame : Frame) (value : List UInt8) : List UInt8 :=
  frame.lead ++ value ++ frame.after

/-- White space is white space, names are strings, and just the members of objects have
one. -/
structure Frame.Fits (kind : Nest) (frame : Frame) : Prop where
  before : Blank frame.before
  after : Blank frame.after
  label : kind = .object ↔ frame.label.isSome = true
  key : ∀ label, frame.label = some label → StringBody label.key
  gap : ∀ label, frame.label = some label → Blank label.gap
  blank : ∀ label, frame.label = some label → Blank label.blank

/-- The elements of arrays have no names. -/
theorem Frame.Fits.array_label {frame : Frame} (hfits : frame.Fits .array) :
    frame.label = none := by
  cases hlabel : frame.label with
  | none => rfl
  | some label => exact absurd (hfits.label.mpr (by rw [hlabel]; rfl)) (by decide)

/-- A JSON text as a tree. The white space of a nesting is what stands between the brackets
of an empty one. -/
inductive Doc
  | scalar (token : Token)
  | nest (kind : Nest) (blank : List UInt8) (entries : List (Frame × Doc))

/-- Texts with commas between them. -/
def joinCommas : List (List UInt8) → List UInt8
  | [] => []
  | text :: rest => text ++ (rest.map (44 :: ·)).flatten

mutual

/-- The text that a tree spells. -/
def Doc.render : Doc → List UInt8
  | .scalar token => token.render
  | .nest kind blank [] => kind.opening :: blank ++ [kind.closing]
  | .nest kind _ (entry :: rest) =>
      kind.opening :: joinCommas (renderEntries (entry :: rest)) ++ [kind.closing]

/-- The texts of the entries. -/
def renderEntries : List (Frame × Doc) → List (List UInt8)
  | [] => []
  | (frame, value) :: rest => frame.wrap value.render :: renderEntries rest

end

/-- The text of an entry. -/
def entryText (entry : Frame × Doc) : List UInt8 := entry.1.wrap entry.2.render

/-- The tree is a text of the grammar with at most so many levels of nesting. -/
inductive Doc.WellFormed : Nat → Doc → Prop
  | scalar {levels : Nat} {token : Token} (hvalid : token.Valid) :
      WellFormed levels (.scalar token)
  | nest {levels : Nat} {kind : Nest} {blank : List UInt8} {entries : List (Frame × Doc)}
      (hblank : Blank blank) (hframes : ∀ entry ∈ entries, entry.1.Fits kind)
      (hvalues : ∀ entry ∈ entries, WellFormed levels entry.2) :
      WellFormed (levels + 1) (.nest kind blank entries)

theorem Doc.WellFormed.mono {levels more : Nat} {doc : Doc} (hdoc : doc.WellFormed levels)
    (hmore : levels ≤ more) : doc.WellFormed more := by
  induction hdoc generalizing more with
  | scalar hvalid => exact .scalar hvalid
  | nest hblank hframes _ ih =>
      obtain ⟨more, rfl⟩ : ∃ inner, more = inner + 1 := ⟨more - 1, by omega⟩
      exact .nest hblank hframes fun entry hentry => ih entry hentry (by omega)

/-- The texts of a token, apart from what a number has to be. It may have any length. -/
def Token.Spelled : Token → Prop
  | .number text => text ≠ [] ∧ ∀ byte ∈ text, isNumberByte byte
  | .string body => StringBody body
  | _ => True

/-- The tree is a text of the grammar without the parser's limits: it has any number of levels,
and its numbers are any bytes of numbers. -/
inductive Doc.Spelled : Doc → Prop
  | scalar {token : Token} (htoken : token.Spelled) : Spelled (.scalar token)
  | nest {kind : Nest} {blank : List UInt8} {entries : List (Frame × Doc)}
      (hblank : Blank blank) (hframes : ∀ entry ∈ entries, entry.1.Fits kind)
      (hvalues : ∀ entry ∈ entries, Spelled entry.2) : Spelled (.nest kind blank entries)

theorem Token.Valid.spelled {token : Token} (hvalid : token.Valid) : token.Spelled := by
  cases token with
  | null | true | false => trivial
  | string => exact hvalid
  | number =>
      obtain ⟨byte, rest, rfl, -⟩ := hvalid.head
      exact ⟨List.cons_ne_nil byte rest, hvalid.bytes⟩

theorem Doc.WellFormed.spelled {levels : Nat} {doc : Doc} (hdoc : doc.WellFormed levels) :
    doc.Spelled := by
  induction hdoc with
  | scalar hvalid => exact .scalar hvalid.spelled
  | nest hblank hframes _ ih => exact .nest hblank hframes ih

theorem renderEntries_eq (entries : List (Frame × Doc)) :
    renderEntries entries = entries.map entryText := by
  induction entries with
  | nil => rfl
  | cons entry rest ih => rw [renderEntries, ih, List.map_cons, entryText]

/-- The text between the brackets. -/
def bodyText (blank : List UInt8) : List (Frame × Doc) → List UInt8
  | [] => blank
  | entry :: rest => joinCommas ((entry :: rest).map entryText)

/-- The text between the brackets, with its last entry at the end. -/
theorem bodyText_append_singleton (blank : List UInt8) (prior : List (Frame × Doc))
    (last : Frame × Doc) :
    bodyText blank (prior ++ [last]) = joinCommas ((prior ++ [last]).map entryText) := by
  cases prior <;> rfl

theorem render_nest (kind : Nest) (blank : List UInt8) (entries : List (Frame × Doc)) :
    (Doc.nest kind blank entries).render =
      kind.opening :: bodyText blank entries ++ [kind.closing] := by
  cases entries with
  | nil => rfl
  | cons entry rest => rw [Doc.render, renderEntries_eq, bodyText]

/-! ## Items -/

/-- The cJSON type of a tree. -/
def Doc.type : Doc → CjsonType
  | .scalar token => token.type
  | .nest kind _ _ => kind.type

/-- How far the value of an item stands behind the start of the text: behind the quote for a
string. -/
def Doc.indent : Doc → Nat
  | .scalar (.string _) => 1
  | _ => 0

/-- The value of an item: the text, or what a string has between its quotes. -/
def Doc.contents : Doc → List UInt8
  | .scalar (.string body) => body
  | doc => doc.render

/-- The item has the type of the tree whose text stands at `start`, the span of its value,
and the number of its entries if it is a nesting. -/
structure Denotes (item : LiteCjson) (doc : Doc) (start : Int) : Prop where
  type : item.type = doc.type
  value : item.value = some (start + doc.indent)
  valueLength : item.valueLength = doc.contents.length
  size : ∀ kind blank entries, doc = .nest kind blank entries → item.size = entries.length

/-! ## Texts that are cut short -/

/-- Entries with a comma behind each. -/
def priorText (prior : List (Frame × Doc)) : List UInt8 :=
  (prior.map fun entry => entryText entry ++ [44]).flatten

/-- A text that ends behind the last entry of a nesting, which is itself a nesting of the
same kind, complete or cut short. -/
inductive CutShort (kind : Nest) : Nat → List UInt8 → Prop
  | last {levels : Nat} {prior : List (Frame × Doc)} {frame : Frame} {blank : List UInt8}
      {entries : List (Frame × Doc)} (hframes : ∀ entry ∈ prior, entry.1.Fits kind)
      (hvalues : ∀ entry ∈ prior, entry.2.WellFormed levels) (hframe : frame.Fits kind)
      (hvalue : (Doc.nest kind blank entries).WellFormed levels) :
      CutShort kind (levels + 1)
        (kind.opening :: priorText prior ++ frame.lead ++ (Doc.nest kind blank entries).render)
  | deeper {levels : Nat} {prior : List (Frame × Doc)} {frame : Frame} {inner : List UInt8}
      (hframes : ∀ entry ∈ prior, entry.1.Fits kind)
      (hvalues : ∀ entry ∈ prior, entry.2.WellFormed levels) (hframe : frame.Fits kind)
      (hinner : CutShort kind levels inner) :
      CutShort kind (levels + 1) (kind.opening :: priorText prior ++ frame.lead ++ inner)

theorem CutShort.mono {kind : Nest} {levels more : Nat} {text : List UInt8}
    (hcut : CutShort kind levels text) (hmore : levels ≤ more) : CutShort kind more text := by
  induction hcut generalizing more with
  | last hframes hvalues hframe hvalue =>
      obtain ⟨more, rfl⟩ : ∃ inner, more = inner + 1 := ⟨more - 1, by omega⟩
      have hless := Nat.le_of_succ_le_succ hmore
      exact .last hframes (fun entry hentry => (hvalues entry hentry).mono hless) hframe
        (hvalue.mono hless)
  | deeper hframes hvalues hframe _ ih =>
      obtain ⟨more, rfl⟩ : ∃ inner, more = inner + 1 := ⟨more - 1, by omega⟩
      have hless := Nat.le_of_succ_le_succ hmore
      exact .deeper hframes (fun entry hentry => (hvalues entry hentry).mono hless)
        hframe (ih hless)

/-- An entry among the entries of a nesting. -/
theorem joinCommas_append_cons (prior later : List (Frame × Doc)) (entry : Frame × Doc) :
    joinCommas ((prior ++ entry :: later).map entryText) =
      priorText prior ++ entryText entry ++ ((later.map entryText).map (44 :: ·)).flatten := by
  induction prior with
  | nil => simp [joinCommas, priorText]
  | cons first rest ih =>
      have hrest : ∃ second others, rest ++ entry :: later = second :: others := by
        apply List.exists_cons_of_ne_nil
        simp
      obtain ⟨second, others, hcons⟩ := hrest
      simp only [List.cons_append, hcons, List.map_cons, joinCommas, List.flatten_cons,
        priorText, List.append_assoc, List.nil_append] at ih ⊢
      rw [ih]

/-- The entries of a nesting are its last one behind the others. -/
theorem joinCommas_append_singleton (prior : List (Frame × Doc)) (entry : Frame × Doc) :
    joinCommas ((prior ++ [entry]).map entryText) = priorText prior ++ entryText entry := by
  simpa using joinCommas_append_cons prior [] entry

/-! ## Brackets -/

/-- A reader that counts the open brackets outside strings. -/
structure Balance where
  inString : Bool
  escaped : Bool
  level : Int

/-- The reader outside strings, with so many brackets open. -/
def Balance.outside (level : Int) : Balance := ⟨false, false, level⟩

/-- What a byte does to it. -/
def Balance.step (balance : Balance) (byte : UInt8) : Balance :=
  if balance.inString then
    if balance.escaped then { balance with escaped := false }
    else if byte = 92 then { balance with escaped := true }
    else if byte = 34 then { balance with inString := false }
    else balance
  else if byte = 34 then { balance with inString := true }
  else if byte = 91 ∨ byte = 123 then { balance with level := balance.level + 1 }
  else if byte = 93 ∨ byte = 125 then { balance with level := balance.level - 1 }
  else balance

/-- The text opens so many more brackets than it closes, wherever it stands. -/
def Opens (count : Int) (text : List UInt8) : Prop :=
  ∀ level, text.foldl Balance.step (.outside level) = .outside (level + count)

theorem Opens.append {first second : Int} {before after : List UInt8}
    (hbefore : Opens first before) (hafter : Opens second after) :
    Opens (first + second) (before ++ after) := by
  intro level
  rw [List.foldl_append, hbefore level, hafter (level + first), Int.add_assoc]

theorem Opens.unique {first second : Int} {text : List UInt8} (hfirst : Opens first text)
    (hsecond : Opens second text) : first = second := by
  have hsame := (hfirst 0).symm.trans (hsecond 0)
  simpa [Balance.outside] using hsame

/-- Bytes that are neither quotes nor brackets open nothing. -/
theorem opens_of_plain {text : List UInt8}
    (hplain : ∀ byte ∈ text, byte ≠ 34 ∧ byte ≠ 91 ∧ byte ≠ 93 ∧ byte ≠ 123 ∧ byte ≠ 125) :
    Opens 0 text := by
  intro level
  induction text with
  | nil => simp
  | cons byte rest ih =>
      obtain ⟨hquote, harray, harrayEnd, hobject, hobjectEnd⟩ := hplain byte (List.mem_cons_self ..)
      have hsame : Balance.step (.outside level) byte = .outside level := by
        simp [Balance.step, Balance.outside, hquote, harray, harrayEnd, hobject, hobjectEnd]
      rw [List.foldl_cons, hsame]
      exact ih fun other hother => hplain other (List.mem_cons_of_mem _ hother)

theorem opens_blank {text : List UInt8} (hblank : Blank text) : Opens 0 text := by
  apply opens_of_plain
  intro byte hbyte
  have hle := hblank byte hbyte
  refine ⟨?_, ?_, ?_, ?_, ?_⟩ <;>
    (rintro rfl
     exact absurd hle (by decide))

theorem opens_opening (kind : Nest) : Opens 1 [kind.opening] := by
  intro level
  cases kind <;> rfl

theorem opens_closing (kind : Nest) : Opens (-1) [kind.closing] := by
  intro level
  cases kind <;> rfl

/-- A string opens nothing, whatever is in it. -/
theorem opens_string {body : List UInt8} (hbody : StringBody body) :
    Opens 0 (34 :: body ++ [34]) := by
  intro level
  have hinside : (body ++ [34]).foldl Balance.step ⟨true, false, level⟩ = .outside level := by
    induction hbody with
    | nil => rfl
    | plain hquote hescape hrest ih =>
        rw [List.cons_append, List.foldl_cons]
        simpa [Balance.step, hquote, hescape] using ih
    | escaped hrest ih =>
        rw [List.cons_append, List.cons_append, List.foldl_cons, List.foldl_cons]
        simpa [Balance.step] using ih
  rw [Int.add_zero]
  exact hinside

theorem opens_token {token : Token} (htoken : token.Spelled) : Opens 0 token.render := by
  cases token with
  | null => exact opens_of_plain (by simp [Token.render])
  | true => exact opens_of_plain (by simp [Token.render])
  | false => exact opens_of_plain (by simp [Token.render])
  | number text =>
      apply opens_of_plain
      intro byte hbyte
      have hnumber := htoken.2 byte hbyte
      refine ⟨?_, ?_, ?_, ?_, ?_⟩ <;>
        (rintro rfl
         exact absurd hnumber (by decide))
  | string body => exact opens_string htoken

theorem opens_lead {kind : Nest} {frame : Frame} (hfits : frame.Fits kind) :
    Opens 0 frame.lead := by
  cases hlabel : frame.label with
  | none => simpa [Frame.lead, hlabel] using opens_blank hfits.before
  | some label =>
      have hname := opens_string (hfits.key label hlabel)
      have hgap := opens_blank (hfits.gap label hlabel)
      have hcolon : Opens 0 [58] := opens_of_plain (by simp)
      have hblank := opens_blank (hfits.blank label hlabel)
      have hall := (opens_blank hfits.before).append
        ((hname.append hgap).append (hcolon.append hblank))
      simpa [Frame.lead, hlabel, Label.render] using hall

theorem opens_entryText {kind : Nest} {entry : Frame × Doc} (hfits : entry.1.Fits kind)
    (hvalue : Opens 0 entry.2.render) : Opens 0 (entryText entry) := by
  have hall := ((opens_lead hfits).append hvalue).append (opens_blank hfits.after)
  simpa [entryText, Frame.wrap] using hall

theorem opens_flatten {texts : List (List UInt8)} (htexts : ∀ text ∈ texts, Opens 0 text) :
    Opens 0 texts.flatten := by
  induction texts with
  | nil =>
      intro level
      simp
  | cons text rest ih =>
      have hall := (htexts text (List.mem_cons_self ..)).append
        (ih fun other hother => htexts other (List.mem_cons_of_mem _ hother))
      simpa using hall

theorem opens_priorText {kind : Nest} {prior : List (Frame × Doc)}
    (hframes : ∀ entry ∈ prior, entry.1.Fits kind)
    (hvalues : ∀ entry ∈ prior, Opens 0 entry.2.render) : Opens 0 (priorText prior) := by
  have hcomma : Opens 0 [44] := opens_of_plain (by simp)
  apply opens_flatten
  intro text htext
  obtain ⟨entry, hentry, rfl⟩ := List.mem_map.mp htext
  simpa using (opens_entryText (hframes entry hentry) (hvalues entry hentry)).append hcomma

/-- The brackets of a complete text balance. -/
theorem Doc.Spelled.opens {doc : Doc} (hdoc : doc.Spelled) : Opens 0 doc.render := by
  induction hdoc with
  | scalar htoken => exact opens_token htoken
  | @nest kind blank entries hblank hframes _ ih =>
      have hbody : Opens 0 (bodyText blank entries) := by
        rcases List.eq_nil_or_concat' entries with rfl | ⟨prior, last, rfl⟩
        · exact opens_blank hblank
        · have hprior : Opens 0 (priorText prior) :=
            opens_priorText (fun entry hentry => hframes entry (by simp [hentry]))
              fun entry hentry => ih entry (by simp [hentry])
          have hlast := opens_entryText (hframes last (by simp)) (ih last (by simp))
          rw [bodyText_append_singleton, joinCommas_append_singleton]
          simpa using hprior.append hlast
      have hall := ((opens_opening kind).append hbody).append (opens_closing kind)
      rw [render_nest]
      simpa using hall

theorem opens_render {levels : Nat} {doc : Doc} (hdoc : doc.WellFormed levels) :
    Opens 0 doc.render :=
  hdoc.spelled.opens

/-- A text that is cut short leaves a bracket open. -/
theorem opens_cutShort {kind : Nest} {levels : Nat} {text : List UInt8}
    (hcut : CutShort kind levels text) : ∃ count : Int, 0 < count ∧ Opens count text := by
  induction hcut with
  | last hframes hvalues hframe hvalue =>
      have hprior := opens_priorText hframes fun entry hentry => opens_render (hvalues entry hentry)
      have hall := (((opens_opening kind).append hprior).append (opens_lead hframe)).append
        (opens_render hvalue)
      exact ⟨1, Int.one_pos, by simpa using hall⟩
  | deeper hframes hvalues hframe _ ih =>
      obtain ⟨count, hpositive, hinner⟩ := ih
      have hprior := opens_priorText hframes fun entry hentry => opens_render (hvalues entry hentry)
      have hall := (((opens_opening kind).append hprior).append (opens_lead hframe)).append hinner
      refine ⟨1 + count, by omega, ?_⟩
      simpa using hall

/-- So no text is both complete and cut short. -/
theorem CutShort.not_render {kind : Nest} {levels depth : Nat} {doc : Doc}
    (hcut : CutShort kind levels doc.render) (hdoc : doc.WellFormed depth) : False := by
  obtain ⟨count, hpositive, hopens⟩ := opens_cutShort hcut
  have hzero := hopens.unique (opens_render hdoc)
  omega

end EnosDeviceSdk.Infra
