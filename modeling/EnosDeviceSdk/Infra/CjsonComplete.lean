/-
# What the JSON parser makes of the texts it is meant for

Where a text of the grammar is ahead, the parser takes all of it and makes the item that
denotes it. The same loop runs in the parser and in the accessors, so it is followed once:
it turns over the entries in front of one entry, whatever its visitor looks for, and reads
that entry. A text that is cut short is taken as well, up to the end.
-/

import EnosDeviceSdk.Infra.CjsonContract

namespace EnosDeviceSdk.Infra

open EnosDeviceSdk.Library

/-! ## How values begin -/

/-- The text begins with a byte that is not white space, closes nothing, and is not the first
one of a byte order mark. -/
def StartsValue (text : List UInt8) : Prop :=
  ∃ byte rest, text = byte :: rest ∧ ¬byte ≤ 32 ∧ byte ≠ 0xEF ∧ ∀ kind : Nest, byte ≠ kind.closing

theorem startsValue_opening (kind : Nest) (rest : List UInt8) :
    StartsValue (kind.opening :: rest) := by
  refine ⟨kind.opening, rest, rfl, by cases kind <;> decide, by cases kind <;> decide, ?_⟩
  intro other
  cases kind <;> cases other <;> decide

theorem isNumberByte_of_blank {byte : UInt8} (hblank : byte ≤ 32) : isNumberByte byte = false := by
  have hdigit := isDigit_of_blank hblank
  apply decide_eq_false
  rw [hdigit]
  rintro (h | rfl | rfl | rfl | rfl | rfl) <;>
    first | exact Bool.false_ne_true h | exact absurd hblank (by decide)

theorem Doc.Spelled.starts {doc : Doc} (hdoc : doc.Spelled) : StartsValue doc.render := by
  cases hdoc with
  | @nest kind blank entries _ _ _ =>
      rw [render_nest]
      exact startsValue_opening kind _
  | @scalar token htoken =>
      have hother : ∀ {byte : UInt8}, (byte ≠ 93 ∧ byte ≠ 125) → ∀ kind : Nest,
          byte ≠ kind.closing := by
        rintro byte ⟨harray, hobject⟩ kind
        cases kind with
        | array => exact harray
        | object => exact hobject
      cases token with
      | null => exact ⟨110, [117, 108, 108], rfl, by decide, by decide, hother (by decide)⟩
      | true => exact ⟨116, [114, 117, 101], rfl, by decide, by decide, hother (by decide)⟩
      | false => exact ⟨102, [97, 108, 115, 101], rfl, by decide, by decide, hother (by decide)⟩
      | string body => exact ⟨34, body ++ [34], rfl, by decide, by decide, hother (by decide)⟩
      | number text =>
          obtain ⟨byte, rest, rfl⟩ := List.exists_cons_of_ne_nil htoken.1
          have hbyte := htoken.2 byte (List.mem_cons_self ..)
          refine ⟨byte, rest, rfl, ?_, ?_, hother (numberByte_ends hbyte).2⟩
          · intro hblank
            rw [isNumberByte_of_blank hblank] at hbyte
            exact Bool.false_ne_true hbyte
          · rintro rfl
            exact absurd hbyte (by decide)

theorem startsValue_render {levels : Nat} {doc : Doc} (hdoc : doc.WellFormed levels) :
    StartsValue doc.render :=
  hdoc.spelled.starts

theorem StartsValue.append {text : List UInt8} (htext : StartsValue text) (more : List UInt8) :
    StartsValue (text ++ more) := by
  obtain ⟨byte, rest, rfl, hbyte⟩ := htext
  exact ⟨byte, rest ++ more, rfl, hbyte⟩

theorem CutShort.opening {kind : Nest} {levels : Nat} {text : List UInt8}
    (hcut : CutShort kind levels text) : ∃ rest, text = kind.opening :: rest := by
  cases hcut with
  | last => exact ⟨_, rfl⟩
  | deeper => exact ⟨_, rfl⟩

theorem CutShort.starts {kind : Nest} {levels : Nat} {text : List UInt8}
    (hcut : CutShort kind levels text) : StartsValue text := by
  obtain ⟨rest, rfl⟩ := hcut.opening
  exact startsValue_opening kind rest

/-- Behind the white space of a frame stands its name or its value, and no closing bracket. -/
theorem Frame.Fits.starts {kind : Nest} {frame : Frame} (hfits : frame.Fits kind)
    {used : List UInt8} (hstarts : StartsValue used) :
    ∃ solid rest, frame.lead ++ used = frame.before ++ solid :: rest ∧ ¬solid ≤ 32 ∧
      solid ≠ kind.closing := by
  cases hlabel : frame.label with
  | none =>
      obtain ⟨byte, rest, rfl, hsolid, _, hclosing⟩ := hstarts
      exact ⟨byte, rest, by simp [Frame.lead, hlabel], hsolid, hclosing kind⟩
  | some label =>
      refine ⟨34, label.key ++ [34] ++ label.gap ++ 58 :: label.blank ++ used, ?_, by decide,
        by cases kind <;> decide⟩
      simp [Frame.lead, hlabel, Label.render]

/-- No character of a number follows. -/
def Ends (rest : List UInt8) : Prop := ∀ byte ∈ rest.head?, isNumberByte byte = false

theorem ends_blank_append {blank rest : List UInt8} (hblank : Blank blank) (hrest : Ends rest) :
    Ends (blank ++ rest) := by
  cases blank with
  | nil => exact hrest
  | cons byte blank =>
      intro other hother
      obtain rfl : byte = other := by simpa using hother
      exact isNumberByte_of_blank (hblank byte (List.mem_cons_self ..))

/-! ## Entries -/

/-- The name of a member, if the entry has one. -/
def NameDenotes (key : Option LiteCjson) (frame : Frame) (start : Int) : Prop :=
  match frame.label with
  | none => key = none
  | some label =>
      ∃ name, key = some name ∧
        Denotes name (.scalar (.string label.key)) (start + frame.before.length)

/-- The name and the value of an entry. -/
structure EntryDenotes (entry : Entry) (frame : Frame) (doc : Doc) (start : Int) : Prop where
  key : NameDenotes entry.key frame start
  value : Denotes entry.value doc (start + frame.lead.length)

section Entries

variable {src ahead text : List UInt8} {levels : Nat} {parse : ValueParser}

/-- The body of an array's loop, around a value that the parser reads. -/
theorem readElement_of_value {buffer next : ParseBuffer} {before blank used rest : List UInt8}
    {item : LiteCjson} (hat : At src ahead text buffer before (blank ++ (used ++ rest)))
    (hblank : Blank blank) (hstarts : StartsValue used)
    (hvalue : parse (buffer.move blank.length) = .ok (item, next)) :
    readElement src parse buffer = do
      let buffer ← bufferSkipWhitespace src next
      return (⟨none, item⟩, buffer) := by
  obtain ⟨byte, tail, rfl, hsolid, _, _⟩ := hstarts
  unfold readElement
  rw [bufferSkipWhitespace_ahead hat hblank hsolid, Outcome.ok_bind, hvalue, Outcome.ok_bind]

/-- The body of an object's loop. -/
theorem readMember_of_value {buffer next : ParseBuffer} {before used rest : List UInt8}
    {frame : Frame} {label : Label} {item : LiteCjson}
    (hat : At src ahead text buffer before (frame.lead ++ (used ++ rest)))
    (hfits : frame.Fits .object) (hlabel : frame.label = some label) (hstarts : StartsValue used)
    (hvalue : parse (buffer.move frame.lead.length) = .ok (item, next)) :
    ∃ name, Denotes name (.scalar (.string label.key))
        ((ahead ++ before).length + frame.before.length) ∧
      readMember src parse buffer = do
        let buffer ← bufferSkipWhitespace src next
        return (⟨some name, item⟩, buffer) := by
  have hlead : frame.lead =
      frame.before ++ (quoted label.key ++ (label.gap ++ 58 :: label.blank)) := by
    simp [Frame.lead, hlabel, Label.render, quoted]
  have hspread : At src ahead text buffer before (frame.before ++ (quoted label.key ++
      (label.gap ++ 58 :: (label.blank ++ (used ++ rest))))) :=
    hat.congr rfl (by simp [hlead])
  have hname := hspread.move frame.before
  obtain ⟨name, hparse, hdenotes⟩ := parseString_eq .zero (hfits.key label hlabel) hname
  have hgap := hname.move (quoted label.key)
  have hcolon := hgap.move label.gap
  have hskip : bufferSkipWhitespace src buffer = .ok (buffer.move frame.before.length) :=
    bufferSkipWhitespace_ahead (hspread.congr rfl rfl) hfits.before (by decide)
  have hplace : ((((buffer.move frame.before.length).move (quoted label.key).length).move
      label.gap.length).move 1).move label.blank.length = buffer.move frame.lead.length := by
    simp only [ParseBuffer.move_move, hlead, List.length_append, List.length_cons, Int.natCast_add]
    congr 1
    omega
  rw [← hplace] at hvalue
  have helement := readElement_of_value hcolon.move_one (hfits.blank label hlabel) hstarts hvalue
  refine ⟨name, ?_, ?_⟩
  · simpa [List.length_append, Int.add_assoc] using hdenotes
  · unfold readMember
    rw [hskip, Outcome.ok_bind, hparse, Outcome.ok_bind]
    dsimp only
    rw [bufferSkipWhitespace_ahead hgap (hfits.gap label hlabel) (by decide), Outcome.ok_bind,
      hcolon.peek, Outcome.ok_bind, List.head?_cons, if_neg (by simp), helement]
    cases bufferSkipWhitespace src next <;> rfl

/-- The body of either loop, around a value that the parser reads. -/
theorem readEntry_of_value (kind : Nest) {buffer next : ParseBuffer}
    {before used rest : List UInt8} {frame : Frame} {item : LiteCjson}
    (hat : At src ahead text buffer before (frame.lead ++ (used ++ rest)))
    (hfits : frame.Fits kind) (hstarts : StartsValue used)
    (hvalue : parse (buffer.move frame.lead.length) = .ok (item, next)) :
    ∃ key, NameDenotes key frame (ahead ++ before).length ∧
      readEntry src kind parse buffer = do
        let buffer ← bufferSkipWhitespace src next
        return (⟨key, item⟩, buffer) := by
  cases hlabel : frame.label with
  | none =>
      have hlead : frame.lead = frame.before := by simp [Frame.lead, hlabel]
      rw [hlead] at hat hvalue
      have hkind : kind = .array := by
        cases kind with
        | array => rfl
        | object => exact absurd (hfits.label.mp rfl) (by simp [hlabel])
      subst hkind
      refine ⟨none, by simp [NameDenotes, hlabel], ?_⟩
      exact readElement_of_value hat hfits.before hstarts hvalue
  | some label =>
      have hkind : kind = .object := hfits.label.mpr (by simp [hlabel])
      subst hkind
      obtain ⟨name, hdenotes, hread⟩ := readMember_of_value hat hfits hlabel hstarts hvalue
      refine ⟨some name, ?_, hread⟩
      simpa [NameDenotes, hlabel] using hdenotes

/-- Wherever this text is ahead, with that rest behind it, the parser of values takes the text
and makes a good item. -/
def Parses (src ahead text : List UInt8) (parse : ValueParser) (used rest : List UInt8)
    (good : LiteCjson → Int → Prop) : Prop :=
  ∀ {buffer : ParseBuffer} {before : List UInt8}, At src ahead text buffer before (used ++ rest) →
    ∃ item, parse buffer = .ok (item, buffer.move used.length) ∧
      good item (ahead ++ before).length

/-- It does so with the complete texts. -/
def ParsesDocs (src ahead text : List UInt8) (levels : Nat) (parse : ValueParser) : Prop :=
  ∀ {doc : Doc} {rest : List UInt8}, doc.WellFormed levels → Ends rest →
    Parses src ahead text parse doc.render rest fun item start => Denotes item doc start

/-- A complete entry in front of a comma or a closing bracket. -/
theorem readEntry_complete (kind : Nest) (hparse : ParsesDocs src ahead text levels parse)
    {buffer : ParseBuffer} {before rest : List UInt8} {frame : Frame} {doc : Doc} {byte : UInt8}
    (hat : At src ahead text buffer before (entryText (frame, doc) ++ byte :: rest))
    (hfits : frame.Fits kind) (hdoc : doc.WellFormed levels) (hsolid : ¬byte ≤ 32)
    (hbyte : isNumberByte byte = false) :
    ∃ entry, EntryDenotes entry frame doc (ahead ++ before).length ∧
      readEntry src kind parse buffer =
        .ok (entry, buffer.move (entryText (frame, doc)).length) := by
  have hspread : At src ahead text buffer before
      (frame.lead ++ (doc.render ++ (frame.after ++ byte :: rest))) :=
    hat.congr rfl (by simp [entryText, Frame.wrap])
  have hends : Ends (frame.after ++ byte :: rest) := by
    apply ends_blank_append hfits.after
    intro other hother
    obtain rfl : byte = other := by simpa using hother
    exact hbyte
  have hvalue := hspread.move frame.lead
  obtain ⟨item, hitem, hdenotes⟩ := hparse hdoc hends hvalue
  obtain ⟨key, hkey, hread⟩ :=
    readEntry_of_value kind hspread hfits (startsValue_render hdoc) hitem
  have hskip := bufferSkipWhitespace_ahead (hvalue.move doc.render) hfits.after hsolid
  refine ⟨⟨key, item⟩, ⟨hkey, ?_⟩, ?_⟩
  · simpa [Int.add_assoc] using hdenotes
  · have hplace : ((buffer.move frame.lead.length).move doc.render.length).move frame.after.length =
        buffer.move (entryText (frame, doc)).length := by
      simp only [ParseBuffer.move_move, entryText, Frame.wrap, List.length_append, Int.natCast_add]
    rw [hread, hskip, hplace, Outcome.ok_bind, Outcome.pure_eq]

/-- Nothing follows, or a byte that ends every value. -/
def Delimited (rest : List UInt8) : Prop :=
  rest = [] ∨ ∃ byte more, rest = byte :: more ∧ ¬byte ≤ 32 ∧ isNumberByte byte = false

/-- A complete entry at the end of the text, or in front of such a byte. -/
theorem readEntry_delimited (kind : Nest) (hparse : ParsesDocs src ahead text levels parse)
    {buffer : ParseBuffer} {before rest : List UInt8} {frame : Frame} {doc : Doc}
    (hat : At src ahead text buffer before (entryText (frame, doc) ++ rest))
    (hfits : frame.Fits kind) (hdoc : doc.WellFormed levels) (hrest : Delimited rest) :
    ∃ entry next, EntryDenotes entry frame doc (ahead ++ before).length ∧
      readEntry src kind parse buffer = .ok (entry, next) := by
  rcases hrest with rfl | ⟨byte, more, rfl, hsolid, hbyte⟩
  · have hspread : At src ahead text buffer before
        (frame.lead ++ (doc.render ++ (frame.after ++ []))) :=
      hat.congr rfl (by simp [entryText, Frame.wrap])
    have hends : Ends (frame.after ++ []) :=
      ends_blank_append hfits.after fun _ hbyte => absurd hbyte (by simp)
    have hvalue := hspread.move frame.lead
    obtain ⟨item, hitem, hdenotes⟩ := hparse hdoc hends hvalue
    obtain ⟨key, hkey, hread⟩ :=
      readEntry_of_value kind hspread hfits (startsValue_render hdoc) hitem
    have htext : text ≠ [] := by
      obtain ⟨byte, rest, hrender, _⟩ := startsValue_render hdoc
      rw [hspread.text_eq, hrender]
      simp
    obtain ⟨next, hskip, _⟩ := bufferSkipWhitespace_skipped (hvalue.move doc.render) htext
    refine ⟨⟨key, item⟩, next, ⟨hkey, ?_⟩, ?_⟩
    · simpa [Int.add_assoc] using hdenotes
    · rw [hread, hskip, Outcome.ok_bind, Outcome.pure_eq]
  · obtain ⟨entry, hentry, hread⟩ := readEntry_complete kind hparse hat hfits hdoc hsolid hbyte
    exact ⟨entry, _, hentry, hread⟩

/-! ## The loops -/

variable {ρ : Type} (visit : Nat → Entry → Outcome (Option ρ))

/-- One turn of the loop. -/
theorem scanEntries_turn (kind : Nest) (hparse : ParsesDocs src ahead text levels parse)
    (steps count : Nat) {buffer : ParseBuffer} {before rest : List UInt8} {frame : Frame}
    {doc : Doc} {byte : UInt8}
    (hat : At src ahead text (buffer.move 1) before (entryText (frame, doc) ++ byte :: rest))
    (hfits : frame.Fits kind) (hdoc : doc.WellFormed levels) (hsolid : ¬byte ≤ 32)
    (hbyte : isNumberByte byte = false) :
    ∃ entry, EntryDenotes entry frame doc (ahead ++ before).length ∧
      scanEntries src kind parse visit (steps + 1) count buffer = do
        let result ← visit count entry
        match result with
        | some result => return .found result
        | none =>
            if byte = 44 then
              scanEntries src kind parse visit steps (count + 1)
                ((buffer.move 1).move (entryText (frame, doc)).length)
            else
              return .ended (count + 1) ((buffer.move 1).move (entryText (frame, doc)).length) := by
  obtain ⟨entry, hentry, hread⟩ := readEntry_complete kind hparse hat hfits hdoc hsolid hbyte
  have hpeek := (hat.move (entryText (frame, doc))).peek
  refine ⟨entry, hentry, ?_⟩
  rw [scanEntries, hread, Outcome.ok_bind]
  apply congrArg (visit count entry >>= ·)
  funext found
  cases found with
  | some result => rfl
  | none =>
      dsimp only
      rw [hpeek, Outcome.ok_bind, List.head?_cons]
      by_cases hcomma : byte = 44
      · rw [if_pos (congrArg some hcomma), if_pos hcomma]
      · rw [if_neg (by simpa using hcomma), if_neg hcomma]

/-- The visitor wants none of these entries, whatever their items are. -/
def PassesOver (count : Nat) (prior : List (Frame × Doc)) (front : List UInt8) : Prop :=
  ∀ index (hindex : index < prior.length) entry,
    EntryDenotes entry prior[index].1 prior[index].2
        (front ++ priorText (prior.take index)).length →
      visit (count + index) entry = .ok none

/-- The loop turns over the entries in front of the one that its visitor looks for. -/
theorem scanEntries_prior (kind : Nest) (hparse : ParsesDocs src ahead text levels parse)
    (steps count : Nat) {prior : List (Frame × Doc)} {buffer : ParseBuffer}
    {before rest : List UInt8}
    (hat : At src ahead text (buffer.move 1) before (priorText prior ++ rest))
    (hframes : ∀ entry ∈ prior, entry.1.Fits kind)
    (hvalues : ∀ entry ∈ prior, entry.2.WellFormed levels)
    (hvisit : PassesOver visit count prior (ahead ++ before)) :
    scanEntries src kind parse visit (steps + prior.length) count buffer =
      scanEntries src kind parse visit steps (count + prior.length)
        (buffer.move (priorText prior).length) := by
  induction prior generalizing count buffer before with
  | nil => simp [priorText]
  | cons first prior ih =>
      obtain ⟨frame, doc⟩ := first
      have hspread : At src ahead text (buffer.move 1) before
          (entryText (frame, doc) ++ 44 :: (priorText prior ++ rest)) :=
        hat.congr rfl (by simp [priorText])
      obtain ⟨hfits, hframes⟩ := List.forall_mem_cons.mp hframes
      obtain ⟨hdoc, hvalues⟩ := List.forall_mem_cons.mp hvalues
      obtain ⟨entry, hentry, hturn⟩ := scanEntries_turn visit kind hparse
        (steps + prior.length) count hspread hfits hdoc (by decide) (by decide)
      have hnext := (hspread.move (entryText (frame, doc))).move_one
      have hpasses : PassesOver visit (count + 1) prior
          (ahead ++ (before ++ entryText (frame, doc) ++ [44])) := by
        intro index hindex later hlater
        have hplace : (ahead ++ (before ++ entryText (frame, doc) ++ [44]) ++
            priorText (prior.take index)).length = (ahead ++ before ++
              priorText (((frame, doc) :: prior).take (index + 1))).length := by
          simp [priorText]
        rw [hplace] at hlater
        have hnone := hvisit (index + 1) (Nat.succ_lt_succ hindex) later hlater
        rwa [Nat.add_comm index, ← Nat.add_assoc] at hnone
      have hrest := ih (count + 1) hnext hframes hvalues hpasses
      have hplace : ((buffer.move 1).move (entryText (frame, doc)).length).move
          (priorText prior).length = buffer.move (priorText ((frame, doc) :: prior)).length := by
        simp only [ParseBuffer.move_move, priorText, List.map_cons, List.flatten_cons,
          List.length_append, List.length_singleton, Int.natCast_add]
        congr 1
        omega
      have hnone := hvisit 0 (Nat.succ_pos _) entry (by simpa [priorText] using hentry)
      rw [Nat.add_zero] at hnone
      rw [hnone, Outcome.ok_bind] at hturn
      dsimp only at hturn
      rw [if_pos rfl, hrest, hplace] at hturn
      rw [List.length_cons, ← Nat.add_assoc, hturn, Nat.add_assoc, Nat.add_comm 1]

/-! ## Nestings -/

/-- The code before the loops, at an empty nesting. -/
theorem openNest_empty (kind : Nest) {buffer : ParseBuffer} {before blank rest : List UInt8}
    (hat : At src ahead text buffer before (kind.opening :: (blank ++ kind.closing :: rest)))
    (hblank : Blank blank) :
    openNest src kind buffer = .ok (.empty ((buffer.move 1).move blank.length)) := by
  have hskip := bufferSkipWhitespace_ahead hat.move_one hblank (closing_not_blank kind)
  have hpeek := (hat.move_one.move blank).peek
  unfold openNest
  rw [if_neg (openNest_room kind hat), hat.byteAt_zero, Outcome.ok_bind, if_neg (by simp),
    hskip, Outcome.ok_bind, hpeek, Outcome.ok_bind, List.head?_cons, if_pos rfl, Outcome.pure_eq]

/-- The code before the loops, at one with entries. -/
theorem openNest_entries (kind : Nest) {buffer : ParseBuffer} {before blank rest : List UInt8}
    {solid : UInt8} (hat : At src ahead text buffer before
      (kind.opening :: (blank ++ solid :: rest)))
    (hblank : Blank blank) (hsolid : ¬solid ≤ 32) (hclosing : solid ≠ kind.closing) :
    ∃ inner, openNest src kind buffer = .ok (.entries inner) ∧
      bufferSkipWhitespace src (inner.move 1) = bufferSkipWhitespace src (buffer.move 1) := by
  have hskip := bufferSkipWhitespace_ahead hat.move_one hblank hsolid
  have hfirst := hat.move_one.move blank
  refine ⟨((buffer.move 1).move blank.length).move (-1), ?_, ?_⟩
  · unfold openNest
    rw [if_neg (openNest_room kind hat), hat.byteAt_zero, Outcome.ok_bind, if_neg (by simp),
      hskip, Outcome.ok_bind, hfirst.peek, Outcome.ok_bind, List.head?_cons,
      if_neg (by simpa using hclosing), if_neg (by simp), Outcome.pure_eq]
  · rw [hskip, ParseBuffer.move_move]
    simpa using bufferSkipWhitespace_again (.ahead blank solid rest rfl hblank hsolid hfirst)

theorem length_le_priorText (prior : List (Frame × Doc)) :
    prior.length ≤ (priorText prior).length := by
  induction prior with
  | nil => exact Nat.zero_le _
  | cons entry prior ih =>
      simp only [priorText, List.map_cons, List.flatten_cons, List.length_append,
        List.length_cons, List.length_nil] at ih ⊢
      omega

/-- The code in front of the loop finds the bracket and enters the loop, and the loop has a turn
for each of the entries in front of one. -/
theorem openNest_entry (kind : Nest) {buffer : ParseBuffer} {before used rest : List UInt8}
    {prior : List (Frame × Doc)} {frame : Frame}
    (hat : At src ahead text buffer before
      (kind.opening :: (priorText prior ++ (frame.lead ++ (used ++ rest)))))
    (hframes : ∀ entry ∈ prior, entry.1.Fits kind)
    (hvalues : ∀ entry ∈ prior, entry.2.WellFormed levels) (hfits : frame.Fits kind)
    (hstarts : StartsValue used) :
    ∃ inner, openNest src kind buffer = .ok (.entries inner) ∧ prior.length ≤ src.length ∧
      bufferSkipWhitespace src (inner.move 1) = bufferSkipWhitespace src (buffer.move 1) := by
  -- the first entry begins with its name or its value
  have hfirst : ∃ blank solid after, priorText prior ++ (frame.lead ++ (used ++ rest)) =
      blank ++ solid :: after ∧ Blank blank ∧ ¬solid ≤ 32 ∧ solid ≠ kind.closing := by
    cases prior with
    | nil =>
        obtain ⟨solid, after, hlead, hsolid, hclosing⟩ := hfits.starts hstarts
        refine ⟨frame.before, solid, after ++ rest, ?_, hfits.before, hsolid, hclosing⟩
        rw [← List.append_assoc frame.lead, hlead]
        simp [priorText]
    | cons entry prior =>
        have hentry := hframes entry (List.mem_cons_self ..)
        have hdoc := hvalues entry (List.mem_cons_self ..)
        obtain ⟨solid, after, hlead, hsolid, hclosing⟩ := hentry.starts (startsValue_render hdoc)
        refine ⟨entry.1.before, solid, after ++ (entry.1.after ++ 44 :: (priorText prior ++
          (frame.lead ++ (used ++ rest)))), ?_, hentry.before, hsolid, hclosing⟩
        have hsplit : entryText entry = entry.1.before ++ solid :: after ++ entry.1.after := by
          rw [entryText, Frame.wrap, hlead]
        rw [priorText, List.map_cons, List.flatten_cons, hsplit]
        simp [priorText]
  obtain ⟨blank, solid, after, hsplit, hblank, hsolid, hclosing⟩ := hfirst
  obtain ⟨inner, hopen, hskip⟩ :=
    openNest_entries kind (hat.congr rfl (by rw [hsplit])) hblank hsolid hclosing
  have hroom : prior.length ≤ src.length := by
    have hlength := hat.length_rest_le
    have hprior := length_le_priorText prior
    simp only [List.length_cons, List.length_append] at hlength
    omega
  exact ⟨inner, hopen, hroom, hskip⟩

/-- The code reaches an entry: it finds the bracket, enters the loop and turns over the
entries in front. -/
theorem reach_entry (kind : Nest) (hparse : ParsesDocs src ahead text levels parse)
    {buffer : ParseBuffer} {before used rest : List UInt8} {prior : List (Frame × Doc)}
    {frame : Frame}
    (hat : At src ahead text buffer before
      (kind.opening :: (priorText prior ++ (frame.lead ++ (used ++ rest)))))
    (hframes : ∀ entry ∈ prior, entry.1.Fits kind)
    (hvalues : ∀ entry ∈ prior, entry.2.WellFormed levels) (hfits : frame.Fits kind)
    (hstarts : StartsValue used)
    (hvisit : PassesOver visit 0 prior (ahead ++ (before ++ [kind.opening]))) :
    ∃ inner steps, openNest src kind buffer = .ok (.entries inner) ∧
      scanEntries src kind parse visit (src.length + 1) 0 inner =
        scanEntries src kind parse visit (steps + 1) prior.length
          (buffer.move (priorText prior).length) := by
  obtain ⟨inner, hopen, hroom, hskip⟩ := openNest_entry kind hat hframes hvalues hfits hstarts
  refine ⟨inner, src.length - prior.length, hopen, ?_⟩
  have hsteps : src.length + 1 = src.length - prior.length + 1 + prior.length := by omega
  have hscan := scanEntries_prior visit kind hparse (src.length - prior.length + 1) 0 hat.move_one
    hframes hvalues hvisit
  rw [scanEntries_congr kind _ _ _ hskip, hsteps, hscan, Nat.zero_add]

/-- An empty nesting is taken as a whole. -/
theorem parseNest_empty (kind : Nest) (item : LiteCjson) {blank rest : List UInt8}
    (hblank : Blank blank) :
    Parses src ahead text (parseNest src kind (some parse) item)
      (Doc.nest kind blank []).render rest
      fun item start => Denotes item (.nest kind blank []) start := by
  intro buffer before hat
  have hrender : (Doc.nest kind blank []).render = (kind.opening :: blank) ++ [kind.closing] :=
    render_nest kind blank []
  have hspread : At src ahead text buffer before
      (kind.opening :: (blank ++ kind.closing :: rest)) :=
    hat.congr rfl (by simp [hrender])
  obtain ⟨result, hclose, hdenotes⟩ := closeNest_denotes kind item hrender hat
    ((hspread.move_one.move blank).congr (by simp) rfl)
  refine ⟨result, ?_, hdenotes⟩
  unfold parseNest
  dsimp only
  rw [openNest_empty kind hspread hblank, Outcome.ok_bind]
  exact congrArg Outcome.ok hclose

/-- So is one with entries. -/
theorem parseNest_entries (item : LiteCjson) (hparse : ParsesDocs src ahead text levels parse)
    {kind : Nest} {blank rest : List UInt8} {prior : List (Frame × Doc)} {frame : Frame} {doc : Doc}
    (hframes : ∀ entry ∈ prior, entry.1.Fits kind)
    (hvalues : ∀ entry ∈ prior, entry.2.WellFormed levels) (hframe : frame.Fits kind)
    (hdoc : doc.WellFormed levels) :
    Parses src ahead text (parseNest src kind (some parse) item)
      (Doc.nest kind blank (prior ++ [(frame, doc)])).render rest
      fun item start => Denotes item (.nest kind blank (prior ++ [(frame, doc)])) start := by
  intro buffer before hat
  have hrender : (Doc.nest kind blank (prior ++ [(frame, doc)])).render =
      (kind.opening :: (priorText prior ++ entryText (frame, doc))) ++ [kind.closing] := by
    rw [← render_nest_append kind prior (frame, doc)]
    cases prior <;> rfl
  have hspread : At src ahead text buffer before (kind.opening :: (priorText prior ++
      (entryText (frame, doc) ++ kind.closing :: rest))) :=
    hat.congr rfl (by simp [hrender])
  have hreach : At src ahead text buffer before (kind.opening :: (priorText prior ++
      (frame.lead ++ (doc.render ++ (frame.after ++ kind.closing :: rest))))) :=
    hspread.congr rfl (by simp [entryText, Frame.wrap])
  obtain ⟨inner, steps, hopen, hscan⟩ := reach_entry (fun _ _ => .ok (none : Option Empty))
    kind hparse hreach hframes hvalues hframe (startsValue_render hdoc) fun _ _ _ _ => rfl
  have hlast := hspread.move_one.move (priorText prior)
  rw [ParseBuffer.move_move, Int.add_comm, ← ParseBuffer.move_move] at hlast
  obtain ⟨entry, _, hturn⟩ := scanEntries_turn (fun _ _ => .ok (none : Option Empty)) kind
    hparse steps prior.length hlast hframe hdoc (closing_not_blank kind)
    (by cases kind <;> decide)
  rw [Outcome.ok_bind] at hturn
  dsimp only at hturn
  rw [if_neg (by cases kind <;> decide)] at hturn
  -- behind the last entry the loop has ended at the closing bracket
  have hend := hlast.move (entryText (frame, doc))
  obtain ⟨result, hclose, hdenotes⟩ := closeNest_denotes kind item hrender hat
    (hend.congr (by simp) rfl)
  rw [List.length_append, List.length_singleton] at hclose
  refine ⟨result, ?_, hdenotes⟩
  unfold parseNest
  dsimp only
  rw [hopen, Outcome.ok_bind]
  dsimp only
  rw [hscan, hturn, Outcome.pure_eq, Outcome.ok_bind]
  dsimp only
  rw [hend.peek, Outcome.ok_bind, List.head?_cons, if_pos rfl]
  exact congrArg Outcome.ok hclose

/-- A complete nesting is taken as a whole. -/
theorem parseNest_complete (item : LiteCjson) (hparse : ParsesDocs src ahead text levels parse)
    {kind : Nest} {blank rest : List UInt8} {entries : List (Frame × Doc)}
    (hdoc : (Doc.nest kind blank entries).WellFormed (levels + 1)) :
    Parses src ahead text (parseNest src kind (some parse) item)
      (Doc.nest kind blank entries).render rest
      fun item start => Denotes item (.nest kind blank entries) start := by
  cases hdoc with
  | nest hblank hframes hvalues =>
      rcases List.eq_nil_or_concat' entries with rfl | ⟨prior, ⟨frame, doc⟩, rfl⟩
      · exact parseNest_empty kind item hblank
      · rw [List.forall_mem_append, List.forall_mem_singleton] at hframes hvalues
        exact parseNest_entries item hparse hframes.1 hvalues.1 hframes.2 hvalues.2

/-! ## Nestings that are cut short -/

/-- What the parser makes of a text that is cut short: an item as if it were complete. -/
structure CutItem (item : LiteCjson) (kind : Nest) (used : List UInt8) (start : Int) : Prop where
  type : item.type = kind.type
  value : item.value = some start
  valueLength : item.valueLength = used.length
  size : item.size ≠ 0

/-- The parser takes the texts that are cut short, where they end the text. -/
def ParsesCuts (src ahead text : List UInt8) (levels : Nat) (parse : ValueParser) : Prop :=
  ∀ {kind : Nest} {used : List UInt8}, CutShort kind levels used →
    Parses src ahead text parse used [] fun item start => CutItem item kind used start

/-- A last entry that ends the text with the closing bracket is taken for the end of the
nesting it is in. -/
theorem parseNest_of_last (item : LiteCjson) (hparse : ParsesDocs src ahead text levels parse)
    {kind : Nest} {prior : List (Frame × Doc)} {frame : Frame} {init inner : List UInt8}
    {good : LiteCjson → Int → Prop} (hframes : ∀ entry ∈ prior, entry.1.Fits kind)
    (hvalues : ∀ entry ∈ prior, entry.2.WellFormed levels) (hframe : frame.Fits kind)
    (hstarts : StartsValue inner) (hends : inner = init ++ [kind.closing])
    (hinner : Parses src ahead text parse inner [] good) :
    Parses src ahead text (parseNest src kind (some parse) item)
      (kind.opening :: priorText prior ++ frame.lead ++ inner) []
      fun item start =>
        CutItem item kind (kind.opening :: priorText prior ++ frame.lead ++ inner) start ∧
          item.size = prior.length + 1 := by
  intro buffer before hat
  have hspread : At src ahead text buffer before
      (kind.opening :: (priorText prior ++ (frame.lead ++ (inner ++ [])))) :=
    hat.congr rfl (by simp)
  obtain ⟨first, steps, hopen, hscan⟩ := reach_entry (fun _ _ => .ok (none : Option Empty))
    kind hparse hspread hframes hvalues hframe hstarts fun _ _ _ _ => rfl
  have hlast := hspread.move_one.move (priorText prior)
  rw [ParseBuffer.move_move, Int.add_comm, ← ParseBuffer.move_move] at hlast
  have hvalue := hlast.move frame.lead
  obtain ⟨value, hparsed, _⟩ := hinner hvalue
  obtain ⟨key, _, hread⟩ := readEntry_of_value kind hlast hframe hstarts hparsed
  -- behind the value the text ends, so skipping white space steps back onto its bracket
  let body := kind.opening :: priorText prior ++ frame.lead ++ init
  have hbody : kind.opening :: priorText prior ++ frame.lead ++ inner = body ++ [kind.closing] := by
    simp [body, hends]
  have htext : text = (before ++ body) ++ [kind.closing] := by
    simp [hat.text_eq, body, hends]
  obtain ⟨next, hskip, hback⟩ := bufferSkipWhitespace_back (hvalue.move inner)
    blank_nil htext
  rw [hskip, Outcome.ok_bind, Outcome.pure_eq] at hread
  have hcomma : ¬kind.closing = 44 := by cases kind <;> decide
  obtain ⟨hitem, hnext⟩ := closeNest_spec kind item (prior.length + 1) hat hback
  rw [← hbody] at hitem hnext
  have hmoved := hnext.unique (hat.move (kind.opening :: priorText prior ++ frame.lead ++ inner))
  refine ⟨(closeNest kind item buffer (prior.length + 1) next).fst, ?_, ?_⟩
  · unfold parseNest
    dsimp only
    rw [hopen, Outcome.ok_bind]
    dsimp only
    rw [hscan, scanEntries, hread, Outcome.ok_bind]
    dsimp only
    rw [Outcome.ok_bind]
    dsimp only
    rw [hback.peek, Outcome.ok_bind, List.head?_cons, if_neg (by simpa using hcomma),
      Outcome.pure_eq, Outcome.ok_bind]
    dsimp only
    rw [hback.peek, Outcome.ok_bind, List.head?_cons, if_pos rfl, hmoved]
    rfl
  · rw [hitem]
    exact ⟨⟨rfl, rfl, rfl, Int.natCast_ne_zero.mpr (Nat.succ_ne_zero _)⟩, rfl⟩

/-- A nesting that is cut short, and the item that the parser makes of it: the last of its entries
is a nesting of the same kind that ends the text, and the size counts all of them. -/
structure CutNest (item : LiteCjson) (kind : Nest) (levels : Nat) (prior : List (Frame × Doc))
    (frame : Frame) (inner : List UInt8) (start : Int) : Prop where
  fits : ∀ entry ∈ prior, entry.1.Fits kind
  values : ∀ entry ∈ prior, entry.2.WellFormed levels
  lastFits : frame.Fits kind
  nested : Nested kind levels inner
  cut : CutItem item kind (kind.opening :: priorText prior ++ frame.lead ++ inner) start
  size : item.size = prior.length + 1

/-- The parser takes a text that is cut short and counts its entries. -/
theorem parseNest_cutNest (item : LiteCjson) (hparse : ParsesDocs src ahead text levels parse)
    (hcuts : ParsesCuts src ahead text levels parse) {kind : Nest} {used : List UInt8}
    (hcut : CutShort kind (levels + 1) used) :
    Parses src ahead text (parseNest src kind (some parse) item) used []
      fun item start => ∃ prior frame inner,
        used = kind.opening :: priorText prior ++ frame.lead ++ inner ∧
          CutNest item kind levels prior frame inner start := by
  intro buffer before hat
  cases hcut with
  | @last _ prior frame blank entries hframes hvalues hframe hvalue =>
      obtain ⟨result, hresult, hitem, hsize⟩ :=
        parseNest_of_last item hparse hframes hvalues hframe (startsValue_render hvalue)
          (render_nest kind blank entries) (hparse hvalue fun _ hbyte => absurd hbyte (by simp)) hat
      exact ⟨result, hresult, prior, frame, _, rfl, hframes, hvalues, hframe,
        Or.inl ⟨blank, entries, hvalue, rfl⟩, hitem, hsize⟩
  | @deeper _ prior frame inner hframes hvalues hframe hinner =>
      obtain ⟨init, hends, _⟩ := hinner.ends
      obtain ⟨result, hresult, hitem, hsize⟩ :=
        parseNest_of_last item hparse hframes hvalues hframe hinner.starts hends (hcuts hinner) hat
      exact ⟨result, hresult, prior, frame, inner, rfl, hframes, hvalues, hframe, Or.inr hinner,
        hitem, hsize⟩

theorem parseNest_cut (item : LiteCjson) (hparse : ParsesDocs src ahead text levels parse)
    (hcuts : ParsesCuts src ahead text levels parse) {kind : Nest} {used : List UInt8}
    (hcut : CutShort kind (levels + 1) used) :
    Parses src ahead text (parseNest src kind (some parse) item) used []
      fun item start => CutItem item kind used start := by
  intro buffer before hat
  obtain ⟨result, hresult, prior, frame, inner, rfl, hnest⟩ :=
    parseNest_cutNest item hparse hcuts hcut hat
  exact ⟨result, hresult, hnest.cut⟩

/-! ## Values -/

/-- A literal is not found where another byte stands. -/
theorem literalAt_other {buffer : ParseBuffer} {before rest : List UInt8} {byte first : UInt8}
    (others : List UInt8) (hat : At src ahead text buffer before (byte :: rest))
    (hdiff : byte ≠ first) : literalAt src (first :: others) buffer = .ok false := by
  rw [literalAt_eq (first :: others) hat, List.isPrefixOf_cons_cons]
  simp [hdiff.symm]

/-- It is found where it stands. -/
theorem literalAt_self {buffer : ParseBuffer} {before rest : List UInt8} (literal : List UInt8)
    (hat : At src ahead text buffer before (literal ++ rest)) :
    literalAt src literal buffer = .ok true := by
  rw [literalAt_eq literal hat]
  exact congrArg Outcome.ok (List.isPrefixOf_iff_prefix.mpr (List.prefix_append literal rest))

/-- Which branch of `parse_value` is taken, where no literal begins. -/
theorem parseToken_head (inner : Option ValueParser) (item : LiteCjson) {buffer : ParseBuffer}
    {before rest : List UInt8} {byte : UInt8} (hat : At src ahead text buffer before (byte :: rest))
    (hliteral : byte ≠ 110 ∧ byte ≠ 102 ∧ byte ≠ 116) :
    parseToken src inner item buffer =
      if byte = 34 then parseString src item buffer
      else if byte = 45 ∨ isDigit byte then parseNumber src item buffer
      else if byte = 91 then parseArray src inner item buffer
      else if byte = 123 then parseObject src inner item buffer
      else .failed := by
  obtain ⟨hnull, hfalse, htrue⟩ := hliteral
  unfold parseToken
  rw [literalAt_other _ hat hnull, Outcome.ok_bind, if_neg Bool.false_ne_true,
    literalAt_other _ hat hfalse, Outcome.ok_bind, if_neg Bool.false_ne_true,
    literalAt_other _ hat htrue, Outcome.ok_bind, if_neg Bool.false_ne_true,
    hat.peek, Outcome.ok_bind]
  rfl

/-- An opening bracket leads to the parser of its nestings. -/
theorem parseToken_opening (inner : Option ValueParser) (item : LiteCjson) (kind : Nest)
    {buffer : ParseBuffer} {before rest : List UInt8}
    (hat : At src ahead text buffer before (kind.opening :: rest)) :
    parseToken src inner item buffer = parseNest src kind inner item buffer := by
  rw [parseToken_head inner item hat (by cases kind <;> decide)]
  cases kind <;> rfl

/-- A token is taken as a whole. -/
theorem parseToken_token (inner : Option ValueParser) (item : LiteCjson) {token : Token}
    {rest : List UInt8} (hvalid : token.Valid) (hrest : Ends rest) :
    Parses src ahead text (parseToken src inner item) token.render rest
      fun item start => Denotes item (.scalar token) start := by
  intro buffer before hat
  cases token with
  | null =>
      refine ⟨_, ?_, literalItem_denotes .null item hat rfl rfl⟩
      unfold parseToken
      rw [literalAt_self [110, 117, 108, 108] hat, Outcome.ok_bind, if_pos rfl]
      rfl
  | false =>
      have hplace : At src ahead text buffer before (102 :: ([97, 108, 115, 101] ++ rest)) := hat
      refine ⟨_, ?_, literalItem_denotes .false item hat rfl rfl⟩
      unfold parseToken
      rw [literalAt_other _ hplace (by decide), Outcome.ok_bind, if_neg Bool.false_ne_true,
        literalAt_self [102, 97, 108, 115, 101] hat, Outcome.ok_bind, if_pos rfl]
      rfl
  | true =>
      have hplace : At src ahead text buffer before (116 :: ([114, 117, 101] ++ rest)) := hat
      refine ⟨_, ?_, literalItem_denotes .true item hat rfl rfl⟩
      unfold parseToken
      rw [literalAt_other _ hplace (by decide), Outcome.ok_bind, if_neg Bool.false_ne_true,
        literalAt_other _ hplace (by decide), Outcome.ok_bind, if_neg Bool.false_ne_true,
        literalAt_self [116, 114, 117, 101] hat, Outcome.ok_bind, if_pos rfl]
      rfl
  | string body =>
      obtain ⟨result, hresult, hdenotes⟩ := parseString_eq item hvalid hat
      refine ⟨result, ?_, hdenotes⟩
      rw [parseToken_head inner item (hat.congr rfl rfl) (by decide), if_pos rfl, hresult]
      rfl
  | number digits =>
      obtain ⟨result, hresult, hdenotes⟩ := parseNumber_eq item hat hvalid hrest
      obtain ⟨byte, tail, hdigits, hhead⟩ := hvalid.head
      have hplace : At src ahead text buffer before (byte :: (tail ++ rest)) :=
        hat.congr rfl (by simp [Token.render, hdigits])
      have hother : byte ≠ 34 ∧ byte ≠ 110 ∧ byte ≠ 102 ∧ byte ≠ 116 := by
        refine ⟨?_, ?_, ?_, ?_⟩ <;>
          (rintro rfl
           exact absurd hhead (by decide))
      refine ⟨result, ?_, hdenotes⟩
      rw [parseToken_head inner item hplace hother.2, if_neg hother.1, if_pos hhead, hresult]

/-- `parse_value` takes a complete text as a whole. -/
theorem parseValue_complete (levels : Nat) (item : LiteCjson) :
    ParsesDocs src ahead text levels (parseValue src levels item) := by
  induction levels generalizing item with
  | zero =>
      intro doc rest hdoc hrest
      cases hdoc with
      | scalar hvalid => exact parseToken_token none item hvalid hrest
  | succ levels ih =>
      intro doc rest hdoc hrest
      cases doc with
      | scalar token =>
          cases hdoc with
          | scalar hvalid => exact parseToken_token _ item hvalid hrest
      | nest kind blank entries =>
          intro buffer before hat
          have hplace := hat
          rw [render_nest, List.cons_append, List.cons_append] at hplace
          rw [parseValue, parseToken_opening _ item kind hplace]
          exact parseNest_complete item (ih .zero) hdoc hat

/-- It takes a text that is cut short, too. -/
theorem parseValue_cut (levels : Nat) (item : LiteCjson) :
    ParsesCuts src ahead text levels (parseValue src levels item) := by
  induction levels generalizing item with
  | zero =>
      intro kind used hcut
      cases hcut
  | succ levels ih =>
      intro kind used hcut buffer before hat
      obtain ⟨rest, hrest⟩ := hcut.opening
      have hopening := hat
      rw [hrest, List.cons_append] at hopening
      rw [parseValue, parseToken_opening _ item kind hopening]
      exact parseNest_cut item (parseValue_complete levels .zero) (ih .zero) hcut hat

/-- And it counts the entries of such a text, which may have fewer levels. -/
theorem parseValue_cutNest {levels more : Nat} (hmore : levels ≤ more) (item : LiteCjson)
    {kind : Nest} {used : List UInt8} (hcut : CutShort kind (levels + 1) used) :
    Parses src ahead text (parseValue src (more + 1) item) used []
      fun item start => ∃ prior frame inner,
        used = kind.opening :: priorText prior ++ frame.lead ++ inner ∧
          CutNest item kind levels prior frame inner start := by
  intro buffer before hat
  obtain ⟨rest, hrest⟩ := hcut.opening
  have hopening := hat
  rw [hrest, List.cons_append] at hopening
  have hdocs : ParsesDocs src ahead text levels (parseValue src more .zero) :=
    fun hdoc => parseValue_complete more .zero (hdoc.mono hmore)
  have hcuts : ParsesCuts src ahead text levels (parseValue src more .zero) :=
    fun hinner => parseValue_cut more .zero (hinner.mono hmore)
  rw [parseValue, parseToken_opening _ item kind hopening]
  exact parseNest_cutNest item hdocs hcuts hcut hat

end Entries

/-! ## Whole inputs -/

theorem bom_not_prefix {blank used rest : List UInt8} (hblank : Blank blank)
    (hstarts : StartsValue used) : bom.isPrefixOf (blank ++ (used ++ rest)) = false := by
  have hother : ∀ {byte : UInt8} {tail : List UInt8}, byte ≠ 0xEF →
      bom.isPrefixOf (byte :: tail) = false := by
    intro byte tail hdiff
    rw [bom, List.isPrefixOf_cons_cons]
    simp [hdiff.symm]
  cases blank with
  | nil =>
      obtain ⟨byte, tail, rfl, _, hmark, _⟩ := hstarts
      exact hother hmark
  | cons byte blank =>
      apply hother
      rintro rfl
      exact absurd (hblank _ (List.mem_cons_self ..)) (by decide)

/-- `lite_cjson_parse`, around a value that the parser reads behind white space and, if there
is one, a byte order mark. -/
theorem liteCjsonParse_of_value {src mark blank used rest : List UInt8}
    {good : LiteCjson → Int → Prop} (lite : LiteCjson)
    (hsrc : src = mark ++ (blank ++ (used ++ rest)))
    (hmark : mark = [] ∨ mark = bom ∧ 2 ≤ used.length)
    (hblank : Blank blank) (hstarts : StartsValue used)
    (hvalue : Parses src [] src (parseValue src liteCjsonNestingLimit lite) used rest good) :
    ∃ item, liteCjsonParse src lite = .ok item ∧ good item (mark ++ blank).length := by
  have hskip : skipUtf8Bom src ⟨0, src.length, 0⟩ = .ok ⟨0, src.length, mark.length⟩ := by
    rw [skipUtf8Bom_eq]
    rcases hmark with rfl | ⟨rfl, hlength⟩
    · rw [if_neg]
      · rfl
      · rintro ⟨_, hprefix⟩
        rw [hsrc, List.nil_append, bom_not_prefix hblank hstarts] at hprefix
        exact Bool.false_ne_true hprefix
    · rw [if_pos]
      · rfl
      · constructor
        · rw [hsrc]
          simp only [bom, List.length_append, List.length_cons, List.length_nil]
          omega
        · rw [hsrc]
          exact List.isPrefixOf_iff_prefix.mpr (List.prefix_append bom _)
  have hat : At src [] src ⟨0, src.length, mark.length⟩ mark (blank ++ (used ++ rest)) :=
    { text_eq := hsrc
      window := ⟨[], by simp⟩
      content_eq := rfl
      length_eq := rfl
      offset_eq := rfl }
  have hsome : src ≠ [] := by
    obtain ⟨byte, tail, rfl, _⟩ := hstarts
    rw [hsrc]
    simp
  obtain ⟨item, hitem, hgood⟩ := hvalue (hat.move blank)
  obtain ⟨byte, tail, hused, hsolid, _⟩ := hstarts
  have hfirst := hat
  rw [hused, List.cons_append] at hfirst
  refine ⟨item, ?_, by simpa using hgood⟩
  unfold liteCjsonParse
  rw [if_neg hsome, hskip, Outcome.ok_bind, bufferSkipWhitespace_ahead hfirst hblank hsolid,
    Outcome.ok_bind, hitem]
  rfl

end EnosDeviceSdk.Infra
