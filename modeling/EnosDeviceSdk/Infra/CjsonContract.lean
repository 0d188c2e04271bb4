/-
# What the JSON parser accepts, and where it reads

One contract covers the parser on every input. It ends, it reads only the bytes it was
given, and what it accepts is a complete text or one that is cut short by the end of the
input. The induction is on the levels of nesting that are still allowed. Inside a level
it is on the entries, each of which takes at least one byte.
-/

import EnosDeviceSdk.Infra.CjsonEntries

namespace EnosDeviceSdk.Infra

open EnosDeviceSdk.Library

section Nestings

variable {src ahead text : List UInt8} {levels : Nat} {parse : ValueParser}

/-! ## Nestings -/

/-- The code before the loops finds an empty nesting, or leaves the loop to skip the white
space behind the bracket. -/
def OpenKept (src ahead text : List UInt8) (kind : Nest) (buffer : ParseBuffer)
    (before rest : List UInt8) : Opened → Prop
  | .empty inner =>
      ∃ blank after, rest = kind.opening :: blank ++ kind.closing :: after ∧ Blank blank ∧
        At src ahead text inner (before ++ kind.opening :: blank) (kind.closing :: after)
  | .entries inner =>
      (∃ after, rest = kind.opening :: after) ∧
        bufferSkipWhitespace src (inner.move 1) = bufferSkipWhitespace src (buffer.move 1)

/-- The check of the object code passes where there is a byte. -/
theorem openNest_room (kind : Nest) {buffer : ParseBuffer} {before rest : List UInt8}
    {byte : UInt8} (hat : At src ahead text buffer before (byte :: rest)) :
    ¬(kind = .object ∧ (!buffer.canAccessAtIndex 0) = true) := by
  have haccess : buffer.canAccessAtIndex 0 = true := by
    rw [hat.canAccess, List.length_cons]
    apply decide_eq_true
    omega
  simp [haccess]

theorem openNest_keeps (kind : Nest) {buffer : ParseBuffer} {before rest : List UInt8}
    {byte : UInt8} (hat : At src ahead text buffer before (byte :: rest)) :
    (openNest src kind buffer).Keeps
      (OpenKept src ahead text kind buffer before (byte :: rest)) := by
  unfold openNest
  rw [if_neg (openNest_room kind hat), hat.byteAt_zero, Outcome.ok_bind]
  by_cases hopening : byte = kind.opening
  · subst hopening
    obtain ⟨next, hnext, hskipped⟩ := bufferSkipWhitespace_skipped hat.move_one hat.text_ne_nil
    have hentries : OpenKept src ahead text kind buffer before (kind.opening :: rest)
        (.entries (next.move (-1))) := by
      refine ⟨⟨rest, rfl⟩, ?_⟩
      rw [hnext, ParseBuffer.move_move]
      simpa using bufferSkipWhitespace_again hskipped
    rw [if_neg (by simp), hnext, Outcome.ok_bind]
    cases hskipped with
    | ahead blank solid after hrest hblank hsolid hahead =>
        rw [hahead.peek, Outcome.ok_bind, List.head?_cons]
        by_cases hclosing : solid = kind.closing
        · subst hclosing
          rw [if_pos rfl]
          exact ⟨blank, after, by rw [hrest]; rfl, hblank, hahead.congr (by simp) rfl⟩
        · rw [if_neg (by simpa using hclosing), if_neg (by simp)]
          exact hentries
    | back init last hblank hlast hback =>
        -- stepped back to the end: the opening bracket or white space is no closing bracket
        have hbracket : kind.opening ≠ kind.closing := by cases kind <;> decide
        have hclosing := last_ne_of_blank rfl hblank (hat.move_one.text_eq.symm.trans hlast)
          hbracket (closing_not_blank kind)
        rw [hback.peek, Outcome.ok_bind, List.head?_cons, if_neg (by simpa using hclosing),
          if_neg (by simp)]
        exact hentries
  · rw [if_pos hopening]
    exact Outcome.keeps_failed

/-- The loop looks at its buffer only through the white space it skips first. -/
theorem scanEntries_congr {ρ : Type} (kind : Nest) (visit : Nat → Entry → Outcome (Option ρ))
    (steps count : Nat) {first second : ParseBuffer}
    (hskip : bufferSkipWhitespace src (first.move 1) = bufferSkipWhitespace src (second.move 1)) :
    scanEntries src kind parse visit steps count first =
      scanEntries src kind parse visit steps count second := by
  cases steps with
  | zero => rfl
  | succ steps =>
      have hentry : readEntry src kind parse (first.move 1) =
          readEntry src kind parse (second.move 1) := by
        cases kind with
        | array =>
            unfold readEntry readElement
            dsimp only
            rw [hskip]
        | object =>
            unfold readEntry readMember
            dsimp only
            rw [hskip]
      unfold scanEntries
      rw [hentry]

/-- What `parse_array` and `parse_object` make of a closing bracket. -/
theorem closeNest_spec (kind : Nest) (item : LiteCjson) (count : Nat)
    {buffer inner : ParseBuffer} {before rest body after : List UInt8}
    (hat : At src ahead text buffer before rest)
    (hinner : At src ahead text inner (before ++ body) (kind.closing :: after)) :
    (closeNest kind item buffer count inner).1 =
        ⟨kind.type, some (ahead ++ before).length, (body ++ [kind.closing]).length, count⟩ ∧
      At src ahead text (closeNest kind item buffer count inner).2
        (before ++ (body ++ [kind.closing])) after := by
  constructor
  · have hlength : inner.offset - buffer.offset + 1 = (body ++ [kind.closing]).length := by
      rw [hinner.offset_eq, hat.offset_eq]
      simp only [List.length_append, List.length_singleton]
      omega
    simp only [closeNest, hat.place, hlength]
  · exact hinner.move_one.congr (by simp) rfl

/-- The brackets of a nesting around its text. -/
theorem closeNest_denotes (kind : Nest) (item : LiteCjson) {buffer inner : ParseBuffer}
    {before rest body blank : List UInt8} {entries : List (Frame × Doc)}
    (hrender : (Doc.nest kind blank entries).render = body ++ [kind.closing])
    (hat : At src ahead text buffer before ((Doc.nest kind blank entries).render ++ rest))
    (hinner : At src ahead text inner (before ++ body) (kind.closing :: rest)) :
    ∃ result, closeNest kind item buffer entries.length inner =
        (result, buffer.move (Doc.nest kind blank entries).render.length) ∧
      Denotes result (.nest kind blank entries) (ahead ++ before).length := by
  obtain ⟨hitem, hnext⟩ := closeNest_spec kind item entries.length hat hinner
  rw [← hrender] at hitem hnext
  have hmoved := hnext.unique (hat.move (Doc.nest kind blank entries).render)
  refine ⟨(closeNest kind item buffer entries.length inner).fst, Prod.ext rfl hmoved.symm, ?_⟩
  rw [hitem]
  exact
    { type := rfl
      value := by simp [Doc.indent]
      valueLength := rfl
      size := by
        rintro _ _ _ ⟨⟩
        rfl }

/-- A nesting that the end of the text cuts short, with an inner one that ends it. -/
theorem Nested.cutShort {kind : Nest} {prior : List (Frame × Doc)} {frame : Frame}
    {used : List UInt8} (hframes : ∀ entry ∈ prior, entry.1.Fits kind)
    (hvalues : ∀ entry ∈ prior, entry.2.WellFormed levels) (hframe : frame.Fits kind)
    (hnested : Nested kind levels used) :
    CutShort kind (levels + 1) (kind.opening :: priorText prior ++ frame.lead ++ used) := by
  rcases hnested with ⟨blank, entries, hvalue, rfl⟩ | hcut
  · exact .last hframes hvalues hframe hvalue
  · exact .deeper hframes hvalues hframe hcut

/-- The text of a nesting that is not empty. -/
theorem render_nest_append (kind : Nest) (prior : List (Frame × Doc)) (entry : Frame × Doc) :
    (Doc.nest kind [] (prior ++ [entry])).render =
      kind.opening :: (priorText prior ++ entryText entry) ++ [kind.closing] := by
  have hbody : bodyText [] (prior ++ [entry]) = joinCommas ((prior ++ [entry]).map entryText) := by
    cases prior <;> rfl
  rw [render_nest, hbody, joinCommas_append_singleton]

/-- A complete text, as the item that the parser makes of it. -/
theorem valueRead_doc {doc : Doc} {before rest after : List UInt8}
    {result : LiteCjson × ParseBuffer} (hrest : rest = doc.render ++ after)
    (hdoc : doc.WellFormed levels) (hsome : doc.render ≠ [])
    (hdenotes : Denotes result.1 doc (ahead ++ before).length)
    (hnext : At src ahead text result.2 (before ++ doc.render) after) :
    ValueRead src ahead text levels before rest result :=
  ⟨doc.render, after, hrest, hsome, .complete doc hdoc rfl hdenotes, hnext⟩

/-- Behind the entries of a nesting stands its closing bracket. -/
theorem closeNest_read {kind : Nest} (item : LiteCjson) {buffer inner : ParseBuffer}
    {before rest after body blank : List UInt8} {entries : List (Frame × Doc)}
    (hdoc : (Doc.nest kind blank entries).WellFormed levels)
    (hrender : (Doc.nest kind blank entries).render = body ++ [kind.closing])
    (hrest : rest = (Doc.nest kind blank entries).render ++ after)
    (hat : At src ahead text buffer before rest)
    (hinner : At src ahead text inner (before ++ body) (kind.closing :: after)) :
    ValueRead src ahead text levels before rest
      (closeNest kind item buffer entries.length inner) := by
  subst hrest
  obtain ⟨result, hclose, hdenotes⟩ := closeNest_denotes kind item hrender hat hinner
  rw [hclose]
  exact valueRead_doc rfl hdoc (by simp [hrender]) hdenotes (hat.move _)

/-- Behind the last entry stands the closing bracket. -/
theorem closeNest_complete {kind : Nest} (item : LiteCjson) {buffer inner : ParseBuffer}
    {before blank beyond used : List UInt8} {prior : List (Frame × Doc)} {frame : Frame}
    {value : LiteCjson} {start : Int}
    (hat : At src ahead text buffer before (kind.opening ::
      (priorText prior ++ frame.lead ++ used ++ (blank ++ kind.closing :: beyond))))
    (hframes : ∀ entry ∈ prior, entry.1.Fits kind)
    (hvalues : ∀ entry ∈ prior, entry.2.WellFormed levels) (hframe : frame.Fits kind)
    (hparsed : Parsed levels value start used (blank ++ kind.closing :: beyond))
    (hblank : Blank blank)
    (hinner : At src ahead text inner
      (before ++ [kind.opening] ++ priorText prior ++ frame.lead ++ used ++ blank)
      (kind.closing :: beyond)) :
    ValueRead src ahead text (levels + 1) before (kind.opening ::
        (priorText prior ++ frame.lead ++ used ++ (blank ++ kind.closing :: beyond)))
      (closeNest kind item buffer (prior.length + 1) inner) := by
  cases hparsed with
  | cut _ _ hend _ _ _ => exact absurd hend (by simp)
  | complete doc hdoc hused hdenotes =>
      subst hused
      let entry := frame.complete blank doc
      have hwhole : (Doc.nest kind [] (prior ++ [entry])).WellFormed (levels + 1) := by
        apply Doc.WellFormed.nest blank_nil
        · rw [List.forall_mem_append, List.forall_mem_singleton]
          exact ⟨hframes, hframe.complete hblank doc⟩
        · rw [List.forall_mem_append, List.forall_mem_singleton]
          exact ⟨hvalues, hdoc⟩
      have hrender := render_nest_append kind prior entry
      have hbody : At src ahead text inner
          (before ++ (kind.opening :: (priorText prior ++ entryText entry)))
          (kind.closing :: beyond) :=
        hinner.congr (by rw [entryText_complete]; simp) rfl
      have hread := closeNest_read item hwhole hrender
        (by rw [hrender, entryText_complete]; simp) hat hbody
      rwa [List.length_append, List.length_singleton] at hread

/-- At the end of the text, the closing bracket is the last byte of the last entry. -/
theorem closeNest_cut {kind : Nest} (item : LiteCjson) (count : Nat) {buffer inner : ParseBuffer}
    {before init after used : List UInt8} {prior : List (Frame × Doc)} {frame : Frame}
    {value : LiteCjson} {start : Int}
    (hat : At src ahead text buffer before
      (kind.opening :: (priorText prior ++ frame.lead ++ used ++ after)))
    (hframes : ∀ entry ∈ prior, entry.1.Fits kind)
    (hvalues : ∀ entry ∈ prior, entry.2.WellFormed levels) (hframe : frame.Fits kind)
    (hparsed : Parsed levels value start used after) (hblank : Blank after)
    (htext : text = init ++ [kind.closing])
    (hinner : At src ahead text inner init [kind.closing]) :
    ValueRead src ahead text (levels + 1) before
      (kind.opening :: (priorText prior ++ frame.lead ++ used ++ after))
      (closeNest kind item buffer count inner) := by
  obtain ⟨front, final, hused, _, hnested⟩ := hparsed.ends
  have hbefore : before ++ kind.opening :: (priorText prior ++ frame.lead ++ used) =
      (before ++ kind.opening :: (priorText prior ++ frame.lead ++ front)) ++ [final] := by
    rw [hused]
    simp
  have hwhole : (before ++ kind.opening :: (priorText prior ++ frame.lead ++ used)) ++ after =
      init ++ [kind.closing] := by
    rw [← htext, hat.text_eq]
    simp
  obtain ⟨rfl, hfinal⟩ : after = [] ∧ kind.closing = final :=
    (last_of_blank hbefore hblank hwhole).resolve_right (closing_not_blank kind)
  have hcut := (hnested kind hfinal.symm).cutShort hframes hvalues hframe
  have hbody : kind.opening :: priorText prior ++ frame.lead ++ used =
      (kind.opening :: (priorText prior ++ frame.lead ++ front)) ++ [kind.closing] := by
    rw [hused, hfinal]
    simp
  have hinit : init = before ++ (kind.opening :: (priorText prior ++ frame.lead ++ front)) := by
    rw [hbefore, List.append_nil, hfinal] at hwhole
    exact (List.append_inj' hwhole rfl).1.symm
  obtain ⟨hitem, hnext⟩ := closeNest_spec kind item count hat
    (hinner.congr hinit rfl)
  rw [← hbody] at hitem hnext
  refine ⟨_, [], ?_, by simp, .cut kind hcut rfl ?_ ?_ ?_, hnext⟩
  · simp
  · rw [hitem]
  · rw [hitem]
  · rw [hitem]

/-- An array or an object ends with its closing bracket, or with the one of an inner value
that ends the text. -/
theorem parseNest_keeps (kind : Nest) (item : LiteCjson)
    (hparse : ReadsValues src ahead text levels parse) {buffer : ParseBuffer}
    {before rest : List UInt8} {byte : UInt8}
    (hat : At src ahead text buffer before (byte :: rest)) :
    (parseNest src kind (some parse) item buffer).Keeps
      (ValueRead src ahead text (levels + 1) before (byte :: rest)) := by
  unfold parseNest
  dsimp only
  apply (openNest_keeps kind hat).bind
  intro opened hopened
  cases opened with
  | empty inner =>
      obtain ⟨blank, after, hrest, hblank, hinner⟩ := hopened
      have hwhole : (Doc.nest kind blank []).WellFormed (levels + 1) :=
        .nest hblank (List.forall_mem_nil _) (List.forall_mem_nil _)
      have hrender := render_nest kind blank []
      exact closeNest_read item hwhole hrender (by rw [hrest, hrender]; simp [bodyText]) hat hinner
  | entries inner =>
      obtain ⟨⟨after, hopening⟩, hskip⟩ := hopened
      obtain ⟨rfl, rfl⟩ : byte = kind.opening ∧ rest = after := by simpa using hopening
      have hvisit : VisitsEmbedded src (fun _ : Empty => True) fun _ _ => .ok none := by
        intro _ _ _ _ result hresult
        exact absurd hresult (by simp)
      have hdigit : isDigit kind.opening = false := by cases kind <;> decide
      have hscan := scanEntries_keeps kind hparse hvisit (src.length + 1) 0 hat.move_one hdigit
        (Nat.lt_succ_of_le hat.move_one.length_rest_le)
      dsimp only
      rw [scanEntries_congr kind _ _ _ hskip]
      apply hscan.bind
      intro scan hkept
      cases scan with
      | found result => cases result
      | ended total final =>
          obtain ⟨prior, frame, used, after, value, hframes, hvalues, hframe, rfl, rfl, hparsed,
            hnext⟩ := hkept
          rw [Nat.zero_add]
          dsimp only
          cases hnext with
          | ahead blank solid beyond hafter hblank hsolid hahead =>
              subst hafter
              rw [hahead.peek, Outcome.ok_bind]
              by_cases hclosing : solid = kind.closing
              · subst hclosing
                rw [List.head?_cons, if_pos rfl]
                exact closeNest_complete item hat hframes hvalues hframe hparsed hblank hahead
              · rw [if_neg (by simpa using hclosing)]
                exact Outcome.keeps_failed
          | back init last hblank hlast hback =>
              rw [hback.peek, Outcome.ok_bind]
              by_cases hclosing : last = kind.closing
              · subst hclosing
                rw [List.head?_cons, if_pos rfl]
                exact closeNest_cut item (prior.length + 1) hat hframes hvalues hframe hparsed
                  hblank hlast hback
              · rw [if_neg (by simpa using hclosing)]
                exact Outcome.keeps_failed

end Nestings

/-! ## Values -/

section Values

variable {src ahead text : List UInt8}

/-- The item of a literal denotes it. -/
theorem literalItem_denotes (token : Token) {before rest : List UInt8} {buffer : ParseBuffer}
    (item : LiteCjson) (hat : At src ahead text buffer before rest)
    (hindent : (Doc.scalar token).indent = 0)
    (hcontents : (Doc.scalar token).contents = token.render) :
    Denotes (literalItem token.type token.render.length item buffer).1 (.scalar token)
      (ahead ++ before).length where
  type := rfl
  value := by simp [literalItem, hindent, hat.place]
  valueLength := by rw [hcontents]; rfl
  size := by simp

/-- One of the three literals, where the text goes on with it. -/
theorem literalItem_read (token : Token) {levels : Nat} {before rest : List UInt8}
    {buffer : ParseBuffer} (item : LiteCjson) (hat : At src ahead text buffer before rest)
    (hvalid : token.Valid) (hsome : token.render ≠ [])
    (hindent : (Doc.scalar token).indent = 0)
    (hcontents : (Doc.scalar token).contents = token.render)
    (hbegins : token.render.isPrefixOf rest = true) :
    ValueRead src ahead text levels before rest
      (literalItem token.type token.render.length item buffer) := by
  obtain ⟨after, rfl⟩ := List.isPrefixOf_iff_prefix.mp hbegins
  have hdenotes := literalItem_denotes token item hat hindent hcontents
  exact valueRead_doc rfl (.scalar hvalid) hsome hdenotes (hat.move token.render)

/-- What a value begins with decides what it is. -/
theorem parseToken_keeps {levels : Nat} {inner : Option ValueParser} (item : LiteCjson)
    (hnest : ∀ kind {buffer before byte rest}, At src ahead text buffer before (byte :: rest) →
      (parseNest src kind inner item buffer).Keeps
        (ValueRead src ahead text levels before (byte :: rest))) :
    ReadsValues src ahead text levels (parseToken src inner item) := by
  intro buffer before rest hat hrest
  unfold parseToken
  rw [literalAt_eq [110, 117, 108, 108] hat, Outcome.ok_bind]
  by_cases hnull : [110, 117, 108, 108].isPrefixOf rest = true
  · rw [if_pos hnull]
    exact literalItem_read .null item hat trivial (by decide) rfl rfl hnull
  rw [if_neg hnull, literalAt_eq [102, 97, 108, 115, 101] hat, Outcome.ok_bind]
  by_cases hfalse : [102, 97, 108, 115, 101].isPrefixOf rest = true
  · rw [if_pos hfalse]
    exact literalItem_read .false item hat trivial (by decide) rfl rfl hfalse
  rw [if_neg hfalse, literalAt_eq [116, 114, 117, 101] hat, Outcome.ok_bind]
  by_cases htrue : [116, 114, 117, 101].isPrefixOf rest = true
  · rw [if_pos htrue]
    exact literalItem_read .true item hat trivial (by decide) rfl rfl htrue
  rw [if_neg htrue, hat.peek, Outcome.ok_bind]
  cases rest with
  | nil => exact absurd rfl hrest
  | cons byte rest =>
      dsimp only [List.head?_cons]
      by_cases hquote : byte = 34
      · rw [if_pos hquote]
        apply (parseString_keeps item hat).mono
        rintro result ⟨body, after, hsplit, hbody, hdenotes, hnext⟩
        have hdoc : (Doc.scalar (.string body)).WellFormed levels := .scalar hbody
        exact valueRead_doc hsplit hdoc (List.cons_ne_nil 34 _) hdenotes hnext
      rw [if_neg hquote]
      by_cases hnumber : byte = 45 ∨ isDigit byte = true
      · rw [if_pos hnumber]
        apply (parseNumber_keeps item hat hnumber).mono
        rintro result ⟨text, after, hsplit, htoken, hdenotes, hnext⟩
        obtain ⟨first, tail, htext, _⟩ := htoken.head
        have hdoc : (Doc.scalar (.number text)).WellFormed levels := .scalar htoken
        have hsome : (Doc.scalar (.number text)).render ≠ [] := by
          rw [htext]
          exact List.cons_ne_nil first tail
        exact valueRead_doc hsplit hdoc hsome hdenotes hnext
      rw [if_neg hnumber]
      by_cases harray : byte = 91
      · rw [if_pos harray]
        exact hnest .array hat
      rw [if_neg harray]
      by_cases hobject : byte = 123
      · rw [if_pos hobject]
        exact hnest .object hat
      · rw [if_neg hobject]
        exact Outcome.keeps_failed

/-- What `parse_value` accepts with so many levels of nesting allowed. -/
theorem parseValue_keeps (levels : Nat) (item : LiteCjson) :
    ReadsValues src ahead text levels (parseValue src levels item) := by
  induction levels generalizing item with
  | zero =>
      apply parseToken_keeps
      intro kind buffer before byte rest _
      exact Outcome.keeps_failed
  | succ levels ih =>
      apply parseToken_keeps
      intro kind buffer before byte rest hat
      exact parseNest_keeps kind item (ih .zero) hat

/-- A byte order mark. -/
def bom : List UInt8 := [0xEF, 0xBB, 0xBF]

/-- The whole input as a buffer. -/
theorem at_input (src : List UInt8) : At src [] src ⟨0, src.length, 0⟩ [] src where
  text_eq := rfl
  window := ⟨[], by simp⟩
  content_eq := rfl
  length_eq := rfl
  offset_eq := rfl

/-- A byte order mark is skipped if at least two more bytes follow. -/
theorem skipUtf8Bom_eq (src : List UInt8) :
    skipUtf8Bom src ⟨0, src.length, 0⟩ =
      .ok (if 5 ≤ src.length ∧ bom.isPrefixOf src = true then ⟨0, src.length, 3⟩
        else ⟨0, src.length, 0⟩) := by
  have haccess := (at_input src).canAccess 4
  unfold skipUtf8Bom
  rw [haccess]
  by_cases hroom : 5 ≤ src.length
  · have hsplit : src = [] ++ src ++ [] := by simp
    have hsame : sameBytes src (0 + 0) bom = .ok (bom.isPrefixOf src) := by
      apply sameBytes_eq bom hsplit rfl
      simp only [bom, List.length_cons, List.length_nil]
      omega
    have hfits : decide ((4 : Int) < src.length) = true := decide_eq_true (by omega)
    rw [bom] at hsame ⊢
    rw [hfits, if_pos rfl, hsame, Outcome.ok_bind]
    by_cases hbom : [0xEF, 0xBB, 0xBF].isPrefixOf src = true
    · rw [if_pos hbom, if_pos ⟨hroom, hbom⟩]
      rfl
    · rw [if_neg hbom, if_neg fun h => hbom h.2]
      rfl
  · have hover : decide ((4 : Int) < src.length) = false := decide_eq_false (by omega)
    rw [hover, if_neg Bool.false_ne_true, if_neg fun h => hroom h.1]
    rfl

/-- Where the first value is looked for. -/
theorem skipUtf8Bom_at (src : List UInt8) :
    ∃ buffer mark rest, skipUtf8Bom src ⟨0, src.length, 0⟩ = .ok buffer ∧
      At src [] src buffer mark rest ∧ (mark = [] ∧ rest = src ∨ mark = bom ∧ rest ≠ []) := by
  rw [skipUtf8Bom_eq]
  by_cases hskip : 5 ≤ src.length ∧ bom.isPrefixOf src = true
  · obtain ⟨rest, hrest⟩ := List.isPrefixOf_iff_prefix.mp hskip.2
    have hat := ((at_input src).congr rfl hrest.symm).move bom
    refine ⟨_, bom, rest, rfl, ?_, Or.inr ⟨rfl, ?_⟩⟩
    · rwa [if_pos hskip]
    · rintro rfl
      rw [← hrest] at hskip
      exact absurd hskip.1 (by decide)
  · rw [if_neg hskip]
    exact ⟨_, [], src, rfl, at_input src, Or.inl ⟨rfl, rfl⟩⟩

/-- What the parser accepts: a value behind a byte order mark, if there is one, and white
space. -/
def Accepted (src : List UInt8) (item : LiteCjson) : Prop :=
  ∃ mark blank used after, src = mark ++ blank ++ used ++ after ∧ (mark = [] ∨ mark = bom) ∧
    Blank blank ∧ Parsed liteCjsonNestingLimit item (mark ++ blank).length used after

/-- The contract of the parser. It ends, it reads inside the input, and what it accepts is a
value, complete or cut short. -/
theorem liteCjsonParse_keeps (src : List UInt8) (lite : LiteCjson) :
    (liteCjsonParse src lite).Keeps (Accepted src) := by
  unfold liteCjsonParse
  by_cases hempty : src = []
  · rw [if_pos hempty]
    exact Outcome.keeps_failed
  obtain ⟨buffer, mark, rest, hbuffer, hat, hmark⟩ := skipUtf8Bom_at src
  have hrest : rest ≠ [] := by
    rcases hmark with ⟨_, rfl⟩ | ⟨_, hrest⟩
    · exact hempty
    · exact hrest
  obtain ⟨start, hstart, hskipped⟩ := bufferSkipWhitespace_skipped hat hempty
  rw [if_neg hempty, hbuffer, Outcome.ok_bind, hstart, Outcome.ok_bind]
  cases hskipped with
  | ahead blank byte after hsplit hblank _ hahead =>
      apply (parseValue_keeps liteCjsonNestingLimit lite hahead (List.cons_ne_nil _ _)).bind
      rintro ⟨item, next⟩ ⟨used, behind, hused, _, hparsed, _⟩
      refine ⟨mark, blank, used, behind, ?_, hmark.imp And.left And.left, hblank, hparsed⟩
      rw [hat.text_eq, hsplit, hused]
      simp
  | back init last hblank htext hback =>
      -- nothing but white space: no value is read from its last byte
      apply Outcome.Keeps.bind_of_none
      apply (ReadsValues.digit (parseValue_keeps liteCjsonNestingLimit lite) hback).mono
      intro _ hdigit
      obtain ⟨front, final, rfl⟩ := (List.eq_nil_or_concat' rest).resolve_left hrest
      have hwhole := hat.text_eq.symm.trans htext
      rw [← List.append_assoc] at hwhole
      have hlast := (List.cons.inj (List.append_inj' hwhole rfl).2).1
      rw [isDigit_of_blank (hlast ▸ hblank final (by simp))] at hdigit
      exact Bool.false_ne_true hdigit

end Values

end EnosDeviceSdk.Infra
