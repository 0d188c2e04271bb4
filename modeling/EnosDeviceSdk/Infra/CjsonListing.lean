/-
# The entries that the accessors go through

An accessor parses the entries of its item one after another and stops at the one that it looks for.
What it looks for does not change what it reads: an item has a list of entries, and every accessor
is a search in this list. The list is as long as the size of the item says.

This holds for every item that was given out, also where the end of the input cuts the item short.
Such an item is parsed up to the end of the input again, and its last entry is complete or cut short
in turn.
-/

import EnosDeviceSdk.Infra.CjsonAccess
import EnosDeviceSdk.Infra.CjsonMembers

namespace EnosDeviceSdk.Infra

open EnosDeviceSdk.Library

/-- What the loop of an accessor makes of the entries that it reads. -/
def visitAll {ρ : Type} (visit : Nat → Entry → Outcome (Option ρ)) :
    Nat → List Entry → Outcome (Option ρ)
  | _, [] => .ok none
  | count, entry :: later => do
      let found ← visit count entry
      match found with
      | some result => return some result
      | none => visitAll visit (count + 1) later

theorem visitAll_append {ρ : Type} (visit : Nat → Entry → Outcome (Option ρ)) (count : Nat)
    (first second : List Entry) :
    visitAll visit count (first ++ second) = (do
      let found ← visitAll visit count first
      match found with
      | some result => return some result
      | none => visitAll visit (count + first.length) second) := by
  induction first generalizing count with
  | nil => rfl
  | cons entry first ih =>
      rw [List.cons_append, visitAll, visitAll]
      cases visit count entry with
      | failed | stray | running => rfl
      | ok found =>
          cases found with
          | some result => rfl
          | none =>
              dsimp only [Outcome.ok_bind]
              rw [ih, List.length_cons, Nat.add_assoc, Nat.add_comm 1]

/-- Every accessor is a search in these entries, and the item counts them. -/
structure HasEntries (src : List UInt8) (item : LiteCjson) (kind : Nest) (entries : List Entry) :
    Prop where
  size : item.size = entries.length
  search : ∀ {ρ : Type} (visit : Nat → Entry → Outcome (Option ρ)),
    searchEntries src kind item visit = do
      let found ← visitAll visit 0 entries
      match found with
      | some result => return result
      | none => .failed

/-- The items that are given out, with the levels of their brackets: what is no nesting, a complete
nesting, and one that the end of the input cuts short. -/
inductive Known (src : List UInt8) (levels : Nat) (item : LiteCjson) : Prop
  | plain (hplain : ∀ kind : Nest, item.type ≠ kind.type)
  | complete (doc : Doc) (ahead : List UInt8) (hdoc : doc.WellFormed levels)
      (hitem : Represents src item doc ahead)
  | cut (kind : Nest) (prior : List (Frame × Doc)) (frame : Frame) (inner ahead : List UInt8)
      (fewer : Nat) (hfewer : fewer < levels)
      (hsrc : src = ahead ++ (kind.opening :: priorText prior ++ frame.lead ++ inner))
      (hnest : CutNest item kind fewer prior frame inner ahead.length)

/-- The name and the value of an entry. -/
def KnownEntry (src : List UInt8) (levels : Nat) (entry : Entry) : Prop :=
  Known src levels entry.value ∧ ∀ key, entry.key = some key → Known src levels key

/-! ## Levels -/

theorem Known.mono {src : List UInt8} {levels more : Nat} {item : LiteCjson}
    (hitem : Known src levels item) (hmore : levels ≤ more) : Known src more item := by
  cases hitem with
  | plain hplain => exact .plain hplain
  | complete doc ahead hdoc hitem => exact .complete doc ahead (hdoc.mono hmore) hitem
  | cut kind prior frame inner ahead fewer hfewer hsrc hnest =>
      exact .cut kind prior frame inner ahead fewer (Nat.lt_of_lt_of_le hfewer hmore) hsrc hnest

theorem KnownEntry.mono {src : List UInt8} {levels more : Nat} {entry : Entry}
    (hentry : KnownEntry src levels entry) (hmore : levels ≤ more) : KnownEntry src more entry :=
  ⟨hentry.1.mono hmore, fun key hkey => (hentry.2 key hkey).mono hmore⟩

/-! ## What the loops read -/

section Loops

variable {src ahead text : List UInt8} {levels : Nat}

/-- A string is no nesting. -/
theorem known_of_name {key : LiteCjson} {body : List UInt8} {start : Int}
    (hkey : Denotes key (.scalar (.string body)) start) : Known src levels key := by
  apply Known.plain
  intro kind htype
  have hstring := hkey.type.symm.trans htype
  cases kind <;> exact nomatch hstring

/-- The name of an entry is a string. -/
theorem NameDenotes.known {key : Option LiteCjson} {frame : Frame} {start : Int}
    (hname : NameDenotes key frame start) : ∀ name, key = some name → Known src levels name := by
  rintro name rfl
  cases hlabel : frame.label with
  | none =>
      rw [NameDenotes, hlabel] at hname
      cases hname
  | some label =>
      rw [NameDenotes, hlabel] at hname
      obtain ⟨other, hsame, hdenotes⟩ := hname
      rw [Option.some.inj hsame]
      exact known_of_name hdenotes

/-- A complete text in the window. -/
theorem At.known {buffer : ParseBuffer} {before rest : List UInt8} {doc : Doc} {item : LiteCjson}
    (hat : At src ahead text buffer before (doc.render ++ rest))
    (hdoc : doc.WellFormed levels) (hdenotes : Denotes item doc (ahead ++ before).length) :
    Known src levels item := by
  obtain ⟨behind, hsrc⟩ := hat.window
  refine .complete doc (ahead ++ before) hdoc ⟨⟨rest ++ behind, ?_⟩, hdenotes⟩
  rw [hsrc, hat.text_eq]
  simp

/-- A complete entry in the window. -/
theorem EntryDenotes.known {buffer : ParseBuffer} {before rest : List UInt8} {frame : Frame}
    {doc : Doc} {entry : Entry}
    (hentry : EntryDenotes entry frame doc (ahead ++ before).length)
    (hat : At src ahead text buffer before (entryText (frame, doc) ++ rest))
    (hdoc : doc.WellFormed levels) : KnownEntry src levels entry := by
  have hspread : At src ahead text buffer before
      (frame.lead ++ (doc.render ++ (frame.after ++ rest))) :=
    hat.congr rfl (by simp [entryText, Frame.wrap])
  refine ⟨(hspread.move frame.lead).known hdoc ?_, hentry.key.known⟩
  have hvalue := hentry.value
  rwa [← Int.natCast_add, ← List.length_append, List.append_assoc] at hvalue

/-- The loop reads the entries in front of the last one and asks its visitor about each. -/
theorem scanEntries_visitAll (kind : Nest) {parse : ValueParser}
    (hparse : ParsesDocs src ahead text levels parse) {prior : List (Frame × Doc)}
    {buffer : ParseBuffer} {before rest : List UInt8}
    (hat : At src ahead text (buffer.move 1) before (priorText prior ++ rest))
    (hframes : ∀ entry ∈ prior, entry.1.Fits kind)
    (hvalues : ∀ entry ∈ prior, entry.2.WellFormed levels) :
    ∃ entries, entries.length = prior.length ∧ (∀ entry ∈ entries, KnownEntry src levels entry) ∧
      ∀ {ρ : Type} (visit : Nat → Entry → Outcome (Option ρ)) (steps count : Nat),
        scanEntries src kind parse visit (steps + prior.length) count buffer = (do
          let found ← visitAll visit count entries
          match found with
          | some result => return .found result
          | none =>
              scanEntries src kind parse visit steps (count + prior.length)
                (buffer.move (priorText prior).length)) := by
  induction prior generalizing buffer before with
  | nil => exact ⟨[], rfl, List.forall_mem_nil _, fun visit steps count => by
      simp [priorText, visitAll]⟩
  | cons first prior ih =>
      obtain ⟨frame, doc⟩ := first
      have hspread : At src ahead text (buffer.move 1) before
          (entryText (frame, doc) ++ 44 :: (priorText prior ++ rest)) :=
        hat.congr rfl (by simp [priorText])
      obtain ⟨hfits, hframes⟩ := List.forall_mem_cons.mp hframes
      obtain ⟨hdoc, hvalues⟩ := List.forall_mem_cons.mp hvalues
      obtain ⟨entry, hentry, hread⟩ :=
        readEntry_complete kind hparse hspread hfits hdoc (by decide) (by decide)
      have hcomma := hspread.move (entryText (frame, doc))
      obtain ⟨entries, hlength, hknown, hscan⟩ := ih hcomma.move_one hframes hvalues
      refine ⟨entry :: entries, congrArg (· + 1) hlength,
        List.forall_mem_cons.mpr ⟨hentry.known hspread hdoc, hknown⟩, ?_⟩
      intro ρ visit steps count
      have hplace : ((buffer.move 1).move (entryText (frame, doc)).length).move
          (priorText prior).length = buffer.move (priorText ((frame, doc) :: prior)).length := by
        simp only [ParseBuffer.move_move, priorText, List.map_cons, List.flatten_cons,
          List.length_append, List.length_singleton, Int.natCast_add]
        congr 1
        omega
      have hcount : count + 1 + prior.length = count + ((frame, doc) :: prior).length := by
        rw [List.length_cons]
        omega
      have hnext := hscan visit steps (count + 1)
      rw [hplace, hcount] at hnext
      rw [List.length_cons, ← Nat.add_assoc, scanEntries, hread, Outcome.ok_bind, visitAll]
      dsimp only
      cases visit count entry with
      | failed | stray | running => rfl
      | ok found =>
          cases found with
          | some result => rfl
          | none =>
              dsimp only [Outcome.ok_bind]
              rw [hcomma.peek, Outcome.ok_bind, List.head?_cons, if_pos rfl, hnext]
              rfl

/-- With its last entry, a nesting has all of them. -/
theorem hasEntries_of_last (kind : Nest) {item : LiteCjson} {prior : List (Frame × Doc)}
    {frame : Frame} {used rest : List UInt8} {last : Entry} {next : ParseBuffer}
    {behind : Option UInt8} (hlevels : levels ≤ liteCjsonNestingLimit)
    (hvalue : item.value = some (ahead.length : Int))
    (hsize : item.size = prior.length + 1)
    (hat : At src ahead text ⟨ahead.length, item.valueLength, 0⟩ []
      (kind.opening :: (priorText prior ++ (frame.lead ++ (used ++ rest)))))
    (hframes : ∀ entry ∈ prior, entry.1.Fits kind)
    (hvalues : ∀ entry ∈ prior, entry.2.WellFormed levels)
    (hfits : frame.Fits kind) (hstarts : StartsValue used) (hlast : KnownEntry src levels last)
    (hread : readEntry src kind (parseValue src liteCjsonNestingLimit .zero)
      ((ParseBuffer.move ⟨ahead.length, item.valueLength, 0⟩ (priorText prior).length).move 1) =
        .ok (last, next))
    (hpeek : next.peek src = .ok behind) (hends : behind ≠ some 44) :
    ∃ entries, HasEntries src item kind entries ∧
      ∀ entry ∈ entries, KnownEntry src levels entry := by
  have hparse : ParsesDocs src ahead text levels (parseValue src liteCjsonNestingLimit .zero) :=
    fun hdoc => parseValue_complete liteCjsonNestingLimit .zero (hdoc.mono hlevels)
  obtain ⟨inner, hopen, hroom, hskip⟩ := openNest_entry kind hat hframes hvalues hfits hstarts
  obtain ⟨entries, hlength, hknown, hscan⟩ :=
    scanEntries_visitAll kind hparse hat.move_one hframes hvalues
  have hsteps : src.length + 1 = src.length - prior.length + 1 + prior.length := by omega
  refine ⟨entries ++ [last], ⟨?_, ?_⟩, ?_⟩
  · rw [hsize, List.length_append, hlength]
    rfl
  · intro ρ visit
    have hall := hscan visit (src.length - prior.length + 1) 0
    rw [Nat.zero_add] at hall
    unfold searchEntries
    rw [hvalue]
    dsimp only
    rw [hopen, Outcome.ok_bind]
    dsimp only
    rw [scanEntries_congr kind _ _ _ hskip, hsteps, hall, visitAll_append, Nat.zero_add, hlength]
    cases visitAll visit 0 entries with
    | failed | stray | running => rfl
    | ok found =>
        cases found with
        | some result => rfl
        | none =>
            dsimp only [Outcome.ok_bind]
            rw [scanEntries, hread, Outcome.ok_bind]
            dsimp only [visitAll]
            cases visit prior.length last with
            | failed | stray | running => rfl
            | ok found =>
                cases found with
                | some result => rfl
                | none =>
                    dsimp only [Outcome.ok_bind]
                    rw [hpeek, Outcome.ok_bind, if_neg hends]
                    rfl
  · rw [List.forall_mem_append, List.forall_mem_singleton]
    exact ⟨hknown, hlast⟩

end Loops

/-! ## The entries of an item -/

section Entries

variable {src : List UInt8} {levels : Nat}

/-- A complete nesting has its entries. -/
theorem Represents.hasEntries {item : LiteCjson} {kind : Nest} {blank ahead : List UInt8}
    {entries : List (Frame × Doc)}
    (hitem : Represents src item (.nest kind blank entries) ahead) (hblank : Blank blank)
    (hframes : ∀ entry ∈ entries, entry.1.Fits kind)
    (hvalues : ∀ entry ∈ entries, entry.2.WellFormed levels)
    (hlevels : levels ≤ liteCjsonNestingLimit) :
    ∃ entries, HasEntries src item kind entries ∧
      ∀ entry ∈ entries, KnownEntry src levels entry := by
  obtain ⟨behind, hsrc⟩ := hitem.placed
  have hvalue : item.value = some (ahead.length : Int) := by
    rw [hitem.denotes.value]
    simp [Doc.indent]
  have hsize := hitem.denotes.size kind blank entries rfl
  have hat : At src ahead (Doc.nest kind blank entries).render ⟨ahead.length, item.valueLength, 0⟩
      [] (Doc.nest kind blank entries).render :=
    { text_eq := rfl
      window := ⟨behind, hsrc.symm⟩
      content_eq := rfl
      length_eq := hitem.denotes.valueLength
      offset_eq := rfl }
  rcases List.eq_nil_or_concat' entries with rfl | ⟨prior, ⟨frame, doc⟩, rfl⟩
  · refine ⟨[], ⟨hsize, ?_⟩, List.forall_mem_nil _⟩
    intro ρ visit
    have hempty : openNest src kind ⟨ahead.length, item.valueLength, 0⟩ = .ok (.empty _) :=
      openNest_empty kind (hat.congr rfl (render_nest kind blank [])) hblank
    unfold searchEntries
    rw [hvalue]
    dsimp only
    rw [hempty]
    rfl
  · rw [List.forall_mem_append, List.forall_mem_singleton] at hframes hvalues
    have hrender : (Doc.nest kind blank (prior ++ [(frame, doc)])).render =
        kind.opening :: (priorText prior ++ (entryText (frame, doc) ++ [kind.closing])) := by
      have hwhole := render_nest_append kind prior (frame, doc)
      have hindex : prior.length < (prior ++ [(frame, doc)]).length := by simp
      rw [render_nest, bodyText_of_entry blank hindex, ← bodyText_of_entry [] hindex,
        ← render_nest, hwhole]
      simp
    have hspread := hat.congr rfl hrender
    have hlast := hspread.move_one.move (priorText prior)
    rw [ParseBuffer.move_move, Int.add_comm, ← ParseBuffer.move_move] at hlast
    obtain ⟨entry, hentry, hread⟩ := readEntry_complete kind
      (parseValue_complete liteCjsonNestingLimit .zero) hlast hframes.2 (hvalues.2.mono hlevels)
      (closing_not_blank kind) (by cases kind <;> decide)
    have hreach : At src ahead (Doc.nest kind blank (prior ++ [(frame, doc)])).render
        ⟨ahead.length, item.valueLength, 0⟩ [] (kind.opening :: (priorText prior ++
          (frame.lead ++ (doc.render ++ (frame.after ++ [kind.closing]))))) :=
      hspread.congr rfl (by simp [entryText, Frame.wrap])
    exact hasEntries_of_last kind hlevels hvalue (by simpa using hsize) hreach hframes.1 hvalues.1
      hframes.2 (startsValue_render hvalues.2) (hentry.known hlast hvalues.2) hread
      (hlast.move (entryText (frame, doc))).peek (by cases kind <;> decide)

/-- A nesting that ends the input is read again from there. -/
theorem Nested.parses {kind : Nest} {ahead text inner : List UInt8}
    (hnested : Nested kind levels inner) (hlevels : levels ≤ liteCjsonNestingLimit)
    (hsrc : src = ahead ++ text) (item : LiteCjson) :
    Parses src ahead text (parseValue src liteCjsonNestingLimit item) inner []
      fun item _ => Known src levels item := by
  intro buffer before hat
  rcases hnested with ⟨blank, entries, hdoc, rfl⟩ | hcut
  · obtain ⟨result, hresult, hdenotes⟩ := parseValue_complete liteCjsonNestingLimit item
      (hdoc.mono hlevels) (fun _ hbyte => absurd hbyte (by simp)) hat
    exact ⟨result, hresult, hat.known hdoc hdenotes⟩
  · obtain ⟨fewer, rfl⟩ : ∃ fewer, levels = fewer + 1 := by
      cases hcut with
      | last | deeper => exact ⟨_, rfl⟩
    obtain ⟨result, hresult, prior, frame, inner, rfl, hnest⟩ :=
      @parseValue_cutNest src ahead text fewer 999 (Nat.le_of_succ_le_succ hlevels) item kind inner
        hcut _ _ hat
    refine ⟨result, hresult, .cut kind prior frame inner (ahead ++ before) fewer
      (Nat.lt_succ_self fewer) ?_ hnest⟩
    rw [hsrc, hat.text_eq]
    simp

/-- A nesting that is cut short has its entries, too: the last one ends the input. -/
theorem CutNest.hasEntries {item : LiteCjson} {kind : Nest} {prior : List (Frame × Doc)}
    {frame : Frame} {inner ahead : List UInt8}
    (hnest : CutNest item kind levels prior frame inner ahead.length)
    (hlevels : levels ≤ liteCjsonNestingLimit)
    (hsrc : src = ahead ++ (kind.opening :: priorText prior ++ frame.lead ++ inner)) :
    ∃ entries, HasEntries src item kind entries ∧
      ∀ entry ∈ entries, KnownEntry src levels entry := by
  have hat : At src ahead (kind.opening :: priorText prior ++ frame.lead ++ inner)
      ⟨ahead.length, item.valueLength, 0⟩ []
      (kind.opening :: (priorText prior ++ (frame.lead ++ (inner ++ [])))) :=
    { text_eq := by simp
      window := ⟨[], by rw [hsrc, List.append_nil]⟩
      content_eq := rfl
      length_eq := hnest.cut.valueLength
      offset_eq := rfl }
  have hlast := hat.move_one.move (priorText prior)
  rw [ParseBuffer.move_move, Int.add_comm, ← ParseBuffer.move_move] at hlast
  have hinner := hlast.move frame.lead
  obtain ⟨value, hvalue, hknown⟩ := hnest.nested.parses hlevels hsrc .zero hinner
  have hstarts : StartsValue inner := by
    rcases hnest.nested with ⟨blank, entries, hdoc, rfl⟩ | hcut
    · exact startsValue_render hdoc
    · exact hcut.starts
  obtain ⟨key, hkey, hread⟩ := readEntry_of_value kind hlast hnest.lastFits hstarts hvalue
  -- behind the value the text ends, so skipping white space steps back onto its bracket
  obtain ⟨front, hends⟩ : ∃ front, inner = front ++ [kind.closing] := by
    rcases hnest.nested with ⟨blank, entries, _, rfl⟩ | hcut
    · exact ⟨_, render_nest kind blank entries⟩
    · obtain ⟨front, hends, _⟩ := hcut.ends
      exact ⟨front, hends⟩
  obtain ⟨next, hskip, hback⟩ := bufferSkipWhitespace_back (hinner.move inner) blank_nil
    (show kind.opening :: priorText prior ++ frame.lead ++ inner =
      (kind.opening :: priorText prior ++ frame.lead ++ front) ++ [kind.closing] by simp [hends])
  rw [hskip, Outcome.ok_bind, Outcome.pure_eq] at hread
  exact hasEntries_of_last kind hlevels hnest.cut.value hnest.size hat hnest.fits hnest.values
    hnest.lastFits hstarts ⟨hknown, hkey.known⟩ hread hback.peek (by cases kind <;> decide)

/-- So has every nesting that was given out, and its entries have fewer levels. -/
theorem Known.hasEntries {item : LiteCjson} {kind : Nest} (hitem : Known src (levels + 1) item)
    (hlevels : levels ≤ liteCjsonNestingLimit) (htype : item.type = kind.type) :
    ∃ entries, HasEntries src item kind entries ∧
      ∀ entry ∈ entries, KnownEntry src levels entry := by
  cases hitem with
  | plain hplain => exact absurd htype (hplain kind)
  | complete doc ahead hdoc hitem =>
      have hsame := hitem.denotes.type.symm.trans htype
      cases hdoc with
      | @scalar _ token => cases token <;> cases kind <;> exact nomatch hsame
      | @nest _ other blank entries hblank hframes hvalues =>
          obtain rfl : other = kind := by
            cases other <;> cases kind <;> first | rfl | exact nomatch hsame
          exact hitem.hasEntries hblank hframes hvalues hlevels
  | cut other prior frame inner ahead fewer hfewer hsrc hnest =>
      have hsame := hnest.cut.type.symm.trans htype
      obtain rfl : other = kind := by
        cases other <;> cases kind <;> first | rfl | exact nomatch hsame
      have hless : fewer ≤ levels := Nat.le_of_lt_succ hfewer
      obtain ⟨entries, hentries, hknown⟩ := hnest.hasEntries (Nat.le_trans hless hlevels) hsrc
      exact ⟨entries, hentries, fun entry hentry => (hknown entry hentry).mono hless⟩

/-! ## The accessors -/

theorem visitAll_found {ρ : Type} {visit : Nat → Entry → Outcome (Option ρ)}
    {entries : List Entry} {count : Nat} {result : ρ}
    (hfound : visitAll visit count entries = .ok (some result)) :
    ∃ entry ∈ entries, ∃ place, visit place entry = .ok (some result) := by
  induction entries generalizing count with
  | nil => exact nomatch hfound
  | cons entry entries ih =>
      rw [visitAll, Outcome.bind_eq_ok_iff] at hfound
      obtain ⟨found, hvisit, hfound⟩ := hfound
      cases found with
      | some other =>
          cases hfound
          exact ⟨entry, List.mem_cons_self .., count, hvisit⟩
      | none =>
          obtain ⟨later, hlater, place, hplace⟩ := ih hfound
          exact ⟨later, List.mem_cons_of_mem entry hlater, place, hplace⟩

/-- What an accessor gives out it has from an entry. -/
theorem HasEntries.found {ρ : Type} {item : LiteCjson} {kind : Nest} {entries : List Entry}
    (hitem : HasEntries src item kind entries) {visit : Nat → Entry → Outcome (Option ρ)}
    {result : ρ} (hsearch : searchEntries src kind item visit = .ok result) :
    ∃ entry ∈ entries, ∃ place, visit place entry = .ok (some result) := by
  rw [hitem.search, Outcome.bind_eq_ok_iff] at hsearch
  obtain ⟨found, hvisit, hsearch⟩ := hsearch
  cases found with
  | none => exact nomatch hsearch
  | some other =>
      cases hsearch
      exact visitAll_found hvisit

/-- A search by place finds the entry there. -/
theorem visitAll_place {ρ : Type} (result : Entry → ρ) {entries : List Entry} {place : Nat}
    (hplace : place < entries.length) (count : Nat) {index : Int} (hindex : index = count + place) :
    visitAll (fun place entry => .ok (if (place : Int) = index then some (result entry) else none))
      count entries = .ok (some (result entries[place])) := by
  induction entries generalizing place count with
  | nil => exact absurd hplace (Nat.not_lt_zero _)
  | cons entry entries ih =>
      cases place with
      | zero =>
          rw [visitAll, Outcome.ok_bind, if_pos (by omega)]
          rfl
      | succ place =>
          rw [visitAll, Outcome.ok_bind, if_neg (by omega)]
          exact ih (Nat.lt_of_succ_lt_succ hplace) (count + 1) (by omega)

/-- The entries of an item that an accessor takes. -/
theorem Known.entry_of_search {ρ : Type} {item : LiteCjson} {kind : Nest}
    (hitem : Known src (levels + 1) item) (hlevels : levels ≤ liteCjsonNestingLimit)
    (htype : item.type = kind.type) {visit : Nat → Entry → Outcome (Option ρ)} {result : ρ}
    (hsearch : searchEntries src kind item visit = .ok result) :
    ∃ entry place, KnownEntry src levels entry ∧ visit place entry = .ok (some result) := by
  obtain ⟨entries, hentries, hknown⟩ := hitem.hasEntries hlevels htype
  obtain ⟨entry, hentry, place, hvisit⟩ := hentries.found hsearch
  exact ⟨entry, place, hknown entry hentry, hvisit⟩

theorem Known.arrayItem {lite item : LiteCjson} {index : Int}
    (hlite : Known src (levels + 1) lite) (hlevels : levels ≤ liteCjsonNestingLimit)
    (hcall : liteCjsonArrayItem src lite index = .ok item) : Known src levels item := by
  obtain ⟨haccept, hsearch⟩ := Outcome.ite_failed_eq_ok_iff.mp hcall
  have htype : lite.type = Nest.array.type := not_not.mp fun htype => haccept (Or.inl htype)
  obtain ⟨entry, place, hentry, hvisit⟩ := hlite.entry_of_search hlevels htype hsearch
  obtain ⟨-, hsame⟩ := Option.ite_none_right_eq_some.mp (Outcome.ok.inj hvisit)
  rw [← Option.some.inj hsame]
  exact hentry.1

/-- A visitor that looks for a name gives out the value behind it. -/
theorem byKey_found {key : List UInt8} {place : Nat} {entry : Entry} {result : LiteCjson}
    (hvisit : byKey src key place entry = .ok (some result)) : entry.value = result := by
  unfold byKey at hvisit
  split at hvisit
  · split at hvisit
    · obtain ⟨found, -, hfound⟩ := Outcome.bind_eq_ok_iff.mp hvisit
      obtain ⟨-, hsame⟩ := Option.ite_none_right_eq_some.mp (Outcome.ok.inj hfound)
      exact Option.some.inj hsame
    · exact nomatch hvisit
  · exact nomatch hvisit

/-- It has read the name before. -/
theorem byKey_read {key : List UInt8} {place : Nat} {entry : Entry} {result : LiteCjson}
    (hvisit : byKey src key place entry = .ok (some result)) :
    ∃ name, readBytes src name key.length = .ok key := by
  unfold byKey at hvisit
  split at hvisit
  · split at hvisit
    · obtain ⟨found, hread, hfound⟩ := Outcome.bind_eq_ok_iff.mp hvisit
      obtain ⟨hsame, -⟩ := Option.ite_none_right_eq_some.mp (Outcome.ok.inj hfound)
      exact ⟨_, hsame ▸ hread⟩
    · exact nomatch hvisit
  · exact nomatch hvisit

theorem Known.objectItemByKey {lite item : LiteCjson} {key : List UInt8}
    (hlite : Known src (levels + 1) lite) (hlevels : levels ≤ liteCjsonNestingLimit)
    (hcall : liteCjsonObjectItemByKey src lite key = .ok item) : Known src levels item := by
  obtain ⟨haccept, hsearch⟩ := Outcome.ite_failed_eq_ok_iff.mp hcall
  have htype : lite.type = Nest.object.type := not_not.mp fun htype => haccept (Or.inl htype)
  obtain ⟨entry, place, hentry, hvisit⟩ := hlite.entry_of_search hlevels htype hsearch
  have hvalue : entry.value = item := @byKey_found src key place entry item hvisit
  rw [← hvalue]
  exact hentry.1

theorem Known.objectItemByIndex {lite : LiteCjson} {entry : Entry} {index : Int}
    (hlite : Known src (levels + 1) lite) (hlevels : levels ≤ liteCjsonNestingLimit)
    (hcall : liteCjsonObjectItemByIndex src lite index = .ok entry) :
    KnownEntry src levels entry := by
  obtain ⟨haccept, hsearch⟩ := Outcome.ite_failed_eq_ok_iff.mp hcall
  have htype : lite.type = Nest.object.type := not_not.mp fun htype => haccept (Or.inl htype)
  obtain ⟨found, place, hentry, hvisit⟩ := hlite.entry_of_search hlevels htype hsearch
  obtain ⟨-, hsame⟩ := Option.ite_none_right_eq_some.mp (Outcome.ok.inj hvisit)
  rw [← Option.some.inj hsame]
  exact hentry

/-- What the parser accepts is a complete value, or one that the end of the input cuts short. -/
theorem liteCjsonParse_known {lite item : LiteCjson} (hparse : liteCjsonParse src lite = .ok item) :
    Known src liteCjsonNestingLimit item := by
  obtain ⟨mark, blank, used, after, hsrc, hmark, hblank, hparsed⟩ :=
    (liteCjsonParse_keeps src lite).of_ok hparse
  cases hparsed with
  | complete doc hdoc hused hdenotes =>
      refine .complete doc (mark ++ blank) hdoc ⟨⟨after, ?_⟩, hdenotes⟩
      rw [hsrc, hused]
  | cut kind hcut hend _ _ _ =>
      have hsplit : src = mark ++ (blank ++ (used ++ [])) := by
        rw [hsrc, hend]
        simp
      have hnested : Nested kind liteCjsonNestingLimit used := Or.inr hcut
      obtain ⟨found, hfound, hknown⟩ := @liteCjsonParse_of_value src mark blank used []
        (fun item _ => Known src liteCjsonNestingLimit item) lite hsplit
        (hmark.imp_right fun h => ⟨h, hcut.two_le_length⟩) hblank hcut.starts
        (hnested.parses (Nat.le_refl _) (List.nil_append src).symm lite)
      rw [hfound] at hparse
      rw [← Outcome.ok.inj hparse]
      exact hknown

/-- So is every item that was given out. -/
theorem Returned.known {item : LiteCjson} (hitem : Returned src item) :
    Known src liteCjsonNestingLimit item := by
  have hless : 999 ≤ liteCjsonNestingLimit := by decide
  induction hitem with
  | root hcall => exact liteCjsonParse_known hcall
  | element _ hcall ih => exact (@Known.arrayItem src 999 _ _ _ ih hless hcall).mono hless
  | member _ hcall ih => exact (@Known.objectItemByKey src 999 _ _ _ ih hless hcall).mono hless
  | memberValue _ hcall ih =>
      exact (@Known.objectItemByIndex src 999 _ _ _ ih hless hcall).1.mono hless
  | memberName _ hcall hkey ih =>
      exact ((@Known.objectItemByIndex src 999 _ _ _ ih hless hcall).2 _ hkey).mono hless

/-- The name of a member that was found stands in the input. -/
theorem Returned.mem_of_key {lite item : LiteCjson} {key : List UInt8}
    (hlite : Returned src lite) (hcall : liteCjsonObjectItemByKey src lite key = .ok item) :
    ∀ byte ∈ key, byte ∈ src := by
  obtain ⟨haccept, hsearch⟩ := Outcome.ite_failed_eq_ok_iff.mp hcall
  have htype : lite.type = Nest.object.type := not_not.mp fun htype => haccept (Or.inl htype)
  have hless : 999 ≤ liteCjsonNestingLimit := by decide
  obtain ⟨entry, place, -, hvisit⟩ :=
    @Known.entry_of_search src 999 _ _ _ hlite.known hless htype _ _ hsearch
  obtain ⟨name, hread⟩ := @byKey_read src key place entry item hvisit
  exact mem_of_readBytes hread

/-- An array that was given out has an element at each index below its size, and at no other. -/
theorem Returned.arrayItem_iff {array : LiteCjson} (harray : Returned src array)
    (htype : array.type = .array) (index : Int) :
    (∃ item, liteCjsonArrayItem src array index = .ok item) ↔ 0 ≤ index ∧ index < array.size := by
  constructor
  · rintro ⟨item, hcall⟩
    obtain ⟨haccept, -⟩ := Outcome.ite_failed_eq_ok_iff.mp hcall
    omega
  · rintro ⟨hlow, hhigh⟩
    obtain ⟨entries, hentries, -⟩ := @Known.hasEntries src 999 array .array harray.known
      (by decide) htype
    have hsize := hentries.size
    have hplace : index.toNat < entries.length := by omega
    have hvisit := @visitAll_place _ Entry.value entries _ hplace 0 index (by omega)
    refine ⟨entries[index.toNat].value, Outcome.ite_failed_eq_ok_iff.mpr ⟨?_, ?_⟩⟩
    · rintro (hother | hrange)
      · exact hother htype
      · omega
    · rw [hentries.search, hvisit]
      rfl

end Entries

end EnosDeviceSdk.Infra
