/-
# Which inputs the JSON parser accepts wrongly

The parser accepts a complete text, or one that is cut short by the end of the input. The
second kind comes from skipping white space: at the end of the input it steps back, and the
closing bracket of an inner nesting is read again as the one of the outer.

The two kinds exclude each other, since the brackets of one balance and those of the other
do not. So the parser finds a complete value in all it accepts just when the input is not
cut short.
-/

import EnosDeviceSdk.Infra.CjsonComplete

namespace EnosDeviceSdk.Infra

open EnosDeviceSdk.Library

variable {src : List UInt8}

/-- Whatever the parser accepts is, behind a byte order mark and white space, a complete text
of the grammar, and the item has the span of its value. -/
def FindsCompleteText (src : List UInt8) : Prop :=
  ∀ lite item, liteCjsonParse src lite = .ok item →
    ∃ mark blank doc rest levels, src = mark ++ blank ++ doc.render ++ rest ∧
      (mark = [] ∨ mark = bom) ∧ Blank blank ∧ Doc.WellFormed levels doc ∧
      Denotes item doc (mark ++ blank).length

/-- Behind a byte order mark and white space, the input is an array without its closing
bracket that ends behind its last element, which is an array itself, complete or of the same
kind; or such an object. -/
def CutInput (src : List UInt8) : Prop :=
  ∃ mark blank kind used, src = mark ++ blank ++ used ∧ (mark = [] ∨ mark = bom) ∧ Blank blank ∧
    CutShort kind liteCjsonNestingLimit used

/-- An input that is cut short is accepted as a whole. -/
theorem CutInput.accepted (hcut : CutInput src) (lite : LiteCjson) :
    ∃ mark blank kind used item, src = mark ++ blank ++ used ∧
      CutShort kind liteCjsonNestingLimit used ∧ liteCjsonParse src lite = .ok item ∧
      CutItem item kind used (mark ++ blank).length := by
  obtain ⟨mark, blank, kind, used, hsrc, hmark, hblank, hshort⟩ := hcut
  have hsplit : src = mark ++ (blank ++ (used ++ [])) := by
    rw [hsrc]
    simp
  obtain ⟨item, hitem, hgood⟩ := liteCjsonParse_of_value lite hsplit
    (hmark.imp_right fun h => ⟨h, hshort.two_le_length⟩) hblank hshort.starts
    (parseValue_cut liteCjsonNestingLimit lite hshort)
  exact ⟨mark, blank, kind, used, item, hsrc, hshort, hitem, hgood⟩

/-- The span of an item with the type of a nesting is the text it denotes. -/
theorem Denotes.span_of_nest {item : LiteCjson} {doc : Doc} {kind : Nest} {place start : Nat}
    (hdenotes : Denotes item doc place) (htype : item.type = kind.type)
    (hvalue : item.value = some (start : Int)) :
    place = start ∧ item.valueLength = doc.render.length := by
  cases doc with
  | scalar token =>
      have hsame := hdenotes.type.symm.trans htype
      cases token <;> cases kind <;> exact absurd hsame (by simp [Doc.type, Token.type, Nest.type])
  | nest kind blank entries =>
      have hplace := hdenotes.value.symm.trans hvalue
      simp only [Doc.indent, Option.some.injEq] at hplace
      exact ⟨by omega, hdenotes.valueLength⟩

/-- The text of a wrongly accepted input is not complete. -/
theorem CutInput.not_findsCompleteText (hcut : CutInput src) : ¬FindsCompleteText src := by
  intro hfinds
  obtain ⟨mark, blank, kind, used, item, hsrc, hshort, hitem, hcutItem⟩ := hcut.accepted .zero
  obtain ⟨mark', blank', doc, rest, levels, hsrc', _, _, hdoc, hdenotes⟩ := hfinds _ item hitem
  obtain ⟨hplace, hlength⟩ := hdenotes.span_of_nest hcutItem.type hcutItem.value
  have hused : used.length = doc.render.length := by
    have hsame := hcutItem.valueLength.symm.trans hlength
    omega
  have hsame : mark' ++ blank' ++ (doc.render ++ rest) = mark ++ blank ++ used := by
    rw [← hsrc, hsrc', List.append_assoc, List.append_assoc, List.append_assoc]
  have htext := (List.append_inj hsame hplace).2
  have hrender : doc.render = used := by
    have hwhole := congrArg (List.take doc.render.length) htext
    rwa [List.take_left', List.take_of_length_le (Nat.le_of_eq hused)] at hwhole
    rfl
  rw [← hrender] at hshort
  exact hshort.not_render hdoc

/-- What the parser accepts holds a complete text, unless the input is cut short. -/
theorem findsCompleteText_of_not_cut (hcut : ¬CutInput src) : FindsCompleteText src := by
  intro lite item hitem
  obtain ⟨mark, blank, used, after, hsrc, hmark, hblank, hparsed⟩ :=
    (liteCjsonParse_keeps src lite).of_ok hitem
  cases hparsed with
  | complete doc hdoc hused hdenotes =>
      exact ⟨mark, blank, doc, after, liteCjsonNestingLimit, by rw [hsrc, hused], hmark, hblank,
        hdoc, hdenotes⟩
  | cut kind hshort hend _ _ _ =>
      refine absurd ⟨mark, blank, kind, used, ?_, hmark, hblank, hshort⟩ hcut
      rw [hsrc, hend, List.append_nil]

/-- The parser finds a complete text in what it accepts exactly if the input is not cut short
behind a last entry of the same kind. -/
theorem findsCompleteText_iff (src : List UInt8) : FindsCompleteText src ↔ ¬CutInput src := by
  constructor
  · intro hfinds hcut
    exact hcut.not_findsCompleteText hfinds
  · exact findsCompleteText_of_not_cut

/-- The text `[[]` is accepted, with an array of three bytes. -/
theorem unclosed_array_accepted :
    liteCjsonParse [91, 91, 93] .zero = .ok ⟨.array, some 0, 3, 1⟩ ∧
      ¬FindsCompleteText [91, 91, 93] := by
  constructor
  · decide +kernel
  · have hframe : (elementFrame []).Fits .array := elementFrame_fits blank_nil
    have hinner : (Doc.nest .array [] []).WellFormed 999 :=
      .nest blank_nil (List.forall_mem_nil _) (List.forall_mem_nil _)
    have hshort : CutShort .array liteCjsonNestingLimit
        (Nest.array.opening :: priorText [] ++ (elementFrame []).lead ++
          (Doc.nest .array [] []).render) :=
      .last (List.forall_mem_nil _) (List.forall_mem_nil _) hframe hinner
    have hcut : CutInput [91, 91, 93] :=
      ⟨[], [], .array, _, rfl, Or.inl rfl, blank_nil, hshort⟩
    exact hcut.not_findsCompleteText

end EnosDeviceSdk.Infra
