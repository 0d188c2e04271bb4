/-
# The accessors stay inside the input

An item that came out of the parser, or out of an accessor that was applied to such an
item, lies inside the input. So an accessor parses a window of the input, and the contract
of the parser holds there as it does for the whole.
-/

import EnosDeviceSdk.Infra.CjsonContract

namespace EnosDeviceSdk.Infra

open EnosDeviceSdk.Library

variable {src : List UInt8}

/-! ## Windows -/

/-- An item inside the input is a window on it. -/
theorem Inside.window {lite : LiteCjson} (hinside : Inside src lite)
    (hpositive : 0 < lite.valueLength) :
    ∃ (start : Int) (ahead : List UInt8) (byte : UInt8) (rest : List UInt8),
      lite.value = some start ∧
        At src ahead (byte :: rest) ⟨start, lite.valueLength, 0⟩ [] (byte :: rest) := by
  obtain ⟨start, hvalue, hstart, _, hend⟩ := hinside.span
  let ahead := src.take start.toNat
  let text := (src.drop start.toNat).take lite.valueLength.toNat
  have hahead : (ahead.length : Int) = start := by
    simp only [ahead, List.length_take]
    omega
  have htext : (text.length : Int) = lite.valueLength := by
    simp only [text, List.length_take, List.length_drop]
    omega
  have hsrc : src = ahead ++ text ++ (src.drop start.toNat).drop lite.valueLength.toNat := by
    rw [List.append_assoc, List.take_append_drop, List.take_append_drop]
  obtain ⟨byte, rest, hcons⟩ : ∃ byte rest, text = byte :: rest := by
    apply List.exists_cons_of_ne_nil
    intro hnil
    rw [hnil] at htext
    simp only [List.length_nil] at htext
    omega
  refine ⟨start, ahead, byte, rest, hvalue, ?_⟩
  rw [← hcons]
  exact
    { text_eq := rfl
      window := ⟨_, hsrc⟩
      content_eq := hahead.symm
      length_eq := htext.symm
      offset_eq := rfl }

/-- The loop of an accessor keeps the promise of its visitor. -/
theorem searchEntries_keeps {ρ : Type} {promise : ρ → Prop} (kind : Nest) {lite : LiteCjson}
    {visit : Nat → Entry → Outcome (Option ρ)} (hinside : Inside src lite)
    (htype : lite.type = kind.type) (hvisit : VisitsEmbedded src promise visit) :
    (searchEntries src kind lite visit).Keeps promise := by
  have hpositive : 0 < lite.valueLength := by
    apply hinside.nonempty
    cases kind with
    | array => exact Or.inl htype
    | object => exact Or.inr htype
  obtain ⟨start, ahead, byte, rest, hvalue, hat⟩ := hinside.window hpositive
  unfold searchEntries
  rw [hvalue]
  apply (openNest_keeps kind hat).bind
  intro opened hopened
  cases opened with
  | empty inner => exact Outcome.keeps_failed
  | entries inner =>
      obtain ⟨⟨after, hopening⟩, hskip⟩ := hopened
      obtain ⟨rfl, rfl⟩ : byte = kind.opening ∧ rest = after := by simpa using hopening
      have hdigit : isDigit kind.opening = false := by cases kind <;> decide
      have hscan := scanEntries_keeps kind (parseValue_keeps liteCjsonNestingLimit .zero) hvisit
        (src.length + 1) 0 hat.move_one hdigit (Nat.lt_succ_of_le hat.move_one.length_rest_le)
      dsimp only
      rw [scanEntries_congr kind _ _ _ hskip]
      apply hscan.bind
      intro scan hkept
      cases scan with
      | found result => exact hkept
      | ended total final => exact Outcome.keeps_failed

/-! ## The accessors -/

theorem liteCjsonArrayItem_keeps {lite : LiteCjson} (hinside : Inside src lite) (index : Int) :
    (liteCjsonArrayItem src lite index).Keeps (Inside src) := by
  unfold liteCjsonArrayItem
  by_cases hrefused : lite.type ≠ .array ∨ index < 0 ∨ index ≥ lite.size
  · rw [if_pos hrefused]
    exact Outcome.keeps_failed
  · rw [if_neg hrefused]
    have htype : lite.type = .array := not_not.mp fun htype => hrefused (Or.inl htype)
    apply searchEntries_keeps .array hinside htype
    apply VisitsSafely.embedded
    intro count entry hentry _ result hresult
    split at hresult
    · exact Option.some.inj hresult ▸ hentry
    · exact absurd hresult (by simp)

/-- The bytes of an item inside the input can all be read. -/
theorem Inside.readBytes {item : LiteCjson} (hinside : Inside src item) {start : Int}
    (hvalue : item.value = some start) {count : Nat} (hcount : item.valueLength = count) :
    ∃ found, readBytes src start count = .ok found := by
  obtain ⟨start', hvalue', hstart, hlength, hend⟩ := hinside.span
  rw [hvalue, Option.some.injEq] at hvalue'
  subst hvalue'
  let before := src.take start.toNat
  let block := (src.drop start.toNat).take count
  have hbefore : (before.length : Int) = start := by
    simp only [before, List.length_take]
    omega
  have hblock : block.length = count := by
    simp only [block, List.length_take, List.length_drop]
    omega
  have hsrc : src = before ++ block ++ (src.drop start.toNat).drop count := by
    rw [List.append_assoc, List.take_append_drop, List.take_append_drop]
  have hread := readBytes_append before block ((src.drop start.toNat).drop count)
  rw [← hsrc, hbefore, hblock] at hread
  exact ⟨block, hread⟩

theorem liteCjsonObjectItemByKey_embedded {lite : LiteCjson} (hinside : Inside src lite)
    (key : List UInt8) : (liteCjsonObjectItemByKey src lite key).Keeps (Embedded src) := by
  unfold liteCjsonObjectItemByKey
  by_cases hrefused : lite.type ≠ .object ∨ lite.size = 0 ∨ key = []
  · rw [if_pos hrefused]
    exact Outcome.keeps_failed
  · rw [if_neg hrefused]
    have htype : lite.type = .object := not_not.mp fun htype => hrefused (Or.inl htype)
    apply searchEntries_keeps .object hinside htype
    rintro count ⟨name, value⟩ hvalue hname
    cases name with
    | none => exact fun _ hresult => absurd hresult (by simp)
    | some name =>
        obtain ⟨start, hstart, _⟩ := (hname name rfl).span
        obtain ⟨type, address, nameLength, size⟩ := name
        dsimp only at hstart
        subst hstart
        dsimp only
        by_cases hlength : nameLength = key.length
        · obtain ⟨found, hfound⟩ := (hname _ rfl).readBytes rfl hlength
          rw [if_pos hlength, hfound]
          intro result hresult
          split at hresult
          · exact Option.some.inj hresult ▸ hvalue
          · exact absurd hresult (by simp)
        · rw [if_neg hlength]
          exact fun _ hresult => absurd hresult (by simp)

theorem liteCjsonObjectItemByKey_keeps {lite : LiteCjson} (hinside : Inside src lite)
    (key : List UInt8) : (liteCjsonObjectItemByKey src lite key).Keeps (Inside src) :=
  (liteCjsonObjectItemByKey_embedded hinside key).mono fun _ hitem => hitem.inside

theorem liteCjsonObjectItemByIndex_keeps {lite : LiteCjson} (hinside : Inside src lite)
    (index : Int) :
    (liteCjsonObjectItemByIndex src lite index).Keeps fun entry =>
      Inside src entry.value ∧ ∀ key, entry.key = some key → Inside src key := by
  unfold liteCjsonObjectItemByIndex
  by_cases hrefused : lite.type ≠ .object ∨ lite.size = 0 ∨ index < 0 ∨ index ≥ lite.size
  · rw [if_pos hrefused]
    exact Outcome.keeps_failed
  · rw [if_neg hrefused]
    have htype : lite.type = .object := not_not.mp fun htype => hrefused (Or.inl htype)
    apply searchEntries_keeps .object hinside htype
    apply VisitsSafely.embedded
    intro count entry hvalue hkey result hresult
    split at hresult
    · exact Option.some.inj hresult ▸ ⟨hvalue, hkey⟩
    · exact absurd hresult (by simp)

/-! ## Whole sequences of calls -/

theorem Accepted.inside {item : LiteCjson} (haccepted : Accepted src item) : Inside src item := by
  obtain ⟨mark, blank, used, after, hsrc, _, _, hparsed⟩ := haccepted
  exact hparsed.inside hsrc

/-- The items that the parser and the accessors can have given out for an input. -/
inductive Returned (src : List UInt8) : LiteCjson → Prop
  | root {lite item : LiteCjson} (hcall : liteCjsonParse src lite = .ok item) : Returned src item
  | element {lite item : LiteCjson} {index : Int} (hlite : Returned src lite)
      (hcall : liteCjsonArrayItem src lite index = .ok item) : Returned src item
  | member {lite item : LiteCjson} {key : List UInt8} (hlite : Returned src lite)
      (hcall : liteCjsonObjectItemByKey src lite key = .ok item) : Returned src item
  | memberValue {lite : LiteCjson} {entry : Entry} {index : Int} (hlite : Returned src lite)
      (hcall : liteCjsonObjectItemByIndex src lite index = .ok entry) : Returned src entry.value
  | memberName {lite key : LiteCjson} {entry : Entry} {index : Int} (hlite : Returned src lite)
      (hcall : liteCjsonObjectItemByIndex src lite index = .ok entry)
      (hkey : entry.key = some key) : Returned src key

/-- Every item that is given out lies inside the input. -/
theorem Returned.inside {item : LiteCjson} (hitem : Returned src item) : Inside src item := by
  induction hitem with
  | root hcall => exact ((liteCjsonParse_keeps src _).of_ok hcall).inside
  | element _ hcall ih => exact (liteCjsonArrayItem_keeps ih _).of_ok hcall
  | member _ hcall ih => exact (liteCjsonObjectItemByKey_keeps ih _).of_ok hcall
  | memberValue _ hcall ih => exact ((liteCjsonObjectItemByIndex_keeps ih _).of_ok hcall).1
  | memberName _ hcall hkey ih =>
      exact ((liteCjsonObjectItemByIndex_keeps ih _).of_ok hcall).2 _ hkey

/-- The parser ends on every input, and so do the accessors on every item that was given out
for it. None of them reads outside the input, and the spans of their results lie inside it. -/
theorem parser_stays_inside (src : List UInt8) (lite : LiteCjson) :
    (liteCjsonParse src lite).Keeps (Inside src) ∧
      ∀ item, Returned src item →
        (∀ index, (liteCjsonArrayItem src item index).Keeps (Inside src)) ∧
        (∀ key, (liteCjsonObjectItemByKey src item key).Keeps (Inside src)) ∧
        ∀ index, (liteCjsonObjectItemByIndex src item index).Keeps fun entry =>
          Inside src entry.value ∧ ∀ key, entry.key = some key → Inside src key := by
  constructor
  · exact (liteCjsonParse_keeps src lite).mono fun _ haccepted => haccepted.inside
  · intro item hitem
    have hinside := hitem.inside
    exact ⟨liteCjsonArrayItem_keeps hinside, liteCjsonObjectItemByKey_keeps hinside,
      liteCjsonObjectItemByIndex_keeps hinside⟩

/-- The array `[1]` is parsed, and its element lies inside it. -/
theorem element_inside : (liteCjsonArrayItem [91, 49, 93] ⟨.array, some 0, 3, 1⟩ 0).Keeps
    (Inside [91, 49, 93]) := by
  have hroot : liteCjsonParse [91, 49, 93] .zero = .ok ⟨.array, some 0, 3, 1⟩ := by decide +kernel
  exact ((parser_stays_inside [91, 49, 93] .zero).2 _ (.root hroot)).1 0

end EnosDeviceSdk.Infra
