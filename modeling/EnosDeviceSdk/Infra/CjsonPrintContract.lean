/-
# The contract of the printer

By induction on the tree. Every part of the printer puts its text behind the one that is there, and
leaves a buffer that holds both. What a nesting needs is what its items need.

For the whole of `print` this means: the heap is in the end what it was before, with the block of
the text in front if there is one. Nothing is left over, whatever the allocator refuses.
-/

import EnosDeviceSdk.Infra.CjsonPrinted

namespace EnosDeviceSdk.Infra.Printer

open EnosDeviceSdk.Library

variable {δ ι : Type} [DecidableEq ι] {A : BlockAllocator ι} {N : NumberFormat δ}

/-! ## Parts -/

section Parts

variable {S : Setting ι} {text : List UInt8} {p : PrintBuffer ι} {easy astray : Prop}

omit [DecidableEq ι] in
theorem moveOffset_meets {dropped : PrintBuffer ι → Prop} {done : List UInt8} {room count : Nat}
    {block : ι} (hroom : Room S text done room block p) (hcount : count = done.length) :
    (moveOffset count).Meets p (fun _ q => Holds S (text ++ done) q) dropped astray :=
  Attempt.meets_change (hroom.moved hcount)

omit [DecidableEq ι] in
theorem enterNest_meets {dropped : PrintBuffer ι → Prop} (hholds : Holds S text p) :
    enterNest.Meets p (fun _ q => Holds S.deeper text q) dropped astray :=
  Attempt.meets_change hholds.entered

omit [DecidableEq ι] in
theorem enterNest_room {dropped : PrintBuffer ι → Prop} {done : List UInt8} {room : Nat}
    {block : ι} (hroom : Room S text done room block p) :
    enterNest.Meets p (fun _ q => Room S.deeper text done room block q) dropped astray :=
  Attempt.meets_change hroom.entered

omit [DecidableEq ι] in
theorem leaveNest_meets {dropped : PrintBuffer ι → Prop} {more : List UInt8}
    (hshows : Shows S.deeper text more p) :
    leaveNest.Meets p (fun _ q => Shows S text more q) dropped astray :=
  Attempt.meets_change hshows.left

/-- A text with its terminator is shown. -/
theorem printText_meets (hholds : Holds S text p) (more : List UInt8)
    (heasy : easy → text.length + more.length + 2 ≤ intMaxSize) :
    (printText A more).Meets p (fun _ q => Shows S text more q) (Dropped S.base easy) astray := by
  refine Attempt.Meets.bind (ensure_meets hholds heasy) ?_
  rintro _ q ⟨block, rfl, hq⟩
  refine (write_meets hq rfl 0 (by simp)).imp ?_
  exact fun _ r hr => hr.shows

/-- A part of a nesting is appended. -/
theorem printPart_meets (hholds : Holds S text p) (part : List UInt8) (terminated : Bool)
    (heasy : easy → text.length + part.length + 2 ≤ intMaxSize) :
    (printPart A part terminated).Meets p (fun _ q => Holds S (text ++ part) q)
      (Dropped S.base easy) astray := by
  unfold printPart
  cases terminated with
  | true =>
      refine Attempt.Meets.bind (ensure_meets hholds heasy) ?_
      rintro _ q ⟨block, rfl, hq⟩
      refine Attempt.Meets.bind (write_meets hq rfl 0 (by simp)) ?_
      intro _ r hr
      have hpart : Room S text (part ++ [0]) 0 block r := hr
      exact moveOffset_meets hpart.back rfl
  | false =>
      refine Attempt.Meets.bind (ensure_meets hholds ?_) ?_
      · intro h
        have hsmall := heasy h
        simp
        omega
      rintro _ q ⟨block, rfl, hq⟩
      refine Attempt.Meets.bind (write_meets hq rfl 0 (by simp)) ?_
      intro _ r hr
      exact moveOffset_meets hr rfl

theorem printComma_meets (hholds : Holds S text p) (last : Bool)
    (heasy : easy → text.length + (commaText S.format last).length + 2 ≤ intMaxSize) :
    (printComma A last).Meets p (fun _ q => Holds S (text ++ commaText S.format last) q)
      (Dropped S.base easy) astray := by
  apply Attempt.meets_look_bind
  rw [hholds.format]
  cases last with
  | true =>
      apply Attempt.meets_pure
      rw [commaText, if_pos rfl, List.append_nil]
      exact hholds
  | false => exact printPart_meets hholds _ true heasy

theorem printIndent_meets (hholds : Holds S text p)
    (heasy : easy → text.length + (indentText S.format S.depth).length + 2 ≤ intMaxSize) :
    (printIndent A).Meets p (fun _ q => Holds S (text ++ indentText S.format S.depth) q)
      (Dropped S.base easy) astray := by
  apply Attempt.meets_look_bind
  rw [hholds.format, hholds.depth]
  cases hformat : S.format with
  | true =>
      rw [hformat] at heasy
      exact printPart_meets hholds _ false heasy
  | false =>
      apply Attempt.meets_pure
      rw [indentText, if_neg (by simp), List.append_nil]
      exact hholds

theorem printColon_meets (hholds : Holds S text p)
    (heasy : easy → text.length + (colonText S.format).length + 2 ≤ intMaxSize) :
    (printColon A).Meets p (fun _ q => Holds S (text ++ colonText S.format) q)
      (Dropped S.base easy) astray := by
  apply Attempt.meets_look_bind
  rw [hholds.format]
  exact printPart_meets hholds _ false heasy

theorem printLineEnd_meets (hholds : Holds S text p) (last : Bool)
    (heasy : easy → text.length + (lineEndText S.format last).length + 2 ≤ intMaxSize) :
    (printLineEnd A last).Meets p (fun _ q => Holds S (text ++ lineEndText S.format last) q)
      (Dropped S.base easy) astray := by
  apply Attempt.meets_look_bind
  rw [hholds.format]
  exact printPart_meets hholds _ true heasy

end Parts

/-! ## The tree -/

/-- Every item among them can be printed, and its number has room. -/
def Sound (N : NumberFormat δ) (items : List (LiteCjsonItem δ)) : Prop :=
  ∀ item ∈ items, CanPrint item ∧ IsNarrow N item

/-- The code shows a text behind the one that is held. It goes astray only with a number that is
not narrow, and gives up only where something is in the way. -/
def ShowsText (N : NumberFormat δ) (code : Printing ι PUnit)
    (text : Bool → Nat → List UInt8) (items : List (LiteCjsonItem δ)) : Prop :=
  ∀ (S : Setting ι) (before : List UInt8) (p : PrintBuffer ι) (easy wide : Prop),
    Holds S before p →
    (easy → before.length + (text S.format S.depth).length + 2 ≤ intMaxSize ∧
      ∀ item ∈ items, CanPrint item) →
    (∀ item ∈ items, ¬IsNarrow N item → wide) →
    code.Meets p (fun _ q => Shows S before (text S.format S.depth) q ∧ Sound N items)
      (Dropped S.base easy) wide

/-- The code appends a text to the one that is held, under the same conditions. -/
def AppendsText (N : NumberFormat δ) (code : Printing ι PUnit)
    (text : Bool → Nat → List UInt8) (items : List (LiteCjsonItem δ)) : Prop :=
  ∀ (S : Setting ι) (before : List UInt8) (p : PrintBuffer ι) (easy wide : Prop),
    Holds S before p →
    (easy → before.length + (text S.format S.depth).length + 2 ≤ intMaxSize ∧
      ∀ item ∈ items, CanPrint item) →
    (∀ item ∈ items, ¬IsNarrow N item → wide) →
    code.Meets p (fun _ q => Holds S (before ++ text S.format S.depth) q ∧ Sound N items)
      (Dropped S.base easy) wide

/-! ### Terminators -/

theorem zero_not_mem_part (format last : Bool) (depth : Nat) :
    0 ∉ commaText format last ∧ 0 ∉ indentText format depth ∧ 0 ∉ colonText format ∧
      0 ∉ lineEndText format last ∧ 0 ∉ openingText format := by
  have htabs : (0 : UInt8) ∉ tabs depth := fun hmem =>
    absurd (List.eq_of_mem_replicate hmem) (by decide)
  cases format <;> cases last <;>
    simp [commaText, indentText, colonText, lineEndText, openingText, htabs]

/-- An item without a terminator in its text, if its children have none in theirs. -/
theorem zero_not_mem_item (format : Bool) (depth : Nat) (type : UInt32)
    (valuestring string : Option CString) (d : δ) {child : List (LiteCjsonItem δ)}
    (helements : 0 ∉ printedElements N format (depth + 1) child)
    (hmembers : 0 ∉ printedMembers N format (depth + 1) child) :
    0 ∉ printed N format depth (.mk type valuestring d string child) := by
  obtain ⟨-, hindent, -, -, hopening⟩ := zero_not_mem_part format true depth
  rw [printed]
  cases itemKind type with
  | none => simp
  | some kind =>
      cases kind with
      | null | false | true => simp
      | number => exact zero_not_mem_printedNumber N d
      | raw => exact zero_not_mem_stringBytes valuestring
      | string => exact zero_not_mem_quoted valuestring
      | array => simp [helements]
      | object => simp [hopening, hmembers, hindent]

mutual

theorem zero_not_mem_printed (format : Bool) :
    ∀ (depth : Nat) (item : LiteCjsonItem δ), 0 ∉ printed N format depth item
  | depth, .mk type valuestring d string child =>
      zero_not_mem_item format depth type valuestring string d
        (zero_not_mem_printedElements format (depth + 1) child)
        (zero_not_mem_printedMembers format (depth + 1) child)

theorem zero_not_mem_printedElements (format : Bool) :
    ∀ (depth : Nat) (items : List (LiteCjsonItem δ)), 0 ∉ printedElements N format depth items
  | _, [] => by simp [printedElements]
  | depth, item :: next => by
      have hitem := zero_not_mem_printed format depth item
      have hnext := zero_not_mem_printedElements format depth next
      have hcomma := (zero_not_mem_part format next.isEmpty depth).1
      simp [printedElements, hitem, hnext, hcomma]

theorem zero_not_mem_printedMembers (format : Bool) :
    ∀ (depth : Nat) (items : List (LiteCjsonItem δ)), 0 ∉ printedMembers N format depth items
  | _, [] => by simp [printedMembers]
  | depth, item :: next => by
      have hitem := zero_not_mem_printed format depth item
      have hnext := zero_not_mem_printedMembers format depth next
      have hkey := zero_not_mem_quoted item.string
      obtain ⟨-, hindent, hcolon, hend, -⟩ := zero_not_mem_part format next.isEmpty depth
      simp [printedMembers, hitem, hnext, hkey, hindent, hcolon, hend]

end

/-! ### Nestings -/

theorem sound_append {first second : List (LiteCjsonItem δ)} (hfirst : Sound N first)
    (hsecond : Sound N second) : Sound N (first ++ second) :=
  List.forall_mem_append.mpr ⟨hfirst, hsecond⟩

theorem printElements_nil :
    AppendsText N (printElements A N []) (fun format depth => printedElements N format depth [])
      (visitedAll []) := by
  intro S before p easy wide hholds _ _
  apply Attempt.meets_pure
  simp only [printedElements, visitedAll, List.append_nil]
  exact ⟨hholds, List.forall_mem_nil _⟩

/-- An element, a comma, and the elements behind. -/
theorem printElements_cons {item : LiteCjsonItem δ} {next : List (LiteCjsonItem δ)}
    (hitem : ShowsText N (printValue A N item)
      (fun format depth => printed N format depth item) (visited item))
    (hnext : AppendsText N (printElements A N next)
      (fun format depth => printedElements N format depth next) (visitedAll next)) :
    AppendsText N (printElements A N (item :: next))
      (fun format depth => printedElements N format depth (item :: next))
      (visitedAll (item :: next)) := by
  intro S before p easy wide hholds heasy hwide
  simp only [printedElements, visitedAll, List.length_append, List.forall_mem_append]
    at heasy hwide ⊢
  rw [printElements]
  refine Attempt.Meets.bind (hitem S before p easy wide hholds ?_ hwide.1) ?_
  · intro h
    obtain ⟨hsmall, hitems, -⟩ := heasy h
    exact ⟨by dsimp only; omega, hitems⟩
  rintro _ q ⟨hq, hsound⟩
  refine Attempt.Meets.bind (updateOffset_meets hq (zero_not_mem_printed S.format S.depth item)) ?_
  intro _ r hr
  refine Attempt.Meets.bind (printComma_meets hr next.isEmpty ?_) ?_
  · intro h
    have hsmall := (heasy h).1
    simp only [List.length_append]
    omega
  intro _ s hs
  refine (hnext S _ s easy wide hs ?_ hwide.2).imp ?_
  · intro h
    obtain ⟨hsmall, -, hitems⟩ := heasy h
    exact ⟨by simp only [List.length_append]; omega, hitems⟩
  rintro _ t ⟨ht, hrest⟩
  rw [← List.append_assoc, ← List.append_assoc]
  exact ⟨ht, sound_append hsound hrest⟩

theorem printMembers_nil :
    AppendsText N (printMembers A N []) (fun format depth => printedMembers N format depth [])
      (visitedAll []) := by
  intro S before p easy wide hholds _ _
  apply Attempt.meets_pure
  simp only [printedMembers, visitedAll, List.append_nil]
  exact ⟨hholds, List.forall_mem_nil _⟩

/-- A member with its key and what belongs to the line, and the members behind. -/
theorem printMembers_cons {item : LiteCjsonItem δ} {next : List (LiteCjsonItem δ)}
    (hitem : ShowsText N (printValue A N item)
      (fun format depth => printed N format depth item) (visited item))
    (hnext : AppendsText N (printMembers A N next)
      (fun format depth => printedMembers N format depth next) (visitedAll next)) :
    AppendsText N (printMembers A N (item :: next))
      (fun format depth => printedMembers N format depth (item :: next))
      (visitedAll (item :: next)) := by
  intro S before p easy wide hholds heasy hwide
  simp only [printedMembers, visitedAll, List.length_append, List.forall_mem_append]
    at heasy hwide ⊢
  rw [printMembers]
  refine Attempt.Meets.bind (printIndent_meets hholds ?_) ?_
  · intro h
    have hsmall := (heasy h).1
    omega
  intro _ q hq
  refine Attempt.Meets.bind (printStringPtr_meets hq item.string ?_) ?_
  · intro h
    have hsmall := (heasy h).1
    simp only [List.length_append]
    omega
  intro _ r hr
  refine Attempt.Meets.bind (updateOffset_meets hr (zero_not_mem_quoted item.string)) ?_
  intro _ s hs
  refine Attempt.Meets.bind (printColon_meets hs ?_) ?_
  · intro h
    have hsmall := (heasy h).1
    simp only [List.length_append]
    omega
  intro _ t ht
  refine Attempt.Meets.bind (hitem S _ t easy wide ht ?_ hwide.1) ?_
  · intro h
    obtain ⟨hsmall, hitems, -⟩ := heasy h
    exact ⟨by simp only [List.length_append]; omega, hitems⟩
  rintro _ u ⟨hu, hsound⟩
  refine Attempt.Meets.bind (updateOffset_meets hu (zero_not_mem_printed S.format S.depth item)) ?_
  intro _ v hv
  refine Attempt.Meets.bind (printLineEnd_meets hv next.isEmpty ?_) ?_
  · intro h
    have hsmall := (heasy h).1
    simp only [List.length_append]
    omega
  intro _ w hw
  refine (hnext S _ w easy wide hw ?_ hwide.2).imp ?_
  · intro h
    obtain ⟨hsmall, -, hitems⟩ := heasy h
    exact ⟨by simp only [List.length_append]; omega, hitems⟩
  rintro _ x ⟨hx, hrest⟩
  simp only [List.append_assoc] at hx ⊢
  exact ⟨hx, sound_append hsound hrest⟩

/-- An array, with its elements one level deeper. -/
theorem printArray_meets {elements : Printing ι PUnit} {inner : Bool → Nat → List UInt8}
    {items : List (LiteCjsonItem δ)} (helements : AppendsText N elements inner items) :
    ShowsText N (printArray A elements)
      (fun format depth => 91 :: inner format (depth + 1) ++ [93]) items := by
  intro S before p easy wide hholds heasy hwide
  dsimp only at heasy ⊢
  simp only [List.length_append, List.length_cons, List.length_nil] at heasy
  unfold printArray
  refine Attempt.Meets.bind (ensure_meets hholds ?_) ?_
  · intro h
    have hsmall := (heasy h).1
    omega
  rintro _ q ⟨block, rfl, hq⟩
  refine Attempt.Meets.bind (write_meets hq rfl 0 (Nat.le_refl _)) ?_
  intro _ r hr
  refine Attempt.Meets.bind (moveOffset_meets hr rfl) ?_
  intro _ s hs
  refine Attempt.Meets.bind (enterNest_meets hs) ?_
  intro _ t ht
  refine Attempt.Meets.bind (helements S.deeper _ t easy wide ht ?_ hwide) ?_
  · intro h
    obtain ⟨hsmall, hitems⟩ := heasy h
    refine ⟨?_, hitems⟩
    simp only [Setting.deeper, List.length_append, List.nil_append, List.length_singleton]
    omega
  rintro _ u ⟨hu, hsound⟩
  change Attempt.Meets _ u _ (Dropped S.deeper.base easy) wide
  refine Attempt.Meets.bind (ensure_meets hu ?_) ?_
  · intro h
    have hsmall := (heasy h).1
    simp only [Setting.deeper, List.length_append, List.nil_append, List.length_singleton]
    omega
  rintro _ v ⟨block, rfl, hv⟩
  refine Attempt.Meets.bind (write_meets hv rfl 0 (Nat.le_refl _)) ?_
  intro _ w hw
  have hlast : Shows S.deeper _ [93] w := hw.shows
  refine (leaveNest_meets hlast).imp ?_
  intro _ x hx
  rw [List.append_assoc] at hx
  exact ⟨hx.extend, hsound⟩

/-- An object, with its members one level deeper. -/
theorem printObject_meets {members : Printing ι PUnit} {inner : Bool → Nat → List UInt8}
    {items : List (LiteCjsonItem δ)} (hmembers : AppendsText N members inner items) :
    ShowsText N (printObject A members)
      (fun format depth => openingText format ++ inner format (depth + 1) ++
        (indentText format depth ++ [125])) items := by
  intro S before p easy wide hholds heasy hwide
  dsimp only at heasy ⊢
  simp only [List.length_append, List.length_singleton] at heasy
  unfold printObject
  apply Attempt.meets_look_bind
  rw [hholds.format, ← openingText]
  refine Attempt.Meets.bind (ensure_meets hholds ?_) ?_
  · intro h
    have hsmall := (heasy h).1
    omega
  rintro _ q ⟨block, rfl, hq⟩
  refine Attempt.Meets.bind (write_meets hq rfl 0 (by omega)) ?_
  intro _ r hr
  refine Attempt.Meets.bind (enterNest_room hr) ?_
  intro _ s hs
  refine Attempt.Meets.bind (moveOffset_meets hs rfl) ?_
  intro _ t ht
  refine Attempt.Meets.bind (hmembers S.deeper _ t easy wide ht ?_ hwide) ?_
  · intro h
    obtain ⟨hsmall, hitems⟩ := heasy h
    refine ⟨?_, hitems⟩
    simp only [Setting.deeper, List.length_append, List.nil_append]
    omega
  rintro _ u ⟨hu, hsound⟩
  apply Attempt.meets_look_bind
  change Attempt.Meets _ u _ (Dropped S.deeper.base easy) wide
  have hclosing : (if u.format then tabs (u.depth - 1) else []) ++ [125, 0] =
      (indentText S.format S.depth ++ [125]) ++ [0] := by
    rw [hu.format, hu.depth, indentText, List.append_assoc]
    rfl
  have hneeded : (if u.format then u.depth + 1 else 2) =
      (indentText S.format S.depth ++ [125]).length + 1 := by
    rw [hu.format, hu.depth, indentText]
    by_cases hformat : S.format
    · simp [Setting.deeper, tabs, hformat]
    · simp [Setting.deeper, hformat]
  rw [hclosing, hneeded]
  refine Attempt.Meets.bind (ensure_meets hu ?_) ?_
  · intro h
    have hsmall := (heasy h).1
    simp only [Setting.deeper, List.length_append, List.nil_append, List.length_singleton]
    omega
  rintro _ v ⟨block, rfl, hv⟩
  refine Attempt.Meets.bind (write_meets hv rfl 0 (by simp)) ?_
  intro _ w hw
  refine (leaveNest_meets hw.shows).imp ?_
  intro _ x hx
  rw [List.append_assoc before] at hx
  exact ⟨hx.extend, hsound⟩

/-! ### Values -/

/-- An item without items below it. -/
theorem sound_leaf {item : LiteCjsonItem δ} (hprint : CanPrint item) (hnarrow : IsNarrow N item) :
    Sound N [item] := by
  intro other hother
  rw [List.mem_singleton.mp hother]
  exact ⟨hprint, hnarrow⟩

/-- A nesting is sound if the items below it are. -/
theorem sound_cons {item : LiteCjsonItem δ} {items : List (LiteCjsonItem δ)}
    (hprint : CanPrint item) (hnarrow : IsNarrow N item) (hitems : Sound N items) :
    Sound N (item :: items) :=
  List.forall_mem_cons.mpr ⟨⟨hprint, hnarrow⟩, hitems⟩

/-- A value, from the loops over the items below it. -/
theorem printValue_of_child {child : List (LiteCjsonItem δ)}
    (helements : AppendsText N (printElements A N child)
      (fun format depth => printedElements N format depth child) (visitedAll child))
    (hmembers : AppendsText N (printMembers A N child)
      (fun format depth => printedMembers N format depth child) (visitedAll child))
    (type : UInt32) (valuestring string : Option CString) (d : δ) :
    ShowsText N (printValue A N (.mk type valuestring d string child))
      (fun format depth => printed N format depth (.mk type valuestring d string child))
      (visited (.mk type valuestring d string child)) := by
  intro S before p easy wide hholds heasy hwide
  simp only [printed, visited] at heasy hwide ⊢
  simp only [printValue]
  cases hkind : itemKind type with
  | none =>
      rw [hkind] at heasy
      apply Attempt.meets_giveUp
      exact hholds.dropped fun h => ((heasy h).2 _ List.mem_cons_self).1 hkind
  | some kind =>
      rw [hkind] at heasy hwide
      have hprint : kind ≠ .raw → CanPrint (.mk type valuestring d string child) := fun hraw =>
        ⟨by simp [hkind], fun h => absurd (Option.some.inj (hkind.symm.trans h)) hraw⟩
      have hnarrow : kind ≠ .number → IsNarrow N (.mk type valuestring d string child) :=
        fun hnumber h => absurd (Option.some.inj (hkind.symm.trans h)) hnumber
      cases kind with
      | null | false | true =>
          refine (printText_meets hholds _ fun h => (heasy h).1).imp ?_
          intro _ q hq
          exact ⟨hq, sound_leaf (hprint (by decide)) (hnarrow (by decide))⟩
      | string =>
          refine (printStringPtr_meets hholds valuestring
            fun h => (heasy h).1).imp ?_
          intro _ q hq
          exact ⟨hq, sound_leaf (hprint (by decide)) (hnarrow (by decide))⟩
      | number =>
          refine (printNumber_meets N d hholds fun h => (heasy h).1).mono ?_
            (fun _ hdropped => hdropped) ?_
          · rintro _ q ⟨hq, hfits⟩
            exact ⟨hq, sound_leaf (hprint (by decide)) fun _ => hfits⟩
          · intro hwider
            exact hwide _ List.mem_cons_self fun hfits => hwider (hfits hkind)
      | raw =>
          cases valuestring with
          | none =>
              apply Attempt.meets_giveUp
              exact hholds.dropped fun h => ((heasy h).2 _ List.mem_cons_self).2 hkind rfl
          | some raw =>
              refine (printText_meets hholds raw.bytes
                fun h => (heasy h).1).imp ?_
              intro _ q hq
              exact ⟨hq, sound_leaf ⟨by simp [hkind], fun _ => by simp⟩ (hnarrow (by decide))⟩
      | array =>
          have harray := printArray_meets (A := A) helements S before p easy wide hholds
            (fun h => ⟨(heasy h).1, (List.forall_mem_cons.mp (heasy h).2).2⟩)
            (List.forall_mem_cons.mp hwide).2
          refine harray.imp ?_
          rintro _ q ⟨hq, hsound⟩
          exact ⟨hq, sound_cons (hprint (by decide)) (hnarrow (by decide)) hsound⟩
      | object =>
          have hobject := printObject_meets (A := A) hmembers S before p easy wide hholds
            (fun h => ⟨(heasy h).1, (List.forall_mem_cons.mp (heasy h).2).2⟩)
            (List.forall_mem_cons.mp hwide).2
          refine hobject.imp ?_
          rintro _ q ⟨hq, hsound⟩
          exact ⟨hq, sound_cons (hprint (by decide)) (hnarrow (by decide)) hsound⟩

mutual

/-- `print_value` shows the text of the item. -/
theorem printValue_meets : ∀ item : LiteCjsonItem δ,
    ShowsText N (printValue A N item) (fun format depth => printed N format depth item)
      (visited item)
  | .mk type valuestring d string child =>
      printValue_of_child (printElements_meets child) (printMembers_meets child) type valuestring
        string d

theorem printElements_meets : ∀ items : List (LiteCjsonItem δ),
    AppendsText N (printElements A N items)
      (fun format depth => printedElements N format depth items) (visitedAll items)
  | [] => printElements_nil
  | item :: next => printElements_cons (printValue_meets item) (printElements_meets next)

theorem printMembers_meets : ∀ items : List (LiteCjsonItem δ),
    AppendsText N (printMembers A N items)
      (fun format depth => printedMembers N format depth items) (visitedAll items)
  | [] => printMembers_nil
  | item :: next => printMembers_cons (printValue_meets item) (printMembers_meets next)

end

/-! ## The whole text -/

/-- The text is copied to a block of its own, and the buffer is given back. -/
theorem printToBlock_meets {S : Setting ι} {p : PrintBuffer ι} {easy wide : Prop}
    (item : LiteCjsonItem δ) (hholds : Holds S [] p)
    (heasy : easy → (printed N S.format S.depth item).length + 2 ≤ intMaxSize ∧
      ∀ other ∈ visited item, CanPrint other)
    (hwide : ∀ other ∈ visited item, ¬IsNarrow N other → wide) :
    (printToBlock A N (some item)).Meets p
      (fun block q => block ∉ S.base.inUse ∧
        q.heap.blocks = (block, printed N S.format S.depth item ++ [0]) :: S.base.blocks ∧
          Sound N (visited item) ∧ (printed N S.format S.depth item).length + 2 ≤ intMaxSize)
      (Dropped S.base easy) wide := by
  have hvalue : (printValue A N item).Meets p
      (fun _ q => Shows S [] (printed N S.format S.depth item) q ∧ Sound N (visited item))
      (Dropped S.base easy) wide :=
    printValue_meets item S [] p easy wide hholds
      (fun h => ⟨by simpa using (heasy h).1, (heasy h).2⟩) hwide
  refine Attempt.Meets.bind hvalue ?_
  rintro _ q ⟨hq, hsound⟩
  have hsmall := hq.text_length
  refine Attempt.Meets.bind (updateOffset_meets hq (zero_not_mem_printed S.format S.depth item)) ?_
  intro _ r hr
  rw [List.nil_append] at hr
  rw [List.length_nil, Nat.zero_add] at hsmall
  obtain ⟨buffer, behind, hbehind, howns⟩ := hr.owns
  have hpositive := List.length_pos_iff.mpr hbehind
  apply Attempt.meets_look_bind
  rcases BlockHeap.allocate_cases A r.heap (r.offset + 1) with
    hheap | ⟨block, fresh, hnew, hsize, hheap⟩
  · have hallocate : allocate A (r.offset + 1) r = .ok (some none,
        { r with heap := ⟨r.heap.blocks, r.heap.moment + 1, r.heap.refused + 1⟩ }) := by
      simp only [allocate, Attempt.attempt, hheap, Outcome.ok_bind, Outcome.pure_eq]
    apply Attempt.meets_bind_of_eq hallocate
    apply Attempt.meets_giveUp
    have hcounted : S.base.refused < r.heap.refused + 1 := by
      rw [howns.granted]
      exact Nat.lt_succ_self _
    exact ⟨fun _ => hcounted, .inr ⟨buffer, _, howns.buffer, howns.blocks⟩⟩
  · have hother : block ≠ buffer := by
      rintro rfl
      rw [BlockHeap.inUse_of_blocks howns.blocks] at hnew
      exact hnew List.mem_cons_self
    have hallocate : allocate A (r.offset + 1) r = .ok (some (some block),
        { r with
          heap := ⟨(block, fresh) :: r.heap.blocks, r.heap.moment + 1, r.heap.refused⟩ }) := by
      simp only [allocate, Attempt.attempt, hheap, Outcome.ok_bind, Outcome.pure_eq]
    have hblocks : (block, fresh) :: r.heap.blocks =
        (block, fresh) :: (buffer, printed N S.format S.depth item ++ behind) :: S.base.blocks := by
      rw [howns.blocks]
    have hlength := howns.length
    have hoffset := hr.offset
    rw [List.length_append] at hlength
    have hcount : min r.length (r.offset + 1) = r.offset + 1 := by omega
    have hkept : (printed N S.format S.depth item ++ behind).take (r.offset + 1) =
        printed N S.format S.depth item ++ behind.take 1 := by
      rw [hoffset, List.take_length_add_append]
    have hfull : fresh.drop (r.offset + 1) = [] := List.drop_eq_nil_of_le (by omega)
    apply Attempt.meets_bind_of_eq hallocate
    dsimp only
    rw [howns.buffer]
    dsimp only
    rw [hcount]
    apply Attempt.meets_bind_of_eq
      (copyBlock_eq hother hblocks (by rw [List.length_append]; omega) (by omega))
    rw [hkept, hfull]
    apply Attempt.meets_bind_of_eq
      (write_eq rfl (by rw [List.length_take, List.length_singleton]; omega) hoffset)
    apply Attempt.meets_bind_of_eq (deallocate_eq (BlockHeap.free_second hother rfl))
    apply Attempt.meets_pure
    rw [BlockHeap.inUse_of_blocks howns.blocks] at hnew
    refine ⟨fun hmem => hnew (List.mem_cons_of_mem _ hmem), ?_, hsound, hsmall⟩
    exact congrArg (fun bytes => (block, bytes) :: S.base.blocks) (List.append_nil _)

/-- Printing an item goes astray only at a number that is not narrow. Where it returns null the heap
has the same blocks as before, and if it was easy, it refused a request. Otherwise the heap has the
blocks that it had, with a new one in front that has just the item's text with a terminator. -/
theorem print_ends (A : BlockAllocator ι) {item : LiteCjsonItem δ} {format : Bool}
    (heap : BlockHeap ι) {easy wide : Prop}
    (heasy : easy → (printed N format 0 item).length + 2 ≤ intMaxSize ∧
      ∀ other ∈ visited item, CanPrint other)
    (hwide : ∀ other ∈ visited item, ¬IsNarrow N other → wide) :
    (print A N (some item) format heap = .stray ∧ wide) ∨
      (∃ after, print A N (some item) format heap = .ok (none, after) ∧
        after.blocks = heap.blocks ∧ (easy → heap.refused < after.refused)) ∨
      ∃ block after, print A N (some item) format heap = .ok (some block, after) ∧
        block ∉ heap.inUse ∧ after.blocks = (block, printed N format 0 item ++ [0]) :: heap.blocks ∧
          (printed N format 0 item).length + 2 ≤ intMaxSize ∧ Sound N (visited item) := by
  unfold print
  rcases BlockHeap.allocate_cases A heap 256 with hheap | ⟨buffer, fresh, hnew, hsize, hheap⟩
  · rw [hheap]
    exact .inr (.inl ⟨_, rfl, rfl, fun _ => Nat.lt_succ_self _⟩)
  · have hholds : Holds ⟨heap, format, 0⟩ []
        (⟨some buffer, 256, 0, 0, false, format,
          ⟨(buffer, fresh) :: heap.blocks, heap.moment + 1, heap.refused⟩⟩ : PrintBuffer ι) := by
      refine ⟨⟨buffer, fresh, ?_, ⟨rfl, rfl, rfl, hsize.symm, ?_, rfl⟩⟩, rfl, rfl, rfl⟩
      · exact List.ne_nil_of_length_pos (by omega)
      · rw [List.nil_append, hsize]
        decide
    have hmeets := printToBlock_meets (A := A) item hholds heasy hwide
    rw [hheap]
    dsimp only
    unfold Attempt.Meets at hmeets
    cases hrun : printToBlock A N (some item)
        ⟨some buffer, 256, 0, 0, false, format,
          ⟨(buffer, fresh) :: heap.blocks, heap.moment + 1, heap.refused⟩⟩ with
    | ok result =>
        rw [hrun] at hmeets
        obtain ⟨_ | block, p⟩ := result
        · obtain ⟨hrefused, ⟨hnull, hblocks⟩ | ⟨block, bytes, hblock, hblocks⟩⟩ := hmeets
          · refine .inr (.inl ⟨p.heap, ?_, hblocks, hrefused⟩)
            simp only [Outcome.ok_bind, hnull, Outcome.pure_eq]
          · refine .inr (.inl ⟨{ p.heap with blocks := heap.blocks }, ?_, rfl, hrefused⟩)
            simp only [Outcome.ok_bind, hblock, BlockHeap.free_front hblocks, Outcome.pure_eq]
        · obtain ⟨hblock, hblocks, hsound, hsmall⟩ := hmeets
          exact .inr (.inr ⟨block, p.heap, rfl, hblock, hblocks, hsmall, hsound⟩)
    | stray =>
        rw [hrun] at hmeets
        exact .inl ⟨rfl, hmeets⟩
    | failed | running =>
        rw [hrun] at hmeets
        exact hmeets.elim

/-- Printing an item ends in one of three ways. It goes astray, and then one of the items below is
a number whose texts have no room in the array. It returns null, and then the blocks are those from
before, and a request of this call was refused, the text is too long, or something below has no
known type or is raw without a text. Or it returns a new block that has just the item's text with a
terminator, and the other blocks are those from before. -/
theorem print_cases (A : BlockAllocator ι) (N : NumberFormat δ) (item : LiteCjsonItem δ)
    (format : Bool) (heap : BlockHeap ι) :
    (print A N (some item) format heap = .stray ∧ ∃ other ∈ visited item, ¬IsNarrow N other) ∨
      (∃ after, print A N (some item) format heap = .ok (none, after) ∧
        after.blocks = heap.blocks ∧
          (heap.refused < after.refused ∨ intMaxSize < (printed N format 0 item).length + 2 ∨
            ∃ other ∈ visited item, ¬CanPrint other)) ∨
      ∃ block after, print A N (some item) format heap = .ok (some block, after) ∧
        block ∉ heap.inUse ∧ after.blocks = (block, printed N format 0 item ++ [0]) :: heap.blocks ∧
          (printed N format 0 item).length + 2 ≤ intMaxSize ∧ Sound N (visited item) := by
  rcases print_ends A heap id fun other hother hwide =>
      (⟨other, hother, hwide⟩ : ∃ other ∈ visited item, ¬IsNarrow N other) with
    hstray | ⟨after, hprint, hblocks, hrefused⟩ | hprinted
  · exact .inl hstray
  · refine .inr (.inl ⟨after, hprint, hblocks, ?_⟩)
    by_contra hnone
    push Not at hnone
    obtain ⟨hgranted, hsmall, hitems⟩ := hnone
    exact absurd (hrefused ⟨hsmall, hitems⟩) (not_lt.mpr hgranted)
  · exact .inr (.inr hprinted)

end EnosDeviceSdk.Infra.Printer
