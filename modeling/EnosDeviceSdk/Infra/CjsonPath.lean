/-
# Keys with dots and brackets

`lite_cjson_object_item` takes a key for a path. It is cut at its dots, and each segment is looked
up in the object that the one before it has led to. A segment that ends with a number in brackets
is the name of an array and the index of one of its elements.

The loop of the code steps through the key by pointers, in two ways. It is the fold of the lookups
of the segments all the same, so a path can be followed in two parts at each of its dots. An index
finds an element exactly if the array has one there, for every array that was given out.
-/

import EnosDeviceSdk.Infra.CjsonListing
import EnosDeviceSdk.Infra.Printf

namespace EnosDeviceSdk.Infra

open EnosDeviceSdk.Library

/-! ## The code -/

/-- What the loop of `_lite_cjson_key_array_index` keeps: how many brackets are open, and the places
of the first opening and the first closing one. -/
structure KeyBrackets where
  deep : Int
  bracketPre : Option Nat
  bracketSuf : Option Nat
  deriving DecidableEq

/-- The body of the loop. It gives up where an open bracket is opened again, where a bracket that is
not open is closed, and where nothing stands between the two. -/
def keyBracketsStep (key : List UInt8) (index : Nat) (char : UInt8) (brackets : KeyBrackets) :
    Option KeyBrackets :=
  if char = 91 then
    if brackets.deep ≠ 0 then none
    else
      some { brackets with
        deep := brackets.deep + 1
        bracketPre := brackets.bracketPre <|> some index }
  else if char = 93 then
    if brackets.deep ≠ 1 then none
    else if key[index - 1]? = some 91 then none
    else
      some { brackets with
        deep := brackets.deep - 1
        bracketSuf := brackets.bracketSuf <|> some index }
  else some brackets

/-- The loop over the characters of a key. -/
def keyBracketsLoop (key : List UInt8) : List UInt8 → Nat → KeyBrackets → Option KeyBrackets
  | [], _, brackets => some brackets
  | char :: rest, index, brackets => do
      let brackets ← keyBracketsStep key index char brackets
      keyBracketsLoop key rest (index + 1) brackets

/-- `_lite_cjson_key_array_index`, with `partial_key_len`, `array_key_len` and `array_index`. The
first bracket is open where the first one is closed, so its place is the smaller one. -/
def keyArrayIndex (key : List UInt8) : Option (Nat × Nat × Int) := do
  let brackets ← keyBracketsLoop key key 0 ⟨0, none, none⟩
  let bracketPre ← brackets.bracketPre
  let bracketSuf ← brackets.bracketSuf
  if bracketSuf + 1 = key.length then
    if bracketSuf - bracketPre - 1 > 10 then none
    else
      some (bracketPre, bracketSuf + 1,
        atoi ((key.drop (bracketPre + 1)).take (bracketSuf - bracketPre - 1)))
  else none

section ObjectItem

variable (src : List UInt8)

/-- The loop of `lite_cjson_object_item`, from a place in the key and the item that it has come
to. -/
def objectItemLoop (key : List UInt8) : Nat → Nat → LiteCjson → Outcome LiteCjson
  | 0, _, _ => .running
  | steps + 1, keyIter, liteIter => do
      let delim := strchr key keyIter 46
      let keyIterLen :=
        match delim with
        | some place => place - keyIter
        | none => key.length - keyIter
      let segment := (key.drop keyIter).take keyIterLen
      match keyArrayIndex segment with
      | some (partialKeyLen, arrayKeyLen, arrayIndex) =>
          let litePrev ← liteCjsonObjectItemByKey src liteIter (segment.take partialKeyLen)
          if litePrev.type ≠ .array then .failed
          else do
            let liteNext ← liteCjsonArrayItem src litePrev arrayIndex
            match delim with
            | some _ => objectItemLoop key steps (keyIter + (arrayKeyLen + 1)) liteNext
            | none => return liteNext
      | none =>
          let litePrev ← liteCjsonObjectItemByKey src liteIter segment
          match delim with
          | some place => objectItemLoop key steps (place + 1) litePrev
          | none => return litePrev

/-- `lite_cjson_object_item`, for a key that ends where its string does. -/
def liteCjsonObjectItem (lite : LiteCjson) (key : List UInt8) : Outcome LiteCjson :=
  if lite.type ≠ .object ∨ lite.value = none ∨ lite.size = 0 ∨ key = [] then .failed
  else objectItemLoop src key (key.length + 1) 0 lite

/-! ## Segments -/

/-- The lookup of one segment. -/
def segmentItem (lite : LiteCjson) (segment : List UInt8) : Outcome LiteCjson :=
  match keyArrayIndex segment with
  | some (partialKeyLen, _, arrayIndex) => do
      let array ← liteCjsonObjectItemByKey src lite (segment.take partialKeyLen)
      if array.type ≠ .array then .failed else liteCjsonArrayItem src array arrayIndex
  | none => liteCjsonObjectItemByKey src lite segment

/-- An index takes the rest of its segment. -/
theorem arrayKeyLen_eq {segment : List UInt8} {partialKeyLen arrayKeyLen : Nat} {arrayIndex : Int}
    (hindex : keyArrayIndex segment = some (partialKeyLen, arrayKeyLen, arrayIndex)) :
    arrayKeyLen = segment.length := by
  simp only [keyArrayIndex, Option.bind_eq_bind, Option.bind_eq_some_iff] at hindex
  obtain ⟨brackets, -, bracketPre, -, bracketSuf, -, hrest⟩ := hindex
  split at hrest
  · next hlast =>
      split at hrest
      · exact nomatch hrest
      · cases hrest
        exact hlast
  · exact nomatch hrest

/-- The loop looks up one segment after another. -/
theorem objectItemLoop_eq (before text : List UInt8) {steps : Nat} (hsteps : text.length < steps)
    (lite : LiteCjson) :
    objectItemLoop src (before ++ text) steps before.length lite =
      (text.splitOn 46).foldlM (segmentItem src) lite := by
  induction steps generalizing before text lite with
  | zero => exact absurd hsteps (Nat.not_lt_zero _)
  | succ steps ih =>
      unfold objectItemLoop
      by_cases hdot : 46 ∈ text
      · obtain ⟨segment, rest, rfl, hsegment⟩ := List.eq_append_cons_of_mem hdot
        have hdelim : strchr (before ++ (segment ++ 46 :: rest)) before.length 46 =
            some (before.length + segment.length) := strchr_eq_iff.mpr hsegment
        have hnext := ih (before ++ segment ++ [46]) rest (by simp at hsteps; omega)
        have hplace : (before ++ segment ++ [46]).length =
            before.length + (segment.length + 1) := by simp
        have hkey : before ++ segment ++ [46] ++ rest = before ++ (segment ++ 46 :: rest) := by simp
        rw [hplace, hkey] at hnext
        rw [List.splitOn_append_cons_self_of_not_mem hsegment, List.foldlM_cons,
          segmentItem, hdelim]
        dsimp only
        rw [Nat.add_sub_cancel_left, List.drop_left, List.take_left]
        cases hindex : keyArrayIndex segment with
        | none =>
            dsimp only
            apply congrArg (liteCjsonObjectItemByKey src lite segment >>= ·)
            funext inner
            exact hnext inner
        | some found =>
            obtain ⟨partialKeyLen, arrayKeyLen, arrayIndex⟩ := found
            obtain rfl := arrayKeyLen_eq hindex
            dsimp only
            rw [Outcome.bind_assoc]
            apply congrArg (liteCjsonObjectItemByKey src lite (segment.take partialKeyLen) >>= ·)
            funext array
            by_cases harray : array.type ≠ .array
            · rw [if_pos harray, if_pos harray]
              rfl
            · rw [if_neg harray, if_neg harray]
              apply congrArg (liteCjsonArrayItem src array arrayIndex >>= ·)
              funext inner
              exact hnext inner
      · rw [List.splitOn_eq_singleton hdot, List.foldlM_cons, segmentItem, strchr_eq_none hdot]
        dsimp only [List.foldlM_nil]
        rw [List.length_append, Nat.add_sub_cancel_left, List.drop_left, List.take_length]
        cases hindex : keyArrayIndex text with
        | none => rfl
        | some found =>
            dsimp only
            rw [Outcome.bind_assoc]
            apply congrArg (liteCjsonObjectItemByKey src lite (text.take found.1) >>= ·)
            funext array
            by_cases harray : array.type ≠ .array
            · rw [if_pos harray, if_pos harray]
              rfl
            · rw [if_neg harray, if_neg harray]

/-- A key is looked up segment by segment. -/
theorem liteCjsonObjectItem_eq (lite : LiteCjson) (key : List UInt8) :
    liteCjsonObjectItem src lite key =
      if lite.type ≠ .object ∨ lite.value = none ∨ lite.size = 0 ∨ key = [] then .failed
      else (key.splitOn 46).foldlM (segmentItem src) lite := by
  have hloop := objectItemLoop_eq src [] key (Nat.lt_succ_self _) lite
  rw [liteCjsonObjectItem]
  exact congrArg (ite _ Outcome.failed) hloop

/-- A segment is looked up in objects only. -/
theorem segmentItem_refused {lite : LiteCjson} (segment : List UInt8)
    (hrefused : lite.type ≠ .object ∨ lite.value = none ∨ lite.size = 0) :
    segmentItem src lite segment = .failed := by
  have hfailed : ∀ key, liteCjsonObjectItemByKey src lite key = .failed := by
    intro key
    unfold liteCjsonObjectItemByKey
    split
    · rfl
    · next haccept =>
        rcases hrefused with htype | hvalue | hsize
        · exact absurd (Or.inl htype) haccept
        · rw [searchEntries, hvalue]
        · exact absurd (Or.inr (Or.inl hsize)) haccept
  unfold segmentItem
  split
  · rw [hfailed]
    rfl
  · exact hfailed segment

/-- A path is followed in two parts at its first dot. -/
theorem liteCjsonObjectItem_append (lite : LiteCjson) {segment : List UInt8}
    (hsome : segment ≠ []) (hdot : 46 ∉ segment) (rest : List UInt8) :
    liteCjsonObjectItem src lite (segment ++ 46 :: rest) = (do
      let inner ← liteCjsonObjectItem src lite segment
      liteCjsonObjectItem src inner rest) := by
  rw [liteCjsonObjectItem_eq, liteCjsonObjectItem_eq src lite segment]
  by_cases hrefused : lite.type ≠ .object ∨ lite.value = none ∨ lite.size = 0
  · have hkey : ∀ key : List UInt8,
        lite.type ≠ .object ∨ lite.value = none ∨ lite.size = 0 ∨ key = [] := by
      intro key
      rcases hrefused with htype | hvalue | hsize
      · exact Or.inl htype
      · exact Or.inr (Or.inl hvalue)
      · exact Or.inr (Or.inr (Or.inl hsize))
    rw [if_pos (hkey _), if_pos (hkey _)]
    rfl
  · have hkey : ∀ key : List UInt8, key ≠ [] →
        ¬(lite.type ≠ .object ∨ lite.value = none ∨ lite.size = 0 ∨ key = []) := by
      rintro key hkey (htype | hvalue | hsize | hnil)
      · exact hrefused (Or.inl htype)
      · exact hrefused (Or.inr (Or.inl hvalue))
      · exact hrefused (Or.inr (Or.inr hsize))
      · exact hkey hnil
    rw [if_neg (hkey _ (by simp)), if_neg (hkey _ hsome), List.splitOn_eq_singleton hdot,
      List.splitOn_append_cons_self_of_not_mem hdot, List.foldlM_cons, List.foldlM_cons,
      Outcome.bind_assoc]
    apply congrArg (segmentItem src lite segment >>= ·)
    funext inner
    rw [List.foldlM_nil, Outcome.pure_eq, Outcome.ok_bind, liteCjsonObjectItem_eq]
    split
    · next hinner =>
        -- what the entry of the code refuses, the lookup of the next segment refuses as well
        obtain ⟨first, others, hsplit⟩ := List.exists_cons_of_ne_nil (List.splitOn_ne_nil 46 rest)
        have hfirst : segmentItem src inner first = .failed := by
          rcases hinner with htype | hvalue | hsize | rfl
          · exact segmentItem_refused src first (Or.inl htype)
          · exact segmentItem_refused src first (Or.inr (Or.inl hvalue))
          · exact segmentItem_refused src first (Or.inr (Or.inr hsize))
          · rw [List.splitOn_nil] at hsplit
            obtain rfl := (List.cons.inj hsplit).1
            exact if_pos (Or.inr (Or.inr rfl))
        rw [hsplit, List.foldlM_cons, hfirst]
        rfl
    · rfl

end ObjectItem

/-! ## Names and indices -/

/-- A segment without dots and brackets. -/
structure PlainName (name : List UInt8) : Prop where
  some : name ≠ []
  dot : 46 ∉ name
  opening : 91 ∉ name
  closing : 93 ∉ name

theorem keyBracketsLoop_plain (key : List UInt8) {plain : List UInt8} (hopening : 91 ∉ plain)
    (hclosing : 93 ∉ plain) (rest : List UInt8) (index : Nat) (brackets : KeyBrackets) :
    keyBracketsLoop key (plain ++ rest) index brackets =
      keyBracketsLoop key rest (index + plain.length) brackets := by
  induction plain generalizing index with
  | nil => rfl
  | cons char plain ih =>
      rw [List.mem_cons, not_or] at hopening hclosing
      have hstep : keyBracketsStep key index char brackets = some brackets := by
        rw [keyBracketsStep, if_neg (Ne.symm hopening.1), if_neg (Ne.symm hclosing.1)]
      rw [List.cons_append, keyBracketsLoop, hstep, Option.bind_eq_bind, Option.bind_some,
        ih hopening.2 hclosing.2, List.length_cons]
      congr 1
      omega

theorem keyArrayIndex_plain {name : List UInt8} (hname : PlainName name) :
    keyArrayIndex name = none := by
  have hloop := keyBracketsLoop_plain name hname.opening hname.closing [] 0 ⟨0, none, none⟩
  rw [List.append_nil] at hloop
  rw [keyArrayIndex, hloop]
  rfl

/-- The name of an array and the digits of an index. -/
def indexed (name digits : List UInt8) : List UInt8 := name ++ 91 :: (digits ++ [93])

theorem digit_ne {digits : List UInt8} (hdigits : Digits digits) {char : UInt8}
    (hchar : isDigit char = false) : char ∉ digits := by
  intro hmem
  rw [hdigits.all char hmem] at hchar
  exact Bool.false_ne_true hchar.symm

/-- What stands in front of the closing bracket is the last digit. -/
theorem indexed_previous {name digits : List UInt8} (hdigits : Digits digits) :
    (indexed name digits)[name.length + 1 + digits.length - 1]? ≠ some 91 := by
  obtain ⟨init, last, rfl⟩ := (List.eq_nil_or_concat' digits).resolve_left hdigits.some
  have hsplit : indexed name (init ++ [last]) = (name ++ 91 :: init) ++ last :: [93] := by
    simp [indexed]
  have hplace : name.length + 1 + (init ++ [last]).length - 1 = (name ++ 91 :: init).length := by
    simp
    omega
  rw [hsplit, hplace, List.getElem?_append_right (Nat.le_refl _), Nat.sub_self,
    List.getElem?_cons_zero]
  intro hlast
  have hdigit := hdigits.all last (by simp)
  rw [Option.some.inj hlast] at hdigit
  exact absurd hdigit (by decide)

theorem keyArrayIndex_indexed {name digits : List UInt8} (hname : PlainName name)
    (hdigits : Digits digits) (hshort : digits.length ≤ 9) :
    keyArrayIndex (indexed name digits) =
      some (name.length, (indexed name digits).length, (decimalValue digits : Int)) := by
  have hloop : keyBracketsLoop (indexed name digits) (indexed name digits) 0 ⟨0, none, none⟩ =
      some ⟨0, some name.length, some (name.length + 1 + digits.length)⟩ := by
    have hopen : keyBracketsStep (indexed name digits) name.length 91 ⟨0, none, none⟩ =
        some ⟨1, some name.length, none⟩ := rfl
    have hclose : keyBracketsStep (indexed name digits) (name.length + 1 + digits.length) 93
        ⟨1, some name.length, none⟩ =
          some ⟨0, some name.length, some (name.length + 1 + digits.length)⟩ := by
      rw [keyBracketsStep, if_neg (by decide), if_pos rfl, if_neg (not_not.mpr rfl),
        if_neg (indexed_previous hdigits)]
      rfl
    conv_lhs => arg 2; rw [indexed]
    rw [keyBracketsLoop_plain _ hname.opening hname.closing, Nat.zero_add, keyBracketsLoop, hopen,
      Option.bind_eq_bind, Option.bind_some,
      keyBracketsLoop_plain _ (digit_ne hdigits (by decide)) (digit_ne hdigits (by decide)),
      keyBracketsLoop, hclose, Option.bind_eq_bind, Option.bind_some, keyBracketsLoop]
  have hvalue : atoi digits = decimalValue digits := by
    have hbound : decimalValue digits < 10 ^ digits.length :=
      decimalValue_lt fun digit hdigit => (isDigit_iff digit).mp (hdigits.all digit hdigit)
    have hlong : 10 ^ digits.length ≤ 10 ^ 9 := Nat.pow_le_pow_right (by decide) hshort
    have hread := @atoi_digits digits [] hdigits (by omega) (by simp)
    rwa [List.append_nil] at hread
  have hlength : name.length + 1 + digits.length + 1 = (indexed name digits).length := by
    simp [indexed]
    omega
  have hroom : name.length + 1 + digits.length - name.length - 1 = digits.length := by omega
  have hdrop : (indexed name digits).drop (name.length + 1) = digits ++ [93] := by
    rw [← List.drop_drop, indexed, List.drop_left]
    rfl
  rw [keyArrayIndex, hloop]
  simp only [Option.bind_eq_bind, Option.bind_some]
  rw [if_pos hlength, hroom, if_neg (by omega), hdrop, List.take_left, hvalue, hlength]

section ObjectItem

variable {src : List UInt8}

/-- A key of one segment. -/
theorem liteCjsonObjectItem_segment (lite : LiteCjson) {segment : List UInt8}
    (hsome : segment ≠ []) (hdot : 46 ∉ segment) :
    liteCjsonObjectItem src lite segment = segmentItem src lite segment := by
  rw [liteCjsonObjectItem_eq, List.splitOn_eq_singleton hdot, List.foldlM_cons]
  split
  · next hrefused =>
      rw [segmentItem_refused]
      rcases hrefused with htype | hvalue | hsize | hnil
      · exact Or.inl htype
      · exact Or.inr (Or.inl hvalue)
      · exact Or.inr (Or.inr hsize)
      · exact absurd hnil hsome
  · exact Outcome.bind_ok _

/-- A name is looked up as it is. -/
theorem liteCjsonObjectItem_plain (lite : LiteCjson) {name : List UInt8} (hname : PlainName name) :
    liteCjsonObjectItem src lite name = liteCjsonObjectItemByKey src lite name := by
  rw [liteCjsonObjectItem_segment lite hname.some hname.dot, segmentItem, keyArrayIndex_plain hname]

/-- A name with an index is looked up as the element of the array with this name. -/
theorem liteCjsonObjectItem_indexed (lite : LiteCjson) {name digits : List UInt8}
    (hname : PlainName name) (hdigits : Digits digits) (hshort : digits.length ≤ 9) :
    liteCjsonObjectItem src lite (indexed name digits) = (do
      let array ← liteCjsonObjectItem src lite name
      liteCjsonArrayItem src array (decimalValue digits)) := by
  have hdot : 46 ∉ indexed name digits := by
    rw [indexed, List.mem_append, List.mem_cons, List.mem_append, List.mem_singleton]
    rintro (hmem | hmem | hmem | hmem)
    · exact hname.dot hmem
    · exact absurd hmem (by decide)
    · exact digit_ne hdigits (by decide) hmem
    · exact absurd hmem (by decide)
  have htake : (indexed name digits).take name.length = name := by rw [indexed, List.take_left]
  rw [liteCjsonObjectItem_segment lite (by simp [indexed]) hdot,
    liteCjsonObjectItem_plain lite hname,
    segmentItem, keyArrayIndex_indexed hname hdigits hshort]
  dsimp only
  rw [htake]
  apply congrArg (liteCjsonObjectItemByKey src lite name >>= ·)
  funext array
  by_cases htype : array.type ≠ .array
  · rw [if_pos htype, liteCjsonArrayItem, if_pos (Or.inl htype)]
  · rw [if_neg htype]

/-! ## Items that were given out -/

/-- The lookup of a segment ends well, with an item that was given out. -/
theorem segmentItem_keeps {lite : LiteCjson} (hlite : Returned src lite) (segment : List UInt8) :
    (segmentItem src lite segment).Keeps (Returned src) := by
  have hmember : ∀ key, (liteCjsonObjectItemByKey src lite key).Keeps (Returned src) := by
    intro key
    exact (liteCjsonObjectItemByKey_keeps hlite.inside key).of_results fun _ hcall =>
      hlite.member hcall
  unfold segmentItem
  split
  · apply (hmember _).bind
    intro array harray
    split
    · exact Outcome.keeps_failed
    · exact (liteCjsonArrayItem_keeps harray.inside _).of_results fun _ hcall =>
        harray.element hcall
  · exact hmember segment

/-- So does the lookup of a key. -/
theorem liteCjsonObjectItem_keeps {lite : LiteCjson} (hlite : Returned src lite)
    (key : List UInt8) : (liteCjsonObjectItem src lite key).Keeps (Returned src) := by
  have hfold : ∀ (segments : List (List UInt8)) {lite : LiteCjson}, Returned src lite →
      (segments.foldlM (segmentItem src) lite).Keeps (Returned src) := by
    intro segments
    induction segments with
    | nil => exact fun hlite => hlite
    | cons segment segments ih =>
        intro lite hlite
        rw [List.foldlM_cons]
        exact (segmentItem_keeps hlite segment).bind fun _ hinner => ih hinner
  rw [liteCjsonObjectItem_eq]
  split
  · exact Outcome.keeps_failed
  · exact hfold _ hlite

/-- The lookup of a path succeeds if its first segment leads to an object in which the lookup of the
rest succeeds, and gives the same item. With an index, it gives this element of the array that the
name leads to, and there is one at every index below the size of the array and at no other. -/
theorem objectItem_follows {lite : LiteCjson} (hlite : Returned src lite) :
    (∀ key, (liteCjsonObjectItem src lite key).Keeps (Returned src)) ∧
    (∀ segment rest, segment ≠ [] → 46 ∉ segment → ∀ item,
      liteCjsonObjectItem src lite (segment ++ 46 :: rest) = .ok item ↔
        ∃ inner, liteCjsonObjectItem src lite segment = .ok inner ∧ inner.type = .object ∧
          liteCjsonObjectItem src inner rest = .ok item) ∧
    ∀ name digits, PlainName name → Digits digits → digits.length ≤ 9 →
      (∀ item, liteCjsonObjectItem src lite (indexed name digits) = .ok item ↔
        ∃ array, liteCjsonObjectItem src lite name = .ok array ∧ array.type = .array ∧
          liteCjsonArrayItem src array (decimalValue digits) = .ok item) ∧
      ∀ array, liteCjsonObjectItem src lite name = .ok array → array.type = .array →
        ((∃ item, liteCjsonObjectItem src lite (indexed name digits) = .ok item) ↔
          (decimalValue digits : Int) < array.size) := by
  refine ⟨liteCjsonObjectItem_keeps hlite, ?_, ?_⟩
  · intro segment rest hsome hdot item
    rw [liteCjsonObjectItem_append src lite hsome hdot, Outcome.bind_eq_ok_iff]
    constructor
    · rintro ⟨inner, hinner, hitem⟩
      obtain ⟨haccept, -⟩ := Outcome.ite_failed_eq_ok_iff.mp hitem
      exact ⟨inner, hinner, not_not.mp fun htype => haccept (Or.inl htype), hitem⟩
    · rintro ⟨inner, hinner, -, hitem⟩
      exact ⟨inner, hinner, hitem⟩
  · intro name digits hname hdigits hshort
    rw [liteCjsonObjectItem_indexed lite hname hdigits hshort]
    constructor
    · intro item
      rw [Outcome.bind_eq_ok_iff]
      constructor
      · rintro ⟨array, harray, hitem⟩
        obtain ⟨haccept, -⟩ := Outcome.ite_failed_eq_ok_iff.mp hitem
        exact ⟨array, harray, not_not.mp fun htype => haccept (Or.inl htype), hitem⟩
      · rintro ⟨array, harray, -, hitem⟩
        exact ⟨array, harray, hitem⟩
    · intro array harray htype
      have hreturned := (liteCjsonObjectItem_keeps hlite name).of_ok harray
      rw [harray, Outcome.ok_bind, hreturned.arrayItem_iff htype]
      exact and_iff_right (Int.natCast_nonneg _)

end ObjectItem

/-- `{"b":{"a":[7]}}` -/
def nestedArray : List UInt8 :=
  [123, 34, 98, 34, 58, 123, 34, 97, 34, 58, 91, 55, 93, 125, 125]

/-- In it, the key `b.a[0]` leads to the number, and `a[0]` leads there from the inner object. -/
theorem objectItem_follows_nestedArray :
    liteCjsonObjectItem nestedArray ⟨.object, some 0, 15, 1⟩ ([98] ++ 46 :: indexed [97] [48]) =
        .ok ⟨.number, some 11, 1, 0⟩ ∧
      ∃ item, liteCjsonObjectItem nestedArray ⟨.object, some 5, 9, 1⟩ (indexed [97] [48]) =
        .ok item := by
  have hroot : liteCjsonParse nestedArray .zero = .ok ⟨.object, some 0, 15, 1⟩ := by decide +kernel
  have hmember : liteCjsonObjectItemByKey nestedArray ⟨.object, some 0, 15, 1⟩ [98] =
      .ok ⟨.object, some 5, 9, 1⟩ := by decide +kernel
  have hinner : liteCjsonObjectItem nestedArray ⟨.object, some 0, 15, 1⟩ [98] =
      .ok ⟨.object, some 5, 9, 1⟩ := by decide +kernel
  have harray : liteCjsonObjectItem nestedArray ⟨.object, some 5, 9, 1⟩ [97] =
      .ok ⟨.array, some 10, 3, 1⟩ := by decide +kernel
  have hitem : liteCjsonObjectItem nestedArray ⟨.object, some 5, 9, 1⟩ (indexed [97] [48]) =
      .ok ⟨.number, some 11, 1, 0⟩ := by decide +kernel
  have hname : PlainName [97] :=
    { some := List.cons_ne_nil _ _
      dot := by decide
      opening := by decide
      closing := by decide }
  have hdigits : Digits [48] := ⟨List.cons_ne_nil _ _, by simp [isDigit]⟩
  constructor
  · exact ((objectItem_follows (.root hroot)).2.1 [98] (indexed [97] [48]) (List.cons_ne_nil _ _)
      (by decide) _).mpr ⟨_, hinner, rfl, hitem⟩
  · exact (((objectItem_follows (.member (.root hroot) hmember)).2.2 [97] [48] hname hdigits
      (by decide)).2 _ harray rfl).mpr (by decide)

end EnosDeviceSdk.Infra
