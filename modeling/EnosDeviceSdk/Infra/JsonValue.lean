/-
# Looking a value up without parsing

`infra_json_value` looks for the first place where the bytes of a key occur, takes it for a
member's name, and gives out what stands between the colon and the next comma or closing
bracket. Two places of the SDK take credentials of the cloud out of a message this way.

The `uint32_t` index is a number without an upper bound here. It is compared after the length of the
key or four was added to it, so this is the code for every input and key that are together shorter
than `2^32 - 4` bytes.

It never reads outside its input. What it finds is the member's value if the key does not
occur earlier in the text, if the value has no comma and no bracket in it and nothing between
it and the next separator, and if there are five bytes behind the name.
-/

import EnosDeviceSdk.Infra.CjsonDocument
import EnosDeviceSdk.Library.FirstPlace

namespace EnosDeviceSdk.Infra

open EnosDeviceSdk.Library

/-- The bytes that end a value: a comma and the closing brackets. -/
def endsValue (byte : UInt8) : Bool := byte = 44 ∨ byte = 125 ∨ byte = 93

/-- The inner loop of `infra_json_value`, with as many steps as bytes are left: the start and the
length of the value. -/
def valueEndLoop (input : List UInt8) (start : Nat) : Nat → Nat → Outcome (Nat × Nat)
  | 0, _ => .failed
  | left + 1, idx => do
      let byte ← readByte input idx
      if endsValue byte then return (start, idx - start)
      else valueEndLoop input start left (idx + 1)

/-- What `infra_json_value` does behind a match that ends at an index. -/
def valueBehind (input : List UInt8) (idx : Nat) : Outcome (Nat × Nat) :=
  if idx + 4 ≥ input.length then .failed
  else do
    let colon ← readByte input (idx + 1 : Nat)
    if colon ≠ 58 then .failed
    else valueEndLoop input (idx + 2) (input.length - (idx + 2)) (idx + 2)

/-- The outer loop of `infra_json_value`. Where the inner loop ends without a value, the index has
run past the input, and the outer one ends too. -/
def infraJsonValueLoop (input key : List UInt8) : Nat → Nat → Outcome (Nat × Nat)
  | 0, _ => .failed
  | left + 1, idx =>
      if idx + key.length ≥ input.length then .failed
      else do
        let compared ← readBytes input idx key.length
        if compared = key then valueBehind input (idx + key.length)
        else infraJsonValueLoop input key left (idx + 1)

/-- `infra_json_value`: the place and the length of the value in the input. -/
def infraJsonValue (input key : List UInt8) : Outcome (Nat × Nat) :=
  infraJsonValueLoop input key input.length 0

/-! ## What it finds -/

theorem readByte_getElem? {bytes : List UInt8} {address : Nat} {byte : UInt8}
    (hbyte : bytes[address]? = some byte) : readByte bytes address = .ok byte := by
  rw [readByte, if_neg (by omega), Int.toNat_natCast, hbyte]

/-- The inner loop finds the first byte that ends a value. -/
theorem valueEndLoop_eq {input rest : List UInt8} (start : Nat) {idx : Nat}
    (hrest : input.drop idx = rest) (hstart : start ≤ idx) :
    valueEndLoop input start rest.length idx =
      match rest.findIdx? endsValue with
      | some length => .ok (start, idx - start + length)
      | none => .failed := by
  induction rest generalizing idx with
  | nil => rfl
  | cons byte rest ih =>
      have hbyte : input[idx]? = some byte := by
        rw [← List.head?_drop, hrest]
        rfl
      have hnext : input.drop (idx + 1) = rest := by
        rw [← List.tail_drop, hrest]
        rfl
      rw [List.length_cons, valueEndLoop, readByte_getElem? hbyte, Outcome.ok_bind,
        List.findIdx?_cons]
      cases hends : endsValue byte with
      | true => rfl
      | false =>
          rw [if_neg Bool.false_ne_true, if_neg Bool.false_ne_true, ih hnext (by omega)]
          cases rest.findIdx? endsValue with
          | none => rfl
          | some length =>
              simp only [Option.map_some]
              congr 2
              omega

/-- Behind a match there is a value if there are five bytes, a colon second among them, and one
that ends the value. -/
theorem valueBehind_eq (input : List UInt8) (idx : Nat) :
    valueBehind input idx =
      if idx + 4 < input.length ∧ input[idx + 1]? = some 58 then
        match (input.drop (idx + 2)).findIdx? endsValue with
        | some length => .ok (idx + 2, length)
        | none => .failed
      else .failed := by
  rw [valueBehind]
  by_cases hlong : idx + 4 < input.length
  · have hbyte : input[idx + 1]? = some input[idx + 1] := List.getElem?_eq_getElem _
    rw [if_neg hlong.not_ge, readByte_getElem? hbyte, Outcome.ok_bind, hbyte]
    by_cases hcolon : input[idx + 1] = 58
    · have hloop := valueEndLoop_eq (idx + 2) (rfl : input.drop (idx + 2) = _) (Nat.le_refl _)
      rw [List.length_drop] at hloop
      rw [if_neg (not_not.mpr hcolon), if_pos ⟨hlong, by rw [hcolon]⟩, hloop]
      simp only [Nat.sub_self, Nat.zero_add]
    · rw [if_pos hcolon, if_neg (by simp [hcolon])]
  · rw [if_pos (not_lt.mp hlong), if_neg (fun h => hlong h.1)]

theorem infraJsonValueLoop_eq {input rest : List UInt8} (key : List UInt8) {idx : Nat}
    (hrest : input.drop idx = rest) (hidx : idx ≤ input.length) :
    infraJsonValueLoop input key rest.length idx =
      match firstPlace key rest with
      | some place => valueBehind input (idx + place + key.length)
      | none => .failed := by
  have hlength : rest.length = input.length - idx := by
    rw [← hrest, List.length_drop]
  have hbeyond : ∀ {place : Nat}, input.length ≤ idx + place + key.length →
      valueBehind input (idx + place + key.length) = .failed :=
    fun hplace => if_pos (Nat.le_trans hplace (Nat.le_add_right _ _))
  induction rest generalizing idx with
  | nil =>
      rw [List.length_nil] at hlength
      rw [firstPlace]
      split
      · next place hplace =>
          rw [hbeyond (by omega)]
          rfl
      · rfl
  | cons byte rest ih =>
      have hnext : input.drop (idx + 1) = rest := by
        rw [← List.tail_drop, hrest]
        rfl
      rw [List.length_cons, infraJsonValueLoop]
      by_cases hshort : idx + key.length ≥ input.length
      · rw [if_pos hshort]
        split
        · next place hplace =>
            exact (hbeyond (by omega)).symm
        · rfl
      · have hread : readBytes input idx key.length =
            .ok ((byte :: rest).take key.length) := by
          have hsplit : input = input.take idx ++ (byte :: rest).take key.length ++
              (byte :: rest).drop key.length := by
            rw [List.append_assoc, List.take_append_drop, ← hrest, List.take_append_drop]
          have htake : ((byte :: rest).take key.length).length = key.length := by
            rw [List.length_take, hlength]
            omega
          have hat := readBytes_append (input.take idx) ((byte :: rest).take key.length)
            ((byte :: rest).drop key.length)
          rw [← hsplit, htake, List.length_take, Nat.min_eq_left hidx] at hat
          exact hat
        rw [if_neg hshort, hread, Outcome.ok_bind]
        by_cases hkey : key <+: byte :: rest
        · rw [if_pos (List.prefix_iff_eq_take.mp hkey).symm, firstPlace_of_begins hkey]
          rfl
        · have hdiffer : ¬ (byte :: rest).take key.length = key :=
            fun hsame => hkey (List.prefix_iff_eq_take.mpr hsame.symm)
          rw [List.length_cons] at hlength
          rw [if_neg hdiffer, ih hnext (by omega) (by omega)
            (fun hplace => if_pos (Nat.le_trans hplace (Nat.le_add_right _ _))),
            firstPlace_cons_of_not_begins hkey]
          cases firstPlace key rest with
          | none => rfl
          | some place =>
              simp only [Option.map_some]
              congr 1
              omega

/-- All that counts is the first place of the key. -/
theorem infraJsonValue_eq (input key : List UInt8) :
    infraJsonValue input key =
      match firstPlace key input with
      | some place => valueBehind input (place + key.length)
      | none => .failed := by
  have hloop := infraJsonValueLoop_eq key (rfl : input.drop 0 = input) (Nat.zero_le _)
  simp only [Nat.zero_add] at hloop
  exact hloop

/-- Behind the first place of the key's bytes and one more byte stands a colon, with three more
bytes behind it, and the value goes from there to the first byte that ends values. -/
def ValueFound (input key : List UInt8) (value : Nat × Nat) : Prop :=
  ∃ place, firstPlace key input = some place ∧ place + key.length + 4 < input.length ∧
    input[place + key.length + 1]? = some 58 ∧ value.1 = place + key.length + 2 ∧
      (input.drop value.1).findIdx? endsValue = some value.2

theorem infraJsonValue_eq_ok_iff {input key : List UInt8} {value : Nat × Nat} :
    infraJsonValue input key = .ok value ↔ ValueFound input key value := by
  obtain ⟨start, length⟩ := value
  rw [infraJsonValue_eq, ValueFound]
  cases firstPlace key input with
  | none => simp
  | some place =>
      dsimp only
      rw [valueBehind_eq]
      simp only [Option.some.injEq, exists_eq_left']
      by_cases hbehind : place + key.length + 4 < input.length ∧
          input[place + key.length + 1]? = some 58
      · rw [if_pos hbehind, ← and_assoc, and_iff_right hbehind]
        constructor
        · intro hvalue
          cases hend : (input.drop (place + key.length + 2)).findIdx? endsValue with
          | none =>
              rw [hend] at hvalue
              cases hvalue
          | some found =>
              rw [hend] at hvalue
              cases hvalue
              exact ⟨rfl, hend⟩
        · rintro ⟨rfl, hend⟩
          rw [hend]
      · rw [if_neg hbehind]
        exact iff_of_false (nomatch ·) fun h => hbehind ⟨h.1, h.2.1⟩

/-- Nothing outside the input is read, and the value lies inside it, behind its colon. -/
theorem infraJsonValue_keeps (input key : List UInt8) :
    (infraJsonValue input key).Keeps fun value =>
      2 ≤ value.1 ∧ value.1 + value.2 < input.length := by
  rw [infraJsonValue_eq]
  cases firstPlace key input with
  | none => trivial
  | some place =>
      dsimp only
      rw [valueBehind_eq]
      split
      · cases hend : (input.drop (place + key.length + 2)).findIdx? endsValue with
        | none => trivial
        | some length =>
            have hlength := (List.findIdx?_eq_some_iff_getElem.mp hend).1
            rw [List.length_drop] at hlength
            refine ⟨by omega, ?_⟩
            dsimp only
            omega
      · trivial

/-! ## Flat objects -/

/-- A member of a flat object, with nothing between its name, the colon and the value. -/
structure FlatMember where
  before : List UInt8
  name : List UInt8
  value : Token
  after : List UInt8

/-- The member as an entry of the grammar. -/
def FlatMember.entry (item : FlatMember) : Frame × Doc :=
  (⟨item.before, some ⟨item.name, [], []⟩, item.after⟩, .scalar item.value)

/-- A value without escapes in its strings, and a number as JSON writes it. -/
def FlatValue : Token → Prop
  | .string body => ∀ byte ∈ body, byte ≠ 34 ∧ byte ≠ 92
  | .number text => JsonNumber text
  | _ => True

/-- There is white space around the member, and its strings have no escapes. -/
structure FlatMember.Valid (item : FlatMember) : Prop where
  before : Blank item.before
  after : Blank item.after
  name : ∀ byte ∈ item.name, byte ≠ 34 ∧ byte ≠ 92
  value : FlatValue item.value

/-- The text of a flat object. -/
def flatText (blank : List UInt8) (members : List FlatMember) : List UInt8 :=
  (Doc.nest .object blank (members.map FlatMember.entry)).render

/-- Where the name of a member stands in the text of the object. -/
def namePlace (members : List FlatMember) (index : Nat) (hindex : index < members.length) : Nat :=
  (entryAhead .object (members.map FlatMember.entry) index).length +
    members[index].before.length + 1

/-- The value of a member with the name: where it stands in the text, and its length. -/
def IsValueOf (members : List FlatMember) (key : List UInt8) (found : Nat × Nat) : Prop :=
  ∃ index, ∃ hindex : index < members.length, members[index].name = key ∧
    found = (namePlace members index hindex + key.length + 2,
      members[index].value.render.length)

/-- The value of a member with the name is found, or, where there is none, nothing. -/
def FindsValue (blank : List UInt8) (members : List FlatMember) (key : List UInt8) : Prop :=
  if ∃ item ∈ members, item.name = key then
    ∃ found, infraJsonValue (flatText blank members) key = .ok found ∧
      IsValueOf members key found
  else infraJsonValue (flatText blank members) key = .failed

/-- Where a member with the name is there, the first place of its bytes is the name of such a
member, whose value has no comma and no closing bracket and is followed by one directly, and
there are five bytes behind the name. Where there is none, the bytes do not occur, or there are
fewer bytes behind their first place, or no colon second among them. -/
def LooksUpRight (blank : List UInt8) (members : List FlatMember) (key : List UInt8) : Prop :=
  if ∃ item ∈ members, item.name = key then
    ∃ index, ∃ hindex : index < members.length, members[index].name = key ∧
      firstPlace key (flatText blank members) = some (namePlace members index hindex) ∧
      (∀ byte ∈ members[index].value.render, endsValue byte = false) ∧
      members[index].after = [] ∧
      namePlace members index hindex + key.length + 4 < (flatText blank members).length
  else
    ∀ place, firstPlace key (flatText blank members) = some place →
      (flatText blank members).length ≤ place + key.length + 4 ∨
        (flatText blank members)[place + key.length + 1]? ≠ some 58

variable {blank : List UInt8} {members : List FlatMember}

/-- The text around a member: a comma or the closing bracket follows. -/
theorem flatText_split (blank : List UInt8) (members : List FlatMember) {index : Nat}
    (hindex : index < members.length) :
    ∃ ahead separator rest, flatText blank members = ahead ++ (members[index].name ++ (34 :: 58 ::
        (members[index].value.render ++ (members[index].after ++ separator :: rest)))) ∧
      ahead.length = namePlace members index hindex ∧ endsValue separator = true := by
  have hentries : index < (members.map FlatMember.entry).length := by
    rw [List.length_map]
    exact hindex
  obtain ⟨more, hmore, hsplit⟩ :=
    split_listed .object (members.map FlatMember.entry) hentries [Nest.object.closing]
  have htext : flatText blank members =
      (entryAhead .object (members.map FlatMember.entry) index ++ members[index].before ++ [34]) ++
        (members[index].name ++ (34 :: 58 :: (members[index].value.render ++
          (members[index].after ++ (more ++ [Nest.object.closing]))))) := by
    rw [flatText, render_nest, bodyText_of_entry blank hentries, hsplit, List.getElem_map]
    simp [entryText, Frame.wrap, Frame.lead, FlatMember.entry, Label.render, Doc.render]
  have hplace : (entryAhead .object (members.map FlatMember.entry) index ++
      members[index].before ++ [34]).length = namePlace members index hindex := by
    rw [namePlace, List.length_append, List.length_append, List.length_singleton]
  rcases hmore with rfl | ⟨later, rfl⟩
  · exact ⟨_, Nest.object.closing, [], htext, hplace, by decide⟩
  · exact ⟨_, 44, later ++ [Nest.object.closing], htext, hplace, by decide⟩

/-- The text ends with its bracket. -/
theorem flatText_ends (blank : List UInt8) (members : List FlatMember) :
    ∃ front, flatText blank members = front ++ [125] :=
  ⟨_, by rw [flatText, render_nest]; rfl⟩

/-- What stands there is the value. -/
theorem IsValueOf.text {key : List UInt8} {found : Nat × Nat}
    (hfound : IsValueOf members key found) (blank : List UInt8) :
    ∃ item ∈ members, item.name = key ∧
      ((flatText blank members).drop found.1).take found.2 = item.value.render := by
  obtain ⟨index, hindex, rfl, rfl⟩ := hfound
  obtain ⟨ahead, separator, rest, htext, hplace, -⟩ := flatText_split blank members hindex
  refine ⟨members[index], List.getElem_mem hindex, rfl, ?_⟩
  have hassoc : flatText blank members = (ahead ++ members[index].name ++ [34, 58]) ++
      (members[index].value.render ++ (members[index].after ++ separator :: rest)) := by
    rw [htext]
    simp
  have hlength : namePlace members index hindex + members[index].name.length + 2 =
      (ahead ++ members[index].name ++ [34, 58]).length := by
    simp [hplace, Nat.add_assoc]
  dsimp only
  rw [hlength, hassoc, List.drop_left, List.take_left]

/-- A value ends at the first byte that ends values exactly where none is in it and one follows. -/
theorem findIdx?_value {value after rest : List UInt8} {separator : UInt8}
    (hafter : Blank after) (hseparator : endsValue separator = true) :
    (value ++ (after ++ separator :: rest)).findIdx? endsValue = some value.length ↔
      (∀ byte ∈ value, endsValue byte = false) ∧ after = [] := by
  rw [List.findIdx?_eq_some_iff_getElem]
  constructor
  · rintro ⟨hlength, hends, hbefore⟩
    refine ⟨fun byte hbyte => ?_, ?_⟩
    · obtain ⟨place, hplace, rfl⟩ := List.mem_iff_getElem.mp hbyte
      have hnone := hbefore place hplace
      rw [List.getElem_append_left hplace] at hnone
      simpa using hnone
    · cases after with
      | nil => rfl
      | cons byte after =>
          have hblank := hafter byte (List.mem_cons_self ..)
          rw [List.getElem_append_right (Nat.le_refl _)] at hends
          simp only [Nat.sub_self, List.cons_append, List.getElem_cons_zero, endsValue,
            decide_eq_true_eq] at hends
          rcases hends with rfl | rfl | rfl <;> exact absurd hblank (by decide)
  · rintro ⟨hnone, rfl⟩
    refine ⟨by simp, ?_, fun place hplace => ?_⟩
    · rw [List.getElem_append_right (Nat.le_refl _)]
      simpa using hseparator
    · rw [List.getElem_append_left hplace, hnone _ (List.getElem_mem hplace)]
      exact Bool.false_ne_true

/-- What follows the first place of the key, if that is a member's name. -/
theorem infraJsonValue_at {index : Nat} (hindex : index < members.length)
    (hfirst : firstPlace members[index].name (flatText blank members) =
      some (namePlace members index hindex))
    (hvalid : members[index].Valid) :
    infraJsonValue (flatText blank members) members[index].name =
        .ok (namePlace members index hindex + members[index].name.length + 2,
          members[index].value.render.length) ↔
      (∀ byte ∈ members[index].value.render, endsValue byte = false) ∧
        members[index].after = [] ∧
        namePlace members index hindex + members[index].name.length + 4 <
          (flatText blank members).length := by
  obtain ⟨ahead, separator, rest, htext, hplace, hseparator⟩ := flatText_split blank members hindex
  have hdrop : (flatText blank members).drop
      (namePlace members index hindex + members[index].name.length + 2) =
        members[index].value.render ++ (members[index].after ++ separator :: rest) := by
    have hassoc : flatText blank members = (ahead ++ members[index].name ++ [34, 58]) ++
        (members[index].value.render ++ (members[index].after ++ separator :: rest)) := by
      rw [htext]
      simp
    have hlength : namePlace members index hindex + members[index].name.length + 2 =
        (ahead ++ members[index].name ++ [34, 58]).length := by
      simp [hplace, Nat.add_assoc]
    rw [hlength, hassoc, List.drop_left]
  have hcolon : (flatText blank members)[namePlace members index hindex +
      members[index].name.length + 1]? = some 58 := by
    have hassoc : flatText blank members = (ahead ++ members[index].name ++ [34]) ++ (58 ::
        (members[index].value.render ++ (members[index].after ++ separator :: rest))) := by
      rw [htext]
      simp
    have hlength : namePlace members index hindex + members[index].name.length + 1 =
        (ahead ++ members[index].name ++ [34]).length := by
      simp [hplace, Nat.add_assoc]
    rw [hlength, hassoc, List.getElem?_append_right (Nat.le_refl _), Nat.sub_self]
    rfl
  have hend := @findIdx?_value members[index].value.render members[index].after rest separator
    hvalid.after hseparator
  rw [infraJsonValue_eq, hfirst]
  dsimp only
  rw [valueBehind_eq, hdrop, ← and_assoc, ← hend]
  by_cases hlong : namePlace members index hindex + members[index].name.length + 4 <
      (flatText blank members).length
  · rw [if_pos ⟨hlong, hcolon⟩, and_iff_left hlong]
    cases (members[index].value.render ++
        (members[index].after ++ separator :: rest)).findIdx? endsValue with
    | none => simp
    | some length => simp
  · rw [if_neg fun h => hlong h.1]
    exact iff_of_false (nomatch ·) fun h => hlong h.2

/-- A lookup in a flat object is right exactly where the first place of the key's bytes is that of
a member's name that the scan gets right, or where there is nothing behind it to be taken for a
value. -/
theorem findsValue_iff (hvalid : ∀ item ∈ members, item.Valid) (key : List UInt8) :
    FindsValue blank members key ↔ LooksUpRight blank members key := by
  rw [FindsValue, LooksUpRight]
  split
  · constructor
    · rintro ⟨found, hfound, index, hindex, rfl, rfl⟩
      have hat := hfound
      rw [infraJsonValue_eq] at hat
      cases hfirst : firstPlace members[index].name (flatText blank members) with
      | none =>
          rw [hfirst] at hat
          cases hat
      | some place =>
          have hplace : place = namePlace members index hindex := by
            simp only [hfirst, valueBehind_eq] at hat
            split at hat
            · split at hat
              · have hstart := congrArg Prod.fst (Outcome.ok.inj hat)
                dsimp only at hstart
                omega
              · cases hat
            · cases hat
          rw [hplace] at hfirst
          exact ⟨index, hindex, rfl, hplace ▸ rfl,
            (infraJsonValue_at hindex hfirst (hvalid _ (List.getElem_mem hindex))).mp hfound⟩
    · rintro ⟨index, hindex, rfl, hfirst, hright⟩
      exact ⟨_, (infraJsonValue_at hindex hfirst (hvalid _ (List.getElem_mem hindex))).mpr hright,
        index, hindex, rfl, rfl⟩
  · rw [infraJsonValue_eq]
    cases hfirst : firstPlace key (flatText blank members) with
    | none => simp
    | some place =>
        dsimp only
        rw [valueBehind_eq]
        by_cases hbehind : place + key.length + 4 < (flatText blank members).length ∧
            (flatText blank members)[place + key.length + 1]? = some 58
        · obtain ⟨front, hfront⟩ := flatText_ends blank members
          have hsome : ((flatText blank members).drop (place + key.length + 2)).findIdx?
              endsValue ≠ none := by
            rw [Ne, List.findIdx?_eq_none_iff]
            intro hnone
            have hlength : (flatText blank members).length = front.length + 1 := by
              rw [hfront, List.length_append, List.length_singleton]
            have hmem : (125 : UInt8) ∈
                (flatText blank members).drop (place + key.length + 2) := by
              rw [hfront, List.drop_append_of_le_length (by omega)]
              exact List.mem_append_right _ (List.mem_singleton_self _)
            exact absurd (hnone 125 hmem) (by decide)
          rw [if_pos hbehind]
          refine iff_of_false ?_ ?_
          · cases hend : ((flatText blank members).drop (place + key.length + 2)).findIdx?
                endsValue with
            | none => exact absurd hend hsome
            | some length => simp
          · intro hright
            rcases hright place rfl with hshort | hcolon
            · omega
            · exact hcolon hbehind.2
        · rw [if_neg hbehind]
          refine iff_of_true rfl fun place' hplace' => ?_
          obtain rfl := Option.some.inj hplace'
          rw [← not_lt, ← not_and_or]
          exact hbehind

/-- A member whose value is a string. -/
def stringMember (name body : List UInt8) : FlatMember := ⟨[], name, .string body, []⟩

theorem stringMember_valid {name body : List UInt8}
    (hname : name.all fun byte => byte ≠ 34 ∧ byte ≠ 92)
    (hbody : body.all fun byte => byte ≠ 34 ∧ byte ≠ 92) : (stringMember name body).Valid where
  before := blank_nil
  after := blank_nil
  name := by simpa [stringMember] using hname
  value := by simpa [stringMember, FlatValue] using hbody

/-- The members `"ab":"x"` and `"cd":"y"`. -/
theorem findsValue_plain :
    FindsValue [] [stringMember [97, 98] [120], stringMember [99, 100] [121]] [99, 100] := by
  refine (findsValue_iff ?_ _).mpr ?_
  · simp only [List.forall_mem_cons, List.not_mem_nil, false_imp_iff, implies_true, and_true]
    exact ⟨stringMember_valid (by decide) (by decide), stringMember_valid (by decide) (by decide)⟩
  · rw [LooksUpRight, if_pos ⟨_, List.mem_cons_of_mem _ (List.mem_singleton_self _), rfl⟩]
    have hvalue : (stringMember [99, 100] [121]).value.render.all
        (fun byte => !endsValue byte) = true := by decide
    refine ⟨1, by decide, rfl, by decide +kernel, fun byte hbyte => ?_, rfl, by decide +kernel⟩
    simpa using List.all_eq_true.mp hvalue byte hbyte

/-- In `{"a":"cd","cd":"y"}` the name is found in the value in front of it, and no colon. -/
theorem not_findsValue_earlier :
    (∀ item ∈ [stringMember [97] [99, 100], stringMember [99, 100] [121]], item.Valid) ∧
      ¬ FindsValue [] [stringMember [97] [99, 100], stringMember [99, 100] [121]] [99, 100] := by
  constructor
  · simp only [List.forall_mem_cons, List.not_mem_nil, false_imp_iff, implies_true, and_true]
    exact ⟨stringMember_valid (by decide) (by decide), stringMember_valid (by decide) (by decide)⟩
  rw [FindsValue, if_pos ⟨_, List.mem_cons_of_mem _ (List.mem_singleton_self _), rfl⟩]
  rintro ⟨found, hfound, -⟩
  have hfailed : infraJsonValue (flatText [] [stringMember [97] [99, 100],
      stringMember [99, 100] [121]]) [99, 100] = .failed := by decide +kernel
  rw [hfailed] at hfound
  cases hfound

end EnosDeviceSdk.Infra
