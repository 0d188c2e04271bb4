/-
# Members of an object by their names

An accessor that looks for a name reads the names of the members one after another and gives out
the value of the first member with this name. For a document of the grammar this value stands for
the member's tree, whose text is then at hand as well.
-/

import EnosDeviceSdk.Infra.CjsonDocument

namespace EnosDeviceSdk.Infra

open EnosDeviceSdk.Library

variable {src : List UInt8}

/-- What an accessor by name asks of an entry. -/
def byKey (src key : List UInt8) (_ : Nat) (entry : Entry) : Outcome (Option LiteCjson) :=
  match entry.key with
  | some ⟨_, some name, nameLength, _⟩ =>
      if nameLength = key.length then do
        let found ← readBytes src name key.length
        return if found = key then some entry.value else none
      else return none
  | _ => return none

theorem liteCjsonObjectItemByKey_eq (lite : LiteCjson) (key : List UInt8) :
    liteCjsonObjectItemByKey src lite key =
      if lite.type ≠ .object ∨ lite.size = 0 ∨ key = [] then .failed
      else searchEntries src .object lite (byKey src key) := rfl

/-- The name of a member, as the label of its frame has it. -/
def keyOf (entry : Frame × Doc) : List UInt8 := (entry.1.label.map Label.key).getD []

/-- A member with nothing around it. -/
def member (key : List UInt8) (value : Doc) : Frame × Doc := (⟨[], some ⟨key, [], []⟩, []⟩, value)

@[simp]
theorem keyOf_member (key : List UInt8) (value : Doc) : keyOf (member key value) = key := rfl

/-- A text without quotes and escapes can stand between quotes. -/
theorem stringBody_of_plain {text : List UInt8}
    (hplain : text.all fun byte => byte ≠ 34 ∧ byte ≠ 92) : StringBody text := by
  have hbytes : ∀ byte ∈ text, byte ≠ 34 ∧ byte ≠ 92 := by simpa using hplain
  simpa using stringBody_append hbytes .nil

theorem member_fits {key : List UInt8} (hkey : StringBody key) (value : Doc) :
    (member key value).1.Fits .object :=
  memberFrame_fits blank_nil hkey blank_nil blank_nil

/-- Where the name of a member is in the text. -/
theorem Lists.name_at {item : LiteCjson} {ahead : List UInt8} {entries : List (Frame × Doc)}
    (hitem : Lists src item .object entries ahead) {index : Nat}
    (hindex : index < entries.length) {label : Label}
    (hlabel : entries[index].1.label = some label) :
    ∃ rest, src = (ahead ++ entryAhead .object entries index ++ entries[index].1.before ++ [34]) ++
      label.key ++ rest := by
  obtain ⟨text, tail, _, ⟨behind, hsrc⟩, hwhole, _⟩ := hitem.window hindex
  have htext : entryText entries[index] = entries[index].1.before ++ [34] ++ label.key ++
      (34 :: (label.gap ++ 58 :: label.blank) ++ entries[index].2.render ++
        entries[index].1.after) := by
    simp [entryText, Frame.wrap, Frame.lead, hlabel, Label.render]
  refine ⟨34 :: (label.gap ++ 58 :: label.blank) ++ entries[index].2.render ++
    entries[index].1.after ++ tail ++ behind, ?_⟩
  rw [← hsrc, hwhole, htext]
  simp

/-- The question has the answer that the name suggests. -/
theorem byKey_of_denotes {item : LiteCjson} {ahead : List UInt8} {entries : List (Frame × Doc)}
    (hitem : Lists src item .object entries ahead)
    (hframes : ∀ entry ∈ entries, entry.1.Fits .object) {index : Nat}
    (hindex : index < entries.length) (key : List UInt8) (count : Nat) {entry : Entry}
    (hentry : EntryDenotes entry entries[index].1 entries[index].2
      (ahead ++ entryAhead .object entries index).length) :
    byKey src key count entry =
      .ok (if keyOf entries[index] = key then some entry.value else none) := by
  have hfits := hframes entries[index] (List.getElem_mem hindex)
  obtain ⟨label, hlabel⟩ := Option.isSome_iff_exists.mp (hfits.label.mp rfl)
  have hname := hentry.key
  rw [NameDenotes, hlabel] at hname
  obtain ⟨⟨type, value, nameLength, size⟩, hkey, hdenotes⟩ := hname
  have hvalue := hdenotes.value
  have hlength := hdenotes.valueLength
  have hown : keyOf entries[index] = label.key := by rw [keyOf, hlabel]; rfl
  dsimp only [Doc.indent, Doc.contents] at hvalue hlength
  unfold byKey
  rw [hkey, hown, hvalue]
  dsimp only
  by_cases hsame : nameLength = key.length
  · rw [if_pos hsame]
    obtain ⟨rest, hsrc⟩ := hitem.name_at hindex hlabel
    have hlengths : key.length = label.key.length := by omega
    have hplace : ((ahead ++ entryAhead .object entries index).length : Int) +
        entries[index].1.before.length + (1 : Nat) =
          (ahead ++ entryAhead .object entries index ++ entries[index].1.before ++
            [34]).length := by
      simp only [List.length_append, List.length_singleton]
      push_cast
      rfl
    have hread : readBytes src ((ahead ++ entryAhead .object entries index ++
        entries[index].1.before ++ [34]).length : Nat) key.length = .ok label.key := by
      rw [hlengths]
      conv_lhs => rw [hsrc]
      exact readBytes_append _ _ _
    rw [hplace, hread]
    rfl
  · rw [if_neg hsame]
    have hdiffer : label.key ≠ key := by
      rintro rfl
      exact hsame hlength
    rw [if_neg hdiffer]
    rfl

/-- The first member with the name is found, and its value stands for its tree. -/
theorem objectItem_found {item : LiteCjson} {ahead : List UInt8} {entries : List (Frame × Doc)}
    (hitem : Lists src item .object entries ahead)
    (hframes : ∀ entry ∈ entries, entry.1.Fits .object)
    (hvalues : ∀ entry ∈ entries, entry.2.WellFormed liteCjsonNestingLimit)
    {index : Nat} (hindex : index < entries.length) {key : List UInt8} (hsome : key ≠ [])
    (hkey : keyOf entries[index] = key)
    (hfirst : ∀ earlier (hearlier : earlier < index), keyOf entries[earlier] ≠ key) :
    ∃ value, liteCjsonObjectItemByKey src item key = .ok value ∧
      Represents src value entries[index].2
        (ahead ++ entryAhead .object entries index ++ entries[index].1.lead) := by
  have haccept : ¬(item.type ≠ .object ∨ item.size = 0 ∨ key = []) := by
    rintro (htype | hempty | hnil)
    · exact htype hitem.type
    · exact hitem.size hempty
    · exact hsome hnil
  have hfind : ∃ entry, EntryDenotes entry entries[index].1 entries[index].2
        (ahead ++ entryAhead .object entries index).length ∧
      searchEntries src .object item (byKey src key) = .ok entry.value := by
    apply searchEntries_found Entry.value hitem hframes hvalues hindex
    · intro earlier hearlier entry hentry
      have hbefore : earlier < index := by
        rw [List.length_take_of_le (Nat.le_of_lt hindex)] at hearlier
        exact hearlier
      have hin : earlier < entries.length := Nat.lt_trans hbefore hindex
      have hdenotes : EntryDenotes entry entries[earlier].1 entries[earlier].2
          (ahead ++ entryAhead .object entries earlier).length := by
        rw [List.take_take, Nat.min_eq_left (Nat.le_of_lt hbefore)] at hentry
        simpa [entryAhead] using hentry
      rw [byKey_of_denotes hitem hframes hin key _ hdenotes, if_neg (hfirst earlier hbefore)]
    · intro entry hentry
      rw [byKey_of_denotes hitem hframes hindex key _ hentry, if_pos hkey]
  obtain ⟨entry, hentry, hsearch⟩ := hfind
  refine ⟨entry.value, ?_, hentry.represents hitem hindex⟩
  rw [liteCjsonObjectItemByKey_eq, if_neg haccept, hsearch]

/-- The bytes that an item stands for. -/
def itemText (src : List UInt8) (item : LiteCjson) : List UInt8 :=
  (src.drop (item.value.getD 0).toNat).take item.valueLength.toNat

/-- The text of an item that stands for a tree is the tree's. -/
theorem Represents.itemText {item : LiteCjson} {doc : Doc} {ahead : List UInt8}
    (hitem : Represents src item doc ahead) : itemText src item = doc.contents := by
  obtain ⟨behind, hsrc⟩ := hitem.placed
  have hsplit : ∃ front back, doc.render = front ++ (doc.contents ++ back) ∧
      front.length = doc.indent := by
    cases doc with
    | nest kind blank entries => exact ⟨[], [], by simp [Doc.contents], rfl⟩
    | scalar token =>
        cases token with
        | string body => exact ⟨[34], [34], rfl, rfl⟩
        | null => exact ⟨[], [], rfl, rfl⟩
        | true => exact ⟨[], [], rfl, rfl⟩
        | false => exact ⟨[], [], rfl, rfl⟩
        | number text => exact ⟨[], [], by simp [Doc.contents], rfl⟩
  obtain ⟨front, back, hrender, hfront⟩ := hsplit
  have hvalue : (item.value.getD 0).toNat = (ahead ++ front).length := by
    rw [hitem.denotes.value, Option.getD_some, List.length_append, hfront]
    omega
  have hlength : item.valueLength.toNat = doc.contents.length := by
    rw [hitem.denotes.valueLength]
    rfl
  have hwhole : src = (ahead ++ front) ++ (doc.contents ++ (back ++ behind)) := by
    rw [← hsrc, hrender]
    simp
  rw [Infra.itemText, hvalue, hlength]
  conv_lhs => rw [hwhole]
  rw [List.drop_left, List.take_left]

/-! ## The calls that the device model makes -/

/-- `dm_utils_json_parse`, and `lite_cjson_parse` into a zeroed item. -/
def jsonParse (src : List UInt8) : Option LiteCjson := (liteCjsonParse src .zero).toOption

/-- `dm_utils_json_object_item`, and `lite_cjson_object_item`, for a key without dots and
brackets. -/
def jsonObjectItem (src : List UInt8) (item : LiteCjson) (key : List UInt8) : Option LiteCjson :=
  (liteCjsonObjectItemByKey src item key).toOption

/-- `lite_cjson_array_item` -/
def jsonArrayItem (src : List UInt8) (item : LiteCjson) (index : Int) : Option LiteCjson :=
  (liteCjsonArrayItem src item index).toOption

/-- The text of a member that must have the type. -/
def jsonMember (src : List UInt8) (item : LiteCjson) (key : List UInt8) (type : CjsonType) :
    Option (List UInt8) := do
  let value ← jsonObjectItem src item key
  if value.type = type then some (itemText src value) else none

/-- A text of the grammar is parsed. -/
theorem jsonParse_render {doc : Doc} (hdoc : doc.WellFormed liteCjsonNestingLimit) :
    ∃ item, jsonParse doc.render = some item ∧ Represents doc.render item doc [] := by
  obtain ⟨item, hparse, hdenotes, _⟩ := document_recovered .zero blank_nil blank_nil hdoc
  rw [List.nil_append, List.append_nil] at hparse
  exact ⟨item, by rw [jsonParse, hparse, Outcome.toOption_ok], ⟨List.prefix_rfl, hdenotes⟩⟩

/-- The first member with a name is given out, and stands for its tree. -/
theorem jsonObjectItem_found {item : LiteCjson} {ahead : List UInt8} {entries : List (Frame × Doc)}
    (hitem : Lists src item .object entries ahead)
    (hframes : ∀ entry ∈ entries, entry.1.Fits .object)
    (hvalues : ∀ entry ∈ entries, entry.2.WellFormed liteCjsonNestingLimit)
    {key : List UInt8} (hsome : key ≠ []) {entry : Frame × Doc}
    (hfind : entries.find? (fun entry => keyOf entry = key) = some entry) :
    ∃ value place, jsonObjectItem src item key = some value ∧
      Represents src value entry.2 place := by
  obtain ⟨hkey, index, hindex, rfl, hbefore⟩ := List.find?_eq_some_iff_getElem.mp hfind
  have hfirst : ∀ earlier (hearlier : earlier < index), keyOf entries[earlier] ≠ key := by
    intro earlier hearlier
    simpa using hbefore earlier hearlier
  obtain ⟨value, hvalue, hrepresents⟩ :=
    objectItem_found hitem hframes hvalues hindex hsome (by simpa using hkey) hfirst
  exact ⟨value, _, by rw [jsonObjectItem, hvalue, Outcome.toOption_ok], hrepresents⟩

/-- The first member with a name has the text of its tree. -/
theorem jsonMember_found {item : LiteCjson} {ahead : List UInt8} {entries : List (Frame × Doc)}
    (hitem : Lists src item .object entries ahead)
    (hframes : ∀ entry ∈ entries, entry.1.Fits .object)
    (hvalues : ∀ entry ∈ entries, entry.2.WellFormed liteCjsonNestingLimit)
    {key : List UInt8} (hsome : key ≠ []) {entry : Frame × Doc}
    (hfind : entries.find? (fun entry => keyOf entry = key) = some entry) (type : CjsonType) :
    jsonMember src item key type =
      if entry.2.type = type then some entry.2.contents else none := by
  obtain ⟨value, place, hvalue, hrepresents⟩ :=
    jsonObjectItem_found hitem hframes hvalues hsome hfind
  simp only [jsonMember, hvalue, Option.bind_eq_bind, Option.bind_some, hrepresents.denotes.type,
    hrepresents.itemText]

/-- The value of an object's first member with a name. -/
def Doc.field (key : List UInt8) : Doc → Option Doc
  | .nest .object _ entries => (entries.find? fun entry => keyOf entry = key).map Prod.snd
  | _ => none

/-- Only an object has members. -/
theorem Doc.type_of_field {doc value : Doc} {key : List UInt8}
    (hfield : doc.field key = some value) : doc.type = .object := by
  cases doc with
  | scalar => simp [Doc.field] at hfield
  | nest kind blank entries =>
      cases kind with
      | array => simp [Doc.field] at hfield
      | object => rfl

/-- A member that the object has is given out, and stands for its tree. -/
theorem jsonObjectItem_field {item : LiteCjson} {doc value : Doc} {ahead key : List UInt8}
    (hitem : Represents src item doc ahead) (hdoc : doc.WellFormed liteCjsonNestingLimit)
    (hsome : key ≠ []) (hfield : doc.field key = some value) :
    ∃ found place, jsonObjectItem src item key = some found ∧ Represents src found value place := by
  cases hdoc with
  | scalar => simp [Doc.field] at hfield
  | @nest levels kind blank entries _ hframes hvalues =>
      cases kind with
      | array => simp [Doc.field] at hfield
      | object =>
          obtain ⟨entry, hfind, rfl⟩ := Option.map_eq_some_iff.mp hfield
          obtain ⟨_, index, hindex, _⟩ := List.find?_eq_some_iff_getElem.mp hfind
          apply jsonObjectItem_found (hitem.lists hindex) hframes ?_ hsome hfind
          intro entry hentry
          exact (hvalues entry hentry).mono (Nat.le_succ _)

/-- A member that the object has is found with the text of its tree. -/
theorem jsonMember_field {item : LiteCjson} {doc value : Doc} {ahead key : List UInt8}
    (hitem : Represents src item doc ahead) (hdoc : doc.WellFormed liteCjsonNestingLimit)
    (hsome : key ≠ []) (hfield : doc.field key = some value) (type : CjsonType) :
    jsonMember src item key type =
      if value.type = type then some value.contents else none := by
  obtain ⟨found, place, hfound, hrepresents⟩ := jsonObjectItem_field hitem hdoc hsome hfield
  simp only [jsonMember, hfound, Option.bind_eq_bind, Option.bind_some, hrepresents.denotes.type,
    hrepresents.itemText]

/-- An object with these members and no white space. -/
def objectOf (members : List (List UInt8 × Doc)) : Doc :=
  .nest .object [] (members.map fun entry => member entry.1 entry.2)

theorem objectOf_wellFormed {levels : Nat} {members : List (List UInt8 × Doc)}
    (hkeys : ∀ entry ∈ members, StringBody entry.1)
    (hvalues : ∀ entry ∈ members, entry.2.WellFormed levels) :
    (objectOf members).WellFormed (levels + 1) := by
  apply Doc.WellFormed.nest blank_nil
  · intro frame hframe
    obtain ⟨entry, hentry, rfl⟩ := List.mem_map.mp hframe
    exact member_fits (hkeys entry hentry) entry.2
  · intro frame hframe
    obtain ⟨entry, hentry, rfl⟩ := List.mem_map.mp hframe
    exact hvalues entry hentry

/-- The text of an object with members. -/
theorem render_objectOf (members : List (List UInt8 × Doc)) (hsome : members ≠ []) :
    (objectOf members).render =
      123 :: joinCommas (members.map fun entry =>
        34 :: (entry.1 ++ 34 :: 58 :: entry.2.render)) ++ [125] := by
  obtain ⟨first, rest, rfl⟩ := List.exists_cons_of_ne_nil hsome
  have htext : ∀ entry : List UInt8 × Doc,
      entryText (member entry.1 entry.2) = 34 :: (entry.1 ++ 34 :: 58 :: entry.2.render) := by
    intro entry
    simp [entryText, member, Frame.wrap, Frame.lead, Label.render]
  have htexts : ((first :: rest).map fun entry => member entry.1 entry.2).map entryText =
      (first :: rest).map fun entry => 34 :: (entry.1 ++ 34 :: 58 :: entry.2.render) := by
    rw [List.map_map]
    exact List.map_congr_left fun entry _ => htext entry
  rw [objectOf, render_nest, ← htexts]
  rfl

/-- A member of an object is found in its text. -/
theorem jsonMember_objectOf {members : List (List UInt8 × Doc)}
    (hobject : (objectOf members).WellFormed liteCjsonNestingLimit) :
    ∃ item, jsonParse (objectOf members).render = some item ∧ item.type = .object ∧
      ∀ key value type, key ≠ [] → members.find? (fun entry => entry.1 = key) = some (key, value) →
        jsonMember (objectOf members).render item key type =
          if value.type = type then some value.contents else none := by
  obtain ⟨item, hparse, hitem⟩ := jsonParse_render hobject
  refine ⟨item, hparse, hitem.denotes.type, ?_⟩
  intro key value type hsome hfind
  apply jsonMember_field hitem hobject hsome
  rw [objectOf, Doc.field, List.find?_map]
  exact congrArg
    (fun found => (Option.map (fun entry => member entry.1 entry.2) found).map Prod.snd) hfind

/-- The item of an array at an index stands for its element there. -/
theorem jsonArrayItem_found {item : LiteCjson} {blank ahead : List UInt8}
    {entries : List (Frame × Doc)}
    (hitem : Represents src item (.nest .array blank entries) ahead)
    (hframes : ∀ entry ∈ entries, entry.1.Fits .array)
    (hvalues : ∀ entry ∈ entries, entry.2.WellFormed liteCjsonNestingLimit)
    (index : Nat) (hindex : index < entries.length) :
    ∃ value elementAhead, jsonArrayItem src item index = some value ∧
      Represents src value entries[index].2 elementAhead := by
  obtain ⟨entry, hentry, hread⟩ := entryAt_read hitem hframes hvalues index hindex
  cases hvalue : liteCjsonArrayItem src item index with
  | ok value =>
      simp only [entryAt, hvalue, Outcome.ok_bind] at hread
      obtain rfl := Outcome.ok.inj hread
      exact ⟨value, _, by rw [jsonArrayItem, hvalue, Outcome.toOption_ok],
        hentry.represents (hitem.lists hindex) hindex⟩
  | failed | stray | running =>
      simp only [entryAt, hvalue] at hread
      exact nomatch hread

end EnosDeviceSdk.Infra
