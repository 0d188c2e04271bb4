/-
# A parser that looks for quotes

The older of the two JSON parsers walks over an object with `strchr`: from where the last value
ended it looks for a quote, takes what follows up to the next one for the name, and looks behind the
next colon for a character that a value can begin with. The type it reads off that character says
how the end of the value is found.

A quote is a quote, with or without a backslash before it, and nothing begins a null. So a string
with an escaped quote is cut short, and a null is passed over for whatever comes next. A string, a
literal or a number is found as it stands otherwise, and so is a nesting whose brackets balance if
every quote is taken for the begin or the end of a string.
-/

import EnosDeviceSdk.Infra.JsonUnique
import EnosDeviceSdk.Infra.Memory
import EnosDeviceSdk.Library.Decimal
import EnosDeviceSdk.Library.Reading

namespace EnosDeviceSdk.Infra

open EnosDeviceSdk.Library

/-! ## The code -/

/-- The types of values. `JNONE` is the lack of one. -/
inductive JsonType
  | string | object | array | number | boolean
  deriving DecidableEq

/-- `JsonMark`: what opens and closes a value. -/
def JsonType.jsonMark : JsonType → UInt8 × UInt8
  | .string => (34, 34)
  | .object => (123, 125)
  | .array => (91, 93)
  | .number => (48, 32)
  | .boolean => (0, 0)

/-- The places and lengths of a key and its value. -/
structure Slices where
  key : Nat
  klen : Nat
  val : Nat
  vlen : Nat
  deriving DecidableEq

/-- What `json_get_next_object` tells of a member. -/
structure KeyValue extends Slices where
  vtype : JsonType
  deriving DecidableEq

/-- The loop of `json_get_object`, over the text up to its end. -/
def getObjectLoop (ch : UInt8) : List UInt8 → Nat → Option Nat
  | [], _ => none
  | char :: rest, pos =>
      if char = 32 then getObjectLoop ch rest (pos + 1) else if char = ch then some pos else none

/-- `json_get_object` at the start of a text. -/
def jsonGetObject (type : JsonType) (text : List UInt8) (strEnd : Nat) : Option Nat :=
  getObjectLoop (if type = .object then 123 else 91) (text.take strEnd) 0

/-- The type that a value has by its first character. -/
def valueMark (char : UInt8) : Option JsonType :=
  if char = 34 then some .string
  else if char = 123 then some .object
  else if char = 91 then some .array
  else if char = 45 ∨ 48 ≤ char ∧ char ≤ 57 then some .number
  else if char = 116 ∨ char = 84 ∨ char = 102 ∨ char = 70 then some .boolean
  else none

/-- The first loop of `json_get_next_object`: the type of the value and where it was seen. -/
def findValue : List UInt8 → Nat → Option (JsonType × Nat)
  | [], _ => none
  | char :: rest, pos =>
      match valueMark char with
      | some type => some (type, pos)
      | none => findValue rest (pos + 1)

/-- The length of the literal that a text begins with. -/
def literalLen (value : List UInt8) : Option Nat :=
  if ascii "true" <+: value ∨ ascii "TRUE" <+: value then some 4
  else if ascii "false" <+: value ∨ ascii "FALSE" <+: value then some 5
  else none

/-- `iStringDepth` and `iMarkDepth`. -/
structure Marks where
  inString : Bool
  depth : Nat
  deriving DecidableEq

/-- Outside of strings, with no bracket open. -/
def Marks.none : Marks := ⟨false, 0⟩

/-- What a character does to the marks. -/
def Marks.step (jsonMark : UInt8 × UInt8) (marks : Marks) (char : UInt8) : Marks :=
  if char = jsonMark.2 then
    if marks.inString then marks else { marks with depth := marks.depth - 1 }
  else if char = jsonMark.1 then
    if marks.inString then marks else { marks with depth := marks.depth + 1 }
  else if char = 34 then { marks with inString := !marks.inString }
  else marks

/-- The second loop of `json_get_next_object`, from the length passed so far: the length of the
value, or nothing if its end is not found. -/
def valueLenLoop (type : JsonType) (value : List UInt8) : List UInt8 → Nat → Marks → Nat
  | [], _, _ => 0
  | char :: rest, len, marks =>
      match type with
      | .boolean =>
          match literalLen value with
          | some literal => literal
          | none => valueLenLoop .boolean value rest (len + 1) marks
      | .number =>
          if isNumberByte char then valueLenLoop .number value rest (len + 1) marks else len
      | .string => if char = 34 then len else valueLenLoop .string value rest (len + 1) marks
      | .object =>
          if char = JsonType.object.jsonMark.2 ∧ marks = .none then len + 1
          else valueLenLoop .object value rest (len + 1) (marks.step JsonType.object.jsonMark char)
      | .array =>
          if char = JsonType.array.jsonMark.2 ∧ marks = .none then len + 1
          else valueLenLoop .array value rest (len + 1) (marks.step JsonType.array.jsonMark char)

/-- The part of `json_get_next_object` that looks for a value: the place, the length and the type
of the value, and where to go on. -/
def jsonGetNextValue (text : List UInt8) (pos strEnd : Nat) : Option (Nat × Nat × Nat × JsonType) :=
  do
    let (type, pos) ← findValue ((text.take strEnd).drop pos) pos
    let value := if type = .string then pos + 1 else pos
    let pos := if type = .boolean then pos else pos + 1
    let len := valueLenLoop type (text.drop value) ((text.take strEnd).drop pos) (pos - value) .none
    return (if type = .string then value + len + 1 else value + len, value, len, type)

/-- `json_get_next_object` for an object. Without a colon or a value its result is the null pointer
too. -/
def jsonGetNextObject (text : List UInt8) (str strEnd : Nat) : Option (Nat × KeyValue) := do
  let quote ← strchr text str 34
  let name := quote + 1
  let pos ← strchr text name 34
  let nameLen := pos - name
  let pos ← strchr text pos 58
  let (next, value, valueLen, type) ← jsonGetNextValue text pos strEnd
  if name + nameLen > strEnd ∨ value + valueLen > strEnd then none
  else return (next, ⟨⟨name, nameLen, value, valueLen⟩, type⟩)

/-- The loop of `json_object_for_each_kv`, with a body that may break. The character at the place is
read before anything else, and may be the terminator. -/
def forEachLoop {σ : Type} (text : List UInt8) (strEnd : Nat) (body : KeyValue → σ → σ × Bool) :
    Nat → Nat → σ → Outcome σ
  | 0, _, _ => .running
  | left + 1, pos, state =>
      if text.length < pos then .stray
      else if pos = text.length then .ok state
      else
        match jsonGetNextObject text pos strEnd with
        | none => .ok state
        | some (pos, item) =>
            let (state, finished) := body item state
            if finished then .ok state else forEachLoop text strEnd body left pos state

/-- `json_object_for_each_kv` -/
def jsonObjectForEachKv {σ : Type} (text : CString) (slen : Nat)
    (body : KeyValue → σ → σ × Bool) (state : σ) : Outcome σ :=
  match jsonGetObject .object text.bytes slen with
  | none => .ok state
  | some pos => forEachLoop text.bytes slen body (text.strlen + 1) pos state

/-- `json_parse_name_value`: whether there was anything for the callback, and its data. -/
def jsonParseNameValue {σ : Type} (text : CString) (strLen : Nat)
    (callback : KeyValue → σ → σ × Bool) (data : σ) : Outcome (Bool × σ) :=
  if strLen = 0 then .ok (false, data)
  else
    jsonObjectForEachKv text strLen
      (fun item state =>
        if item.klen ≠ 0 ∧ item.vlen ≠ 0 then
          let (data, finished) := callback item state.2
          ((true, data), finished)
        else (state, false))
      (false, data)

/-- The key has the bytes of the name. -/
def KeyIs (text name : CString) (slices : Slices) : Prop :=
  slices.klen = name.strlen ∧ (text.bytes.drop slices.key).take name.strlen = name.bytes

instance (text name : CString) (slices : Slices) : Decidable (KeyIs text name slices) :=
  inferInstanceAs (Decidable (_ ∧ _))

/-- `json_get_value_by_name_cb`. The data are the value found, if any. -/
def jsonGetValueByNameCb (text name : CString) (item : KeyValue) (found : Option KeyValue) :
    Option KeyValue × Bool :=
  if KeyIs text name item.toSlices then (some item, true) else (found, false)

/-- `json_get_value_by_name`: the place and the length of the value, and its type. -/
def jsonGetValueByName (text : CString) (strLen : Nat) (name : CString) :
    Outcome (Option (Nat × Nat × JsonType)) := do
  let (_, found) ← jsonParseNameValue text strLen (jsonGetValueByNameCb text name) none
  return found.map fun item => (item.val, item.vlen, item.vtype)

/-! ## The loop -/

/-- A body on one member after the other, unless it breaks. -/
def visit {α σ : Type} (body : α → σ → σ × Bool) : List α → σ → σ
  | [], state => state
  | item :: items, state =>
      let (state, finished) := body item state
      if finished then state else visit body items state

section Loop

variable {σ : Type} {text : List UInt8} {strEnd : Nat}

/-- The members that the loop finds from a place on. -/
inductive Walks (text : List UInt8) (strEnd : Nat) : Nat → List KeyValue → Prop
  | terminated : Walks text strEnd text.length []
  | done {pos : Nat} (hpos : pos < text.length)
      (hnone : jsonGetNextObject text pos strEnd = none) : Walks text strEnd pos []
  | next {pos later : Nat} {item : KeyValue} {items : List KeyValue} (hpos : pos < text.length)
      (hitem : jsonGetNextObject text pos strEnd = some (later, item))
      (hitems : Walks text strEnd later items) : Walks text strEnd pos (item :: items)

theorem le_findValue {rest : List UInt8} {pos place : Nat} {type : JsonType}
    (hplace : findValue rest pos = some (type, place)) : pos ≤ place := by
  induction rest generalizing pos with
  | nil => exact nomatch hplace
  | cons char rest ih =>
      rw [findValue] at hplace
      split at hplace
      · cases hplace
        exact Nat.le_refl _
      · exact Nat.le_of_succ_le (ih hplace)

/-- A value is found no earlier than it is looked for, and the code goes on behind its start. -/
theorem le_jsonGetNextValue {pos next value len : Nat} {type : JsonType}
    (hvalue : jsonGetNextValue text pos strEnd = some (next, value, len, type)) :
    pos ≤ value ∧ value ≤ next := by
  obtain ⟨⟨found, place⟩, hplace, hresult⟩ := Option.bind_eq_some_iff.mp hvalue
  have hle := le_findValue hplace
  cases hresult
  split <;> omega

/-- Every turn of the loop goes on further behind. -/
theorem lt_of_jsonGetNextObject {pos later : Nat} {item : KeyValue}
    (hitem : jsonGetNextObject text pos strEnd = some (later, item)) : pos < later := by
  obtain ⟨quote, hquote, hitem⟩ := Option.bind_eq_some_iff.mp hitem
  obtain ⟨second, hsecond, hitem⟩ := Option.bind_eq_some_iff.mp hitem
  obtain ⟨colon, hcolon, hitem⟩ := Option.bind_eq_some_iff.mp hitem
  obtain ⟨⟨next, value, len, type⟩, hvalue, hitem⟩ := Option.bind_eq_some_iff.mp hitem
  have hfirst := le_strchr hquote
  have hname := le_strchr hsecond
  have hbehind := le_strchr hcolon
  obtain ⟨hstart, hnext⟩ := le_jsonGetNextValue hvalue
  dsimp only at hitem
  split at hitem
  · exact nomatch hitem
  · cases hitem
    omega

/-- A loop that finds members runs its body on them. -/
theorem Walks.loop {pos left : Nat} {items : List KeyValue} (hwalks : Walks text strEnd pos items)
    (hleft : text.length < left + pos) (body : KeyValue → σ → σ × Bool) (state : σ) :
    forEachLoop text strEnd body left pos state = .ok (visit body items state) := by
  induction hwalks generalizing left state with
  | terminated =>
      obtain ⟨left, rfl⟩ : ∃ more, left = more + 1 := ⟨left - 1, by omega⟩
      rw [forEachLoop, if_neg (Nat.lt_irrefl _), if_pos rfl]
      rfl
  | done hpos hnone =>
      obtain ⟨left, rfl⟩ : ∃ more, left = more + 1 := ⟨left - 1, by omega⟩
      rw [forEachLoop, if_neg (Nat.lt_asymm hpos), if_neg (Nat.ne_of_lt hpos), hnone]
      rfl
  | next hpos hitem hitems ih =>
      obtain ⟨left, rfl⟩ : ∃ more, left = more + 1 := ⟨left - 1, by omega⟩
      have hfurther := lt_of_jsonGetNextObject hitem
      rw [forEachLoop, if_neg (Nat.lt_asymm hpos), if_neg (Nat.ne_of_lt hpos), hitem, visit]
      dsimp only
      split
      · rfl
      · exact ih (by omega) _

/-- A body that keeps what it is given. -/
def collect (item : Slices) (slices : List Slices) : List Slices × Bool :=
  (slices ++ [item], false)

theorem visit_collect (items before : List Slices) :
    visit collect items before = before ++ items := by
  induction items generalizing before with
  | nil => exact (List.append_nil before).symm
  | cons item items ih =>
      have hstep : visit collect (item :: items) before = visit collect items (before ++ [item]) :=
        rfl
      rw [hstep, ih, List.append_assoc, List.singleton_append]

/-- A loop that comes to its end has found the members that its body was run on. -/
theorem walks_of_collect {pos left : Nat} {before result : List Slices}
    (hok : forEachLoop text strEnd (fun item => collect item.toSlices) left pos before =
      .ok result) :
    ∃ items, Walks text strEnd pos items ∧ result = before ++ items.map KeyValue.toSlices := by
  induction left generalizing pos before with
  | zero => exact nomatch hok
  | succ left ih =>
      rw [forEachLoop] at hok
      split at hok
      · exact nomatch hok
      · rename_i hinside
        split at hok
        · rename_i hend
          cases hok
          exact ⟨[], hend ▸ .terminated, (List.append_nil _).symm⟩
        · rename_i hbefore
          have hpos : pos < text.length := by omega
          split at hok
          · rename_i hnone
            cases hok
            exact ⟨[], .done hpos hnone, (List.append_nil _).symm⟩
          · rename_i later item hitem
            obtain ⟨items, hitems, hresult⟩ := ih hok
            refine ⟨item :: items, .next hpos hitem hitems, ?_⟩
            rw [hresult, List.map_cons, List.append_assoc, List.singleton_append]

end Loop

/-! ## What is scanned rightly -/

/-- If each quote begins or ends a string, escaped or not, the brackets outside of strings are
closed behind the text, and the bracket that closes the last is not in it. -/
def Closes (jsonMark : UInt8 × UInt8) (marks : Marks) (inner : List UInt8) : Prop :=
  inner.foldl (Marks.step jsonMark) marks = .none ∧
    ∀ front, front ++ [jsonMark.2] <+: inner → front.foldl (Marks.step jsonMark) marks ≠ .none

/-- The type of a nesting. -/
def Nest.jsonType : Nest → JsonType
  | .array => .array
  | .object => .object

/-- The value is no null, a string has no quotes in it, and a nesting closes where it should. -/
def Scanned : Doc → Prop
  | .scalar .null => False
  | .scalar (.string body) => 34 ∉ body
  | .scalar _ => True
  | .nest kind blank entries => Closes kind.jsonType.jsonMark .none (bodyText blank entries)

/-! ## The scans -/

section Scans

theorem valueMark_blank {char : UInt8} (hblank : char ≤ 32) : valueMark char = none := by
  have hother : ∀ other : UInt8, ¬other ≤ 32 → char ≠ other := by
    rintro other hother rfl
    exact hother hblank
  have hdigit : ¬48 ≤ char := fun hle => absurd (UInt8.le_trans hle hblank) (by decide)
  simp only [valueMark, hother 34 (by decide), hother 123 (by decide), hother 91 (by decide),
    hother 45 (by decide), hother 116 (by decide), hother 84 (by decide), hother 102 (by decide),
    hother 70 (by decide), hdigit, false_and, or_false, if_false]

/-- Characters that no value begins with are passed over. -/
theorem findValue_append {junk : List UInt8} (hjunk : ∀ char ∈ junk, valueMark char = none)
    (rest : List UInt8) (pos : Nat) :
    findValue (junk ++ rest) pos = findValue rest (pos + junk.length) := by
  induction junk generalizing pos with
  | nil => rfl
  | cons char junk ih =>
      obtain ⟨hchar, hothers⟩ := List.forall_mem_cons.mp hjunk
      rw [List.cons_append, findValue, hchar, List.length_cons]
      dsimp only
      rw [ih hothers, Nat.add_assoc, Nat.add_comm 1]

variable (value : List UInt8)

/-- A string ends at its first quote. -/
theorem valueLenLoop_string (body behind : List UInt8) (len : Nat) (marks : Marks) :
    valueLenLoop .string value (body ++ 34 :: behind) len marks = len + body.length ↔
      34 ∉ body := by
  have hle : ∀ (rest : List UInt8) (len : Nat) (marks : Marks),
      valueLenLoop .string value (34 :: rest) len marks = len := fun _ _ _ => rfl
  induction body generalizing len with
  | nil => exact iff_of_true (hle behind len marks) List.not_mem_nil
  | cons byte body ih =>
      by_cases hquote : byte = 34
      · subst hquote
        rw [List.cons_append, hle, List.length_cons]
        exact iff_of_false (by omega) (not_not.mpr (List.mem_cons_self ..))
      · have hstep : valueLenLoop .string value (byte :: body ++ 34 :: behind) len marks =
            valueLenLoop .string value (body ++ 34 :: behind) (len + 1) marks := if_neg hquote
        rw [hstep, List.length_cons, Nat.add_comm body.length, ← Nat.add_assoc, List.mem_cons,
          or_iff_right (Ne.symm hquote)]
        exact ih (len + 1)

/-- A number ends before the first character that numbers do not have. -/
theorem valueLenLoop_number {digits behind : List UInt8}
    (hdigits : ∀ byte ∈ digits, isNumberByte byte = true) (hends : Ends behind)
    (hbehind : behind ≠ []) (len : Nat) (marks : Marks) :
    valueLenLoop .number value (digits ++ behind) len marks = len + digits.length := by
  induction digits generalizing len with
  | nil =>
      obtain ⟨byte, rest, rfl⟩ := List.exists_cons_of_ne_nil hbehind
      exact if_neg (by rw [hends byte rfl]; exact Bool.false_ne_true)
  | cons byte digits ih =>
      obtain ⟨hbyte, hothers⟩ := List.forall_mem_cons.mp hdigits
      have hstep : valueLenLoop .number value (byte :: digits ++ behind) len marks =
          valueLenLoop .number value (digits ++ behind) (len + 1) marks := if_pos hbyte
      rw [hstep, ih hothers, List.length_cons, Nat.add_assoc, Nat.add_comm 1]

/-- The marks after one more character decide on the rest. -/
theorem closes_cons {jsonMark : UInt8 × UInt8} {marks : Marks} {byte : UInt8}
    {inner : List UInt8} :
    Closes jsonMark marks (byte :: inner) ↔
      ¬(byte = jsonMark.2 ∧ marks = .none) ∧ Closes jsonMark (marks.step jsonMark byte) inner := by
  constructor
  · rintro ⟨hlast, hfronts⟩
    refine ⟨?_, hlast, ?_⟩
    · rintro ⟨rfl, hmarks⟩
      exact hfronts [] ⟨inner, rfl⟩ hmarks
    · rintro front ⟨rest, rfl⟩
      exact hfronts (byte :: front) ⟨rest, rfl⟩
  · rintro ⟨hhere, hlast, hfronts⟩
    refine ⟨hlast, ?_⟩
    rintro front ⟨rest, hsplit⟩ hmarks
    cases front with
    | nil => exact hhere ⟨(List.cons.inj hsplit).1.symm, hmarks⟩
    | cons first front =>
        obtain ⟨rfl, rfl⟩ := List.cons.inj hsplit
        exact hfronts front ⟨rest, rfl⟩ hmarks

/-- What a character does in a nesting. -/
theorem valueLenLoop_nest_cons (kind : Nest) (byte : UInt8) (rest : List UInt8) (len : Nat)
    (marks : Marks) :
    valueLenLoop kind.jsonType value (byte :: rest) len marks =
      if byte = kind.jsonType.jsonMark.2 ∧ marks = .none then len + 1
      else valueLenLoop kind.jsonType value rest (len + 1)
        (marks.step kind.jsonType.jsonMark byte) := by
  cases kind <;> rfl

theorem lt_valueLenLoop_nest (kind : Nest) (rest : List UInt8) (len : Nat) (marks : Marks) :
    valueLenLoop kind.jsonType value rest len marks = 0 ∨
      len < valueLenLoop kind.jsonType value rest len marks := by
  induction rest generalizing len marks with
  | nil => exact Or.inl (by cases kind <;> rfl)
  | cons byte rest ih =>
      rw [valueLenLoop_nest_cons]
      split
      · exact Or.inr (Nat.lt_succ_self len)
      · exact (ih (len + 1) _).imp_right Nat.lt_of_succ_lt

/-- A nesting ends where its own bracket closes it if the text in it closes. -/
theorem valueLenLoop_nest (kind : Nest) (inner behind : List UInt8) (len : Nat) (marks : Marks) :
    valueLenLoop kind.jsonType value (inner ++ kind.closing :: behind) len marks =
        len + inner.length + 1 ↔ Closes kind.jsonType.jsonMark marks inner := by
  have hclosing : kind.closing = kind.jsonType.jsonMark.2 := by cases kind <;> rfl
  induction inner generalizing len marks with
  | nil =>
      rw [List.nil_append, valueLenLoop_nest_cons, Closes]
      by_cases hmarks : marks = .none
      · rw [if_pos ⟨hclosing, hmarks⟩]
        refine iff_of_true rfl ⟨hmarks, ?_⟩
        rintro front ⟨rest, hsplit⟩
        simp at hsplit
      · rw [if_neg fun hboth => hmarks hboth.2]
        refine iff_of_false ?_ fun hboth => hmarks hboth.1
        rcases lt_valueLenLoop_nest value kind behind (len + 1) (marks.step _ kind.closing)
          with hzero | hlater
        · rw [hzero]
          omega
        · exact (Nat.ne_of_gt hlater)
  | cons byte inner ih =>
      rw [List.cons_append, valueLenLoop_nest_cons, closes_cons]
      by_cases hhere : byte = kind.jsonType.jsonMark.2 ∧ marks = .none
      · rw [if_pos hhere, List.length_cons]
        exact iff_of_false (by omega) fun hboth => hboth.1 hhere
      · have hlength : len + (inner.length + 1) + 1 = len + 1 + inner.length + 1 := by omega
        rw [if_neg hhere, List.length_cons, and_iff_right hhere, hlength]
        exact ih (len + 1) _

end Scans

/-! ## A value -/

section Value

variable {ahead junk rest behind : List UInt8} {char : UInt8}

/-- What is left of the text at the first character of a value and behind it. -/
theorem drop_seen :
    (ahead ++ (junk ++ char :: rest)).drop (ahead.length + junk.length) = char :: rest ∧
      (ahead ++ (junk ++ char :: rest)).drop (ahead.length + junk.length + 1) = rest := by
  rw [← List.append_assoc, ← List.length_append]
  refine ⟨List.drop_left, ?_⟩
  rw [← List.drop_drop, List.drop_left, List.drop_one, List.tail_cons]

/-- The first character that a value can begin with decides on its type. -/
theorem jsonGetNextValue_seen (hjunk : ∀ char ∈ junk, valueMark char = none) {type : JsonType}
    (hmark : valueMark char = some type) :
    jsonGetNextValue (ahead ++ (junk ++ char :: rest)) ahead.length
        (ahead ++ (junk ++ char :: rest)).length =
      let place := ahead.length + junk.length
      let value := if type = .string then place + 1 else place
      let pos := if type = .boolean then place else place + 1
      let len := valueLenLoop type ((ahead ++ (junk ++ char :: rest)).drop value)
        ((ahead ++ (junk ++ char :: rest)).drop pos) (pos - value) .none
      some (if type = .string then value + len + 1 else value + len, value, len, type) := by
  rw [jsonGetNextValue, List.take_length, List.drop_left, findValue_append hjunk, findValue, hmark]
  rfl

/-- A string is looked for behind its quote. -/
theorem jsonGetNextValue_string (hjunk : ∀ char ∈ junk, valueMark char = none) :
    jsonGetNextValue (ahead ++ (junk ++ 34 :: rest)) ahead.length
        (ahead ++ (junk ++ 34 :: rest)).length =
      some (ahead.length + junk.length + 1 + valueLenLoop .string rest rest 0 .none + 1,
        ahead.length + junk.length + 1, valueLenLoop .string rest rest 0 .none, .string) := by
  obtain ⟨-, hnext⟩ := @drop_seen ahead junk rest 34
  rw [jsonGetNextValue_seen hjunk rfl]
  dsimp only
  rw [if_pos rfl, if_pos rfl, if_neg JsonType.noConfusion, hnext, Nat.sub_self]

/-- A nesting or a number is looked for from its second character on. -/
theorem jsonGetNextValue_plain (hjunk : ∀ char ∈ junk, valueMark char = none) {type : JsonType}
    (hmark : valueMark char = some type) (hstring : type ≠ .string) (hboolean : type ≠ .boolean) :
    jsonGetNextValue (ahead ++ (junk ++ char :: rest)) ahead.length
        (ahead ++ (junk ++ char :: rest)).length =
      some (ahead.length + junk.length + valueLenLoop type (char :: rest) rest 1 .none,
        ahead.length + junk.length, valueLenLoop type (char :: rest) rest 1 .none, type) := by
  obtain ⟨hhere, hnext⟩ := @drop_seen ahead junk rest char
  rw [jsonGetNextValue_seen hjunk hmark]
  dsimp only
  rw [if_neg hstring, if_neg hstring, if_neg hboolean, hhere, hnext, Nat.add_sub_cancel_left]

/-- A literal is compared where it begins. -/
theorem jsonGetNextValue_literal (hjunk : ∀ char ∈ junk, valueMark char = none)
    (hmark : valueMark char = some .boolean) {len : Nat}
    (hliteral : literalLen (char :: rest) = some len) :
    jsonGetNextValue (ahead ++ (junk ++ char :: rest)) ahead.length
        (ahead ++ (junk ++ char :: rest)).length =
      some (ahead.length + junk.length + len, ahead.length + junk.length, len, .boolean) := by
  obtain ⟨hhere, -⟩ := @drop_seen ahead junk rest char
  have hlen : valueLenLoop .boolean (char :: rest) (char :: rest) 0 .none = len := by
    rw [valueLenLoop, hliteral]
  rw [jsonGetNextValue_seen hjunk hmark]
  dsimp only
  rw [if_neg JsonType.noConfusion, if_neg JsonType.noConfusion, if_pos rfl, hhere, Nat.sub_self,
    hlen]

/-- A null is passed over. -/
theorem lt_of_jsonGetNextValue_null (hjunk : ∀ char ∈ junk, valueMark char = none)
    {next value len : Nat} {type : JsonType}
    (hvalue : jsonGetNextValue (ahead ++ (junk ++ ([110, 117, 108, 108] ++ behind))) ahead.length
        (ahead ++ (junk ++ ([110, 117, 108, 108] ++ behind))).length =
      some (next, value, len, type)) :
    ahead.length + junk.length < value := by
  obtain ⟨⟨found, place⟩, hplace, hresult⟩ := Option.bind_eq_some_iff.mp hvalue
  rw [List.take_length, List.drop_left, findValue_append hjunk,
    findValue_append (by simp [valueMark])] at hplace
  have hle := le_findValue hplace
  cases hresult
  split <;> simp_all <;> omega

/-- The text of a nesting in front of more. -/
theorem render_nest_behind (kind : Nest) (blank : List UInt8) (entries : List (Frame × Doc)) :
    (Doc.nest kind blank entries).render ++ behind =
      kind.opening :: (bodyText blank entries ++ kind.closing :: behind) := by
  rw [render_nest]
  simp

theorem length_render_nest (kind : Nest) (blank : List UInt8) (entries : List (Frame × Doc)) :
    (Doc.nest kind blank entries).render.length = 1 + (bodyText blank entries).length + 1 := by
  rw [render_nest, List.length_append, List.length_cons, List.length_singleton]
  omega

/-- The text of a string in front of more. -/
theorem render_string_append (body : List UInt8) :
    (Doc.scalar (.string body)).render ++ behind = 34 :: (body ++ 34 :: behind) := by
  rw [Doc.render, Token.render]
  simp

theorem valueMark_number {byte : UInt8} (hbyte : byte = 45 ∨ isDigit byte = true) :
    valueMark byte = some .number := by
  have hdigit : byte = 45 ∨ 48 ≤ byte ∧ byte ≤ 57 := hbyte.imp_right of_decide_eq_true
  have hother : ∀ other : UInt8, ¬(other = 45 ∨ 48 ≤ other ∧ other ≤ 57) → byte ≠ other := by
    rintro other hother rfl
    exact hother hdigit
  rw [valueMark, if_neg (hother 34 (by decide)), if_neg (hother 123 (by decide)),
    if_neg (hother 91 (by decide)), if_pos hdigit]

theorem valueMark_opening (kind : Nest) : valueMark kind.opening = some kind.jsonType := by
  cases kind <;> decide

theorem literalLen_true : literalLen ([116, 114, 117, 101] ++ behind) = some 4 := by
  have hascii : ascii "true" = [116, 114, 117, 101] := by decide
  exact if_pos (Or.inl ⟨behind, by rw [hascii]⟩)

theorem literalLen_false : literalLen ([102, 97, 108, 115, 101] ++ behind) = some 5 := by
  have hascii : ascii "false" = [102, 97, 108, 115, 101] := by decide
  have hlower : ascii "true" = [116, 114, 117, 101] := by decide
  have hupper : ascii "TRUE" = [84, 82, 85, 69] := by decide
  rw [literalLen, if_neg, if_pos (Or.inl ⟨behind, by rw [hascii]⟩)]
  rw [hlower, hupper]
  rintro (⟨rest, hrest⟩ | ⟨rest, hrest⟩)
  · exact absurd (List.cons.inj hrest).1 (by decide)
  · exact absurd (List.cons.inj hrest).1 (by decide)

variable {value : Doc}

/-- A value that is scanned rightly is found with its length, and the code goes on behind it. -/
theorem jsonGetNextValue_scanned (hjunk : ∀ char ∈ junk, valueMark char = none)
    (hvalue : value.Spelled)
    (hnumbers : ∀ number, value = .scalar (.number number) → JsonNumber number)
    (hends : Ends behind) (hbehind : behind ≠ []) (hscanned : Scanned value) :
    ∃ type, jsonGetNextValue (ahead ++ (junk ++ (value.render ++ behind))) ahead.length
        (ahead ++ (junk ++ (value.render ++ behind))).length =
      some (ahead.length + junk.length + value.render.length,
        ahead.length + junk.length + value.indent, value.contents.length, type) := by
  cases value with
  | nest kind blank entries =>
      have hstring : kind.jsonType ≠ .string := by cases kind <;> decide
      have hboolean : kind.jsonType ≠ .boolean := by cases kind <;> decide
      have hlen := (valueLenLoop_nest (kind.opening :: (bodyText blank entries ++
        kind.closing :: behind)) kind (bodyText blank entries) behind 1 .none).mpr hscanned
      have hindent : (Doc.nest kind blank entries).indent = 0 := rfl
      have hcontents : (Doc.nest kind blank entries).contents =
        (Doc.nest kind blank entries).render := rfl
      refine ⟨kind.jsonType, ?_⟩
      rw [render_nest_behind, jsonGetNextValue_plain hjunk (valueMark_opening kind) hstring
        hboolean, hlen, hindent, hcontents, length_render_nest]
      rfl
  | scalar token =>
      cases token with
      | null => exact hscanned.elim
      | true => exact ⟨.boolean, jsonGetNextValue_literal hjunk (by decide) literalLen_true⟩
      | false => exact ⟨.boolean, jsonGetNextValue_literal hjunk (by decide) literalLen_false⟩
      | number number =>
          have hnumber := hnumbers number rfl
          obtain ⟨byte, digits, rfl, hbyte⟩ := hnumber.head
          obtain ⟨-, hdigits⟩ := List.forall_mem_cons.mp hnumber.numberBytes
          have hlen := valueLenLoop_number (byte :: (digits ++ behind)) hdigits hends hbehind 1
            .none
          have hindent : (Doc.scalar (.number (byte :: digits))).indent = 0 := rfl
          have hcontents : (Doc.scalar (.number (byte :: digits))).contents =
            (Doc.scalar (.number (byte :: digits))).render := rfl
          refine ⟨.number, ?_⟩
          rw [hindent, hcontents, Doc.render, Token.render, List.cons_append,
            jsonGetNextValue_plain hjunk (valueMark_number hbyte) (by decide) (by decide), hlen,
            List.length_cons, Nat.add_comm 1]
          rfl
      | string body =>
          have hlen := (valueLenLoop_string (body ++ 34 :: behind) body behind 0 .none).mpr hscanned
          refine ⟨.string, ?_⟩
          have hlength : (Doc.scalar (.string body)).render.length = 1 + body.length + 1 := by
            rw [Doc.render, Token.render, List.length_append, List.length_cons,
              List.length_singleton]
            omega
          rw [render_string_append, jsonGetNextValue_string hjunk, hlen, Nat.zero_add, Doc.indent,
            Doc.contents, hlength, ← Nat.add_assoc, ← Nat.add_assoc]

/-- A value that is found with its place and its length is one that is scanned rightly. -/
theorem scanned_of_jsonGetNextValue (hjunk : ∀ char ∈ junk, valueMark char = none)
    {next : Nat} {type : JsonType}
    (hfound : jsonGetNextValue (ahead ++ (junk ++ (value.render ++ behind))) ahead.length
        (ahead ++ (junk ++ (value.render ++ behind))).length =
      some (next, ahead.length + junk.length + value.indent, value.contents.length, type)) :
    Scanned value := by
  cases value with
  | nest kind blank entries =>
      have hstring : kind.jsonType ≠ .string := by cases kind <;> decide
      have hboolean : kind.jsonType ≠ .boolean := by cases kind <;> decide
      have hcontents : (Doc.nest kind blank entries).contents =
        (Doc.nest kind blank entries).render := rfl
      rw [hcontents, render_nest_behind, jsonGetNextValue_plain hjunk (valueMark_opening kind)
        hstring hboolean, length_render_nest, Option.some.injEq, Prod.mk.injEq, Prod.mk.injEq,
        Prod.mk.injEq] at hfound
      exact (valueLenLoop_nest _ kind (bodyText blank entries) behind 1 .none).mp hfound.2.2.1
  | scalar token =>
      cases token with
      | null => exact absurd (lt_of_jsonGetNextValue_null hjunk hfound) (Nat.lt_irrefl _)
      | true | false | number => trivial
      | string body =>
          rw [render_string_append, jsonGetNextValue_string hjunk, Option.some.injEq, Prod.mk.injEq,
            Prod.mk.injEq, Prod.mk.injEq] at hfound
          apply (valueLenLoop_string (body ++ 34 :: behind) body behind 0 .none).mp
          rw [Nat.zero_add]
          exact hfound.2.2.1

end Value

end EnosDeviceSdk.Infra
