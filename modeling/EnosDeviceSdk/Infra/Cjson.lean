/-
# The lite JSON parser

`infra_cjson.c` parses JSON in place. A parsed item is a type and a span of the text, and the
accessors of arrays and objects parse the span again up to the item they look for.

Positions are offsets into the text that was given to `lite_cjson_parse`, pointers to values
included, so a read outside that text shows as a stray read. An `int` offset is an integer
here, without an upper bound: no offset goes further than five bytes beyond the text, so this is
the code for every `src_len` up to `INT_MAX - 5`. The depth counter is kept as the number of levels
that are still allowed, which is what the recursion is on. The double and integer values of a
number are left out.
-/

import EnosDeviceSdk.Library.Reading

namespace EnosDeviceSdk.Infra

open EnosDeviceSdk.Library

/-- The cJSON types that the parser gives out. -/
inductive CjsonType
  | invalid | false | true | null | number | string | array | object
  deriving DecidableEq, Repr

/-- `lite_cjson_t`. A value is the offset of its first byte, or null. -/
structure LiteCjson where
  type : CjsonType
  value : Option Int
  valueLength : Int
  size : Int
  deriving DecidableEq, Repr

/-- An item that has been set to zero. -/
def LiteCjson.zero : LiteCjson := ⟨.invalid, none, 0, 0⟩

/-- `LITE_CJSON_NESTING_LIMIT` -/
def liteCjsonNestingLimit : Nat := 1000

/-- `parse_buffer` without its depth. -/
structure ParseBuffer where
  content : Int
  length : Int
  offset : Int
  deriving DecidableEq, Repr

/-- The same buffer with its offset moved. -/
def ParseBuffer.move (buffer : ParseBuffer) (count : Int) : ParseBuffer :=
  { buffer with offset := buffer.offset + count }

/-- `can_read` -/
def ParseBuffer.canRead (buffer : ParseBuffer) (size : Int) : Bool :=
  buffer.offset + size ≤ buffer.length

/-- `can_access_at_index` -/
def ParseBuffer.canAccessAtIndex (buffer : ParseBuffer) (index : Int) : Bool :=
  buffer.offset + index < buffer.length

section Parser

variable (src : List UInt8)

/-- `buffer_at_offset(buffer)[index]` -/
def ParseBuffer.byteAt (buffer : ParseBuffer) (index : Int) : Outcome UInt8 :=
  readByte src (buffer.content + buffer.offset + index)

/-- The byte at the offset, if it can be accessed. -/
def ParseBuffer.peek (buffer : ParseBuffer) : Outcome (Option UInt8) :=
  if buffer.canAccessAtIndex 0 then do
    let byte ← buffer.byteAt src 0
    return some byte
  else return none

/-- The comparison of `strncmp` of the bytes at an address with a known text: it stops at the
first difference. -/
def sameBytes (address : Int) : List UInt8 → Outcome Bool
  | [] => .ok true
  | byte :: rest => do
      let found ← readByte src address
      if found = byte then sameBytes (address + 1) rest else return false

/-- The loop of `buffer_skip_whitespace`. -/
def skipWhitespaceLoop : Nat → ParseBuffer → Outcome ParseBuffer
  | 0, _ => .running
  | steps + 1, buffer => do
      let next ← buffer.peek src
      match next with
      | some byte => if byte ≤ 32 then skipWhitespaceLoop steps (buffer.move 1) else return buffer
      | none => return buffer

/-- `buffer_skip_whitespace`: at the end of the text it steps back to the last byte. -/
def bufferSkipWhitespace (buffer : ParseBuffer) : Outcome ParseBuffer := do
  let buffer ← skipWhitespaceLoop src (src.length + 1) buffer
  if buffer.offset = buffer.length then return buffer.move (-1) else return buffer

/-- `skip_utf8_bom` -/
def skipUtf8Bom (buffer : ParseBuffer) : Outcome ParseBuffer :=
  if buffer.canAccessAtIndex 4 then do
    let found ← sameBytes src (buffer.content + buffer.offset) [0xEF, 0xBB, 0xBF]
    if found then return buffer.move 3 else return buffer
  else return buffer

/-! ## Numbers and strings -/

/-- A decimal digit. -/
def isDigit (byte : UInt8) : Bool := 48 ≤ byte ∧ byte ≤ 57

/-- The characters that `parse_number` copies for `strtod`. -/
def isNumberByte (byte : UInt8) : Bool :=
  isDigit byte ∨ byte = 43 ∨ byte = 45 ∨ byte = 101 ∨ byte = 69 ∨ byte = 46

/-- A text without its leading sign. -/
def dropSign : List UInt8 → List UInt8
  | byte :: rest => if byte = 43 ∨ byte = 45 then rest else byte :: rest
  | [] => []

/-- An exponent in the form that `strtod` expects, or nothing. -/
def isExponent : List UInt8 → Bool
  | [] => true
  | byte :: rest =>
      (byte = 101 ∨ byte = 69) ∧ dropSign rest ≠ [] ∧ (dropSign rest).all isDigit

/-- The form that `strtod` expects of a decimal number: a sign, digits with or without a
point among them, at least one digit, and an exponent. -/
def isDecimal (text : List UInt8) : Bool :=
  let whole := (dropSign text).takeWhile isDigit
  match (dropSign text).dropWhile isDigit with
  | 46 :: rest =>
      (whole ≠ [] ∨ rest.takeWhile isDigit ≠ []) ∧ isExponent (rest.dropWhile isDigit)
  | rest => whole ≠ [] ∧ isExponent rest

/-- How much of a text `strtod` converts: its longest beginning of the expected form. -/
def strtodLength (text : List UInt8) : Nat :=
  ((List.range (text.length + 1)).filter fun count => isDecimal (text.take count)).getLastD 0

/-- The loop of `parse_number` that copies at most 63 characters. -/
def numberText (buffer : ParseBuffer) : Nat → Int → Outcome (List UInt8)
  | 0, _ => .ok []
  | room + 1, index =>
      if buffer.canAccessAtIndex index then do
        let byte ← buffer.byteAt src index
        if isNumberByte byte then do
          let rest ← numberText buffer room (index + 1)
          return byte :: rest
        else return []
      else return []

/-- `parse_number` -/
def parseNumber (item : LiteCjson) (buffer : ParseBuffer) : Outcome (LiteCjson × ParseBuffer) := do
  let text ← numberText src buffer 63 0
  let length := strtodLength text
  if length = 0 then .failed
  else
    return ({ item with
      type := .number
      value := some (buffer.content + buffer.offset)
      valueLength := length }, buffer.move length)

/-- The loop of `parse_string`, from an offset in the buffer to the closing quote or the end
of the text. -/
def stringEnd (buffer : ParseBuffer) : Nat → Int → Outcome Int
  | 0, _ => .running
  | steps + 1, inputEnd =>
      if inputEnd < buffer.length then do
        let byte ← readByte src (buffer.content + inputEnd)
        if byte = 34 then return inputEnd
        else if byte = 92 then
          if inputEnd + 1 ≥ buffer.length then .failed
          else stringEnd buffer steps (inputEnd + 2)
        else stringEnd buffer steps (inputEnd + 1)
      else return inputEnd

/-- `parse_string` -/
def parseString (item : LiteCjson) (buffer : ParseBuffer) : Outcome (LiteCjson × ParseBuffer) := do
  let first ← buffer.byteAt src 0
  if first ≠ 34 then .failed
  else do
    let inputEnd ← stringEnd src buffer (src.length + 1) (buffer.offset + 1)
    if inputEnd ≥ buffer.length then .failed
    else do
      let last ← readByte src (buffer.content + inputEnd)
      if last ≠ 34 then .failed
      else
        return ({ item with
          type := .string
          value := some (buffer.content + buffer.offset + 1)
          valueLength := inputEnd - (buffer.offset + 1) },
          { buffer with offset := inputEnd + 1 })

/-! ## Arrays and objects -/

/-- The two kinds of nesting, which the source treats in separate copies of one loop. -/
inductive Nest
  | array | object
  deriving DecidableEq, Repr

/-- The bracket that opens it. -/
def Nest.opening : Nest → UInt8
  | .array => 91
  | .object => 123

/-- The bracket that closes it. -/
def Nest.closing : Nest → UInt8
  | .array => 93
  | .object => 125

/-- Its cJSON type. -/
def Nest.type : Nest → CjsonType
  | .array => .array
  | .object => .object

/-- What the loops see after the opening bracket. -/
inductive Opened
  | empty (buffer : ParseBuffer)
  | entries (buffer : ParseBuffer)

/-- The code before the loops: the opening bracket, a closing one, and the step back in
front of the first entry. The array code takes the first byte without asking whether it can
be accessed. -/
def openNest (kind : Nest) (buffer : ParseBuffer) : Outcome Opened := do
  if kind = .object ∧ !buffer.canAccessAtIndex 0 then .failed
  else do
    let first ← buffer.byteAt src 0
    if first ≠ kind.opening then .failed
    else do
      let buffer ← bufferSkipWhitespace src (buffer.move 1)
      let next ← buffer.peek src
      if next = some kind.closing then return .empty buffer
      else if next = none then .failed
      else return .entries (buffer.move (-1))

/-- One element of an array, or one member of an object with its name. -/
structure Entry where
  key : Option LiteCjson
  value : LiteCjson
  deriving DecidableEq, Repr

/-- How a value is parsed one level further down. -/
abbrev ValueParser := ParseBuffer → Outcome (LiteCjson × ParseBuffer)

/-- The body of the loops over an array. -/
def readElement (parseValue : ValueParser) (buffer : ParseBuffer) :
    Outcome (Entry × ParseBuffer) := do
  let buffer ← bufferSkipWhitespace src buffer
  let (value, buffer) ← parseValue buffer
  let buffer ← bufferSkipWhitespace src buffer
  return (⟨none, value⟩, buffer)

/-- The body of the loops over an object. -/
def readMember (parseValue : ValueParser) (buffer : ParseBuffer) :
    Outcome (Entry × ParseBuffer) := do
  let buffer ← bufferSkipWhitespace src buffer
  let (key, buffer) ← parseString src .zero buffer
  let buffer ← bufferSkipWhitespace src buffer
  let next ← buffer.peek src
  if next ≠ some 58 then .failed
  else do
    let (entry, buffer) ← readElement src parseValue (buffer.move 1)
    return (⟨some key, entry.value⟩, buffer)

/-- The body of the loops over either. -/
def readEntry : Nest → ValueParser → ParseBuffer → Outcome (Entry × ParseBuffer)
  | .array => readElement src
  | .object => readMember src

/-- How a loop over entries ends: early, with what it looked for, or behind the last entry
with their number. -/
inductive Scan (ρ : Type)
  | found (result : ρ)
  | ended (count : Nat) (buffer : ParseBuffer)

/-- The `do … while` loop over the comma separated entries. -/
def scanEntries {ρ : Type} (kind : Nest) (parseValue : ValueParser)
    (visit : Nat → Entry → Outcome (Option ρ)) :
    Nat → Nat → ParseBuffer → Outcome (Scan ρ)
  | 0, _, _ => .running
  | steps + 1, count, buffer => do
      let (entry, buffer) ← readEntry src kind parseValue (buffer.move 1)
      let result ← visit count entry
      match result with
      | some result => return .found result
      | none =>
          let next ← buffer.peek src
          if next = some 44 then scanEntries kind parseValue visit steps (count + 1) buffer
          else return .ended (count + 1) buffer

/-- What `parse_array` and `parse_object` leave behind the closing bracket at the offset. -/
def closeNest (kind : Nest) (item : LiteCjson) (start : ParseBuffer) (count : Nat)
    (buffer : ParseBuffer) : LiteCjson × ParseBuffer :=
  ({ item with
    type := kind.type
    value := some (start.content + start.offset)
    valueLength := buffer.offset - start.offset + 1
    size := count }, buffer.move 1)

/-- `parse_array` and `parse_object`. Without a parser for the next level the nesting limit
is reached. -/
def parseNest (kind : Nest) (parseValue : Option ValueParser) (item : LiteCjson)
    (buffer : ParseBuffer) : Outcome (LiteCjson × ParseBuffer) :=
  match parseValue with
  | none => .failed
  | some parseValue => do
      let opened ← openNest src kind buffer
      match opened with
      | .empty inner => return closeNest kind item buffer 0 inner
      | .entries inner =>
          let scan ← scanEntries src kind parseValue (fun _ _ => .ok (none : Option Empty))
            (src.length + 1) 0 inner
          match scan with
          | .found result => nomatch result
          | .ended count inner =>
              let next ← inner.peek src
              if next = some kind.closing then return closeNest kind item buffer count inner
              else .failed

/-- `parse_array` -/
def parseArray : Option ValueParser → LiteCjson → ParseBuffer → Outcome (LiteCjson × ParseBuffer) :=
  parseNest src .array

/-- `parse_object` -/
def parseObject : Option ValueParser → LiteCjson → ParseBuffer →
    Outcome (LiteCjson × ParseBuffer) :=
  parseNest src .object

/-- A literal at the offset, with the check that there is room for it. -/
def literalAt (literal : List UInt8) (buffer : ParseBuffer) : Outcome Bool :=
  if buffer.canRead literal.length then sameBytes src (buffer.content + buffer.offset) literal
  else .ok false

/-- The item of a literal. -/
def literalItem (type : CjsonType) (length : Int) (lite : LiteCjson) (buffer : ParseBuffer) :
    LiteCjson × ParseBuffer :=
  ({ lite with
    type := type
    value := some (buffer.content + buffer.offset)
    valueLength := length }, buffer.move length)

/-- The body of `parse_value`, with the parser for the values inside arrays and objects. -/
def parseToken (inner : Option ValueParser) (lite : LiteCjson) (buffer : ParseBuffer) :
    Outcome (LiteCjson × ParseBuffer) := do
  if ← literalAt src [110, 117, 108, 108] buffer then
    return literalItem .null 4 lite buffer
  else if ← literalAt src [102, 97, 108, 115, 101] buffer then
    return literalItem .false 5 lite buffer
  else if ← literalAt src [116, 114, 117, 101] buffer then
    return literalItem .true 4 lite buffer
  else do
    let next ← buffer.peek src
    match next with
    | none => .failed
    | some byte =>
        if byte = 34 then parseString src lite buffer
        else if byte = 45 ∨ isDigit byte then parseNumber src lite buffer
        else if byte = 91 then parseArray src inner lite buffer
        else if byte = 123 then parseObject src inner lite buffer
        else .failed

/-- `parse_value`, with this many levels of nesting still allowed. -/
def parseValue : Nat → LiteCjson → ParseBuffer → Outcome (LiteCjson × ParseBuffer)
  | 0 => parseToken src none
  | levels + 1 => parseToken src (some (parseValue levels .zero))

/-- `lite_cjson_parse`. A failure also marks the item as invalid, which nobody reads. -/
def liteCjsonParse (lite : LiteCjson) : Outcome LiteCjson :=
  if src = [] then .failed
  else do
    let buffer ← skipUtf8Bom src ⟨0, src.length, 0⟩
    let buffer ← bufferSkipWhitespace src buffer
    let (item, _) ← parseValue src liteCjsonNestingLimit lite buffer
    return item

/-! ## The accessors -/

/-- The loop of an accessor over the entries of an item, up to the one it looks for. -/
def searchEntries {ρ : Type} (kind : Nest) (lite : LiteCjson)
    (visit : Nat → Entry → Outcome (Option ρ)) : Outcome ρ :=
  match lite.value with
  | none => .failed
  | some value => do
      let opened ← openNest src kind ⟨value, lite.valueLength, 0⟩
      match opened with
      | .empty _ => .failed
      | .entries buffer =>
          let scan ← scanEntries src kind (parseValue src liteCjsonNestingLimit .zero) visit
            (src.length + 1) 0 buffer
          match scan with
          | .found result => return result
          | .ended _ _ => .failed

/-- `lite_cjson_array_item` -/
def liteCjsonArrayItem (lite : LiteCjson) (index : Int) : Outcome LiteCjson :=
  if lite.type ≠ .array ∨ index < 0 ∨ index ≥ lite.size then .failed
  else
    searchEntries src .array lite fun iterIndex entry =>
      .ok (if iterIndex = index then some entry.value else none)

/-- `_lite_cjson_object_item`, which takes the key as it is. Its `memcmp` may look at all
bytes of the name. -/
def liteCjsonObjectItemByKey (lite : LiteCjson) (key : List UInt8) : Outcome LiteCjson :=
  if lite.type ≠ .object ∨ lite.size = 0 ∨ key = [] then .failed
  else
    searchEntries src .object lite fun _ entry =>
      match entry.key with
      | some ⟨_, some name, nameLength, _⟩ =>
          if nameLength = key.length then do
            let found ← readBytes src name key.length
            return if found = key then some entry.value else none
          else return none
      | _ => return none

/-- `lite_cjson_object_item_by_index`, with both of the items asked for. -/
def liteCjsonObjectItemByIndex (lite : LiteCjson) (index : Int) : Outcome Entry :=
  if lite.type ≠ .object ∨ lite.size = 0 ∨ index < 0 ∨ index ≥ lite.size then .failed
  else
    searchEntries src .object lite fun itemIndex entry =>
      .ok (if itemIndex = index then some entry else none)

end Parser

end EnosDeviceSdk.Infra
