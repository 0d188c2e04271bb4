/-
# Printing JSON items

A tree of `lite_cjson_item_t` is printed into a buffer on the heap that grows as the text does, and
the text is copied to a block of its own in the end. Each function asks for as many bytes as it is
about to write, and writes them through a pointer behind what is there. Some leave the offset where
it was, and then the length of what they wrote is counted afterwards.

The heap is explicit, and a write outside of a block goes astray. So does a number whose text is
longer than the array on the stack that it is printed into at first. What the C library makes of a
number is a parameter.
-/

import EnosDeviceSdk.Infra.Memory
import EnosDeviceSdk.Library.Attempt
import EnosDeviceSdk.Library.BlockHeap

namespace EnosDeviceSdk.Infra.Printer

open EnosDeviceSdk.Library

/-! ## Items -/

def cJsonFalse : UInt32 := 1
def cJsonTrue : UInt32 := 2
def cJsonNull : UInt32 := 4
def cJsonNumber : UInt32 := 8
def cJsonString : UInt32 := 16
def cJsonArray : UInt32 := 32
def cJsonObject : UInt32 := 64
def cJsonRaw : UInt32 := 128

/-- `lite_cjson_item_t`, with the items of a chain in a list. Of the two forms of a number the
printer reads the `double`. -/
inductive LiteCjsonItem (δ : Type)
  | mk (type : UInt32) (valuestring : Option CString) (valuedouble : δ) (string : Option CString)
      (child : List (LiteCjsonItem δ))

variable {δ : Type}

/-- `item->string` -/
def LiteCjsonItem.string : LiteCjsonItem δ → Option CString
  | .mk _ _ _ string _ => string

/-- The cases of `print_value`. -/
inductive ItemKind
  | null | false | true | number | raw | string | array | object
  deriving DecidableEq

/-- The case of an item's type, whose upper bits are flags. -/
def itemKind (type : UInt32) : Option ItemKind :=
  let type := type &&& 0xFF
  if type = cJsonNull then some .null
  else if type = cJsonFalse then some .false
  else if type = cJsonTrue then some .true
  else if type = cJsonNumber then some .number
  else if type = cJsonRaw then some .raw
  else if type = cJsonString then some .string
  else if type = cJsonArray then some .array
  else if type = cJsonObject then some .object
  else none

/-- What the C library says about a number: whether it is infinite or not a number, its texts for
`%f`, `%1.15g` and `%1.17g`, and whether `sscanf` gets it back from the first as a `float` and from
the second as a `double`. -/
structure NumberFormat (δ : Type) where
  notFinite : δ → Bool
  fixed : δ → CString
  fixedExact : δ → Bool
  short : δ → CString
  shortExact : δ → Bool
  long : δ → CString

/-! ## The buffer -/

/-- `INT_MAX`, as a size. -/
def intMaxSize : Nat := 2 ^ 31 - 1

/-- `printbuffer`. In the place of the hooks is the heap that they work on. There is no hook for
`realloc`. -/
structure PrintBuffer (ι : Type) where
  buffer : Option ι
  length : Nat
  offset : Nat
  depth : Nat
  noalloc : Bool
  format : Bool
  heap : BlockHeap ι

/-- A pointer into a block. -/
structure Pointer (ι : Type) where
  block : ι
  place : Nat

/-- The pointer so many bytes further on. -/
def Pointer.advance {ι : Type} (pointer : Pointer ι) (count : Nat) : Pointer ι :=
  { pointer with place := pointer.place + count }

/-- The functions that print. They return false where they give up. -/
abbrev Printing (ι α : Type) := Attempt (PrintBuffer ι) α

variable {ι : Type} [DecidableEq ι] (A : BlockAllocator ι)

/-- `hooks.allocate` -/
def allocate (size : Nat) : Printing ι (Option ι) := Attempt.attempt fun p =>
  let (block, heap) := p.heap.allocate A size
  .ok (block, { p with heap := heap })

/-- `hooks.deallocate` -/
def deallocate (block : ι) : Printing ι PUnit := Attempt.attempt fun p => do
  let heap ← p.heap.free block
  return (⟨⟩, { p with heap := heap })

/-- Bytes are stored where a pointer points. -/
def write (pointer : Pointer ι) (bytes : List UInt8) : Printing ι PUnit :=
  Attempt.attempt fun p => do
    let heap ← p.heap.store pointer.block pointer.place bytes
    return (⟨⟩, { p with heap := heap })

/-- `memcpy` of so many bytes from the start of a block to the start of another one. -/
def copyBlock (target source : ι) (count : Nat) : Printing ι PUnit :=
  Attempt.attempt fun p => do
    let bytes ← p.heap.load source 0 count
    let heap ← p.heap.store target 0 bytes
    return (⟨⟩, { p with heap := heap })

/-- The offset moves on. -/
def moveOffset (count : Nat) : Printing ι PUnit :=
  Attempt.change fun p => { p with offset := p.offset + count }

/-- The nesting gets deeper. -/
def enterNest : Printing ι PUnit := Attempt.change fun p => { p with depth := p.depth + 1 }

/-- The nesting is left. -/
def leaveNest : Printing ι PUnit := Attempt.change fun p => { p with depth := p.depth - 1 }

/-- The part of `ensure` that gets a new buffer and copies the old one into it. -/
def growBuffer (buffer : ι) (newsize : Nat) : Printing ι (Pointer ι) := do
  let p ← Attempt.look
  match ← allocate A newsize with
  | none =>
      deallocate buffer
      Attempt.change fun p => { p with length := 0, buffer := none }
      Attempt.giveUp
  | some newbuffer =>
      copyBlock newbuffer buffer (p.offset + 1)
      deallocate buffer
      Attempt.change fun p => { p with length := newsize, buffer := some newbuffer }
      return ⟨newbuffer, p.offset⟩

/-- `ensure` -/
def ensure (needed : Nat) : Printing ι (Pointer ι) := do
  let p ← Attempt.look
  match p.buffer with
  | none => Attempt.giveUp
  | some buffer =>
      if 0 < p.length ∧ p.length ≤ p.offset then Attempt.giveUp
      else if intMaxSize < needed then Attempt.giveUp
      else if needed + p.offset + 1 ≤ p.length then return ⟨buffer, p.offset⟩
      else if p.noalloc then Attempt.giveUp
      else if intMaxSize < needed + p.offset + 1 then Attempt.giveUp
      else if intMaxSize / 2 < needed + p.offset + 1 then growBuffer A buffer intMaxSize
      else growBuffer A buffer ((needed + p.offset + 1) * 2)

/-- `update_offset` -/
def updateOffset : Printing ι PUnit := Attempt.attempt fun p =>
  match p.buffer with
  | none => .ok (⟨⟩, p)
  | some buffer => do
      let bytes ← p.heap.contents buffer
      let behind := bytes.drop p.offset
      if 0 ∈ behind then return (⟨⟩, { p with offset := p.offset + arrayStrlen behind })
      else .stray

/-! ## Numbers -/

/-- The size of `number_buffer`. -/
def numberBufferSize : Nat := 26

/-- `sprintf` of a text into `number_buffer`. What stands behind the text is not read. -/
def printToNumberBuffer (text : CString) : Outcome (List UInt8) :=
  if text.strlen < numberBufferSize then .ok (padded numberBufferSize text.bytes) else .stray

/-- The first loop of `remove_zero`: where the text ends, and whether there is a point in it. -/
def removeZeroScan : List UInt8 → Nat → Bool → Nat × Bool
  | [], idx, found => (idx, found)
  | byte :: rest, idx, found =>
      if byte = 46 then removeZeroScan rest (idx + 1) true
      else if byte = 0 then (idx, found)
      else removeZeroScan rest (idx + 1) found

/-- The second loop of `remove_zero`. -/
def removeZeroStrip : Nat → List UInt8 → Nat → List UInt8 × Nat
  | 0, buffer, length => (buffer, length)
  | idx + 1, buffer, length =>
      if buffer.getD idx 0 = 48 then removeZeroStrip idx (buffer.set idx 0) (length - 1)
      else if buffer.getD idx 0 = 46 then (buffer.set idx 0, length - 1)
      else (buffer, length)

/-- `remove_zero` -/
def removeZero (buffer : List UInt8) (length : Nat) : List UInt8 × Nat :=
  let (idx, found) := removeZeroScan buffer 0 false
  if found then removeZeroStrip idx buffer length else (buffer, length)

/-- The text `null`. -/
def nullText : CString := CString.ofArray [110, 117, 108, 108]

/-- `number_buffer` and the length of the text in it. -/
def numberInBuffer (N : NumberFormat δ) (d : δ) : Outcome (List UInt8 × Nat) :=
  if N.notFinite d then do
    let buffer ← printToNumberBuffer nullText
    return (buffer, nullText.strlen)
  else do
    let buffer ← printToNumberBuffer (N.fixed d)
    if N.fixedExact d then return removeZero buffer (N.fixed d).strlen
    else
      let buffer ← printToNumberBuffer (N.short d)
      if N.shortExact d then return (buffer, (N.short d).strlen)
      else
        let buffer ← printToNumberBuffer (N.long d)
        return (buffer, (N.long d).strlen)

/-- `get_decimal_point` -/
def getDecimalPoint : UInt8 := 46

/-- `print_number` -/
def printNumber (N : NumberFormat δ) (d : δ) : Printing ι PUnit := do
  let (numberBuffer, length) ← Attempt.attempt fun p => do return (← numberInBuffer N d, p)
  if numberBufferSize - 1 < length then Attempt.giveUp
  else
    let output ← ensure A (length + 1)
    write output
      ((numberBuffer.take length).map fun byte => if byte = getDecimalPoint then 46 else byte)
    write (output.advance length) [0]
    moveOffset length

/-! ## Strings -/

/-- The letter behind the backslash for the bytes that have a short escape. -/
def escapeLetter (byte : UInt8) : Option UInt8 :=
  if byte = 34 then some 34
  else if byte = 92 then some 92
  else if byte = 8 then some 98
  else if byte = 12 then some 102
  else if byte = 10 then some 110
  else if byte = 13 then some 114
  else if byte = 9 then some 116
  else none

/-- How many more bytes a byte takes when it is escaped. -/
def escapeCharacters (byte : UInt8) : Nat :=
  if (escapeLetter byte).isSome then 1 else if byte < 32 then 5 else 0

/-- A hexadecimal digit as `%x` prints it. -/
def hexLetter (nibble : UInt8) : UInt8 := if nibble < 10 then 48 + nibble else 87 + nibble

/-- What `u%04x` makes of a byte. -/
def unicodeEscape (byte : UInt8) : List UInt8 :=
  [117, 48, 48, hexLetter (byte / 16), hexLetter (byte % 16)]

/-- The loop of `print_string_ptr` that copies the string and escapes what needs it. -/
def copyEscaped : List UInt8 → Pointer ι → Printing ι PUnit
  | [], _ => return ⟨⟩
  | byte :: rest, output =>
      if 31 < byte ∧ byte ≠ 34 ∧ byte ≠ 92 then do
        write output [byte]
        copyEscaped rest (output.advance 1)
      else do
        write output [92]
        match escapeLetter byte with
        | some letter =>
            write (output.advance 1) [letter]
            copyEscaped rest (output.advance 2)
        | none =>
            write (output.advance 1) (unicodeEscape byte ++ [0])
            copyEscaped rest (output.advance 6)

/-- The string between its quotes, copied at once where nothing is escaped. -/
def copyString (input : CString) (escapes : Nat) (output : Pointer ι) : Printing ι PUnit :=
  if escapes = 0 then write output input.bytes else copyEscaped input.bytes output

/-- `print_string_ptr` -/
def printStringPtr (input : Option CString) : Printing ι PUnit :=
  match input with
  | none => do
      let output ← ensure A 3
      write output [34, 34, 0]
  | some input => do
      let escapes := (input.bytes.map escapeCharacters).sum
      let outputLength := input.strlen + escapes
      let output ← ensure A (outputLength + 3)
      write output [34]
      copyString input escapes (output.advance 1)
      write (output.advance (outputLength + 1)) [34]
      write (output.advance (outputLength + 2)) [0]

/-! ## Values -/

/-- A text with its terminator is written where there is room for it. -/
def printText (text : List UInt8) : Printing ι PUnit := do
  let output ← ensure A (text.length + 1)
  write output (text ++ [0])

/-- The tabulators at the beginning of a line. -/
def tabs (depth : Nat) : List UInt8 := List.replicate depth 9

/-- A text is written behind the offset, with a terminator if it is asked for, and the offset moves
behind the text. -/
def printPart (text : List UInt8) (terminated : Bool) : Printing ι PUnit := do
  let output ← ensure A (if terminated then text.length + 1 else text.length)
  write output (if terminated then text ++ [0] else text)
  moveOffset text.length

/-- What `print_array` writes behind an element. -/
def printComma (last : Bool) : Printing ι PUnit := do
  let p ← Attempt.look
  if last then return ⟨⟩
  else printPart A (if p.format then [44, 32] else [44]) true

/-- What `print_object` writes in front of a key. -/
def printIndent : Printing ι PUnit := do
  let p ← Attempt.look
  if p.format then printPart A (tabs p.depth) false else return ⟨⟩

/-- What `print_object` writes between a key and its value. -/
def printColon : Printing ι PUnit := do
  let p ← Attempt.look
  printPart A (if p.format then [58, 9] else [58]) false

/-- What `print_object` writes behind a value. -/
def printLineEnd (last : Bool) : Printing ι PUnit := do
  let p ← Attempt.look
  printPart A ((if last then [] else [44]) ++ (if p.format then [10] else [])) true

/-- `print_array`, with the loop over the elements. -/
def printArray (elements : Printing ι PUnit) : Printing ι PUnit := do
  let output ← ensure A 1
  write output [91]
  moveOffset 1
  enterNest
  elements
  let output ← ensure A 2
  write output [93, 0]
  leaveNest

/-- `print_object`, with the loop over the members. -/
def printObject (members : Printing ι PUnit) : Printing ι PUnit := do
  let p ← Attempt.look
  let opening := if p.format then [123, 10] else [123]
  let output ← ensure A (opening.length + 1)
  write output opening
  enterNest
  moveOffset opening.length
  members
  let p ← Attempt.look
  let closing := (if p.format then tabs (p.depth - 1) else []) ++ [125, 0]
  let output ← ensure A (if p.format then p.depth + 1 else 2)
  write output closing
  leaveNest

mutual

/-- `print_value` -/
def printValue (N : NumberFormat δ) : LiteCjsonItem δ → Printing ι PUnit
  | .mk type valuestring d _ child =>
      match itemKind type with
      | some .null => printText A [110, 117, 108, 108]
      | some .false => printText A [102, 97, 108, 115, 101]
      | some .true => printText A [116, 114, 117, 101]
      | some .number => printNumber A N d
      | some .raw =>
          match valuestring with
          | none => Attempt.giveUp
          | some raw => printText A raw.bytes
      | some .string => printStringPtr A valuestring
      | some .array => printArray A (printElements N child)
      | some .object => printObject A (printMembers N child)
      | none => Attempt.giveUp

/-- The loop of `print_array`. -/
def printElements (N : NumberFormat δ) : List (LiteCjsonItem δ) → Printing ι PUnit
  | [] => return ⟨⟩
  | element :: next => do
      printValue N element
      updateOffset
      printComma A next.isEmpty
      printElements N next

/-- The loop of `print_object`. -/
def printMembers (N : NumberFormat δ) : List (LiteCjsonItem δ) → Printing ι PUnit
  | [] => return ⟨⟩
  | item :: next => do
      printIndent A
      printStringPtr A item.string
      updateOffset
      printColon A
      printValue N item
      updateOffset
      printLineEnd A next.isEmpty
      printMembers N next

end

/-! ## The whole text -/

/-- `print_value` of an item that may be null. -/
def printItem (N : NumberFormat δ) (item : Option (LiteCjsonItem δ)) : Printing ι PUnit :=
  match item with
  | none => Attempt.giveUp
  | some item => printValue A N item

/-- The part of `print` behind the first allocation and before the label `fail`. -/
def printToBlock (N : NumberFormat δ) (item : Option (LiteCjsonItem δ)) : Printing ι ι := do
  printItem A N item
  updateOffset
  let p ← Attempt.look
  match ← allocate A (p.offset + 1) with
  | none => Attempt.giveUp
  | some printed =>
      match p.buffer with
      | none => Attempt.attempt fun _ => .stray
      | some buffer =>
          copyBlock printed buffer (min p.length (p.offset + 1))
          write ⟨printed, p.offset⟩ [0]
          deallocate buffer
          return printed

/-- `print`, with the block that it returns, or null. -/
def print (N : NumberFormat δ) (item : Option (LiteCjsonItem δ)) (format : Bool)
    (heap : BlockHeap ι) : Outcome (Option ι × BlockHeap ι) :=
  match heap.allocate A 256 with
  | (none, heap) => .ok (none, heap)
  | (some buffer, heap) => do
      let (printed, p) ← printToBlock A N item ⟨some buffer, 256, 0, 0, false, format, heap⟩
      match printed, p.buffer with
      | some printed, _ => return (some printed, p.heap)
      | none, none => return (none, p.heap)
      | none, some buffer =>
          let heap ← p.heap.free buffer
          return (none, heap)

/-- `lite_cjson_print` -/
def liteCjsonPrint (N : NumberFormat δ) (item : Option (LiteCjsonItem δ)) (heap : BlockHeap ι) :
    Outcome (Option ι × BlockHeap ι) :=
  print A N item true heap

/-- `lite_cjson_print_unformatted` -/
def liteCjsonPrintUnformatted (N : NumberFormat δ) (item : Option (LiteCjsonItem δ))
    (heap : BlockHeap ι) : Outcome (Option ι × BlockHeap ι) :=
  print A N item false heap

end EnosDeviceSdk.Infra.Printer
