/-
# C strings and buffers

A C string is a byte list without a NUL; its terminator is implicit. A buffer
that the code walks with pointers is the memory from the buffer's start onwards,
and a pointer into it is an offset. Memory past the bytes that a claim speaks
about stays arbitrary.
-/

import Mathlib.Data.List.Basic
import Mathlib.Logic.Function.Basic
import Mathlib.Algebra.Ring.Int.Defs
import Mathlib.Algebra.Ring.Nat

namespace EnosDeviceSdk.Infra

universe u

/-- The heap's allocator. What it answers may depend on the moment and on the blocks in use;
a block that it hands out is never one of those. -/
structure HeapAllocator (ι : Type u) where
  malloc : Nat → List ι → Option ι
  fresh : ∀ moment inUse block, malloc moment inUse = some block → block ∉ inUse

/-- An allocator that hands out the number of the call, if it is not in use. -/
def countingAllocator : HeapAllocator Nat where
  malloc moment inUse := if moment ∈ inUse then none else some moment
  fresh moment inUse block hgranted := by
    split at hgranted
    · exact (nomatch hgranted)
    · next hfree => exact Option.some.inj hgranted ▸ hfree

/-- The bytes of a NUL-terminated string, without its terminator. -/
@[ext]
structure CString where
  bytes : List UInt8
  noNul : (0 : UInt8) ∉ bytes
  deriving DecidableEq

/-- `strlen` -/
def CString.strlen (string : CString) : Nat := string.bytes.length

/-- The empty string. -/
def CString.empty : CString := ⟨[], List.not_mem_nil⟩

/-- A character array that was zeroed and into which the string was copied. -/
def CString.stored (string : CString) (size : Nat) : List UInt8 :=
  string.bytes ++ List.replicate (size - string.strlen) 0

/-- The string in a character array. -/
def arrayText (array : List UInt8) : List UInt8 := array.takeWhile (· ≠ 0)

theorem zero_not_mem_arrayText (array : List UInt8) : 0 ∉ arrayText array := by
  intro hmem
  have hall : (arrayText array).all (· ≠ 0) = true := List.all_takeWhile
  exact absurd rfl (of_decide_eq_true (List.all_eq_true.mp hall 0 hmem))

/-- A string goes on behind bytes that are no terminators. -/
theorem arrayText_append {string : List UInt8} (hstring : 0 ∉ string) (behind : List UInt8) :
    arrayText (string ++ behind) = string ++ arrayText behind := by
  apply List.takeWhile_append_of_pos
  intro byte hbyte
  have hne : byte ≠ 0 := fun hzero => hstring (hzero ▸ hbyte)
  exact decide_eq_true hne

/-- The string in a character array, as a C string. -/
def CString.ofArray (array : List UInt8) : CString :=
  ⟨arrayText array, zero_not_mem_arrayText array⟩

/-- A zeroed array of the size into which the bytes were copied. -/
def padded (size : Nat) (bytes : List UInt8) : List UInt8 :=
  bytes ++ List.replicate (size - bytes.length) 0

/-- `memcpy` of the bytes to the start of an array, if they are not more than it has room for. -/
def copyInto (array bytes : List UInt8) : Option (List UInt8) :=
  if bytes.length ≤ array.length then some (bytes ++ array.drop bytes.length) else none

/-- `strlen` of a character array -/
def arrayStrlen (array : List UInt8) : Nat := (arrayText array).length

/-- `memcmp` finds no difference in the first bytes. -/
def memcmpEqual (first second : List UInt8) (count : Nat) : Bool :=
  first.take count = second.take count

theorem CString.arrayText_stored (string : CString) (size : Nat) :
    arrayText (string.stored size) = string.bytes := by
  have hbytes : ∀ byte ∈ string.bytes, decide (byte ≠ 0) = true := by
    intro byte hbyte
    have hne : byte ≠ 0 := fun hzero => string.noNul (hzero ▸ hbyte)
    exact decide_eq_true hne
  rw [arrayText, CString.stored, List.takeWhile_append_of_pos hbytes]
  cases size - string.strlen with
  | zero => simp
  | succ rest => simp [List.replicate_succ]

theorem arrayText_padded {bytes : List UInt8} (hnoNul : 0 ∉ bytes) (size : Nat) :
    arrayText (padded size bytes) = bytes :=
  CString.arrayText_stored ⟨bytes, hnoNul⟩ size

theorem arrayText_of_noNul {bytes : List UInt8} (hnoNul : 0 ∉ bytes) : arrayText bytes = bytes := by
  have hpadded := arrayText_padded hnoNul 0
  rwa [padded, Nat.zero_sub, List.replicate_zero, List.append_nil] at hpadded

theorem CString.ofArray_padded (string : CString) (size : Nat) :
    CString.ofArray (padded size string.bytes) = string :=
  CString.ext (arrayText_padded string.noNul size)

theorem copyInto_padded {size : Nat} {bytes text : List UInt8} (hbytes : bytes.length ≤ size)
    (htext : text.length ≤ size) :
    copyInto (padded size text) bytes =
      some (padded size (bytes ++ text.drop bytes.length)) := by
  have hlength : (padded size text).length = size := by
    rw [padded, List.length_append, List.length_replicate]
    omega
  have hzeros : size - text.length - (bytes.length - text.length) =
      size - (bytes.length + (text.length - bytes.length)) := by
    omega
  rw [copyInto, if_pos (by omega), padded, padded, List.drop_append, List.drop_replicate,
    List.length_append, List.length_drop, List.append_assoc, hzeros]

theorem copyInto_zeros {size : Nat} {bytes : List UInt8} (hbytes : bytes.length ≤ size) :
    copyInto (padded size []) bytes = some (padded size bytes) := by
  have hcopy := @copyInto_padded size bytes [] hbytes (Nat.zero_le size)
  rwa [List.drop_nil, List.append_nil] at hcopy

/-- The string in an array where one string was copied over another without a terminator. -/
def CString.over (string below : CString) : CString where
  bytes := string.bytes ++ below.bytes.drop string.strlen
  noNul := by
    rw [List.mem_append, not_or]
    exact ⟨string.noNul, fun hmem => below.noNul (List.mem_of_mem_drop hmem)⟩

theorem CString.strlen_over (string below : CString) :
    (string.over below).strlen = max string.strlen below.strlen := by
  rw [CString.strlen, CString.over, List.length_append, List.length_drop]
  simp only [CString.strlen]
  omega

/-- Nothing is left of the string below exactly if it is no longer. -/
theorem CString.over_eq_iff (string below : CString) :
    string.over below = string ↔ below.strlen ≤ string.strlen := by
  constructor
  · intro hover
    have hlength := string.strlen_over below
    rw [hover] at hlength
    omega
  · intro hshort
    have hnothing : below.bytes.drop string.strlen = [] := List.drop_eq_nil_of_le hshort
    apply CString.ext
    simp only [CString.over, hnothing, List.append_nil]

theorem take_arrayStrlen (array : List UInt8) :
    array.take (arrayStrlen array) = arrayText array := by
  have hprefix : arrayText array <+: array := List.takeWhile_prefix _
  exact (List.prefix_iff_eq_take.mp hprefix).symm

/-- Equal lengths and equal bytes over this length make equal strings, also where one array's
string begins with the other's. -/
theorem CString.memcmpEqual_iff (array : List UInt8) (string : CString) :
    (arrayStrlen array = string.strlen ∧
        memcmpEqual array string.bytes string.strlen = true) ↔
      arrayText array = string.bytes := by
  rw [memcmpEqual, decide_eq_true_iff, CString.strlen, List.take_length]
  constructor
  · rintro ⟨hlength, hbytes⟩
    rw [← take_arrayStrlen, hlength, hbytes]
  · intro htext
    have hlength : arrayStrlen array = string.bytes.length := congrArg List.length htext
    refine ⟨hlength, ?_⟩
    rw [← hlength, take_arrayStrlen, htext]

/-- `strchr` in a text without its terminator. -/
def strchr (text : List UInt8) (pos : Nat) (char : UInt8) : Option Nat :=
  ((text.drop pos).findIdx? (· = char)).map (pos + ·)

theorem le_strchr {text : List UInt8} {pos place : Nat} {char : UInt8}
    (hplace : strchr text pos char = some place) : pos ≤ place := by
  obtain ⟨index, -, rfl⟩ := Option.map_eq_some_iff.mp hplace
  exact Nat.le_add_right pos index

/-- A search for a character passes over what has none. -/
theorem strchr_eq_iff {ahead junk rest : List UInt8} {char : UInt8} :
    strchr (ahead ++ (junk ++ char :: rest)) ahead.length char =
        some (ahead.length + junk.length) ↔ char ∉ junk := by
  rw [strchr, List.drop_left, Option.map_eq_some_iff, List.findIdx?_append]
  constructor
  · rintro ⟨index, hindex, hplace⟩ hmem
    obtain ⟨place, hfound, hlt⟩ : ∃ place, junk.findIdx? (· = char) = some place ∧
        place < junk.length := by
      cases hfound : junk.findIdx? (· = char) with
      | none => exact absurd (List.findIdx?_eq_none_iff.mp hfound char hmem) (by simp)
      | some place => exact ⟨place, rfl, (List.findIdx?_eq_some_iff_getElem.mp hfound).1⟩
    rw [hfound] at hindex
    cases hindex
    omega
  · intro hnone
    have hjunk : junk.findIdx? (· = char) = none := by
      rw [List.findIdx?_eq_none_iff]
      exact fun other hother => decide_eq_false fun hsame => hnone (hsame ▸ hother)
    refine ⟨junk.length, ?_, rfl⟩
    rw [hjunk]
    simp [List.findIdx?_cons]

/-- A character that is not there is not found. -/
theorem strchr_eq_none {ahead rest : List UInt8} {char : UInt8} (hnone : char ∉ rest) :
    strchr (ahead ++ rest) ahead.length char = none := by
  rw [strchr, List.drop_left, Option.map_eq_none_iff, List.findIdx?_eq_none_iff]
  exact fun other hother => decide_eq_false fun hsame => hnone (hsame ▸ hother)

/-- Memory from the start of a buffer onwards. -/
abbrev Buf := Nat → UInt8

/-- A buffer that starts with the given bytes and continues with zeros. -/
def Buf.ofBytes (bytes : List UInt8) : Buf := fun offset => bytes.getD offset 0

/-- The `len` bytes from an offset on. -/
def Buf.slice (buf : Buf) (ptr len : Nat) : List UInt8 :=
  (List.range len).map fun index => buf (ptr + index)

/-- The buffer holds these bytes from the offset on. -/
def Buf.Holds (buf : Buf) (ptr : Nat) (bytes : List UInt8) : Prop :=
  buf.slice ptr bytes.length = bytes

@[simp]
theorem Buf.length_slice (buf : Buf) (ptr len : Nat) : (buf.slice ptr len).length = len := by
  simp [Buf.slice]

theorem Buf.slice_add (buf : Buf) (ptr first second : Nat) :
    buf.slice ptr (first + second) =
      buf.slice ptr first ++ buf.slice (ptr + first) second := by
  simp [Buf.slice, List.range_add, Function.comp_def, Nat.add_assoc]

@[simp]
theorem Buf.slice_zero (buf : Buf) (ptr : Nat) : buf.slice ptr 0 = [] := rfl

theorem Buf.slice_one (buf : Buf) (ptr : Nat) : buf.slice ptr 1 = [buf ptr] := rfl

/-- Holding a concatenation is holding its parts one after the other. -/
theorem Buf.holds_append (buf : Buf) (ptr : Nat) (first second : List UInt8) :
    buf.Holds ptr (first ++ second) ↔
      buf.Holds ptr first ∧ buf.Holds (ptr + first.length) second := by
  rw [Buf.Holds, List.length_append, Buf.slice_add]
  constructor
  · intro h
    have hparts := List.append_inj h (by simp)
    exact hparts
  · rintro ⟨hfirst, hsecond⟩
    exact congrArg₂ (· ++ ·) hfirst hsecond

theorem Buf.holds_cons (buf : Buf) (ptr : Nat) (byte : UInt8) (rest : List UInt8) :
    buf.Holds ptr (byte :: rest) ↔ buf ptr = byte ∧ buf.Holds (ptr + 1) rest := by
  have hsplit := Buf.holds_append buf ptr [byte] rest
  simpa [Buf.Holds, Buf.slice_one] using hsplit

/-- What is held is held in two parts, cut at any point. -/
theorem Buf.Holds.split {buf : Buf} {ptr : Nat} {bytes : List UInt8}
    (hholds : buf.Holds ptr bytes) {len : Nat} (hlen : len ≤ bytes.length) :
    buf.slice ptr len = bytes.take len ∧ buf.Holds (ptr + len) (bytes.drop len) := by
  have hparts : buf.Holds ptr (bytes.take len ++ bytes.drop len) := by
    rwa [List.take_append_drop]
  rw [Buf.holds_append, Buf.Holds, List.length_take, Nat.min_eq_left hlen] at hparts
  exact hparts

theorem Buf.holds_ofBytes (bytes rest : List UInt8) :
    (Buf.ofBytes (bytes ++ rest)).Holds 0 bytes := by
  apply List.ext_getElem
  · simp
  · intro index _ hindex
    simp [Buf.slice, Buf.ofBytes, List.getElem?_append_left hindex, hindex]

/-- The memory after the bytes are written from an offset on. -/
def Buf.write (buf : Buf) (ptr : Nat) : List UInt8 → Buf
  | [] => buf
  | byte :: rest => Buf.write (Function.update buf ptr byte) (ptr + 1) rest

theorem Buf.write_append (buf : Buf) (ptr : Nat) (first second : List UInt8) :
    buf.write ptr (first ++ second) =
      (buf.write ptr first).write (ptr + first.length) second := by
  induction first generalizing buf ptr with
  | nil => rfl
  | cons byte rest ih =>
      rw [List.cons_append, Buf.write, Buf.write, ih, List.length_cons, Nat.add_assoc,
        Nat.add_comm 1]

/-- Writing changes nothing before the offset and nothing behind the bytes. -/
theorem Buf.write_outside (buf : Buf) (ptr : Nat) (bytes : List UInt8) {offset : Nat}
    (houtside : offset < ptr ∨ ptr + bytes.length ≤ offset) :
    buf.write ptr bytes offset = buf offset := by
  induction bytes generalizing buf ptr with
  | nil => rfl
  | cons byte rest ih =>
      rw [List.length_cons] at houtside
      rw [Buf.write, ih _ _ (by omega), Function.update_of_ne (by omega)]

/-- What is written is held. -/
theorem Buf.holds_write (buf : Buf) (ptr : Nat) (bytes : List UInt8) :
    (buf.write ptr bytes).Holds ptr bytes := by
  induction bytes generalizing buf ptr with
  | nil => rfl
  | cons byte rest ih =>
      rw [Buf.holds_cons, Buf.write]
      refine ⟨?_, ih _ _⟩
      rw [Buf.write_outside _ _ _ (Or.inl (Nat.lt_succ_self ptr)), Function.update_self]

/-- Two memories that hold the same bytes agree on them. -/
theorem Buf.Holds.agree {first second : Buf} {ptr : Nat} {bytes : List UInt8}
    (hfirst : first.Holds ptr bytes) (hsecond : second.Holds ptr bytes) {index : Nat}
    (hindex : index < bytes.length) : first (ptr + index) = second (ptr + index) := by
  have hslices : first.slice ptr bytes.length = second.slice ptr bytes.length :=
    hfirst.trans hsecond.symm
  rw [Buf.slice, Buf.slice, List.map_inj_left] at hslices
  exact hslices index (List.mem_range.mpr hindex)

end EnosDeviceSdk.Infra
