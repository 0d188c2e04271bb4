/-
# Texts that grow in a buffer

The lists of a batch are built by appending to a string in an allocation that was zeroed before.
Each append looks for the end of the string first. An append that leaves no NUL in the allocation
is not noticed at once: the next look for the end reads on behind it.

What reads or writes outside of the allocation is astray. As long as the string leaves room for a
NUL, appends to it are appends to a text.
-/

import EnosDeviceSdk.DevModel.Uri

namespace EnosDeviceSdk.DevModel

open EnosDeviceSdk.Infra EnosDeviceSdk.Library

/-- `strlen` of the string in an allocation. -/
def boundedStrlen (array : List UInt8) : Outcome Nat :=
  if 0 ∈ array then .ok (arrayStrlen array) else .stray

/-- The string in an allocation, as `%s` prints it. -/
def boundedText (array : List UInt8) : Outcome (List UInt8) :=
  if 0 ∈ array then .ok (arrayText array) else .stray

/-- `HAL_Snprintf` of a text to a place of an array. The bound does not know the place. -/
def printAt (array : List UInt8) (place bound : Nat) (text : List UInt8) : Outcome (List UInt8) :=
  if bound = 0 then .ok array else copyAt array place (text.take (bound - 1) ++ [0])

/-- `memcpy` of the bytes to the end of the string in an array. -/
def appendText (array bytes : List UInt8) : Outcome (List UInt8) := do
  let place ← boundedStrlen array
  copyAt array place bytes

variable {size : Nat} {text bytes : List UInt8}

theorem length_padded (size : Nat) (text : List UInt8) :
    (padded size text).length = max size text.length := by
  rw [padded, List.length_append, List.length_replicate]
  omega

/-- The string in a buffer ends if there is room behind it. -/
theorem zero_mem_padded_iff (htext : 0 ∉ text) : 0 ∈ padded size text ↔ text.length < size := by
  rw [padded, List.mem_append, or_iff_right htext, List.mem_replicate, and_iff_left rfl]
  omega

theorem boundedStrlen_padded (htext : 0 ∉ text) (hroom : text.length < size) :
    boundedStrlen (padded size text) = .ok text.length := by
  rw [boundedStrlen, if_pos ((zero_mem_padded_iff htext).mpr hroom), arrayStrlen,
    arrayText_padded htext]

theorem boundedStrlen_full (htext : 0 ∉ text) (hfull : size ≤ text.length) :
    boundedStrlen (padded size text) = .stray :=
  if_neg (mt (zero_mem_padded_iff htext).mp (Nat.not_lt.mpr hfull))

theorem boundedText_padded (htext : 0 ∉ text) (hroom : text.length < size) :
    boundedText (padded size text) = .ok text := by
  rw [boundedText, if_pos ((zero_mem_padded_iff htext).mpr hroom), arrayText_padded htext]

theorem boundedText_full (htext : 0 ∉ text) (hfull : size ≤ text.length) :
    boundedText (padded size text) = .stray :=
  if_neg (mt (zero_mem_padded_iff htext).mp (Nat.not_lt.mpr hfull))

theorem copyAt_padded_stray (hlong : size < text.length + bytes.length)
    (hsome : bytes ≠ []) : copyAt (padded size text) text.length bytes = .stray := by
  have hpositive := List.length_pos_iff.mpr hsome
  rw [copyAt, length_padded, if_neg (by omega)]

/-- Bytes are appended where the string has an end and the buffer has room for them. -/
theorem appendText_padded (htext : 0 ∉ text) (hroom : text.length < size)
    (hfits : text.length + bytes.length ≤ size) :
    appendText (padded size text) bytes = .ok (padded size (text ++ bytes)) := by
  rw [appendText, boundedStrlen_padded htext hroom, Outcome.ok_bind, copyAt_padded hfits]

/-- Nowhere else bytes are appended. -/
theorem appendText_eq_ok_iff {buffer : List UInt8} (htext : 0 ∉ text) :
    appendText (padded size text) bytes = .ok buffer ↔
      text.length < size ∧ text.length + bytes.length ≤ size ∧
        buffer = padded size (text ++ bytes) := by
  by_cases hroom : text.length < size
  · by_cases hfits : text.length + bytes.length ≤ size
    · rw [appendText_padded htext hroom hfits, Outcome.ok.injEq, eq_comm]
      simp [hroom, hfits]
    · have hlength : (padded size text).length = size := by
        rw [length_padded]
        omega
      rw [appendText, boundedStrlen_padded htext hroom, Outcome.ok_bind, copyAt, hlength,
        if_neg hfits]
      exact iff_of_false (by simp) fun hall => hfits hall.2.1
  · rw [appendText, boundedStrlen_full htext (Nat.not_lt.mp hroom)]
    exact iff_of_false (by rintro ⟨⟩) fun hall => hroom hall.1

theorem appendText_bind_eq_ok_iff {α : Type} {next : List UInt8 → Outcome α} {result : α}
    (htext : 0 ∉ text) :
    (appendText (padded size text) bytes >>= next) = .ok result ↔
      text.length < size ∧ text.length + bytes.length ≤ size ∧
        next (padded size (text ++ bytes)) = .ok result := by
  rw [Outcome.bind_eq_ok_iff]
  constructor
  · rintro ⟨buffer, hbuffer, hnext⟩
    obtain ⟨hroom, hfits, rfl⟩ := (appendText_eq_ok_iff htext).mp hbuffer
    exact ⟨hroom, hfits, hnext⟩
  · rintro ⟨hroom, hfits, hnext⟩
    exact ⟨_, appendText_padded htext hroom hfits, hnext⟩

theorem boundedText_eq_ok_iff {string : List UInt8} (htext : 0 ∉ text) :
    boundedText (padded size text) = .ok string ↔ text.length < size ∧ string = text := by
  by_cases hroom : text.length < size
  · rw [boundedText_padded htext hroom, Outcome.ok.injEq, eq_comm]
    simp [hroom]
  · rw [boundedText_full htext (Nat.not_lt.mp hroom)]
    exact iff_of_false nofun fun hall => hroom hall.1

/-- A terminator behind the string is one of the zeros. -/
theorem padded_terminated (hroom : text.length < size) :
    padded size (text ++ [0]) = padded size text := by
  obtain ⟨room, rfl⟩ : ∃ room, size = text.length + 1 + room := ⟨size - text.length - 1, by omega⟩
  have hfirst : text.length + 1 + room - (text ++ [0]).length = room := by
    rw [List.length_append, List.length_singleton]
    omega
  have hsecond : text.length + 1 + room - text.length = room + 1 := by omega
  rw [padded, padded, hfirst, hsecond, List.replicate_succ, List.append_assoc,
    List.singleton_append]

/-- A text is printed behind the string if there is room for it and a NUL. -/
theorem printAt_padded {bound : Nat} (hbound : bytes.length < bound)
    (hfits : text.length + bytes.length < size) :
    printAt (padded size text) text.length bound bytes = .ok (padded size (text ++ bytes)) := by
  have hroom : (text ++ bytes).length < size := by rwa [List.length_append]
  rw [printAt, if_neg (by omega), List.take_of_length_le (by omega),
    copyAt_padded (by rw [List.length_append, List.length_singleton]; omega), ← List.append_assoc,
    padded_terminated hroom]

/-- With the size of the buffer for a bound, a text that is too long is cut at the beginning of
the buffer. -/
theorem printAt_cut (hsize : 0 < size) (hlong : size ≤ bytes.length) :
    printAt (padded size []) 0 size bytes = .ok (padded size (bytes.take (size - 1))) := by
  have hlength : (bytes.take (size - 1)).length = size - 1 := by
    rw [List.length_take]
    omega
  rw [printAt, if_neg (by omega), copyAt_zeros, padded_terminated (by omega)]
  rw [List.length_append, List.length_singleton, hlength]
  omega

/-- Further behind it goes astray. -/
theorem printAt_stray (hsome : text ≠ []) (hlong : size ≤ text.length + bytes.length)
    (hsize : 0 < size) : printAt (padded size text) text.length size bytes = .stray := by
  have hpositive := List.length_pos_iff.mpr hsome
  rw [printAt, if_neg (by omega), copyAt_padded_stray _ (by simp)]
  rw [List.length_append, List.length_singleton, List.length_take]
  omega

end EnosDeviceSdk.DevModel
