/-
# Lists of entries with keys

A table kept as a list is searched by a key: the first entry with the key is taken, or written to.
Where the keys are distinct the first such entry is the only one, a search is membership, and
dropping everything under a key drops at most one entry.
-/

import Mathlib.Data.List.Nodup

namespace EnosDeviceSdk.Library

universe u v w

variable {α : Type u} {κ : Type v} [DecidableEq κ] {key : α → κ}

/-- Under distinct keys the first entry with a key is the entry with it. -/
theorem find?_key_iff {list : List α} (hdistinct : (list.map key).Nodup) (wanted : κ)
    (entry : α) :
    list.find? (fun other => key other = wanted) = some entry ↔
      entry ∈ list ∧ key entry = wanted := by
  constructor
  · intro hfound
    have hkey := List.find?_some hfound
    exact ⟨List.mem_of_find?_eq_some hfound, by simpa using hkey⟩
  · rintro ⟨hmem, rfl⟩
    cases hfound : list.find? (fun other => key other = key entry) with
    | none =>
        have hnone := List.find?_eq_none.mp hfound entry hmem
        simp at hnone
    | some other =>
        have hkey := List.find?_some hfound
        have hother := List.mem_of_find?_eq_some hfound
        rw [List.inj_on_of_nodup_map hdistinct hother hmem (by simpa using hkey)]

/-- A search fails where no entry has the key. -/
theorem find?_key_eq_none_iff (list : List α) (wanted : κ) :
    list.find? (fun other => key other = wanted) = none ↔ wanted ∉ list.map key := by
  rw [List.find?_eq_none, List.mem_map]
  constructor
  · rintro hnone ⟨entry, hmem, hkey⟩
    exact hnone entry hmem (by simpa using hkey)
  · intro habsent entry hmem hkey
    exact habsent ⟨entry, hmem, by simpa using hkey⟩

/-- Dropping the key of an entry drops this entry only. -/
theorem length_filter_key_ne {list : List α} (hdistinct : (list.map key).Nodup) {entry : α}
    (hmem : entry ∈ list) :
    (list.filter fun other => key other ≠ key entry).length + 1 = list.length := by
  induction list with
  | nil => simp at hmem
  | cons first rest ih =>
      rw [List.map_cons, List.nodup_cons] at hdistinct
      rcases List.mem_cons.mp hmem with rfl | hlater
      · have hkept : rest.filter (fun other => key other ≠ key entry) = rest := by
          rw [List.filter_eq_self]
          intro other hother
          have hne : key other ≠ key entry := fun hsame =>
            hdistinct.1 (hsame ▸ List.mem_map_of_mem hother)
          simpa using hne
        rw [List.filter_cons_of_neg (by simp), hkept, List.length_cons]
      · have hne : key first ≠ key entry := fun hsame =>
          hdistinct.1 (hsame ▸ List.mem_map_of_mem hlater)
        rw [List.filter_cons_of_pos (by simpa using hne), List.length_cons, List.length_cons,
          ih hdistinct.2 hlater]

/-- A write to the first entry with a key. -/
def writeFirst (key : α → κ) (wanted : κ) (write : α → α) : List α → List α
  | [] => []
  | entry :: rest =>
      if key entry = wanted then write entry :: rest
      else entry :: writeFirst key wanted write rest

/-- A write that keeps a field of the entries keeps it all over the list. -/
theorem map_writeFirst {β : Type w} {field : α → β} {write : α → α}
    (hkeeps : ∀ entry, field (write entry) = field entry) (wanted : κ) (list : List α) :
    (writeFirst key wanted write list).map field = list.map field := by
  induction list with
  | nil => rfl
  | cons entry rest ih =>
      unfold writeFirst
      split
      · rw [List.map_cons, List.map_cons, hkeeps]
      · rw [List.map_cons, List.map_cons, ih]

/-- Under distinct keys a write changes every entry with the key. -/
theorem writeFirst_eq_map {list : List α} (hdistinct : (list.map key).Nodup) (wanted : κ)
    (write : α → α) :
    writeFirst key wanted write list =
      list.map fun entry => if key entry = wanted then write entry else entry := by
  induction list with
  | nil => rfl
  | cons entry rest ih =>
      rw [List.map_cons, List.nodup_cons] at hdistinct
      rw [writeFirst, List.map_cons]
      split
      next hfound =>
        have hrest : ∀ other ∈ rest, key other ≠ wanted := by
          rintro other hother rfl
          exact hdistinct.1 (hfound ▸ List.mem_map_of_mem hother)
        rw [List.map_congr_left fun other hother => if_neg (hrest other hother), List.map_id']
      next => rw [ih hdistinct.2]

/-- A write stops at the first entry with the key, whatever comes behind. -/
theorem writeFirst_append_of_mem {wanted : κ} {list : List α} (hmem : wanted ∈ list.map key)
    (write : α → α) (more : List α) :
    writeFirst key wanted write (list ++ more) = writeFirst key wanted write list ++ more := by
  induction list with
  | nil => simp at hmem
  | cons entry rest ih =>
      rw [List.cons_append, writeFirst, writeFirst]
      split
      · rfl
      next hother =>
        have hrest : wanted ∈ rest.map key := by
          rw [List.map_cons, List.mem_cons] at hmem
          exact hmem.resolve_left fun hsame => hother hsame.symm
        rw [ih hrest, List.cons_append]

/-- A write passes entries with other keys. -/
theorem writeFirst_append_of_not_mem {wanted : κ} {list : List α}
    (habsent : wanted ∉ list.map key) (write : α → α) (more : List α) :
    writeFirst key wanted write (list ++ more) = list ++ writeFirst key wanted write more := by
  induction list with
  | nil => rfl
  | cons entry rest ih =>
      rw [List.map_cons, List.mem_cons, not_or] at habsent
      rw [List.cons_append, writeFirst, if_neg fun hsame => habsent.1 hsame.symm, ih habsent.2,
        List.cons_append]

/-- A search for the key finds the written entry. -/
theorem find?_writeFirst_self {write : α → α} (hkeeps : ∀ entry, key (write entry) = key entry)
    (wanted : κ) (list : List α) :
    (writeFirst key wanted write list).find? (fun entry => key entry = wanted) =
      (list.find? fun entry => key entry = wanted).map write := by
  induction list with
  | nil => rfl
  | cons entry rest ih =>
      unfold writeFirst
      by_cases hfound : key entry = wanted
      · simp [hfound, hkeeps]
      · simp [hfound, ih]

/-- A search that never takes an entry with the key finds what it found before. -/
theorem find?_writeFirst_of_ne {write : α → α} (hkeeps : ∀ entry, key (write entry) = key entry)
    {wanted other : κ} (hother : other ≠ wanted) (list : List α) :
    (writeFirst key wanted write list).find? (fun entry => key entry = other) =
      list.find? fun entry => key entry = other := by
  induction list with
  | nil => rfl
  | cons entry rest ih =>
      unfold writeFirst
      by_cases hfound : key entry = wanted
      · have hne : key entry ≠ other := fun hsame => hother (hsame.symm.trans hfound)
        simp [hfound, hkeeps, hother.symm]
      · simp [hfound, ih, List.find?_cons]

/-- A search that a write does not disturb finds what it found before, up to the write. -/
theorem map_find?_writeFirst {β : Type w} {field : α → β} {write : α → α} {wants : α → Bool}
    (hfield : ∀ entry, field (write entry) = field entry)
    (hwants : ∀ entry, wants (write entry) = wants entry) (wanted : κ) (list : List α) :
    ((writeFirst key wanted write list).find? wants).map field = (list.find? wants).map field := by
  induction list with
  | nil => rfl
  | cons entry rest ih =>
      unfold writeFirst
      split
      · cases hentry : wants entry with
        | true => simp [hwants, hentry, hfield]
        | false => simp [hwants, hentry]
      · cases hentry : wants entry with
        | true => simp [hentry]
        | false => simp [hentry, ih]

/-- Dropping the first entry with a key hides no entry with another. -/
theorem find?_eraseP_of_ne {wanted other : κ} (hother : other ≠ wanted) (list : List α) :
    (list.eraseP fun entry => key entry = wanted).find? (fun entry => key entry = other) =
      list.find? fun entry => key entry = other := by
  induction list with
  | nil => rfl
  | cons entry rest ih =>
      by_cases hfound : key entry = wanted
      · simp [hfound, hother.symm]
      · simp [hfound, ih, List.find?_cons]

end EnosDeviceSdk.Library
