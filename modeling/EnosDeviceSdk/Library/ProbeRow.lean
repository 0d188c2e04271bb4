/-
# Rows of slots that are scanned up to the first free one

A hash table whose buckets are rows of slots keeps an entry in the first slot of its row
that is free, and every operation scans a row only up to a free slot. Removing an entry
frees its slot and moves no other entry up.

Such a row stands for a map as long as it is compact: no entry lies behind a free slot and
no key is there twice. Insertion keeps a row compact. Removal does so exactly when the slot
behind the removed entry is free; otherwise the entry there is lost to every scan.
-/

import Mathlib.Data.List.Basic

namespace EnosDeviceSdk.Library.ProbeRow

universe u v

variable {κ : Type u} {ν : Type v} [DecidableEq κ]

/-- The value of the key, as a scan finds it. -/
def lookup (key : κ) : List (Option (κ × ν)) → Option ν
  | [] => none
  | none :: _ => none
  | some (taken, value) :: rest => if taken = key then some value else lookup key rest

/-- The row after a value is put under the key. A slot that was free holds the value under
the name that it is stored with. The result is `none` where the row is full. -/
def insert (key stored : κ) (value : ν) :
    List (Option (κ × ν)) → Option (List (Option (κ × ν)))
  | [] => none
  | none :: rest => some (some (stored, value) :: rest)
  | some (taken, old) :: rest =>
      if taken = key then some (some (taken, value) :: rest)
      else (insert key stored value rest).map (some (taken, old) :: ·)

/-- The row after the entries of the key that a scan finds are taken out. -/
def remove (key : κ) : List (Option (κ × ν)) → List (Option (κ × ν))
  | [] => []
  | none :: rest => none :: rest
  | some (taken, value) :: rest =>
      (if taken = key then none else some (taken, value)) :: remove key rest

/-- No entry lies behind a free slot, and no key is there twice. -/
def Compact : List (Option (κ × ν)) → Prop
  | [] => True
  | none :: rest => ∀ slot ∈ rest, slot = none
  | some (taken, _) :: rest => lookup taken rest = none ∧ Compact rest

/-- No entry follows an entry of the key. -/
def LastOfRow (key : κ) : List (Option (κ × ν)) → Prop
  | some (taken, _) :: some entry :: rest => taken ≠ key ∧ LastOfRow key (some entry :: rest)
  | _ => True

instance LastOfRow.instDecidable (key : κ) :
    ∀ row : List (Option (κ × ν)), Decidable (LastOfRow key row)
  | [] | none :: _ | [some _] | some _ :: none :: _ => .isTrue trivial
  | some (taken, _) :: some entry :: rest =>
      have := LastOfRow.instDecidable key (some entry :: rest)
      inferInstanceAs (Decidable (taken ≠ key ∧ LastOfRow key (some entry :: rest)))

/-! ## Rows without entries -/

theorem lookup_of_free {row : List (Option (κ × ν))} (hfree : ∀ slot ∈ row, slot = none)
    (key : κ) : lookup key row = none := by
  cases row with
  | nil => rfl
  | cons slot rest =>
      rw [hfree slot (by simp)]
      rfl

theorem compact_of_free {row : List (Option (κ × ν))} (hfree : ∀ slot ∈ row, slot = none) :
    Compact row := by
  cases row with
  | nil => trivial
  | cons slot rest =>
      rw [hfree slot (by simp)]
      exact fun other hother => hfree other (List.mem_cons_of_mem _ hother)

theorem remove_of_free {row : List (Option (κ × ν))} (hfree : ∀ slot ∈ row, slot = none)
    (key : κ) : remove key row = row := by
  cases row with
  | nil => rfl
  | cons slot rest =>
      rw [hfree slot (by simp)]
      rfl

/-! ## Putting a value -/

/-- Where the row is not full, a value put under its key is found there, and nothing else
changes. -/
theorem lookup_insert {key : κ} {value : ν} {row after : List (Option (κ × ν))}
    (hcompact : Compact row) (hinsert : insert key key value row = some after) (other : κ) :
    lookup other after = if other = key then some value else lookup other row := by
  induction row generalizing after with
  | nil => cases hinsert
  | cons slot rest ih =>
      cases slot with
      | none =>
          have hfree : lookup other (none :: rest) = none := rfl
          rw [← Option.some.inj hinsert, hfree, lookup, lookup_of_free hcompact]
          by_cases hother : other = key
          · rw [if_pos hother.symm, if_pos hother]
          · rw [if_neg (Ne.symm hother), if_neg hother]
      | some entry =>
          obtain ⟨taken, old⟩ := entry
          rw [insert] at hinsert
          split at hinsert
          · next htaken =>
              rw [← Option.some.inj hinsert, lookup, lookup, htaken]
              by_cases hother : other = key
              · rw [if_pos hother.symm, if_pos hother]
              · rw [if_neg (Ne.symm hother), if_neg hother, if_neg (Ne.symm hother)]
          · next htaken =>
              obtain ⟨tail, htail, rfl⟩ := Option.map_eq_some_iff.mp hinsert
              rw [lookup, lookup, ih hcompact.2 htail]
              by_cases hother : taken = other
              · have hne : other ≠ key := hother ▸ htaken
                rw [if_pos hother, if_neg hne, if_pos hother]
              · rw [if_neg hother, if_neg hother]

theorem Compact.insert {key : κ} {value : ν} {row after : List (Option (κ × ν))}
    (hcompact : Compact row) (hinsert : insert key key value row = some after) :
    Compact after := by
  induction row generalizing after with
  | nil => cases hinsert
  | cons slot rest ih =>
      cases slot with
      | none =>
          rw [← Option.some.inj hinsert]
          exact ⟨lookup_of_free hcompact key, compact_of_free hcompact⟩
      | some entry =>
          obtain ⟨taken, old⟩ := entry
          rw [ProbeRow.insert] at hinsert
          split at hinsert
          · rw [← Option.some.inj hinsert]
            exact hcompact
          · next htaken =>
              obtain ⟨tail, htail, rfl⟩ := Option.map_eq_some_iff.mp hinsert
              refine ⟨?_, ih hcompact.2 htail⟩
              rw [lookup_insert hcompact.2 htail, if_neg htaken]
              exact hcompact.1

/-- An entry is there under the name it was just stored with, or was there before. -/
theorem mem_insert {key stored name : κ} {value held : ν} {row after : List (Option (κ × ν))}
    (hinsert : insert key stored value row = some after) (hmem : some (name, held) ∈ after) :
    name = stored ∨ ∃ before, some (name, before) ∈ row := by
  induction row generalizing after with
  | nil => cases hinsert
  | cons slot rest ih =>
      cases slot with
      | none =>
          rw [← Option.some.inj hinsert] at hmem
          rcases List.mem_cons.mp hmem with hnew | hold
          · exact Or.inl (Prod.mk.inj (Option.some.inj hnew)).1
          · exact Or.inr ⟨held, List.mem_cons_of_mem _ hold⟩
      | some entry =>
          obtain ⟨taken, old⟩ := entry
          rw [insert] at hinsert
          split at hinsert
          · rw [← Option.some.inj hinsert] at hmem
            rcases List.mem_cons.mp hmem with hnew | hold
            · rw [(Prod.mk.inj (Option.some.inj hnew)).1]
              exact Or.inr ⟨old, List.mem_cons_self⟩
            · exact Or.inr ⟨held, List.mem_cons_of_mem _ hold⟩
          · obtain ⟨tail, htail, rfl⟩ := Option.map_eq_some_iff.mp hinsert
            rcases List.mem_cons.mp hmem with hnew | hold
            · rw [(Prod.mk.inj (Option.some.inj hnew)).1]
              exact Or.inr ⟨old, List.mem_cons_self⟩
            · rcases ih htail hold with hstored | ⟨before, hbefore⟩
              · exact Or.inl hstored
              · exact Or.inr ⟨before, List.mem_cons_of_mem _ hbefore⟩

/-- A full row takes no key that it does not hold. -/
theorem insert_eq_none_of_full {key stored : κ} {value : ν} {row : List (Option (κ × ν))}
    (hfull : ∀ slot ∈ row, slot ≠ none) (hmissing : lookup key row = none) :
    insert key stored value row = none := by
  induction row with
  | nil => rfl
  | cons slot rest ih =>
      cases slot with
      | none => exact absurd rfl (hfull none (by simp))
      | some entry =>
          obtain ⟨taken, old⟩ := entry
          rw [lookup] at hmissing
          split at hmissing
          · cases hmissing
          · next htaken =>
              rw [insert, if_neg htaken, ih (fun other hother => hfull other (by simp [hother]))
                hmissing]
              rfl

/-- A row with a free slot takes any key. -/
theorem insert_isSome_of_free {key stored : κ} {value : ν} {row : List (Option (κ × ν))}
    (hfree : none ∈ row) : ∃ after, insert key stored value row = some after := by
  induction row with
  | nil => cases hfree
  | cons slot rest ih =>
      cases slot with
      | none => exact ⟨_, rfl⟩
      | some entry =>
          obtain ⟨taken, old⟩ := entry
          rw [insert]
          split
          · exact ⟨_, rfl⟩
          · obtain ⟨tail, htail⟩ := ih ((List.mem_cons.mp hfree).resolve_left (by simp))
            rw [htail]
            exact ⟨_, rfl⟩

/-- A value that is stored under another name than its key is not found. -/
theorem lookup_insert_renamed {key stored : κ} {value : ν} {row after : List (Option (κ × ν))}
    (hcompact : Compact row) (hmissing : lookup key row = none) (hrenamed : stored ≠ key)
    (hinsert : insert key stored value row = some after) : lookup key after = none := by
  induction row generalizing after with
  | nil => cases hinsert
  | cons slot rest ih =>
      cases slot with
      | none =>
          rw [← Option.some.inj hinsert, lookup, if_neg hrenamed]
          exact lookup_of_free hcompact key
      | some entry =>
          obtain ⟨taken, old⟩ := entry
          rw [lookup] at hmissing
          split at hmissing
          · cases hmissing
          · next htaken =>
              rw [insert, if_neg htaken] at hinsert
              obtain ⟨tail, htail, rfl⟩ := Option.map_eq_some_iff.mp hinsert
              rw [lookup, if_neg htaken]
              exact ih hcompact.2 hmissing htail

/-! ## Taking a value out -/

/-- In a compact row, a free slot is followed by free slots only. -/
theorem Compact.free_of_head {row : List (Option (κ × ν))} (hcompact : Compact row)
    (hhead : row.head? = some none ∨ row = []) : ∀ slot ∈ row, slot = none := by
  cases row with
  | nil => simp
  | cons slot rest =>
      rcases hhead with hhead | hnil
      · obtain rfl : slot = none := Option.some.inj hhead
        intro other hother
        exact (List.mem_cons.mp hother).elim id (hcompact other)
      · cases hnil

/-- Behind the entry of a key that is the last of its row there are only free slots. -/
theorem LastOfRow.free {key taken : κ} {value : ν} {rest : List (Option (κ × ν))}
    (hlast : LastOfRow key (some (taken, value) :: rest)) (hrest : Compact rest)
    (htaken : taken = key) : ∀ slot ∈ rest, slot = none := by
  apply hrest.free_of_head
  cases rest with
  | nil => exact Or.inr rfl
  | cons slot later =>
      cases slot with
      | none => exact Or.inl rfl
      | some entry => exact absurd htaken hlast.1

omit [DecidableEq κ] in
theorem LastOfRow.tail {key : κ} {slot : Option (κ × ν)} {rest : List (Option (κ × ν))}
    (hlast : LastOfRow key (slot :: rest)) (hslot : slot ≠ none) : LastOfRow key rest := by
  cases slot with
  | none => exact absurd rfl hslot
  | some entry =>
      cases rest with
      | nil => trivial
      | cons next later =>
          cases next with
          | none => trivial
          | some other => exact hlast.2

/-- Taking out the last entry of a compact row takes out its key and nothing else. -/
theorem lookup_remove {key : κ} {row : List (Option (κ × ν))} (hcompact : Compact row)
    (hlast : LastOfRow key row) (other : κ) :
    lookup other (remove key row) = if other = key then none else lookup other row := by
  induction row with
  | nil => simp [remove, lookup]
  | cons slot rest ih =>
      cases slot with
      | none => simp [remove, lookup]
      | some entry =>
          obtain ⟨taken, value⟩ := entry
          by_cases htaken : taken = key
          · have hfree := hlast.free hcompact.2 htaken
            rw [remove, if_pos htaken, lookup, lookup, lookup_of_free hfree, htaken]
            by_cases hother : other = key
            · rw [if_pos hother]
            · rw [if_neg hother, if_neg (Ne.symm hother)]
          · rw [remove, if_neg htaken, lookup, lookup, ih hcompact.2 (hlast.tail (by simp))]
            by_cases hother : taken = other
            · have hne : other ≠ key := hother ▸ htaken
              rw [if_pos hother, if_neg hne, if_pos hother]
            · rw [if_neg hother, if_neg hother]

theorem Compact.remove {key : κ} {row : List (Option (κ × ν))} (hcompact : Compact row)
    (hlast : LastOfRow key row) : Compact (remove key row) := by
  induction row with
  | nil => trivial
  | cons slot rest ih =>
      cases slot with
      | none => exact hcompact
      | some entry =>
          obtain ⟨taken, value⟩ := entry
          by_cases htaken : taken = key
          · have hfree := hlast.free hcompact.2 htaken
            rw [ProbeRow.remove, if_pos htaken, remove_of_free hfree]
            exact hfree
          · have hrest := hlast.tail (by simp)
            rw [ProbeRow.remove, if_neg htaken]
            refine ⟨?_, ih hcompact.2 hrest⟩
            rw [lookup_remove hcompact.2 hrest, if_neg htaken]
            exact hcompact.1

/-- Taking out adds no entry. -/
theorem mem_of_mem_remove {key : κ} {entry : κ × ν} {row : List (Option (κ × ν))}
    (hmem : some entry ∈ remove key row) : some entry ∈ row := by
  induction row with
  | nil => exact hmem
  | cons slot rest ih =>
      cases slot with
      | none => exact hmem
      | some first =>
          obtain ⟨taken, value⟩ := first
          rw [remove, List.mem_cons] at hmem
          rcases hmem with hhead | hrest
          · split at hhead
            · cases hhead
            · rw [hhead]
              exact List.mem_cons_self
          · exact List.mem_cons_of_mem _ (ih hrest)

/-- Where an entry follows the one that is taken out, it is lost. -/
theorem exists_lost {key : κ} {row : List (Option (κ × ν))} (hcompact : Compact row)
    (hfollowed : ¬ LastOfRow key row) :
    ∃ other value, other ≠ key ∧ some (other, value) ∈ row ∧ lookup other row = some value ∧
      lookup other (remove key row) = none := by
  induction row with
  | nil => exact absurd trivial hfollowed
  | cons slot rest ih =>
      cases slot with
      | none => exact absurd trivial hfollowed
      | some entry =>
          obtain ⟨taken, value⟩ := entry
          cases rest with
          | nil => exact absurd trivial hfollowed
          | cons next later =>
              cases next with
              | none => exact absurd trivial hfollowed
              | some follower =>
                  obtain ⟨other, kept⟩ := follower
                  have hdistinct : other ≠ taken := by
                    rintro rfl
                    have hmissing := hcompact.1
                    rw [lookup, if_pos rfl] at hmissing
                    cases hmissing
                  by_cases htaken : taken = key
                  · refine ⟨other, kept, htaken ▸ hdistinct, by simp, ?_, ?_⟩
                    · rw [lookup, if_neg (Ne.symm hdistinct), lookup, if_pos rfl]
                    · rw [remove, if_pos htaken, lookup]
                  · have hrest : ¬ LastOfRow key (some (other, kept) :: later) := fun hlast =>
                      hfollowed ⟨htaken, hlast⟩
                    obtain ⟨lost, held, hlost, hmem, hfound, hgone⟩ := ih hcompact.2 hrest
                    have hbehind : taken ≠ lost := by
                      rintro rfl
                      rw [hcompact.1] at hfound
                      cases hfound
                    refine ⟨lost, held, hlost, List.mem_cons_of_mem _ hmem, ?_, ?_⟩
                    · rw [lookup, if_neg hbehind]
                      exact hfound
                    · rw [remove, if_neg htaken, lookup, if_neg hbehind]
                      exact hgone

end EnosDeviceSdk.Library.ProbeRow
