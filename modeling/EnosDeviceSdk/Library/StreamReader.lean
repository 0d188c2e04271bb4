/-
# A receiver that reads messages off a byte stream

The receiver looks at the front of what has arrived: a message stands there, or only the start
of one, or something that can be no message. It takes message after message until only a start
is left, and keeps the start until more arrives.

A text spells a message when the receiver finds the message at the front of every stream that
starts with the text, and the start of one in every part of it. Whatever part of a stream of such
texts has arrived, the receiver has then read the messages that have arrived whole and no other.
-/

import Mathlib.Data.List.Basic
import Mathlib.Data.List.Forall2

namespace EnosDeviceSdk.Library

universe u

variable {β μ : Type u}

/-- What stands at the front of what has arrived. -/
inductive Front (β μ : Type u)
  | whole (message : μ) (rest : List β)
  | started
  | malformed
  deriving DecidableEq

/-- The messages that can be read off, and what is left; `none` if there is something that can be
no message. -/
def readMessages (front : List β → Front β μ) : Nat → List β → Option (List μ × List β)
  | 0, stream => some ([], stream)
  | fuel + 1, stream =>
      match front stream with
      | .started => some ([], stream)
      | .malformed => none
      | .whole message rest => do
          let (later, left) ← readMessages front fuel rest
          some (message :: later, left)

/-- Everything that can be read off what has arrived. -/
def receive (front : List β → Front β μ) (stream : List β) : Option (List μ × List β) :=
  readMessages front (stream.length + 1) stream

/-- The text is the message, whatever follows, and no part of it is one. -/
structure Spells (front : List β → Front β μ) (text : List β) (message : μ) : Prop where
  whole : ∀ rest, front (text ++ rest) = .whole message rest
  started : ∀ start, start <+: text → start ≠ text → front start = .started

variable {front : List β → Front β μ} {texts : List (List β)} {messages : List μ}

theorem Spells.ne_nil {text : List β} {message : μ} (hspells : Spells front text message)
    (hnothing : front [] = .started) : text ≠ [] := by
  rintro rfl
  have hwhole := hspells.whole []
  rw [List.append_nil, hnothing] at hwhole
  cases hwhole

/-- What a receiver has made of a part of the stream: the first messages, and of the next one the
part that has arrived. -/
def ReadUpTo (texts : List (List β)) (messages : List μ) (arrived : List β)
    (result : Option (List μ × List β)) : Prop :=
  ∃ count left, result = some (messages.take count, left) ∧
    (texts.take count).flatten ++ left = arrived ∧
      ((texts.length ≤ count ∧ left = []) ∨
        ∃ next, texts[count]? = some next ∧ left <+: next ∧ left ≠ next)

/-- A part of a stream of messages is read up to the last message that has arrived whole. -/
theorem readMessages_of_prefix (hnothing : front [] = .started)
    (hspell : List.Forall₂ (Spells front) texts messages) {arrived : List β}
    (harrived : arrived <+: texts.flatten) {fuel : Nat} (hfuel : arrived.length < fuel) :
    ReadUpTo texts messages arrived (readMessages front fuel arrived) := by
  induction hspell generalizing arrived fuel with
  | nil =>
      obtain ⟨more, rfl⟩ := Nat.exists_eq_succ_of_ne_zero (Nat.ne_of_gt (Nat.zero_lt_of_lt hfuel))
      obtain rfl : arrived = [] := List.prefix_nil.mp harrived
      refine ⟨0, [], ?_, rfl, Or.inl ⟨Nat.le_refl 0, rfl⟩⟩
      rw [readMessages, hnothing]
      rfl
  | @cons text message texts messages hspells hspell ih =>
      obtain ⟨more, rfl⟩ := Nat.exists_eq_succ_of_ne_zero (Nat.ne_of_gt (Nat.zero_lt_of_lt hfuel))
      rw [List.flatten_cons] at harrived
      rw [readMessages]
      by_cases hwhole : text <+: arrived
      · obtain ⟨rest, rfl⟩ := hwhole
        have hrest : rest <+: texts.flatten := (List.prefix_append_right_inj text).mp harrived
        have hshorter : rest.length < more := by
          have hpositive := List.length_pos_iff.mpr (hspells.ne_nil hnothing)
          rw [List.length_append] at hfuel
          omega
        obtain ⟨count, left, hread, hflat, hleft⟩ := ih hrest hshorter
        rw [hspells.whole rest]
        dsimp only
        rw [hread]
        refine ⟨count + 1, left, rfl, ?_, ?_⟩
        · rw [List.take_succ_cons, List.flatten_cons, List.append_assoc, hflat]
        · rcases hleft with ⟨hall, rfl⟩ | ⟨next, hnext, hpart⟩
          · exact Or.inl ⟨Nat.succ_le_succ hall, rfl⟩
          · exact Or.inr ⟨next, by rwa [List.getElem?_cons_succ], hpart⟩
      · have hpart : arrived <+: text :=
          (List.prefix_or_prefix_of_prefix harrived (List.prefix_append text _)).resolve_right
            hwhole
        have hne : arrived ≠ text := by
          rintro rfl
          exact hwhole List.prefix_rfl
        rw [hspells.started arrived hpart hne]
        exact ⟨0, arrived, rfl, rfl, Or.inr ⟨text, rfl, hpart, hne⟩⟩

theorem receive_of_prefix (hnothing : front [] = .started)
    (hspell : List.Forall₂ (Spells front) texts messages) {arrived : List β}
    (harrived : arrived <+: texts.flatten) :
    ReadUpTo texts messages arrived (receive front arrived) :=
  readMessages_of_prefix hnothing hspell harrived (Nat.lt_succ_self _)

/-! ## Items until the end -/

/-- Items read one after the other until nothing is left. -/
def readItems (item : List β → Option (μ × List β)) : Nat → List β → Option (List μ)
  | _, [] => some []
  | 0, _ :: _ => none
  | fuel + 1, head :: tail => do
      let (first, rest) ← item (head :: tail)
      let later ← readItems item fuel rest
      some (first :: later)

/-- Items that are read back one by one are read back together. -/
theorem readItems_flatMap {α : Type u} {item : List β → Option (μ × List β)} {write : α → List β}
    {meaning : α → μ} {values : List α} (hne : ∀ value ∈ values, write value ≠ [])
    (hitem : ∀ value ∈ values, ∀ rest, item (write value ++ rest) = some (meaning value, rest))
    {fuel : Nat} (hfuel : (values.flatMap write).length ≤ fuel) :
    readItems item fuel (values.flatMap write) = some (values.map meaning) := by
  induction values generalizing fuel with
  | nil => cases fuel <;> rfl
  | cons value values ih =>
      rw [List.flatMap_cons, List.length_append] at hfuel
      have hpositive := List.length_pos_iff.mpr (hne value (by simp))
      obtain ⟨more, rfl⟩ : ∃ more, fuel = more + 1 := ⟨fuel - 1, by omega⟩
      obtain ⟨head, tail, hwrite⟩ := List.exists_cons_of_ne_nil (hne value (by simp))
      have hlater := ih (fun other hother => hne other (by simp [hother]))
        (fun other hother => hitem other (by simp [hother])) (by omega : _ ≤ more)
      have hfirst := hitem value (by simp) (values.flatMap write)
      rw [List.flatMap_cons, List.map_cons]
      rw [hwrite, List.cons_append] at hfirst ⊢
      rw [readItems, hfirst]
      simp [hlater]

end EnosDeviceSdk.Library
