/-
# The first place of a pattern in a text

A search that tries one place after another finds the first place where the text goes on with
the pattern. What stands before this place does not matter to whatever the search is for, and
what stands behind it is all there is to say about the result.
-/

import Mathlib.Data.List.Basic

namespace EnosDeviceSdk.Library

universe u

variable {α : Type u} [DecidableEq α]

/-- The first place where the text goes on with the pattern. -/
def firstPlace (pattern : List α) : List α → Option Nat
  | [] => if pattern = [] then some 0 else none
  | head :: tail =>
      if pattern <+: head :: tail then some 0 else (firstPlace pattern tail).map (· + 1)

theorem firstPlace_of_begins {pattern text : List α} (hpattern : pattern <+: text) :
    firstPlace pattern text = some 0 := by
  cases text with
  | nil => rw [firstPlace, if_pos (List.prefix_nil.mp hpattern)]
  | cons head tail => rw [firstPlace, if_pos hpattern]

theorem firstPlace_cons_of_not_begins {pattern : List α} {head : α} {tail : List α}
    (hpattern : ¬ pattern <+: head :: tail) :
    firstPlace pattern (head :: tail) = (firstPlace pattern tail).map (· + 1) := by
  rw [firstPlace, if_neg hpattern]

end EnosDeviceSdk.Library
