/-
# A counter that wraps

A counter runs from 1 to a limit and starts again at 1; 0 is what it shows before its
first step. Numbering its steps gives each reading a serial number, and two steps show
the same reading exactly when their serial numbers differ by a multiple of the limit.
-/

import Mathlib.Data.Nat.ModEq

namespace EnosDeviceSdk.Library

/-- What the counter shows after the given number of steps. -/
def wrapped (limit serial : Nat) : Nat := if serial = 0 then 0 else (serial - 1) % limit + 1

/-- One step of the counter. -/
theorem wrapped_succ {limit : Nat} (hlimit : 0 < limit) (serial : Nat) :
    wrapped limit (serial + 1) =
      if wrapped limit serial = limit then 1 else wrapped limit serial + 1 := by
  cases serial with
  | zero =>
      have hstart : (0 : Nat) ≠ limit := Nat.ne_of_lt hlimit
      simp [wrapped, hstart]
  | succ serial =>
      have hsplit : serial + 1 = limit * (serial / limit) + (serial % limit + 1) := by
        rw [← Nat.add_assoc, Nat.div_add_mod]
      have hnext : (serial + 1) % limit = (serial % limit + 1) % limit := by
        rw [hsplit, Nat.mul_add_mod]
      simp only [wrapped, Nat.add_sub_cancel, Nat.succ_ne_zero, if_false]
      rw [hnext]
      split
      · next hlast => rw [hlast, Nat.mod_self]
      · next hmore =>
          have hless := Nat.mod_lt serial hlimit
          rw [Nat.mod_eq_of_lt (by omega)]

/-- Two steps show the same reading exactly when a multiple of the limit lies between. -/
theorem wrapped_eq_iff {limit first second : Nat} (hfirst : 0 < first) (hsecond : 0 < second) :
    wrapped limit first = wrapped limit second ↔ first % limit = second % limit := by
  obtain ⟨first, rfl⟩ := Nat.exists_eq_succ_of_ne_zero (Nat.ne_of_gt hfirst)
  obtain ⟨second, rfl⟩ := Nat.exists_eq_succ_of_ne_zero (Nat.ne_of_gt hsecond)
  simp only [wrapped, Nat.succ_ne_zero, if_false, Nat.succ_sub_one, Nat.add_right_cancel_iff]
  exact ⟨fun hsame => Nat.ModEq.add_right 1 hsame, Nat.ModEq.add_right_cancel' 1⟩

end EnosDeviceSdk.Library
