/-
# One pass of a bubble sort

A pass walks along a list with one item in hand. Where the next item has the larger key the two
change places, and so the item in hand at the end has the smallest key of all.

Passes over ever shorter fronts of a list leave behind them a back that is in descending order and
has no key above those of the front.
-/

import Mathlib.Data.List.Perm.Basic
import Mathlib.Order.Lattice

namespace EnosDeviceSdk.Library

universe u v

variable {ι : Type u} {α : Type v} [LinearOrder α]

/-- The pass with an item in hand: what it has put down, and the item in hand at the end. -/
def bubblePass (key : ι → α) : ι → List ι → List ι × ι
  | carried, [] => ([], carried)
  | carried, item :: rest =>
      if key carried < key item then
        (item :: (bubblePass key carried rest).1, (bubblePass key carried rest).2)
      else (carried :: (bubblePass key item rest).1, (bubblePass key item rest).2)

/-- The list is in descending order of the keys. -/
def Descending (key : ι → α) (items : List ι) : Prop :=
  items.Pairwise fun earlier later => key later ≤ key earlier

/-- The back is in order, and no item of it belongs before an item of the front. -/
structure Settled (key : ι → α) (front back : List ι) : Prop where
  descending : Descending key back
  below : ∀ earlier ∈ front, ∀ later ∈ back, key later ≤ key earlier

theorem settled_nil (key : ι → α) (items : List ι) : Settled key items [] :=
  ⟨List.Pairwise.nil, fun _ _ _ hnone => (nomatch hnone)⟩

section Pass

variable (key : ι → α) (carried : ι) (rest : List ι)

/-- A pass moves items only. -/
theorem bubblePass_perm :
    ((bubblePass key carried rest).1 ++ [(bubblePass key carried rest).2]).Perm
      (carried :: rest) := by
  induction rest generalizing carried with
  | nil => exact List.Perm.refl _
  | cons item rest ih =>
      rw [bubblePass]
      split
      · exact ((ih carried).cons item).trans (List.Perm.swap carried item rest)
      · exact (ih item).cons carried

theorem length_bubblePass : (bubblePass key carried rest).1.length = rest.length := by
  have hlength := (bubblePass_perm key carried rest).length_eq
  rw [List.length_append, List.length_singleton, List.length_cons] at hlength
  exact Nat.add_right_cancel hlength

theorem mem_bubblePass {item : ι} :
    item ∈ (bubblePass key carried rest).1 ∨ item = (bubblePass key carried rest).2 ↔
      item ∈ carried :: rest := by
  rw [← (bubblePass_perm key carried rest).mem_iff, List.mem_append, List.mem_singleton]

/-- The item in hand at the end has the smallest key. -/
theorem bubblePass_smallest :
    ∀ item ∈ carried :: rest, key (bubblePass key carried rest).2 ≤ key item := by
  induction rest generalizing carried with
  | nil =>
      intro item hitem
      rw [List.mem_singleton.mp hitem]
      exact le_refl _
  | cons next rest ih =>
      intro item hitem
      rw [bubblePass]
      split
      case isTrue hswap =>
          rcases List.mem_cons.mp hitem with rfl | hbehind
          · exact ih item item List.mem_cons_self
          · rcases List.mem_cons.mp hbehind with rfl | hrest
            · exact le_trans (ih carried carried List.mem_cons_self) (le_of_lt hswap)
            · exact ih carried item (List.mem_cons_of_mem carried hrest)
      case isFalse hkeep =>
          rcases List.mem_cons.mp hitem with rfl | hbehind
          · exact le_trans (ih next next List.mem_cons_self) (not_lt.mp hkeep)
          · exact ih next item hbehind

/-- After a pass over the front, its last item belongs to the back. -/
theorem Settled.pass {back : List ι} (hsettled : Settled key (carried :: rest) back) :
    Settled key (bubblePass key carried rest).1 ((bubblePass key carried rest).2 :: back) := by
  have hmember {item : ι} (hitem : item ∈ (bubblePass key carried rest).1) :
      item ∈ carried :: rest := (mem_bubblePass key carried rest).mp (.inl hitem)
  have hlast : (bubblePass key carried rest).2 ∈ carried :: rest :=
    (mem_bubblePass key carried rest).mp (.inr rfl)
  refine ⟨List.pairwise_cons.mpr ⟨hsettled.below _ hlast, hsettled.descending⟩, ?_⟩
  intro earlier hearlier later hlater
  rcases List.mem_cons.mp hlater with rfl | hback
  · exact bubblePass_smallest key carried rest earlier (hmember hearlier)
  · exact hsettled.below earlier (hmember hearlier) later hback

end Pass

end EnosDeviceSdk.Library
