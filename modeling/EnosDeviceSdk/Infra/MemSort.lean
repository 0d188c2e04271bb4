/-
# Sorting the modules of the memory statistics

Before the statistics are printed, the modules are sorted by the most that they had in use. The
list is sorted in place, by a bubble sort on the links of a doubly linked list, in which two
neighbours change places with the help of a node on the stack.

After an exchange both cursors would stand at the wrong node. The inner one is taken one node back
and the end marker, if it was the node exchanged, one node on. So the inner cursor goes one place on
in each turn, with the module in hand, and the end marker stays where it was.
-/

import Mathlib.Data.Int.Order.Basic
import EnosDeviceSdk.Library.BubblePass
import EnosDeviceSdk.Library.LinkRing

namespace EnosDeviceSdk.Infra

open EnosDeviceSdk.Library

universe u

variable {ι : Type u} [DecidableEq ι]

/-! ## The code -/

/-- `_mem_cmp_max_used`. The map has what the modules had in use at most, and nothing at an address
where there is no module. -/
def memCmpMaxUsed (bytesMaxInUse : ι → Option Int) (a b : ι) : Option Bool :=
  match bytesMaxInUse a, bytesMaxInUse b with
  | some usedA, some usedB => some (usedA < usedB)
  | _, _ => none

/-- `_mem_swap_module_pos`, with the address of the node on the stack. -/
def memSwapModulePos (temp : ι) (links : Links ι) (a b : ι) : Links ι :=
  let links := links.addAfter temp b
  let links := links.del b
  let links := links.addAfter b a
  let links := links.del a
  let links := links.addAfter a temp
  links.del temp

/-- The inner loop of `_mem_sort_module_pos`: the links and the end marker after it, unless it takes
more turns than allowed or compares what is no module. -/
def memSortInner (bytesMaxInUse : ι → Option Int) (temp head : ι) :
    Nat → Links ι → ι → ι → Option (Links ι × ι)
  | 0, _, _, _ => none
  | fuel + 1, links, start, finish =>
      if start = head ∨ start = finish then some (links, finish)
      else
        match memCmpMaxUsed bytesMaxInUse start (links.next start) with
        | none => none
        | some false =>
            memSortInner bytesMaxInUse temp head fuel links (links.next start) finish
        | some true =>
            let links := memSwapModulePos temp links start (links.next start)
            let start := links.prev start
            let finish := if start = finish then links.next finish else finish
            memSortInner bytesMaxInUse temp head fuel links (links.next start) finish

/-- The outer loop of `_mem_sort_module_pos`. -/
def memSortOuter (bytesMaxInUse : ι → Option Int) (temp head : ι) (inner : Nat) :
    Nat → Links ι → ι → Option (Links ι)
  | 0, _, _ => none
  | fuel + 1, links, finish =>
      if finish = head then some links
      else do
        let (links, finish) ←
          memSortInner bytesMaxInUse temp head inner links (links.next head) finish
        memSortOuter bytesMaxInUse temp head inner fuel links (links.prev finish)

/-- `_mem_sort_module_pos`: the links after it, unless one of its loops takes more turns than
allowed or it compares what is no module. -/
def memSortModulePos (bytesMaxInUse : ι → Option Int) (temp head : ι) (fuel : Nat)
    (links : Links ι) : Option (Links ι) :=
  memSortOuter bytesMaxInUse temp head fuel fuel links (links.prev head)

/-! ## Exchanging neighbours -/

section Exchange

variable {links : Links ι} {temp head a b : ι} {before after : List ι}

/-- Two neighbours change places. -/
theorem rings_memSwapModulePos (hrings : Rings links head (before ++ a :: b :: after))
    (htemp : temp ∉ head :: (before ++ a :: b :: after)) :
    Rings (memSwapModulePos temp links a b) head (before ++ b :: a :: after) := by
  obtain ⟨htempHead, htempBefore, htempA, htempB, htempAfter⟩ : temp ≠ head ∧ temp ∉ before ∧
      temp ≠ a ∧ temp ≠ b ∧ temp ∉ after := by simpa using htemp
  obtain ⟨hheadBefore, hheadA, hheadB, hheadAfter⟩ : head ∉ before ∧ head ≠ a ∧ head ≠ b ∧
      head ∉ after := by simpa using (List.nodup_cons.mp hrings.distinct).1
  obtain ⟨-, hbehind, hapart⟩ := List.nodup_append.mp (List.nodup_cons.mp hrings.distinct).2
  obtain ⟨hab, haAfter⟩ : a ≠ b ∧ a ∉ after := by simpa using (List.nodup_cons.mp hbehind).1
  have hbAfter : b ∉ after := (List.nodup_cons.mp (List.nodup_cons.mp hbehind).2).1
  have haBefore : a ∉ before := fun hmem => hapart a hmem a List.mem_cons_self rfl
  have hbBefore : b ∉ before := fun hmem => hapart b hmem b (by simp) rfl
  -- the node on the stack marks the place of the second, which goes where it is already
  have hmarked := hrings.addAfter_second htemp
  have hsecondOut := hmarked.del_second
  have hsecondIn := @Rings.addAfter _ _ _ _ b _ _ _ hsecondOut
    (by simp [hheadB.symm, hbBefore, hab.symm, htempB.symm, hbAfter])
  -- the first goes to the marked place
  have hfirstOut := hsecondIn.del
  have hfirstIn := @Rings.addAfter_second _ _ _ _ a _ _ _ _ hfirstOut
    (by simp [hheadA.symm, haBefore, hab, htempA.symm, haAfter])
  exact hfirstIn.del_second

end Exchange

/-! ## The loops -/

section Loops

variable {bytesMaxInUse : ι → Option Int} {temp head : ι}

/-- What a module had in use at most. -/
def usedOf (bytesMaxInUse : ι → Option Int) (node : ι) : Int := (bytesMaxInUse node).getD 0

omit [DecidableEq ι] in
theorem memCmpMaxUsed_eq {a b : ι} (ha : (bytesMaxInUse a).isSome) (hb : (bytesMaxInUse b).isSome) :
    memCmpMaxUsed bytesMaxInUse a b =
      some (decide (usedOf bytesMaxInUse a < usedOf bytesMaxInUse b)) := by
  obtain ⟨usedA, hused⟩ := Option.isSome_iff_exists.mp ha
  obtain ⟨usedB, hused'⟩ := Option.isSome_iff_exists.mp hb
  rw [memCmpMaxUsed, hused, hused', usedOf, usedOf, hused, hused']
  rfl

/-- A list of modules in memory: the ring stands for it, its nodes are modules, and the node on the
stack is none of them. -/
structure Listed (bytesMaxInUse : ι → Option Int) (temp head : ι) (links : Links ι)
    (nodes : List ι) : Prop where
  rings : Rings links head nodes
  temp : temp ∉ head :: nodes
  modules : ∀ node ∈ nodes, (bytesMaxInUse node).isSome

/-- The last of some nodes in a row, where the end marker is. -/
def endMarker (first : ι) (rest : List ι) : ι :=
  (first :: rest).getLast (List.cons_ne_nil first rest)

omit [DecidableEq ι] in
theorem endMarker_mem (first : ι) (rest : List ι) : endMarker first rest ∈ first :: rest :=
  List.getLast_mem _

omit [DecidableEq ι] in
/-- The first of different nodes is not the last. -/
theorem ne_endMarker {first item : ι} {rest : List ι} (hother : first ∉ item :: rest) :
    first ≠ endMarker first (item :: rest) := by
  intro hsame
  apply hother
  have hlast : endMarker first (item :: rest) = endMarker item rest := List.getLast_cons_cons
  rw [hsame, hlast]
  exact endMarker_mem item rest

/-- Neighbours in a list of modules change places. -/
theorem Listed.swap {links : Links ι} {before after : List ι} {a b : ι}
    (hlisted : Listed bytesMaxInUse temp head links (before ++ a :: b :: after)) :
    Listed bytesMaxInUse temp head (memSwapModulePos temp links a b)
      (before ++ b :: a :: after) := by
  have hperm : (before ++ b :: a :: after).Perm (before ++ a :: b :: after) :=
    (List.Perm.swap a b after).append_left before
  refine ⟨rings_memSwapModulePos hlisted.rings hlisted.temp, ?_, ?_⟩
  · exact fun hmem => hlisted.temp ((hperm.cons head).mem_iff.mp hmem)
  · exact fun node hnode => hlisted.modules node (hperm.mem_iff.mp hnode)

/-- In the inner loop the cursor is at the module in hand and the end marker at the last node of the
front. The loop is a pass, and afterwards the marker is at the module that was in hand. -/
theorem memSortInner_eq {links : Links ι} {before rest back : List ι} {carried : ι} {fuel : Nat}
    (hlisted : Listed bytesMaxInUse temp head links (before ++ carried :: (rest ++ back)))
    (hfuel : rest.length < fuel) :
    ∃ swapped, memSortInner bytesMaxInUse temp head fuel links carried
        (endMarker carried rest) =
          some (swapped, (bubblePass (usedOf bytesMaxInUse) carried rest).2) ∧
      Listed bytesMaxInUse temp head swapped
        (before ++ (bubblePass (usedOf bytesMaxInUse) carried rest).1 ++
          (bubblePass (usedOf bytesMaxInUse) carried rest).2 :: back) := by
  induction rest generalizing links before carried fuel with
  | nil =>
      obtain ⟨fuel, rfl⟩ := Nat.exists_eq_add_one_of_ne_zero (Nat.ne_of_gt hfuel)
      refine ⟨links, ?_, ?_⟩
      · rw [memSortInner, if_pos (.inr rfl)]
        rfl
      · simpa [bubblePass] using hlisted
  | cons item rest ih =>
      obtain ⟨fuel, rfl⟩ :=
        Nat.exists_eq_add_one_of_ne_zero (Nat.ne_of_gt (Nat.zero_lt_of_lt hfuel))
      rw [List.length_cons, Nat.succ_lt_succ_iff] at hfuel
      obtain ⟨hnotHead, hdistinct⟩ := List.nodup_cons.mp hlisted.rings.distinct
      obtain ⟨hcarried, hitem⟩ := List.nodup_cons.mp (List.nodup_append.mp hdistinct).2.1
      have hhead : carried ≠ head := by
        rintro rfl
        simp at hnotHead
      have hmarker : carried ≠ endMarker carried (item :: rest) :=
        ne_endMarker fun hmem => hcarried (List.mem_append_left back hmem)
      have hnext : links.next carried = item := hlisted.rings.neighbours.1
      have hcmp := memCmpMaxUsed_eq (hlisted.modules carried (by simp))
        (hlisted.modules item (by simp))
      rw [memSortInner, if_neg (not_or.mpr ⟨hhead, hmarker⟩), hnext, hcmp, bubblePass]
      by_cases hless : usedOf bytesMaxInUse carried < usedOf bytesMaxInUse item
      · rw [decide_eq_true hless, if_pos hless]
        dsimp only
        -- the cursor goes back to the module that was behind and on to the one in hand
        have hswapped : Listed bytesMaxInUse temp head (memSwapModulePos temp links carried item)
            (before ++ item :: carried :: (rest ++ back)) := hlisted.swap
        obtain ⟨hnextItem, hprevCarried⟩ := hswapped.rings.neighbours
        have hfinish : (if item = endMarker carried (item :: rest) then
            (memSwapModulePos temp links carried item).next (endMarker carried (item :: rest))
            else endMarker carried (item :: rest)) = endMarker carried rest := by
          cases rest with
          | nil => exact (if_pos (show item = endMarker carried [item] from rfl)).trans hnextItem
          | cons later rest =>
              have hother : item ≠ endMarker item (later :: rest) := ne_endMarker
                fun hmem => (List.nodup_cons.mp hitem).1 (List.mem_append_left back hmem)
              exact if_neg hother
        rw [hprevCarried, hfinish, hnextItem]
        rw [List.append_cons] at hswapped
        obtain ⟨swapped, hrun, hafter⟩ := ih hswapped hfuel
        refine ⟨swapped, hrun, ?_⟩
        simpa using hafter
      · rw [decide_eq_false hless, if_neg hless]
        dsimp only
        rw [List.append_cons] at hlisted
        obtain ⟨swapped, hrun, hafter⟩ := ih hlisted hfuel
        refine ⟨swapped, hrun, ?_⟩
        simpa using hafter

/-- The outer loop, with the end marker at the last node of the front, sorts what is not in order
yet. -/
theorem memSortOuter_sorts {links : Links ι} {front back : List ι} {inner fuel : Nat}
    (hlisted : Listed bytesMaxInUse temp head links (front ++ back))
    (hsettled : Settled (usedOf bytesMaxInUse) front back)
    (hinner : front.length ≤ inner) (hfuel : front.length < fuel) :
    ∃ sorted swapped, memSortOuter bytesMaxInUse temp head inner fuel links
        (endMarker head front) = some swapped ∧
      Listed bytesMaxInUse temp head swapped sorted ∧ sorted.Perm (front ++ back) ∧
      Descending (usedOf bytesMaxInUse) sorted := by
  induction fuel generalizing links front back with
  | zero => exact absurd hfuel (Nat.not_lt_zero _)
  | succ fuel ih =>
      cases front with
      | nil =>
          refine ⟨back, links, ?_, hlisted, List.Perm.refl _, hsettled.descending⟩
          rw [memSortOuter, if_pos]
          rfl
      | cons carried rest =>
          have hmarker : head ≠ endMarker head (carried :: rest) := by
            refine ne_endMarker fun hmem => ?_
            exact (List.nodup_cons.mp hlisted.rings.distinct).1 (List.mem_append_left back hmem)
          have hfirst : links.next head = carried := hlisted.rings.next_head
          rw [List.length_cons] at hinner hfuel
          obtain ⟨passed, hrun, hpassed⟩ :=
            @memSortInner_eq _ _ bytesMaxInUse temp head links [] rest back carried inner hlisted
              (by omega)
          rw [List.nil_append] at hpassed
          have hlast := (chained_append.mp hpassed.rings.chained).1.prev_last
          have hlength := length_bubblePass (usedOf bytesMaxInUse) carried rest
          obtain ⟨sorted, swapped, hsort, hsorted, hperm, hdescending⟩ :=
            ih hpassed hsettled.pass (by omega) (by omega)
          refine ⟨sorted, swapped, ?_, hsorted, hperm.trans ?_, hdescending⟩
          · rw [memSortOuter, if_neg hmarker.symm, hfirst]
            have hmoved : endMarker head (carried :: rest) = endMarker carried rest :=
              List.getLast_cons_cons
            rw [hmoved, hrun]
            simp only [Option.bind_eq_bind, Option.bind_some]
            rw [hlast]
            exact hsort
          · have hpass := (bubblePass_perm (usedOf bytesMaxInUse) carried rest).append_right back
            rwa [List.append_assoc, List.singleton_append] at hpass

end Loops

/-! ## The result -/

/-- The sort comes to its end, after no more turns of a loop than there are modules and one more,
and leaves a list of the same modules, those that had most in use first. -/
theorem memSortModulePos_sorts (bytesMaxInUse : ι → Option Int) (temp head : ι) (links : Links ι)
    (nodes : List ι) (fuel : Nat) (hrings : Rings links head nodes) (htemp : temp ∉ head :: nodes)
    (hmodules : ∀ node ∈ nodes, (bytesMaxInUse node).isSome) (hfuel : nodes.length < fuel) :
    ∃ sorted swapped, memSortModulePos bytesMaxInUse temp head fuel links = some swapped ∧
      Rings swapped head sorted ∧ sorted.Perm nodes ∧
      Descending (usedOf bytesMaxInUse) sorted := by
  have hlisted : Listed bytesMaxInUse temp head links (nodes ++ []) := by
    rw [List.append_nil]
    exact ⟨hrings, htemp, hmodules⟩
  obtain ⟨sorted, swapped, hsort, hsorted, hperm, hdescending⟩ :=
    memSortOuter_sorts hlisted (settled_nil _ nodes) (Nat.le_of_lt hfuel) hfuel
  rw [List.append_nil] at hperm
  refine ⟨sorted, swapped, ?_, hsorted.rings, hperm, hdescending⟩
  rw [memSortModulePos, hrings.chained.prev_last]
  exact hsort

/-- Four modules at the addresses from one to four, and the head at zero. -/
def fourModules : Links Nat where
  next node := if node = 4 then 0 else node + 1
  prev node := if node = 0 then 4 else node - 1

theorem rings_fourModules : Rings fourModules 0 [1, 2, 3, 4] := by
  refine ⟨by decide, ?_⟩
  simp [Chained, fourModules]

theorem memSortModulePos_four :
    ∃ sorted swapped,
      memSortModulePos (fun node => [none, some 7, some (-2), some 7, some 30].getD node none) 5 0 5
        fourModules = some swapped ∧
      Rings swapped 0 sorted ∧ sorted.Perm [1, 2, 3, 4] ∧
      Descending (usedOf fun node => [none, some 7, some (-2), some 7, some 30].getD node none)
        sorted :=
  memSortModulePos_sorts (fun node => [none, some 7, some (-2), some 7, some 30].getD node none) 5 0
    fourModules [1, 2, 3, 4] 5 rings_fourModules (by decide) (by decide) (by decide)

end EnosDeviceSdk.Infra
