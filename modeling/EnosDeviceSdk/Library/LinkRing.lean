/-
# Circular doubly linked lists

An intrusive list is a ring of link fields: every address has a successor and a
predecessor, and a distinguished head closes the ring. The operations write single
link fields, as a program does, and never look at a whole list.

`Rings` says which list of addresses a ring stands for. The operations are then the list
operations: an insertion before the head appends, an unlinking erases, the head is its own
successor exactly when the list is empty.
-/

import Mathlib.Data.List.Nodup
import Mathlib.Logic.Function.Basic

namespace EnosDeviceSdk.Library

universe u

variable {ι : Type u}

/-- The link fields of all addresses. -/
structure Links (ι : Type u) where
  next : ι → ι
  prev : ι → ι

namespace Links

variable [DecidableEq ι]

/-- `node->next = target` -/
def setNext (links : Links ι) (node target : ι) : Links ι :=
  { links with next := Function.update links.next node target }

/-- `node->prev = target` -/
def setPrev (links : Links ι) (node target : ι) : Links ι :=
  { links with prev := Function.update links.prev node target }

/-- An address that is linked with itself only. -/
def initHead (links : Links ι) (node : ι) : Links ι :=
  (links.setNext node node).setPrev node node

/-- Link a node between two addresses. -/
def insertBetween (links : Links ι) (node prev next : ι) : Links ι :=
  (((links.setNext node next).setPrev node prev).setNext prev node).setPrev next node

/-- Link a node in front of the head, which is the end of the list. -/
def addTail (links : Links ι) (node head : ι) : Links ι :=
  links.insertBetween node (links.prev head) head

/-- Link a node behind another. -/
def addAfter (links : Links ι) (node queue : ι) : Links ι :=
  links.insertBetween node queue (links.next queue)

/-- Unlink a node: its neighbours are linked with each other. -/
def del (links : Links ι) (node : ι) : Links ι :=
  (links.setNext (links.prev node) (links.next node)).setPrev (links.next node)
    (links.prev node)

/-- The head is its own successor. -/
def isEmpty (links : Links ι) (head : ι) : Bool :=
  links.next head = head

@[simp]
theorem next_setNext (links : Links ι) (node target : ι) :
    (links.setNext node target).next = Function.update links.next node target := rfl

@[simp]
theorem prev_setNext (links : Links ι) (node target : ι) :
    (links.setNext node target).prev = links.prev := rfl

@[simp]
theorem next_setPrev (links : Links ι) (node target : ι) :
    (links.setPrev node target).next = links.next := rfl

@[simp]
theorem prev_setPrev (links : Links ι) (node target : ι) :
    (links.setPrev node target).prev = Function.update links.prev node target := rfl

end Links

/-! ## Which list a ring stands for -/

/-- The addresses are linked in this order, in both directions, on the way from the first
address to the last. -/
def Chained (links : Links ι) : ι → List ι → ι → Prop
  | first, [], last => links.next first = last ∧ links.prev last = first
  | first, node :: rest, last =>
      (links.next first = node ∧ links.prev node = first) ∧ Chained links node rest last

theorem chained_append {links : Links ι} {first last node : ι} {before after : List ι} :
    Chained links first (before ++ node :: after) last ↔
      Chained links first before node ∧ Chained links node after last := by
  induction before generalizing first with
  | nil => rfl
  | cons earlier rest ih => simp [Chained, ih, and_assoc]

/-- Only the successors of the addresses before the last, and the predecessors of those after
the first, matter for a chain. -/
theorem Chained.congr {links changed : Links ι} {first last : ι} {nodes : List ι}
    (hchained : Chained links first nodes last)
    (hnext : ∀ node ∈ first :: nodes, changed.next node = links.next node)
    (hprev : ∀ node ∈ nodes ++ [last], changed.prev node = links.prev node) :
    Chained changed first nodes last := by
  induction nodes generalizing first with
  | nil =>
      obtain ⟨hfirst, hlast⟩ := hchained
      exact ⟨(hnext first (by simp)).trans hfirst, (hprev last (by simp)).trans hlast⟩
  | cons node rest ih =>
      obtain ⟨⟨hfirst, hnode⟩, hrest⟩ := hchained
      have hlinked : changed.next first = node ∧ changed.prev node = first :=
        ⟨(hnext first (by simp)).trans hfirst, (hprev node (by simp)).trans hnode⟩
      refine ⟨hlinked, ih hrest ?_ ?_⟩
      · intro later hlater
        exact hnext later (List.mem_cons_of_mem first hlater)
      · intro later hlater
        exact hprev later (List.mem_cons_of_mem node hlater)

/-- The predecessor of the end of a chain is its last address. -/
theorem Chained.prev_last {links : Links ι} {first last : ι} {nodes : List ι}
    (hchained : Chained links first nodes last) :
    links.prev last = (first :: nodes).getLast (List.cons_ne_nil first nodes) := by
  induction nodes generalizing first with
  | nil => exact hchained.2
  | cons node rest ih => exact ih hchained.2

/-- A chain whose last link is redirected leads to the new target. -/
theorem Chained.redirect [DecidableEq ι] {links : Links ι} {first last target : ι}
    {nodes : List ι} (hchained : Chained links first nodes last)
    (hdistinct : (first :: nodes).Nodup) (htarget : target ∉ nodes) :
    Chained ((links.setNext (links.prev last) target).setPrev target (links.prev last)) first
      nodes target := by
  induction nodes generalizing first with
  | nil =>
      have hprev : links.prev last = first := hchained.2
      simp [Chained, hprev]
  | cons node rest ih =>
      obtain ⟨⟨hfirst, hnode⟩, hrest⟩ := hchained
      obtain ⟨hnew, hlater⟩ := List.nodup_cons.mp hdistinct
      have hne : first ≠ links.prev last := by
        intro hsame
        apply hnew
        rw [hsame, hrest.prev_last]
        exact List.getLast_mem _
      have hother : node ≠ target := by
        intro hsame
        exact htarget (hsame ▸ List.mem_cons_self)
      refine ⟨?_, ih hrest hlater fun hmem => htarget (List.mem_cons_of_mem node hmem)⟩
      simp [Function.update_of_ne hne, Function.update_of_ne hother, hfirst, hnode]

/-- The ring closed by the head stands for the list: the addresses are distinct and linked in
this order. -/
structure Rings (links : Links ι) (head : ι) (nodes : List ι) : Prop where
  distinct : (head :: nodes).Nodup
  chained : Chained links head nodes head

/-- The successor of the head is the first address. -/
theorem Rings.next_head {links : Links ι} {head node : ι} {rest : List ι}
    (hrings : Rings links head (node :: rest)) : links.next head = node :=
  hrings.chained.1.1

/-- The predecessor of the head is in the ring. -/
theorem Rings.prev_head_mem {links : Links ι} {head : ι} {nodes : List ι}
    (hrings : Rings links head nodes) : links.prev head ∈ head :: nodes := by
  rw [hrings.chained.prev_last]
  exact List.getLast_mem _

/-- The links of two neighbours in a ring. -/
theorem Rings.neighbours {links : Links ι} {head first second : ι} {before after : List ι}
    (hrings : Rings links head (before ++ first :: second :: after)) :
    links.next first = second ∧ links.prev second = first :=
  (chained_append.mp hrings.chained).2.1

section Operations

variable [DecidableEq ι]

theorem rings_initHead (links : Links ι) (head : ι) :
    Rings (links.initHead head) head [] := by
  refine ⟨List.nodup_singleton head, ?_⟩
  simp [Chained, Links.initHead]

/-- Linking an address outside the ring with itself leaves the ring. -/
theorem Rings.initHead_outside {links : Links ι} {head node : ι} {nodes : List ι}
    (hrings : Rings links head nodes) (houtside : node ∉ head :: nodes) :
    Rings (links.initHead node) head nodes := by
  refine ⟨hrings.distinct, hrings.chained.congr ?_ ?_⟩
  · intro member hmember
    have hother : member ≠ node := fun hsame => houtside (hsame ▸ hmember)
    simp [Links.initHead, Function.update_of_ne hother]
  · intro member hmember
    have hother : member ≠ node := by
      intro hsame
      apply houtside
      rw [← hsame]
      simpa [or_comm] using hmember
    simp [Links.initHead, Function.update_of_ne hother]

/-- The head is its own successor exactly when the list is empty. -/
theorem Rings.isEmpty_iff {links : Links ι} {head : ι} {nodes : List ι}
    (hrings : Rings links head nodes) : links.isEmpty head = true ↔ nodes = [] := by
  rw [Links.isEmpty, decide_eq_true_iff]
  cases nodes with
  | nil => exact ⟨fun _ => rfl, fun _ => hrings.chained.1⟩
  | cons node rest =>
      rw [hrings.next_head]
      constructor
      · intro hsame
        have hdistinct := hrings.distinct
        simp [hsame] at hdistinct
      · intro habsurd
        exact absurd habsurd (List.cons_ne_nil node rest)

/-- Linking a new address in front of the head appends it to the list. -/
theorem Rings.addTail {links : Links ι} {head node : ι} {nodes : List ι}
    (hrings : Rings links head nodes) (houtside : node ∉ head :: nodes) :
    Rings (links.addTail node head) head (nodes ++ [node]) := by
  obtain ⟨hhead, hnodes⟩ := not_or.mp (List.mem_cons.not.mp houtside)
  have hdistinct : (head :: (nodes ++ [node])).Nodup := by
    rw [← List.cons_append, List.nodup_append]
    refine ⟨hrings.distinct, List.nodup_singleton node, ?_⟩
    intro member hmember other hother hsame
    rw [List.mem_singleton] at hother
    exact houtside (hother ▸ hsame ▸ hmember)
  refine ⟨hdistinct, chained_append.mpr ⟨?_, ?_⟩⟩
  · -- up to the new node: the old chain, with its last link redirected from the head
    have hredirected := hrings.chained.redirect hrings.distinct hnodes
    apply hredirected.congr
    · intro member hmember
      have hne : member ≠ node := fun hsame => houtside (hsame ▸ hmember)
      simp [Links.addTail, Links.insertBetween, Function.update_apply, hne]
    · intro member hmember
      have hneHead : member ≠ head := by
        intro hsame
        exact (List.nodup_cons.mp hdistinct).1 (hsame ▸ hmember)
      simp [Links.addTail, Links.insertBetween, Function.update_apply, hneHead]
  · -- from the new node to the head: the two links just written
    have hprevOther : node ≠ links.prev head := by
      intro hsame
      exact houtside (hsame ▸ hrings.prev_head_mem)
    simp [Chained, Links.addTail, Links.insertBetween, Function.update_of_ne hprevOther]

/-- Linking a new address behind another puts it there in the list. -/
theorem Rings.addAfter {links : Links ι} {head node queue : ι} {before after : List ι}
    (hrings : Rings links head (before ++ queue :: after))
    (houtside : node ∉ head :: (before ++ queue :: after)) :
    Rings (links.addAfter node queue) head (before ++ queue :: node :: after) := by
  obtain ⟨hbefore, hafter⟩ := chained_append.mp hrings.chained
  have hdistinct : (head :: (before ++ queue :: node :: after)).Nodup := by
    have hmiddle : (head :: (before ++ queue :: node :: after)).Perm
        (node :: head :: (before ++ queue :: after)) := by
      refine List.Perm.trans ?_ (List.Perm.swap head node _).symm
      rw [List.append_cons before queue after, List.append_cons before queue (node :: after)]
      exact List.perm_middle.cons head
    exact hmiddle.nodup_iff.mpr (List.nodup_cons.mpr ⟨houtside, hrings.distinct⟩)
  have hparts := hrings.distinct
  rw [← List.cons_append, List.nodup_append] at hparts
  obtain ⟨hfirst, hrest, hapart⟩ := hparts
  have hnode {member : ι} (hmember : member ∈ head :: (before ++ queue :: after)) :
      member ≠ node := fun hsame => houtside (hsame ▸ hmember)
  have hnodeQueue : queue ≠ node := hnode (by simp)
  have hlinkedQueue : (links.addAfter node queue).next queue = node := by
    simp [Links.addAfter, Links.insertBetween]
  have hnext {member : ι} (hmember : member ∈ head :: (before ++ queue :: after))
      (hother : member ≠ queue) : (links.addAfter node queue).next member = links.next member := by
    simp [Links.addAfter, Links.insertBetween, hnode hmember, hother]
  have hprev {member : ι} (hmember : member ∈ head :: (before ++ queue :: after))
      (hother : member ≠ links.next queue) :
      (links.addAfter node queue).prev member = links.prev member := by
    simp [Links.addAfter, Links.insertBetween, hnode hmember, hother]
  have htarget : links.next queue ∉ before ++ [queue] := by
    intro hmem
    cases after with
    | nil =>
        rw [hafter.1] at hmem
        rcases List.mem_append.mp hmem with hin | hqueue
        · exact (List.nodup_cons.mp hfirst).1 hin
        · exact hapart head List.mem_cons_self queue List.mem_cons_self
            (List.mem_singleton.mp hqueue)
    | cons later rest =>
        rw [hafter.1.1] at hmem
        rcases List.mem_append.mp hmem with hin | hqueue
        · exact hapart later (List.mem_cons_of_mem head hin) later (by simp) rfl
        · have hsame := List.mem_singleton.mp hqueue
          exact (List.nodup_cons.mp hrest).1 (hsame ▸ List.mem_cons_self)
  have hlinkedNode : (links.addAfter node queue).next node = links.next queue ∧
      (links.addAfter node queue).prev (links.next queue) = node ∧
      (links.addAfter node queue).prev node = queue := by
    have hother : links.next queue ≠ node := by
      refine hnode ?_
      cases after with
      | nil => simp [hafter.1]
      | cons later rest => simp [hafter.1.1]
    simp [Links.addAfter, Links.insertBetween, hnodeQueue.symm,
      hother.symm]
  refine ⟨hdistinct, chained_append.mpr ⟨hbefore.congr ?_ ?_, ⟨hlinkedQueue, hlinkedNode.2.2⟩, ?_⟩⟩
  · intro member hmember
    refine hnext (List.mem_append_left _ hmember) ?_
    exact fun hsame => hapart member hmember queue List.mem_cons_self hsame
  · intro member hmember
    refine hprev (List.mem_cons_of_mem head ?_) fun hsame => htarget (hsame ▸ hmember)
    rw [List.append_cons]
    exact List.mem_append_left _ hmember
  · cases after with
    | nil =>
        have hlast := hlinkedNode
        rw [hafter.1] at hlast
        exact ⟨hlast.1, hlast.2.1⟩
    | cons later rest =>
        have hlast := hlinkedNode
        rw [hafter.1.1] at hlast
        refine ⟨⟨hlast.1, hlast.2.1⟩, hafter.2.congr ?_ ?_⟩
        · intro member hmember
          refine hnext (by simp [List.mem_cons.mp hmember]) ?_
          exact fun hsame => (List.nodup_cons.mp hrest).1 (hsame ▸ hmember)
        · intro member hmember
          refine hprev ?_ ?_
          · rcases List.mem_append.mp hmember with hin | hhead
            · simp [hin]
            · simp [List.mem_singleton.mp hhead]
          · rw [hafter.1.1]
            intro hsame
            rcases List.mem_append.mp hmember with hin | hhead
            · have hbehind := (List.nodup_cons.mp hrest).2
              exact (List.nodup_cons.mp hbehind).1 (hsame ▸ hin)
            · exact hapart head List.mem_cons_self later (by simp)
                ((List.mem_singleton.mp hhead).symm.trans hsame)

/-- Unlinking an address erases it from the list. -/
theorem Rings.del {links : Links ι} {head node : ι} {before after : List ι}
    (hrings : Rings links head (before ++ node :: after)) :
    Rings (links.del node) head (before ++ after) := by
  obtain ⟨hbefore, hafter⟩ := chained_append.mp hrings.chained
  have hdistinct := hrings.distinct
  rw [← List.cons_append, List.nodup_append] at hdistinct
  obtain ⟨hfirst, hrest, hapart⟩ := hdistinct
  obtain ⟨_, hafterDistinct⟩ := List.nodup_cons.mp hrest
  have hkept : (head :: (before ++ after)).Nodup := by
    rw [← List.cons_append, List.nodup_append]
    exact ⟨hfirst, hafterDistinct, fun member hmember later hlater =>
      hapart member hmember later (List.mem_cons_of_mem node hlater)⟩
  refine ⟨hkept, ?_⟩
  cases after with
  | nil =>
      -- the last address goes: its predecessor is linked with the head
      have hnext : links.next node = head := hafter.1
      rw [List.append_nil, Links.del, hnext]
      exact hbefore.redirect hfirst (List.nodup_cons.mp hfirst).1
  | cons later rest =>
      have hnext : links.next node = later := hafter.1.1
      have hlater : later ∉ before := by
        intro hmem
        exact hapart later (List.mem_cons_of_mem head hmem) later (by simp) rfl
      rw [Links.del, hnext]
      refine chained_append.mpr ⟨hbefore.redirect hfirst hlater, hafter.2.congr ?_ ?_⟩
      · intro member hmember
        have hne : member ≠ links.prev node := by
          intro hsame
          have hpred : links.prev node ∈ head :: before := by
            rw [hbefore.prev_last]
            exact List.getLast_mem _
          exact hapart _ hpred member (List.mem_cons_of_mem node hmember) hsame.symm
        simp [Function.update_of_ne hne]
      · intro member hmember
        have hne : member ≠ later := by
          intro hsame
          rw [List.mem_append, List.mem_singleton] at hmember
          rcases hmember with hin | hhead
          · exact (List.nodup_cons.mp hafterDistinct).1 (hsame ▸ hin)
          · exact hapart head List.mem_cons_self later (by simp) (hhead ▸ hsame)
        simp [Function.update_of_ne hne]

/-- A new address goes behind the second of two neighbours. -/
theorem Rings.addAfter_second {links : Links ι} {head node first second : ι}
    {before after : List ι} (hrings : Rings links head (before ++ first :: second :: after))
    (houtside : node ∉ head :: (before ++ first :: second :: after)) :
    Rings (links.addAfter node second) head (before ++ first :: second :: node :: after) := by
  rw [List.append_cons] at hrings houtside ⊢
  exact hrings.addAfter houtside

/-- The second of two neighbours is unlinked. -/
theorem Rings.del_second {links : Links ι} {head first second : ι} {before after : List ι}
    (hrings : Rings links head (before ++ first :: second :: after)) :
    Rings (links.del second) head (before ++ first :: after) := by
  rw [List.append_cons] at hrings ⊢
  exact hrings.del

end Operations

end EnosDeviceSdk.Library
