/-
# Subscribing and waiting for the acknowledgement

`wrapper_mqtt_subscribe_sync` sends a SUBSCRIBE, links a node for its packet id into
`list_sub_sync_ack`, yields, and looks whether the node has been marked by the SUBACK. Any
number of threads may be inside the function at once, and any of them, or another thread
that yields, may receive the SUBACK of any other.

The node is linked after the SUBSCRIBE has been sent, so a SUBACK that another thread
receives in between marks nothing. And each look ends at the first node of the list,
whichever caller it belongs to. A caller is served if its node is linked before its SUBACK
is received, and if it does not run into its deadline while the marked node still waits in
the list.
-/

import EnosDeviceSdk.Library.Run
import EnosDeviceSdk.Infra.State
import Mathlib.Data.Fintype.Basic
import Mathlib.Logic.Function.Basic

namespace EnosDeviceSdk.Mqtt.SubscribeSync

open EnosDeviceSdk.Infra EnosDeviceSdk.Library

/-! ## The list of waiting nodes -/

/-- The values of `ack_type`. -/
inductive AckType
  | undef | success | timeout | nack
  deriving DecidableEq

/-- `mqtt_sub_sync_node_t` -/
structure Node where
  packetId : Int
  ackType : AckType
  deriving DecidableEq

/-- `_iotx_mqtt_event_handle_sub`, for the event of `iotx_mc_handle_recv_SUBACK`. -/
def eventHandleSub (list : List Node) (packetId : Int) (failed : Bool) : List Node :=
  list.map fun node =>
    if node.packetId = packetId then
      { node with ackType := if failed then .nack else .success }
    else node

/-! ## A caller -/

/-- Where a caller stands in `wrapper_mqtt_subscribe_sync`, with `ret` and `subed`. -/
inductive Pc
  | idle
  | subscribe (ret : Int) (subed : Bool)
  | insert (ret : Int) (subed : Bool)
  | yield (ret : Int) (subed : Bool)
  | scan (ret : Int) (subed : Bool)
  | check (ret : Int) (subed : Bool)
  | cleanup (ret : Int) (subed : Bool)
  | returned (result : Int)
  deriving DecidableEq

/-- A caller: its deadline may have passed, and a SUBACK without failure code may have been
received for its packet id before that. -/
structure Caller where
  pc : Pc
  expired : Bool
  acked : Option Int
  deriving DecidableEq

/-- What the environment decides about a step of a caller: the result of
`wrapper_mqtt_subscribe`, and whether the function is left with it because it was called
inside a callback or for a local subscription; whether an allocation fails. -/
inductive Choice
  | go
  | subscribed (rc : Int) (leave : Bool)
  | noMemory
  deriving DecidableEq

/-- A step of `wrapper_mqtt_subscribe_sync`. -/
def callerStep (list : List Node) (caller : Caller) (choice : Choice) : List Node × Caller :=
  match caller.pc with
  | .idle | .returned _ => (list, ⟨.subscribe (-1) false, false, none⟩)
  | .subscribe ret subed =>
      if ret < 0 then
        match choice with
        | .subscribed rc true => (list, { caller with pc := .returned rc })
        | .subscribed rc false => (list, { caller with pc := .insert rc subed })
        | _ => (list, caller)
      else (list, { caller with pc := .insert ret subed })
  | .insert ret subed =>
      if subed = false ∧ 0 ≤ ret ∧ choice ≠ .noMemory then
        (list ++ [⟨ret, .undef⟩], { caller with pc := .yield ret true })
      else (list, { caller with pc := .yield ret subed })
  | .yield ret subed => (list, { caller with pc := .scan ret subed })
  | .scan ret subed =>
      -- The loop over the list is left after its first node.
      match list with
      | [] => (list, { caller with pc := .check ret subed })
      | node :: rest =>
          if node.packetId = ret then
            match node.ackType with
            | .success => (rest, { caller with pc := .returned ret })
            | .nack | .timeout => (rest, { caller with pc := .check (-1) false })
            | .undef => (list, { caller with pc := .check ret subed })
          else (list, { caller with pc := .check ret subed })
  | .check ret subed =>
      if caller.expired then (list, { caller with pc := .cleanup ret subed })
      else (list, { caller with pc := .subscribe ret subed })
  | .cleanup ret _ =>
      (list.filter fun node => node.packetId ≠ ret,
        { caller with pc := .returned stateMqttSyncSubTimeout })

/-- `ret` and `subed` of a caller that is inside the function. -/
def Pc.locals : Pc → Option (Int × Bool)
  | .idle | .returned _ => none
  | .subscribe ret subed | .insert ret subed | .yield ret subed | .scan ret subed
  | .check ret subed | .cleanup ret subed => some (ret, subed)

/-- The caller is inside the function with a packet id. -/
def Pc.Has (pc : Pc) (packetId : Int) : Prop :=
  0 ≤ packetId ∧ pc.locals.map Prod.fst = some packetId

instance (pc : Pc) : DecidablePred pc.Has := fun _ => inferInstanceAs (Decidable (_ ∧ _))

/-- The caller has linked a node for the packet id. -/
def Pc.Linked (pc : Pc) (packetId : Int) : Prop := pc.locals = some (packetId, true)

instance (pc : Pc) : DecidablePred pc.Linked := fun _ => inferInstanceAs (Decidable (_ = _))

/-- The caller has a packet id, and its deadline has not passed. -/
def Caller.Awaits (caller : Caller) (packetId : Int) : Prop :=
  caller.pc.Has packetId ∧ caller.expired = false

instance (caller : Caller) : DecidablePred caller.Awaits := fun _ =>
  inferInstanceAs (Decidable (_ ∧ _))

/-- What the function has returned. -/
def Pc.result : Pc → Option Int
  | .returned result => some result
  | _ => none

/-- A caller that has returned after a SUBACK without failure code was received for its
packet id has returned this packet id. -/
def Caller.Answered (caller : Caller) : Prop :=
  ∀ packetId ∈ caller.acked, ∀ result ∈ caller.pc.result, result = packetId

instance : DecidablePred Caller.Answered := fun caller =>
  inferInstanceAs (Decidable (∀ packetId ∈ caller.acked, _))

/-! ## The callers of one client -/

/-- The list and its callers. -/
structure World (n : Nat) where
  list : List Node
  callers : Fin n → Caller

/-- One caller goes on, and the list changes with it. -/
def World.put {n : Nat} (w : World n) (index : Fin n) (next : List Node × Caller) : World n :=
  ⟨next.1, Function.update w.callers index next.2⟩

@[simp]
theorem World.callers_put_self {n : Nat} (w : World n) (index : Fin n)
    (next : List Node × Caller) : (w.put index next).callers index = next.2 :=
  Function.update_self ..

theorem World.callers_put_of_ne {n : Nat} (w : World n) {index other : Fin n}
    (hother : other ≠ index) (next : List Node × Caller) :
    (w.put index next).callers other = w.callers other :=
  Function.update_of_ne hother ..

/-- One step: of a caller, of the clock past a caller's deadline, or of a thread that
receives a SUBACK. -/
inductive Action (n : Nat)
  | caller (index : Fin n) (choice : Choice)
  | expire (index : Fin n)
  | suback (packetId : Int) (failed : Bool)

/-- The system after a step. -/
def step {n : Nat} (w : World n) : Action n → World n
  | .caller index choice =>
      w.put index (callerStep w.list (w.callers index) choice)
  | .expire index =>
      w.put index (w.list, { w.callers index with expired := true })
  | .suback packetId failed =>
      { list := eventHandleSub w.list packetId failed
        callers := fun index =>
          if failed = false ∧ (w.callers index).Awaits packetId then
            { w.callers index with acked := some packetId }
          else w.callers index }

/-- No caller has called the function yet. -/
def start (n : Nat) : World n := ⟨[], fun _ => ⟨.idle, false, none⟩⟩

/-- Every caller whose SUBACK came in time has returned with it, and the list is empty once
every caller has returned. -/
def Served {n : Nat} (w : World n) : Prop :=
  (∀ index, (w.callers index).Answered) ∧
    ((∀ index, (w.callers index).pc.locals = none) → w.list = [])

instance {n : Nat} : DecidablePred (@Served n) := fun _ => inferInstanceAs (Decidable (_ ∧ _))

/-- No node for the packet id is marked as acknowledged. -/
def Unmarked (list : List Node) (packetId : Int) : Prop :=
  ∀ node ∈ list, node.packetId = packetId → node.ackType ≠ .success

instance (list : List Node) : DecidablePred (Unmarked list) := fun _ =>
  inferInstanceAs (Decidable (∀ node ∈ list, _))

/-- A step of a caller at which nothing goes wrong: a packet id is not one that another
caller has, and the deadline is not found passed while an acknowledged node for the
packet id is in the list. -/
def CallerInTime {n : Nat} (w : World n) (index : Fin n) : Pc → Choice → Prop
  | .subscribe _ _, .subscribed rc _ =>
      ∀ other, other ≠ index → ¬ (w.callers other).pc.Has rc
  | .check ret _, _ => (w.callers index).expired = true → Unmarked w.list ret
  | _, _ => True

instance {n : Nat} (w : World n) (index : Fin n) :
    ∀ pc choice, Decidable (CallerInTime w index pc choice)
  | .subscribe _ _, .subscribed _ _ => inferInstanceAs (Decidable (∀ _other : Fin n, _))
  | .check _ _, _ => inferInstanceAs (Decidable (_ → Unmarked _ _))
  | .subscribe _ _, .go | .subscribe _ _, .noMemory | .idle, _ | .insert _ _, _ | .yield _ _, _
  | .scan _ _, _ | .cleanup _ _, _ | .returned _, _ => .isTrue trivial

/-- A step at which nothing goes wrong. A SUBACK finds the nodes of all callers that wait
for it linked, and a failure code comes for no node that is already acknowledged. -/
def InTime {n : Nat} (w : World n) : Action n → Prop
  | .suback packetId false =>
      ∀ index, (w.callers index).Awaits packetId → (w.callers index).pc.Linked packetId
  | .suback packetId true => Unmarked w.list packetId
  | .caller index choice => CallerInTime w index (w.callers index).pc choice
  | .expire _ => True

instance {n : Nat} (w : World n) : DecidablePred (InTime w)
  | .suback _ false => inferInstanceAs (Decidable (∀ _index : Fin n, _))
  | .suback _ true => inferInstanceAs (Decidable (Unmarked _ _))
  | .caller _ _ => inferInstanceAs (Decidable (CallerInTime _ _ _ _))
  | .expire _ => .isTrue trivial

/-! ## What the list and the callers agree on -/

/-- What a caller that is inside the function can rely on. -/
structure Caller.Relies (list : List Node) (caller : Caller) : Prop where
  linked : ∀ packetId, caller.pc.Linked packetId →
    0 ≤ packetId ∧ ∃ node ∈ list, node.packetId = packetId
  cleanup : ∀ ret subed, caller.pc = .cleanup ret subed →
    caller.expired = true ∧ caller.acked = none
  acked : ∀ packetId, caller.acked = some packetId →
    caller.pc = .returned packetId ∨
      caller.pc.Linked packetId ∧ ⟨packetId, .success⟩ ∈ list

/-- Every node belongs to one caller, and no two callers have the same packet id. -/
structure Consistent {n : Nat} (w : World n) : Prop where
  nodup : (w.list.map Node.packetId).Nodup
  owned : ∀ node ∈ w.list, ∃ index, (w.callers index).pc.Linked node.packetId
  distinct : ∀ first second packetId, (w.callers first).pc.Has packetId →
    (w.callers second).pc.Has packetId → first = second
  relies : ∀ index, (w.callers index).Relies w.list

theorem Pc.Linked.has {pc : Pc} {packetId : Int} (hlinked : pc.Linked packetId)
    (hpositive : 0 ≤ packetId) : pc.Has packetId := by
  refine ⟨hpositive, ?_⟩
  rw [Pc.Linked] at hlinked
  rw [hlinked]
  rfl

theorem consistent_start (n : Nat) : Consistent (start n) where
  nodup := List.nodup_nil
  owned := by simp [start]
  distinct := by
    intro first second packetId hfirst
    exact nomatch hfirst.2
  relies := by
    intro index
    constructor
    · intro packetId hlinked
      exact nomatch hlinked
    · intro ret subed hpc
      exact nomatch hpc
    · intro packetId hacked
      exact nomatch hacked

/-- What is consistent is served. -/
theorem Consistent.served {n : Nat} {w : World n} (hconsistent : Consistent w) : Served w := by
  constructor
  · intro index packetId hacked result hresult
    rcases (hconsistent.relies index).acked packetId hacked with hreturned | ⟨hlinked, _⟩
    · rw [hreturned] at hresult
      exact (Option.some.inj hresult).symm
    · cases hpc : (w.callers index).pc with
      | returned other =>
          rw [hpc] at hlinked
          exact nomatch hlinked
      | _ =>
          rw [hpc] at hresult
          exact nomatch hresult
  · intro hgone
    apply List.eq_nil_iff_forall_not_mem.mpr
    intro node hnode
    obtain ⟨index, hlinked⟩ := hconsistent.owned node hnode
    rw [Pc.Linked, hgone index] at hlinked
    exact nomatch hlinked

/-- One caller goes on and the list changes with it, without touching the nodes of the
others. -/
theorem Consistent.replace {n : Nat} {w : World n} (hconsistent : Consistent w)
    {index : Fin n} {list : List Node} {caller : Caller}
    (hnodup : (list.map Node.packetId).Nodup)
    (hkept : ∀ node, (∃ other, other ≠ index ∧ (w.callers other).pc.Has node.packetId) →
      node ∈ w.list → node ∈ list)
    (howned : ∀ node ∈ list, caller.pc.Linked node.packetId ∨
      ∃ other, other ≠ index ∧ (w.callers other).pc.Linked node.packetId)
    (hdistinct : ∀ packetId, caller.pc.Has packetId →
      ∀ other, other ≠ index → ¬ (w.callers other).pc.Has packetId)
    (hrelies : caller.Relies list) :
    Consistent (w.put index (list, caller)) where
  nodup := hnodup
  owned := by
    intro node hnode
    rcases howned node hnode with hself | ⟨other, hother, hlinked⟩
    · exact ⟨index, by rwa [World.callers_put_self]⟩
    · exact ⟨other, by rwa [World.callers_put_of_ne w hother]⟩
  distinct := by
    intro first second packetId hfirst hsecond
    by_cases hfirstSelf : first = index
    · rw [hfirstSelf, World.callers_put_self] at hfirst
      by_contra hne
      have hsecondOther : second ≠ index := fun hself => hne (hfirstSelf.trans hself.symm)
      rw [World.callers_put_of_ne w hsecondOther] at hsecond
      exact hdistinct packetId hfirst second hsecondOther hsecond
    · rw [World.callers_put_of_ne w hfirstSelf] at hfirst
      by_cases hsecondSelf : second = index
      · rw [hsecondSelf, World.callers_put_self] at hsecond
        exact absurd hfirst (hdistinct packetId hsecond first hfirstSelf)
      · rw [World.callers_put_of_ne w hsecondSelf] at hsecond
        exact hconsistent.distinct first second packetId hfirst hsecond
  relies := by
    intro other
    by_cases hself : other = index
    · rw [hself, World.callers_put_self]
      exact hrelies
    · rw [World.callers_put_of_ne w hself]
      have hbefore := hconsistent.relies other
      refine ⟨?_, hbefore.cleanup, ?_⟩
      · intro packetId hlinked
        obtain ⟨hpositive, node, hnode, hid⟩ := hbefore.linked packetId hlinked
        have hhas : (w.callers other).pc.Has node.packetId := by
          rw [hid]
          exact hlinked.has hpositive
        exact ⟨hpositive, node, hkept node ⟨other, hself, hhas⟩ hnode, hid⟩
      · intro packetId hacked
        rcases hbefore.acked packetId hacked with hreturned | ⟨hlinked, hmarked⟩
        · exact Or.inl hreturned
        · have hhas := hlinked.has (hbefore.linked packetId hlinked).1
          exact Or.inr ⟨hlinked, hkept _ ⟨other, hself, hhas⟩ hmarked⟩

/-- Every node belongs to the caller or to another one. -/
theorem Consistent.owned_or {n : Nat} {w : World n} (hconsistent : Consistent w)
    (index : Fin n) {node : Node} (hnode : node ∈ w.list) :
    (w.callers index).pc.Linked node.packetId ∨
      ∃ other, other ≠ index ∧ (w.callers other).pc.Linked node.packetId := by
  obtain ⟨owner, hlinked⟩ := hconsistent.owned node hnode
  by_cases hself : owner = index
  · exact Or.inl (hself ▸ hlinked)
  · exact Or.inr ⟨owner, hself, hlinked⟩

/-- A caller goes on without a change to the list, its packet id or its acknowledgement. -/
theorem Consistent.move {n : Nat} {w : World n} (hconsistent : Consistent w)
    {index : Fin n} {caller : Caller}
    (hlocals : caller.pc.locals = (w.callers index).pc.locals)
    (hacked : caller.acked = (w.callers index).acked)
    (hreturned : ∀ packetId, (w.callers index).pc = .returned packetId →
      caller.pc = .returned packetId)
    (hcleanup : ∀ ret subed, caller.pc = .cleanup ret subed →
      caller.expired = true ∧ caller.acked = none) :
    Consistent (w.put index (w.list, caller)) := by
  have hhas (packetId : Int) : caller.pc.Has packetId ↔ (w.callers index).pc.Has packetId := by
    rw [Pc.Has, Pc.Has, hlocals]
  have hlinked (packetId : Int) :
      caller.pc.Linked packetId ↔ (w.callers index).pc.Linked packetId := by
    rw [Pc.Linked, Pc.Linked, hlocals]
  have hbefore := hconsistent.relies index
  apply hconsistent.replace hconsistent.nodup
  · exact fun node _ hnode => hnode
  · intro node hnode
    rw [hlinked]
    exact hconsistent.owned_or index hnode
  · intro packetId hself other hother hhasOther
    exact hother (hconsistent.distinct _ _ packetId hhasOther ((hhas packetId).mp hself))
  · refine ⟨?_, hcleanup, ?_⟩
    · intro packetId hself
      exact hbefore.linked packetId ((hlinked packetId).mp hself)
    · intro packetId hack
      rw [hacked] at hack
      rcases hbefore.acked packetId hack with hdone | ⟨hself, hmarked⟩
      · exact Or.inl (hreturned packetId hdone)
      · exact Or.inr ⟨(hlinked packetId).mpr hself, hmarked⟩

/-- A caller without a node and an acknowledgement may take on a packet id that no other
caller has, or leave. -/
theorem Consistent.enter {n : Nat} {w : World n} (hconsistent : Consistent w)
    {index : Fin n} {caller : Caller}
    (hbefore : ∀ packetId, ¬ (w.callers index).pc.Linked packetId)
    (hlinked : ∀ packetId, ¬ caller.pc.Linked packetId) (hacked : caller.acked = none)
    (hcleanup : ∀ ret subed, caller.pc ≠ .cleanup ret subed)
    (hdistinct : ∀ packetId, caller.pc.Has packetId →
      ∀ other, other ≠ index → ¬ (w.callers other).pc.Has packetId) :
    Consistent (w.put index (w.list, caller)) := by
  apply hconsistent.replace hconsistent.nodup
  · exact fun node _ hnode => hnode
  · intro node hnode
    exact Or.inr ((hconsistent.owned_or index hnode).resolve_left (hbefore node.packetId))
  · exact hdistinct
  · refine ⟨fun packetId hself => absurd hself (hlinked packetId),
      fun ret subed hpc => absurd hpc (hcleanup ret subed), ?_⟩
    intro packetId hack
    rw [hacked] at hack
    exact nomatch hack

/-- A caller links a node for its packet id. -/
theorem Consistent.link {n : Nat} {w : World n} (hconsistent : Consistent w)
    {index : Fin n} {ret : Int} (hpc : (w.callers index).pc = .insert ret false)
    (hpositive : 0 ≤ ret) :
    Consistent (w.put index
      (w.list ++ [⟨ret, .undef⟩], { w.callers index with pc := .yield ret true })) := by
  have hhas : (w.callers index).pc.Has ret := by
    rw [hpc]
    exact ⟨hpositive, rfl⟩
  have hothers (other : Fin n) (hother : other ≠ index) : ¬ (w.callers other).pc.Has ret :=
    fun hhasOther => hother (hconsistent.distinct _ _ ret hhasOther hhas)
  have hunlinked (packetId : Int) : ¬ (w.callers index).pc.Linked packetId := by
    rw [hpc]
    simp [Pc.Linked, Pc.locals]
  apply hconsistent.replace
  · rw [List.map_append, List.map_singleton]
    apply List.nodup_append.mpr
    refine ⟨hconsistent.nodup, List.nodup_singleton ret, ?_⟩
    intro packetId hmem other hsingle
    obtain rfl := List.mem_singleton.mp hsingle
    obtain ⟨node, hnode, rfl⟩ := List.mem_map.mp hmem
    intro hsame
    rcases hconsistent.owned_or index hnode with hself | ⟨owner, howner, hlinked⟩
    · exact hunlinked _ hself
    · rw [hsame] at hlinked
      exact hothers owner howner (hlinked.has hpositive)
  · exact fun node _ hnode => List.mem_append_left _ hnode
  · intro node hnode
    rcases List.mem_append.mp hnode with hold | hnew
    · exact Or.inr ((hconsistent.owned_or index hold).resolve_left (hunlinked _))
    · obtain rfl := List.mem_singleton.mp hnew
      exact Or.inl rfl
  · intro packetId hself other hother
    obtain rfl : ret = packetId := Option.some.inj hself.2
    exact hothers other hother
  · refine ⟨?_, (fun _ _ himpossible => nomatch himpossible), ?_⟩
    · intro packetId hself
      obtain rfl : ret = packetId := congrArg Prod.fst (Option.some.inj hself)
      exact ⟨hpositive, _, List.mem_append_right _ (List.mem_singleton.mpr rfl), rfl⟩
    · intro packetId hack
      rcases (hconsistent.relies index).acked packetId hack with hdone | ⟨hself, _⟩
      · rw [hpc] at hdone
        exact nomatch hdone
      · exact absurd hself (hunlinked packetId)

/-- A caller takes its node out of the list and no longer has its packet id. -/
theorem Consistent.unlink {n : Nat} {w : World n} (hconsistent : Consistent w)
    {index : Fin n} {ret : Int} {subed : Bool} {list : List Node} {caller : Caller}
    (hlocals : (w.callers index).pc.locals = some (ret, subed))
    (hsublist : list.Sublist w.list)
    (hkept : ∀ node ∈ w.list, node.packetId ≠ ret → node ∈ list)
    (hgone : ∀ node ∈ list, node.packetId ≠ ret)
    (hhas : ∀ packetId, ¬ caller.pc.Has packetId)
    (hlinked : ∀ packetId, ¬ caller.pc.Linked packetId)
    (hcleanup : ∀ ret subed, caller.pc ≠ .cleanup ret subed)
    (hacked : ∀ packetId, caller.acked = some packetId → caller.pc = .returned packetId) :
    Consistent (w.put index (list, caller)) := by
  apply hconsistent.replace
  · exact hconsistent.nodup.sublist (hsublist.map Node.packetId)
  · rintro node ⟨other, hother, hhasOther⟩ hnode
    apply hkept node hnode
    intro hsame
    have hself : (w.callers index).pc.Has node.packetId := by
      refine ⟨hhasOther.1, ?_⟩
      rw [hlocals, hsame]
      rfl
    exact hother (hconsistent.distinct _ _ _ hhasOther hself)
  · intro node hnode
    refine Or.inr ((hconsistent.owned_or index (hsublist.subset hnode)).resolve_left ?_)
    intro hself
    rw [Pc.Linked, hlocals] at hself
    exact hgone node hnode (congrArg Prod.fst (Option.some.inj hself)).symm
  · exact fun packetId hself => absurd hself (hhas packetId)
  · exact ⟨fun packetId hself => absurd hself (hlinked packetId),
      fun ret subed hpc => absurd hpc (hcleanup ret subed),
      fun packetId hack => Or.inl (hacked packetId hack)⟩

/-- A caller whose node is at the head of the list and not acknowledged has no
acknowledgement. -/
theorem Consistent.acked_eq_none {n : Nat} {w : World n} (hconsistent : Consistent w)
    {index : Fin n} {ret : Int} {subed : Bool}
    (hlocals : (w.callers index).pc.locals = some (ret, subed))
    (hunmarked : Unmarked w.list ret) : (w.callers index).acked = none := by
  cases hack : (w.callers index).acked with
  | none => rfl
  | some packetId =>
      rcases (hconsistent.relies index).acked packetId hack with hdone | ⟨hself, hmarked⟩
      · rw [hdone] at hlocals
        exact nomatch hlocals
      · rw [Pc.Linked, hlocals] at hself
        obtain rfl : ret = packetId := congrArg Prod.fst (Option.some.inj hself)
        exact absurd rfl (hunmarked _ hmarked rfl)

/-- No node behind the head has the packet id of the head. -/
theorem Consistent.head_only {n : Nat} {w : World n} (hconsistent : Consistent w)
    {node other : Node} {rest : List Node} (hlist : w.list = node :: rest)
    (hother : other ∈ rest) : other.packetId ≠ node.packetId := by
  have hnodup := hconsistent.nodup
  rw [hlist, List.map_cons, List.nodup_cons] at hnodup
  intro hsame
  apply hnodup.1
  rw [← hsame]
  exact List.mem_map_of_mem hother

/-- A caller takes its node from the head of the list. -/
theorem Consistent.unlinkHead {n : Nat} {w : World n} (hconsistent : Consistent w)
    {index : Fin n} {ret : Int} {subed : Bool} {node : Node} {rest : List Node} {caller : Caller}
    (hlocals : (w.callers index).pc.locals = some (ret, subed)) (hlist : w.list = node :: rest)
    (hid : node.packetId = ret) (hhas : ∀ packetId, ¬ caller.pc.Has packetId)
    (hlinked : ∀ packetId, ¬ caller.pc.Linked packetId)
    (hcleanup : ∀ ret subed, caller.pc ≠ .cleanup ret subed)
    (hacked : ∀ packetId, caller.acked = some packetId → caller.pc = .returned packetId) :
    Consistent (w.put index (rest, caller)) := by
  refine hconsistent.unlink hlocals ?_ ?_ ?_ hhas hlinked hcleanup hacked
  · rw [hlist]
    exact List.sublist_cons_self node rest
  · intro other hother hne
    rw [hlist] at hother
    rcases List.mem_cons.mp hother with rfl | htail
    · exact absurd hid hne
    · exact htail
  · intro other hother
    rw [← hid]
    exact hconsistent.head_only hlist hother

theorem Consistent.unmarked_of_head {n : Nat} {w : World n} (hconsistent : Consistent w)
    {node : Node} {rest : List Node} (hlist : w.list = node :: rest)
    (htype : node.ackType ≠ .success) : Unmarked w.list node.packetId := by
  intro other hother hsame
  rw [hlist] at hother
  rcases List.mem_cons.mp hother with rfl | htail
  · exact htype
  · exact absurd hsame (hconsistent.head_only hlist htail)

/-- A caller whose node is at the head and does not hold a success starts anew. -/
theorem Consistent.resubscribe {n : Nat} {w : World n} (hconsistent : Consistent w)
    {index : Fin n} {ret : Int} {subed : Bool} {node : Node} {rest : List Node}
    (hlocals : (w.callers index).pc.locals = some (ret, subed)) (hlist : w.list = node :: rest)
    (hid : node.packetId = ret) (htype : node.ackType ≠ .success) :
    Consistent (w.put index (rest, { w.callers index with pc := .check (-1) false })) := by
  have hnone := hconsistent.acked_eq_none hlocals (hid ▸ hconsistent.unmarked_of_head hlist htype)
  apply hconsistent.unlinkHead hlocals hlist hid
  · rintro packetId ⟨hpositive, hself⟩
    obtain rfl : (-1 : Int) = packetId := Option.some.inj hself
    exact absurd hpositive (by decide)
  · intro packetId hself
    exact nomatch hself
  · exact fun _ _ himpossible => nomatch himpossible
  · intro packetId hack
    rw [hnone] at hack
    exact nomatch hack

/-- The scan of a caller. -/
theorem Consistent.scan {n : Nat} {w : World n} (hconsistent : Consistent w)
    {index : Fin n} {ret : Int} {subed : Bool} (hpc : (w.callers index).pc = .scan ret subed)
    (choice : Choice) :
    Consistent (w.put index (callerStep w.list (w.callers index) choice)) := by
  have hlocals : (w.callers index).pc.locals = some (ret, subed) := by rw [hpc]; rfl
  have hcheck : Consistent
      (w.put index (w.list, { w.callers index with pc := .check ret subed })) :=
    hconsistent.move hlocals.symm rfl (by rw [hpc]; exact fun _ himpossible => nomatch himpossible)
      fun _ _ himpossible => nomatch himpossible
  simp only [callerStep, hpc]
  cases hlist : w.list with
  | nil =>
      rw [hlist] at hcheck
      exact hcheck
  | cons node rest =>
      dsimp only
      rw [← hlist]
      split
      · next hid =>
          split
          · apply hconsistent.unlinkHead hlocals hlist hid
            · exact fun packetId himpossible => nomatch himpossible.2
            · exact fun packetId himpossible => nomatch himpossible
            · exact fun _ _ himpossible => nomatch himpossible
            · intro packetId hack
              rcases (hconsistent.relies index).acked packetId hack with hdone | ⟨hself, _⟩
              · rw [hpc] at hdone
                exact nomatch hdone
              · rw [Pc.Linked, hlocals] at hself
                have hsame : ret = packetId := congrArg Prod.fst (Option.some.inj hself)
                rw [hsame]
          · next htype => exact hconsistent.resubscribe hlocals hlist hid (by rw [htype]; decide)
          · next htype => exact hconsistent.resubscribe hlocals hlist hid (by rw [htype]; decide)
          · exact hcheck
      · exact hcheck

/-- The last look of a caller whose deadline has passed. -/
theorem Consistent.timeOut {n : Nat} {w : World n} (hconsistent : Consistent w)
    {index : Fin n} {ret : Int} {subed : Bool}
    (hpc : (w.callers index).pc = .cleanup ret subed) (choice : Choice) :
    Consistent (w.put index (callerStep w.list (w.callers index) choice)) := by
  have hlocals : (w.callers index).pc.locals = some (ret, subed) := by rw [hpc]; rfl
  have hnone := ((hconsistent.relies index).cleanup ret subed hpc).2
  simp only [callerStep, hpc]
  apply hconsistent.unlink hlocals
  · exact List.filter_sublist
  · intro node hnode hne
    exact List.mem_filter.mpr ⟨hnode, by simpa using hne⟩
  · intro node hnode
    simpa using (List.mem_filter.mp hnode).2
  · exact fun packetId himpossible => nomatch himpossible.2
  · exact fun packetId himpossible => nomatch himpossible
  · exact fun _ _ himpossible => nomatch himpossible
  · intro packetId hack
    rw [hnone] at hack
    exact nomatch hack

/-- A caller enters the function. -/
theorem Consistent.begin {n : Nat} {w : World n} (hconsistent : Consistent w)
    {index : Fin n} (hlocals : (w.callers index).pc.locals = none) :
    Consistent (w.put index (w.list, ⟨.subscribe (-1) false, false, none⟩)) := by
  apply hconsistent.enter
  · intro packetId hself
    rw [Pc.Linked, hlocals] at hself
    exact nomatch hself
  · exact fun packetId himpossible => nomatch himpossible
  · rfl
  · exact fun _ _ himpossible => nomatch himpossible
  · rintro packetId ⟨hpositive, hself⟩
    obtain rfl : (-1 : Int) = packetId := Option.some.inj hself
    exact absurd hpositive (by decide)

/-- A caller without a packet id calls `wrapper_mqtt_subscribe`. -/
theorem Consistent.subscribe {n : Nat} {w : World n} (hconsistent : Consistent w)
    {index : Fin n} {ret : Int} {subed : Bool} (hpc : (w.callers index).pc = .subscribe ret subed)
    (hnegative : ret < 0) (rc : Int) (leave : Bool)
    (hfree : ∀ other, other ≠ index → ¬ (w.callers other).pc.Has rc) :
    Consistent (w.put index
      (w.list,
        { w.callers index with pc := if leave then .returned rc else .insert rc subed })) := by
  have hbefore := hconsistent.relies index
  have hlocals : (w.callers index).pc.locals = some (ret, subed) := by rw [hpc]; rfl
  have hunlinked (packetId : Int) : ¬ (w.callers index).pc.Linked packetId := by
    intro hself
    have hpositive := (hbefore.linked packetId hself).1
    rw [Pc.Linked, hlocals] at hself
    have hsame : ret = packetId := congrArg Prod.fst (Option.some.inj hself)
    omega
  have hfalse : subed = false := by
    cases subed with
    | false => rfl
    | true => exact absurd hlocals (hunlinked ret)
  have hnone : (w.callers index).acked = none := by
    cases hack : (w.callers index).acked with
    | none => rfl
    | some packetId =>
        rcases hbefore.acked packetId hack with hdone | ⟨hself, _⟩
        · rw [hpc] at hdone
          exact nomatch hdone
        · exact absurd hself (hunlinked packetId)
  apply hconsistent.enter hunlinked
  · intro packetId hself
    cases leave with
    | true => exact nomatch hself
    | false =>
        rw [hfalse] at hself
        exact nomatch congrArg Prod.snd (Option.some.inj hself)
  · exact hnone
  · intro other otherSubed himpossible
    cases leave <;> exact nomatch himpossible
  · intro packetId hself
    cases leave with
    | true => exact nomatch hself.2
    | false =>
        obtain rfl : rc = packetId := Option.some.inj hself.2
        exact hfree

/-- Every step of a caller at which nothing goes wrong. -/
theorem Consistent.callerStep {n : Nat} {w : World n} (hconsistent : Consistent w)
    {index : Fin n} {choice : Choice}
    (hintime : CallerInTime w index (w.callers index).pc choice) :
    Consistent (w.put index (callerStep w.list (w.callers index) choice)) := by
  have hbefore := hconsistent.relies index
  have hquiet {pc : Pc} (hlocals : pc.locals = (w.callers index).pc.locals)
      (hinside : (w.callers index).pc.locals ≠ none)
      (hcleanup : ∀ ret subed, pc ≠ .cleanup ret subed) :
      Consistent (w.put index (w.list, { w.callers index with pc := pc })) := by
    refine hconsistent.move hlocals ?_ ?_ ?_
    · rfl
    · intro packetId hreturned
      rw [hreturned] at hinside
      exact absurd rfl hinside
    · exact fun ret subed hpc => absurd hpc (hcleanup ret subed)
  cases hpc : (w.callers index).pc with
  | idle =>
      simp only [SubscribeSync.callerStep, hpc]
      exact hconsistent.begin (by rw [hpc]; rfl)
  | returned result =>
      simp only [SubscribeSync.callerStep, hpc]
      exact hconsistent.begin (by rw [hpc]; rfl)
  | subscribe ret subed =>
      rw [hpc] at hquiet
      simp only [SubscribeSync.callerStep, hpc]
      split
      · next hnegative =>
          cases choice with
          | subscribed rc leave =>
              rw [hpc] at hintime
              have hnext := hconsistent.subscribe hpc hnegative rc leave hintime
              cases leave <;> exact hnext
          | go | noMemory =>
              apply hconsistent.move rfl rfl
              · exact fun _ hreturned => hreturned
              · exact hbefore.cleanup
      · exact hquiet rfl (fun himpossible => nomatch himpossible)
          fun _ _ himpossible => nomatch himpossible
  | insert ret subed =>
      rw [hpc] at hquiet
      simp only [SubscribeSync.callerStep, hpc]
      split
      · next hlink =>
          rw [hlink.1] at hpc
          exact hconsistent.link hpc hlink.2.1
      · exact hquiet rfl (fun himpossible => nomatch himpossible)
          fun _ _ himpossible => nomatch himpossible
  | yield ret subed =>
      rw [hpc] at hquiet
      simp only [SubscribeSync.callerStep, hpc]
      exact hquiet rfl (fun himpossible => nomatch himpossible)
        fun _ _ himpossible => nomatch himpossible
  | scan ret subed => exact hconsistent.scan hpc choice
  | check ret subed =>
      have hlocals : (w.callers index).pc.locals = some (ret, subed) := by rw [hpc]; rfl
      rw [hpc] at hquiet
      rw [hpc] at hintime
      simp only [SubscribeSync.callerStep, hpc]
      split
      · next hexpired =>
          refine hconsistent.move hlocals.symm ?_ ?_ ?_
          · rfl
          · rw [hpc]
            exact fun _ himpossible => nomatch himpossible
          · exact fun _ _ _ => ⟨hexpired, hconsistent.acked_eq_none hlocals (hintime hexpired)⟩
      · exact hquiet rfl (fun himpossible => nomatch himpossible)
          fun _ _ himpossible => nomatch himpossible
  | cleanup ret subed => exact hconsistent.timeOut hpc choice

/-! ## SUBACKs -/

@[simp]
theorem map_packetId_eventHandleSub (list : List Node) (packetId : Int) (failed : Bool) :
    (eventHandleSub list packetId failed).map Node.packetId = list.map Node.packetId := by
  rw [eventHandleSub, List.map_map]
  apply List.map_congr_left
  intro node _
  simp only [Function.comp_apply]
  split <;> rfl

/-- A node is marked with the event of the SUBACK for its packet id. -/
theorem mem_eventHandleSub_self {list : List Node} {node : Node} (hnode : node ∈ list)
    (failed : Bool) :
    ⟨node.packetId, if failed then .nack else .success⟩ ∈
      eventHandleSub list node.packetId failed := by
  apply List.mem_map.mpr
  exact ⟨node, hnode, by rw [if_pos rfl]⟩

/-- A node for another packet id stays as it is. -/
theorem mem_eventHandleSub_of_ne {list : List Node} {node : Node} (hnode : node ∈ list)
    {packetId : Int} (hother : node.packetId ≠ packetId) (failed : Bool) :
    node ∈ eventHandleSub list packetId failed := by
  apply List.mem_map.mpr
  exact ⟨node, hnode, by rw [if_neg hother]⟩

/-- A packet id has a node before a SUBACK exactly when it has one after it. -/
theorem exists_node_iff (list : List Node) (packetId : Int) (failed : Bool) (other : Int) :
    (∃ node ∈ eventHandleSub list packetId failed, node.packetId = other) ↔
      ∃ node ∈ list, node.packetId = other := by
  rw [← List.mem_map, ← List.mem_map, map_packetId_eventHandleSub]

/-- An acknowledged node stays acknowledged where no failure code comes for it. -/
theorem mem_eventHandleSub_success {list : List Node} {other : Int}
    (hmarked : ⟨other, .success⟩ ∈ list) {packetId : Int} {failed : Bool}
    (hkeeps : failed = true → Unmarked list packetId) :
    ⟨other, .success⟩ ∈ eventHandleSub list packetId failed := by
  by_cases hsame : other = packetId
  · cases failed with
    | true => exact absurd rfl (hkeeps rfl _ hmarked hsame)
    | false =>
        have hnode := mem_eventHandleSub_self hmarked false
        rwa [hsame] at hnode ⊢
  · exact mem_eventHandleSub_of_ne hmarked hsame failed

/-- A SUBACK moves no caller. -/
theorem suback_pc {n : Nat} (w : World n) (packetId : Int) (failed : Bool) (index : Fin n) :
    ((step w (.suback packetId failed)).callers index).pc = (w.callers index).pc := by
  simp only [step]
  split <;> rfl

/-- A SUBACK at which nothing goes wrong. -/
theorem Consistent.suback {n : Nat} {w : World n} (hconsistent : Consistent w)
    {packetId : Int} {failed : Bool} (hintime : InTime w (.suback packetId failed)) :
    Consistent (step w (.suback packetId failed)) where
  nodup := by
    rw [step, map_packetId_eventHandleSub]
    exact hconsistent.nodup
  owned := by
    intro node hnode
    obtain ⟨before, hbefore, hid⟩ :=
      (exists_node_iff w.list packetId failed node.packetId).mp ⟨node, hnode, rfl⟩
    obtain ⟨index, hlinked⟩ := hconsistent.owned before hbefore
    rw [hid] at hlinked
    exact ⟨index, by rwa [suback_pc]⟩
  distinct := by
    intro first second other hfirst hsecond
    rw [suback_pc] at hfirst hsecond
    exact hconsistent.distinct first second other hfirst hsecond
  relies := by
    intro index
    have hbefore := hconsistent.relies index
    constructor
    · intro other hlinked
      rw [suback_pc] at hlinked
      obtain ⟨hpositive, hnode⟩ := hbefore.linked other hlinked
      exact ⟨hpositive, (exists_node_iff w.list packetId failed other).mpr hnode⟩
    · intro ret subed hpc
      rw [suback_pc] at hpc
      have hdone := hbefore.cleanup ret subed hpc
      have hpassed : ¬ (failed = false ∧ (w.callers index).Awaits packetId) := by
        rintro ⟨_, _, hearly⟩
        rw [hdone.1] at hearly
        exact nomatch hearly
      simp only [step, if_neg hpassed]
      exact hdone
    · intro other hacked
      rw [suback_pc]
      by_cases hreceived : failed = false ∧ (w.callers index).Awaits packetId
      · simp only [step, if_pos hreceived, Option.some.injEq] at hacked
        obtain ⟨hok, hawaits⟩ := hreceived
        rw [hok] at hintime
        have hlinked := hintime index hawaits
        obtain ⟨node, hnode, hid⟩ := (hbefore.linked packetId hlinked).2
        have hmarked := mem_eventHandleSub_self hnode failed
        rw [hid, hok] at hmarked
        rw [← hacked, hok]
        exact Or.inr ⟨hlinked, hmarked⟩
      · simp only [step, if_neg hreceived] at hacked
        rcases hbefore.acked other hacked with hdone | ⟨hlinked, hmarked⟩
        · exact Or.inl hdone
        · refine Or.inr ⟨hlinked, mem_eventHandleSub_success hmarked ?_⟩
          intro hfailed
          rw [hfailed] at hintime
          exact hintime

/-! ## Runs -/

/-- A step at which nothing goes wrong keeps list and callers consistent. -/
theorem consistent_step {n : Nat} (w : World n) (action : Action n)
    (hconsistent : Consistent w) (hintime : InTime w action) : Consistent (step w action) := by
  cases action with
  | caller index choice => exact hconsistent.callerStep hintime
  | expire index =>
      have hbefore := hconsistent.relies index
      refine hconsistent.move ?_ ?_ ?_ ?_
      · rfl
      · rfl
      · exact fun _ hreturned => hreturned
      · exact fun ret subed hpc => ⟨rfl, (hbefore.cleanup ret subed hpc).2⟩
  | suback packetId failed => exact hconsistent.suback hintime

end EnosDeviceSdk.Mqtt.SubscribeSync
