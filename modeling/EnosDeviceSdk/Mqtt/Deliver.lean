/-
# Delivering a message while the table of handlers changes

`iotx_mc_deliver_message` walks `list_sub_handle` under `lock_generic` with a plain
cursor and lets go of the lock around every callback. Meanwhile the handler itself
and other threads run the locked sections of `MQTTSubscribe` and `MQTTUnsubscribe`.
Each section is one step here, and so is each stretch of the delivery between two
operations on the lock.

A registered handler is an allocation, numbered in the order of the insertions, so
that an entry that was freed is never mistaken for a later one. The delivery is then
a walk of `Library.Walk`, and its theorems carry over.

The build is the default one, without `WITH_MQTT_ZIP_TOPIC`: the received topic is
compared with the filters themselves.
-/

import EnosDeviceSdk.Library.Walk
import EnosDeviceSdk.Mqtt.Subscription
import EnosDeviceSdk.Mqtt.TopicRules

namespace EnosDeviceSdk.Mqtt

open EnosDeviceSdk.Infra EnosDeviceSdk.Library

/-- An entry of `list_sub_handle` in memory. -/
structure HandleEntry where
  addr : Nat
  handle : TopicHandle
  deriving DecidableEq

/-- The delivery test on an entry. -/
def HandleEntry.selectedBy (topicName : MqttString) (entry : HandleEntry) : Bool :=
  topicSelected entry.handle.topicFilter topicName

/-- A step of the delivery, or a locked section of some handler or thread. -/
inductive DeliverAction
  /-- Lock and walk from the head to the first matching entry, then unlock. -/
  | enter
  /-- Read `h_fp` and `pcontext` of the matched entry and call the handler. -/
  | handleEvent
  /-- Lock again, read the next link and walk on to the next matching entry. -/
  | goOn
  | subscribe (handle : TopicHandle)
  | unsubscribe (topicFilter : CString)

/-- One step. The insertion allocates the next address. -/
def deliverStep (topicName : MqttString) (state : Walk HandleEntry) :
    DeliverAction → Walk HandleEntry
  | .enter => walkStep (·.selectedBy topicName) state .begin
  | .handleEvent => walkStep (·.selectedBy topicName) state .visit
  | .goOn => walkStep (·.selectedBy topicName) state .resume
  | .subscribe handle =>
      if state.entries.any (handleIsIdentical ·.handle handle) then state
      else walkStep (·.selectedBy topicName) state (.insert ⟨state.seen.length, handle⟩)
  | .unsubscribe topicFilter =>
      walkStep (·.selectedBy topicName) state
        (.erase fun entry => !topicSelected entry.handle.topicFilter (unsubscribeTopic topicFilter))

/-- The entries of a table, allocated in list order. -/
def allocateTable (table : List TopicHandle) : List HandleEntry :=
  table.mapIdx fun addr handle => ⟨addr, handle⟩

/-- Before the delivery. -/
def deliveryStart (table : List TopicHandle) : Walk HandleEntry :=
  walkFrom (allocateTable table)

/-- The table that the entries form. -/
def handleTable (state : Walk HandleEntry) : List TopicHandle := state.entries.map (·.handle)

/-! ## The sections work on the table as the calls do -/

/-- Addresses are given out in order. -/
def AddressesGivenOut (state : Walk HandleEntry) : Prop :=
  ∀ entry ∈ state.seen, entry.addr < state.seen.length

theorem addressesGivenOut_start (table : List TopicHandle) :
    AddressesGivenOut (deliveryStart table) := by
  intro entry hentry
  obtain ⟨addr, hlt, rfl⟩ := List.mem_mapIdx.mp hentry
  simpa [deliveryStart, walkFrom, allocateTable] using hlt

/-- The step of the walk changes the entries only as its kind says. -/
theorem addressesGivenOut_step (topicName : MqttString) (state : Walk HandleEntry)
    (action : DeliverAction) (haddresses : AddressesGivenOut state) :
    AddressesGivenOut (deliverStep topicName state action) := by
  cases action with
  | subscribe handle =>
      rw [deliverStep]
      split
      · exact haddresses
      · rw [walkStep]
        split
        · exact haddresses
        · intro entry hentry
          simp only [List.mem_append, List.mem_singleton] at hentry
          simp only [List.length_append, List.length_singleton]
          rcases hentry with hold | rfl
          · exact Nat.lt_succ_of_lt (haddresses entry hold)
          · exact Nat.lt_succ_self _
  | unsubscribe topicFilter => exact haddresses
  | _ =>
      rw [deliverStep, walkStep]
      split
      · first | exact haddresses | (split <;> exact haddresses)
      · exact haddresses

/-- The insertion section does to the table what `MQTTSubscribe` does. -/
theorem handleTable_subscribe (topicName : MqttString) {state : Walk HandleEntry}
    (haddresses : AddressesGivenOut state) (handle : TopicHandle) :
    handleTable (deliverStep topicName state (.subscribe handle)) =
      addHandle (handleTable state) handle := by
  have hfresh : (⟨state.seen.length, handle⟩ : HandleEntry) ∉ state.seen :=
    fun hmem => Nat.lt_irrefl _ (haddresses _ hmem)
  have hany : (handleTable state).any (handleIsIdentical · handle) =
      state.entries.any (handleIsIdentical ·.handle handle) := by
    rw [handleTable, List.any_map]
    rfl
  rw [deliverStep, addHandle, hany]
  split
  · rfl
  · simp [walkStep, hfresh, handleTable]

/-- The removal section does to the table what `MQTTUnsubscribe` does. -/
theorem handleTable_unsubscribe (topicName : MqttString) (state : Walk HandleEntry)
    (topicFilter : CString) :
    handleTable (deliverStep topicName state (.unsubscribe topicFilter)) =
      removeHandles (handleTable state) (unsubscribeTopic topicFilter) := by
  simp [deliverStep, walkStep, handleTable, removeHandles, List.filter_map, Function.comp_def]

/-! ## The delivery is right unless its cursor is removed -/

/-- No removal takes the entry under the cursor while the lock is released. -/
def KeepsMatchedHandler (state : Walk HandleEntry) : DeliverAction → Prop
  | .unsubscribe topicFilter =>
      ∀ entry, state.phase.cursor = some entry →
        ¬ topicSelected entry.handle.topicFilter (unsubscribeTopic topicFilter)
  | _ => True

/-- Entries are read only while they are in the table, and when the delivery is over
every matching handler that was registered all along has been called exactly once. -/
def DeliveryRight (topicName : MqttString) (table : List TopicHandle)
    (state : Walk HandleEntry) : Prop :=
  WalkRight (·.selectedBy topicName) (allocateTable table) state

theorem deliverStep_asWalk (topicName : MqttString) :
    StepsAsWalk (·.selectedBy topicName) (deliverStep topicName) KeepsMatchedHandler := by
  intro state action
  cases action with
  | enter => exact Or.inr ⟨.begin, rfl, Iff.rfl⟩
  | handleEvent => exact Or.inr ⟨.visit, rfl, Iff.rfl⟩
  | goOn => exact Or.inr ⟨.resume, rfl, Iff.rfl⟩
  | subscribe handle =>
      rw [deliverStep]
      split
      · exact Or.inl ⟨rfl, trivial⟩
      · exact Or.inr ⟨_, rfl, Iff.rfl⟩
  | unsubscribe topicFilter =>
      refine Or.inr ⟨.erase fun entry =>
        !topicSelected entry.handle.topicFilter (unsubscribeTopic topicFilter), rfl, ?_⟩
      simp [KeepsMatchedHandler, KeepsCursor]

theorem nodup_allocateTable (table : List TopicHandle) : (allocateTable table).Nodup := by
  have haddrs : (allocateTable table).map (·.addr) = List.range table.length :=
    List.ext_getElem (by simp [allocateTable]) (by simp [allocateTable])
  exact List.Nodup.of_map (·.addr) (haddrs ▸ List.nodup_range)

/-- For every table, every topic name and every interleaving of the delivery with
subscriptions and unsubscriptions: the delivery is right throughout when no removal
takes the entry under its cursor, and a delivery that is over is right only then. -/
theorem delivery_right_iff (table : List TopicHandle) (topicName : MqttString)
    (actions : List DeliverAction) :
    (StepsMeet (deliverStep topicName) KeepsMatchedHandler (deliveryStart table) actions →
      Always (deliverStep topicName) (DeliveryRight topicName table) (deliveryStart table)
        actions) ∧
      ((runFrom (deliverStep topicName) (deliveryStart table) actions).phase.Over →
        DeliveryRight topicName table
          (runFrom (deliverStep topicName) (deliveryStart table) actions) →
        StepsMeet (deliverStep topicName) KeepsMatchedHandler (deliveryStart table) actions) :=
  ⟨(deliverStep_asWalk topicName).walkRight_always (nodup_allocateTable table),
    (deliverStep_asWalk topicName).stepsMeet_of_walkRight (nodup_allocateTable table)⟩

/-- A handler of `/a/+` that unsubscribes its own filter while `/a/b` is delivered to it
frees the entry from which the delivery then reads the next link. -/
theorem delivery_reads_removed_handler :
    ¬ Always (deliverStep (receivedTopic [47, 97, 47, 98]))
      (DeliveryRight (receivedTopic [47, 97, 47, 98])
        [⟨⟨[47, 97, 47, 43], by decide⟩, 7, 0⟩])
      (deliveryStart [⟨⟨[47, 97, 47, 43], by decide⟩, 7, 0⟩])
      [.enter, .handleEvent, .unsubscribe ⟨[47, 97, 47, 43], by decide⟩, .goOn] := by
  intro halways
  exact halways.finish.1 (by decide)

end EnosDeviceSdk.Mqtt
