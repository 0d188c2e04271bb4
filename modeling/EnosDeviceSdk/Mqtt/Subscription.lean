/-
# Subscribing, unsubscribing and the table of handlers

`MQTTSubscribe` and `MQTTUnsubscribe` with the table `list_sub_handle`. The table
is meant to be a registry: a set of handlers, each registered under a filter, from
which unsubscribing a filter removes the handlers registered under it and no other.

`MQTTUnsubscribe` looks for its handlers with the test made for incoming topic
names, and hands it the filter with its terminating NUL counted as a character.
No stored filter equals such a text, so the removal rests on the matcher alone:
a handler goes exactly when its filter, by a wildcard at its end, covers the given
filter with a character more. The section on runs compares this with the registry.

The build is the default one, without `WITH_MQTT_ZIP_TOPIC`: the table keeps the filters
as they are, and not their hashes.
-/

import EnosDeviceSdk.Library.Run
import EnosDeviceSdk.Mqtt.Client
import EnosDeviceSdk.Mqtt.Topic
import Mathlib.Data.Set.Insert

namespace EnosDeviceSdk.Mqtt

open EnosDeviceSdk.Infra EnosDeviceSdk.Library

/-- `IOTX_MQTT_QOS3_SUB_LOCAL`: register the handler without telling the broker. -/
def iotxMqttQos3SubLocal : UInt8 := 3

/-- `iotx_mc_check_handle_is_identical` returns 0. -/
def handleIsIdentical (messageHandlers1 messageHandler2 : TopicHandle) : Bool :=
  messageHandlers1.topicFilter = messageHandler2.topicFilter &&
    messageHandlers1.hFp = messageHandler2.hFp &&
    messageHandlers1.pcontext = messageHandler2.pcontext

/-- The insertion into `list_sub_handle` under `lock_generic`: a duplicate is dropped. -/
def addHandle (table : List TopicHandle) (handler : TopicHandle) : List TopicHandle :=
  if table.any (handleIsIdentical · handler) then table else table ++ [handler]

/-- The removal loop over `list_sub_handle` under `lock_generic`. -/
def removeHandles (table : List TopicHandle) (curTopic : MqttString) : List TopicHandle :=
  table.filter fun node => !topicSelected node.topicFilter curTopic

/-- What the environment decides about a subscription: the allocations of the
handler and of its copy of the filter, and the sending of the packet. -/
structure SubscribeEnv where
  mallocHandler : Bool
  mallocFilter : Bool
  send : SendEnv
  deriving DecidableEq

/-- `MQTTSubscribe` -/
def mqttSubscribe (c : Client) (topicFilter : CString) (qos : UInt8) (msgId : Nat)
    (messageHandler pcontext : Nat) (env : SubscribeEnv) : Int × Client :=
  if !env.mallocHandler || !env.mallocFilter then (stateSysDependMalloc, c)
  else
    let handler : TopicHandle := ⟨topicFilter, messageHandler, pcontext⟩
    if qos = iotxMqttQos3SubLocal then
      (stateSuccess, { c with listSubHandle := addHandle c.listSubHandle handler })
    else
      let topic := MqttString.ofCString topicFilter
      let (res, c) := c.sendSerialized topicFilter.strlen
        (mqttSerializeSubscribe · 0 msgId [(topic, qos)]) stateMqttSerializeSubError
        c.requestTimeoutMs env.send
      if res ≠ stateSuccess then (res, c)
      else (stateSuccess, { c with listSubHandle := addHandle c.listSubHandle handler })

/-- The `cur_topic` of `MQTTUnsubscribe`: its length is `strlen + 1`. -/
def unsubscribeTopic (topicFilter : CString) : MqttString :=
  ⟨none, ⟨topicFilter.strlen + 1, some (topicFilter.bytes ++ [0])⟩⟩

/-- `MQTTUnsubscribe` -/
def mqttUnsubscribe (c : Client) (topicFilter : CString) (msgId : Nat)
    (env : SubscribeEnv) : Int × Client :=
  if !env.mallocHandler || !env.mallocFilter then (stateSysDependMalloc, c)
  else
    let topic := MqttString.ofCString topicFilter
    let (res, c) := c.sendSerialized topicFilter.strlen
      (mqttSerializeUnsubscribe · 0 msgId [topic]) stateMqttSerializeUnsubError
      c.requestTimeoutMs env.send
    if res ≠ stateSuccess then (res, c)
    else
      (stateSuccess,
        { c with listSubHandle := removeHandles c.listSubHandle (unsubscribeTopic topicFilter) })

/-! ## Which handlers an unsubscription removes -/

/-- The filter level is a prefix of the name level followed by one wildcard. -/
def gluedOpen : List UInt8 → List UInt8 → Bool
  | [], _ => false
  | curf :: filter, name =>
      if curf = plus || curf = hash then filter.isEmpty
      else
        match name with
        | [] => false
        | curn :: name => curf = curn && gluedOpen filter name

/-- The filter covers the given levels when the last of them has a character more. -/
def coversOpen : List (List UInt8) → List (List UInt8) → Bool
  | [], _ => false
  | _ :: _, [] => false
  | filter :: filters, name :: names =>
      if names = [] then filters.isEmpty && gluedOpen filter name
      else
        levelCovers filter name && coversOpen filters names ||
          gluedCovers hash filter name && filters.isEmpty

theorem unsubscribeTopic_bytes (topicFilter : CString) :
    (unsubscribeTopic topicFilter).lenstring.bytes = topicFilter.bytes ++ [0] := by
  rw [unsubscribeTopic, MqttLenString.bytes, Option.getD_some]
  exact List.take_of_length_le (by simp [CString.strlen])

/-- No stored filter equals a text that ends in NUL. -/
theorem mqttPacketEquals_unsubscribeTopic (topicFilter stored : CString) :
    mqttPacketEquals (unsubscribeTopic topicFilter) stored = false := by
  have hne : topicFilter.bytes ++ [0] ≠ stored.bytes := by
    intro hsame
    exact stored.noNul (hsame ▸ by simp)
  have hbytes := unsubscribeTopic_bytes topicFilter
  simp only [mqttPacketEquals, unsubscribeTopic] at hbytes ⊢
  rw [hbytes]
  simp [hne]

/-- A wildcard in a level without NUL covers a text and its NUL exactly when what
stands before it is a prefix of the text. -/
theorem gluedCovers_concat_nul {filter : List UInt8} (hfilter : (0 : UInt8) ∉ filter)
    (name : List UInt8) :
    (gluedCovers plus filter (name ++ [0]) || gluedCovers hash filter (name ++ [0])) =
      gluedOpen filter name := by
  induction filter generalizing name with
  | nil => rfl
  | cons curf filter ih =>
      simp only [List.mem_cons, not_or] at hfilter
      by_cases hwildcard : curf = plus ∨ curf = hash
      · rw [gluedCovers_cons_wildcard hwildcard, gluedCovers_cons_wildcard hwildcard]
        rcases hwildcard with rfl | rfl <;>
          simp [gluedOpen, plus_ne_hash, Ne.symm plus_ne_hash]
      · rw [not_or] at hwildcard
        cases name with
        | nil =>
            rw [List.nil_append, gluedCovers_cons_literal hwildcard.1 hwildcard.2,
              gluedCovers_cons_literal hwildcard.1 hwildcard.2]
            simp [gluedOpen, hwildcard, Ne.symm hfilter.1]
        | cons curn name =>
            rw [List.cons_append, gluedCovers_cons_literal hwildcard.1 hwildcard.2,
              gluedCovers_cons_literal hwildcard.1 hwildcard.2, ← Bool.and_or_distrib_left,
              ih hfilter.2]
            simp [gluedOpen, hwildcard]

/-- The level relation on a text with a NUL at its end is the open one. -/
theorem levelsCover_concat_nul {filters : List (List UInt8)}
    (hfilters : ∀ level ∈ filters, (0 : UInt8) ∉ level) (name : List UInt8) :
    levelsCover filters (topicLevels (name ++ [0])) = coversOpen filters (topicLevels name) := by
  induction hlength : name.length using Nat.strongRecOn generalizing filters name with
  | ind size ih =>
      obtain ⟨first, rest, rfl, hfirst, hrest⟩ := topicLevels_cases name
      cases filters with
      | nil =>
          cases hlevels : topicLevels (first ++ rest ++ [0]) with
          | nil => exact absurd hlevels (topicLevels_ne_nil _)
          | cons level levels => rfl
      | cons filter filters =>
          have hfilter : (0 : UInt8) ∉ filter := hfilters filter (by simp)
          rcases hrest with ⟨rfl, hlevels⟩ | ⟨later, rfl, hlevels⟩
          · have hnul : slash ∉ first ++ [0] := by
              have hslash : slash ≠ 0 := by decide
              simp [hfirst, hslash]
            have hsplit : topicLevels (first ++ [] ++ [0]) = [first ++ [0]] := by
              rw [List.append_nil]
              exact List.splitOn_eq_singleton hnul
            have hne : filter ≠ first ++ [0] := by
              rintro rfl
              simp at hfilter
            rw [hsplit, hlevels, levelsCover, levelsCover_nil_right, coversOpen, if_pos rfl,
              ← gluedCovers_concat_nul hfilter, levelCovers]
            simp [hne, Bool.and_or_distrib_left, Bool.and_comm]
          · have hsplit : topicLevels (first ++ slash :: later ++ [0]) =
                first :: topicLevels (later ++ [0]) := by
              rw [List.append_assoc, List.cons_append]
              exact List.splitOn_append_cons_self_of_not_mem hfirst _
            have hshorter : later.length < size := by
              rw [← hlength]
              simp only [List.length_append, List.length_cons]
              omega
            rw [hsplit, hlevels, levelsCover, coversOpen, if_neg (topicLevels_ne_nil later),
              ih later.length hshorter (fun level hlevel => hfilters level (by simp [hlevel]))
                later rfl]

/-- The removal test on a stored filter. -/
theorem topicSelected_unsubscribeTopic (topicFilter stored : CString) :
    topicSelected stored (unsubscribeTopic topicFilter) =
      coversOpen (topicLevels stored.bytes) (topicLevels topicFilter.bytes) := by
  rw [topicSelected, mqttPacketEquals_unsubscribeTopic, Bool.false_or, iotxMcIsTopicMatched,
    unsubscribeTopic_bytes, matched_eq_levelsCover, levelsCover_concat_nul]
  intro level hlevel hnul
  exact stored.noNul ((infix_of_mem_splitOn hlevel).subset hnul)

/-- Two filters of a list agree exactly when their tests do on its members. -/
theorem filter_eq_filter_iff {α : Type} {p q : α → Bool} {list : List α} :
    list.filter p = list.filter q ↔ ∀ member ∈ list, p member = q member := by
  constructor
  · intro hsame member hmember
    have hmem : member ∈ list.filter p ↔ member ∈ list.filter q := by rw [hsame]
    rw [List.mem_filter, List.mem_filter, and_iff_right hmember, and_iff_right hmember] at hmem
    exact Bool.eq_iff_iff.mpr hmem
  · exact fun hagree => List.filter_congr hagree

/-- The removal loop removes exactly the handlers of the given filter when, among
the stored filters, the given one and no other covers it with a character more. -/
theorem removeHandles_exact_iff (table : List TopicHandle) (topicFilter : CString) :
    removeHandles table (unsubscribeTopic topicFilter) =
        table.filter (fun node => node.topicFilter ≠ topicFilter) ↔
      ∀ node ∈ table,
        (coversOpen (topicLevels node.topicFilter.bytes) (topicLevels topicFilter.bytes) ↔
          node.topicFilter = topicFilter) := by
  rw [removeHandles, filter_eq_filter_iff]
  refine forall₂_congr fun node _ => ?_
  rw [topicSelected_unsubscribeTopic]
  by_cases hsame : node.topicFilter = topicFilter <;> simp [hsame]

/-! ## Runs of subscriptions and unsubscriptions -/

/-- One call that works on the table. -/
inductive TableCall
  | subscribe (topicFilter : CString) (qos : UInt8) (msgId messageHandler pcontext : Nat)
      (env : SubscribeEnv)
  | unsubscribe (topicFilter : CString) (msgId : Nat) (env : SubscribeEnv)

/-- Result and client after a call. -/
def performTableCall (c : Client) : TableCall → Int × Client
  | .subscribe topicFilter qos msgId messageHandler pcontext env =>
      mqttSubscribe c topicFilter qos msgId messageHandler pcontext env
  | .unsubscribe topicFilter msgId env => mqttUnsubscribe c topicFilter msgId env

/-- The client after a call. -/
def tableStep (c : Client) (call : TableCall) : Client := (performTableCall c call).2

/-- A failed subscription leaves the table alone. -/
theorem mqttSubscribe_listSubHandle (c : Client) (topicFilter : CString) (qos : UInt8)
    (msgId messageHandler pcontext : Nat) (env : SubscribeEnv) :
    (mqttSubscribe c topicFilter qos msgId messageHandler pcontext env).2.listSubHandle =
      if (mqttSubscribe c topicFilter qos msgId messageHandler pcontext env).1 = stateSuccess then
        addHandle c.listSubHandle ⟨topicFilter, messageHandler, pcontext⟩
      else c.listSubHandle := by
  rw [mqttSubscribe]
  split
  · rfl
  · split
    · rfl
    · obtain ⟨bytes, hframe⟩ := c.sendSerialized_frame topicFilter.strlen
        (mqttSerializeSubscribe · 0 msgId [(MqttString.ofCString topicFilter, qos)])
        stateMqttSerializeSubError c.requestTimeoutMs env.send
      simp only [hframe]
      split
      · rfl
      · rfl

/-- A failed unsubscription leaves the table alone. -/
theorem mqttUnsubscribe_listSubHandle (c : Client) (topicFilter : CString) (msgId : Nat)
    (env : SubscribeEnv) :
    (mqttUnsubscribe c topicFilter msgId env).2.listSubHandle =
      if (mqttUnsubscribe c topicFilter msgId env).1 = stateSuccess then
        removeHandles c.listSubHandle (unsubscribeTopic topicFilter)
      else c.listSubHandle := by
  rw [mqttUnsubscribe]
  split
  · rfl
  · obtain ⟨bytes, hframe⟩ := c.sendSerialized_frame topicFilter.strlen
      (mqttSerializeUnsubscribe · 0 msgId [MqttString.ofCString topicFilter])
      stateMqttSerializeUnsubError c.requestTimeoutMs env.send
    simp only [hframe]
    split
    · rfl
    · rfl

/-- After any run of subscriptions and unsubscriptions, a successful unsubscription
removes the handlers of its filter and no other exactly when, among the stored
filters, this one and no other covers it with a character more. -/
theorem unsubscribe_exact_iff (start : Client) (calls : List TableCall)
    (topicFilter : CString) (msgId : Nat) (env : SubscribeEnv)
    (hsuccess : (mqttUnsubscribe (runFrom tableStep start calls) topicFilter msgId env).1 =
      stateSuccess) :
    (mqttUnsubscribe (runFrom tableStep start calls) topicFilter msgId env).2.listSubHandle =
        (runFrom tableStep start calls).listSubHandle.filter
          (fun node => node.topicFilter ≠ topicFilter) ↔
      ∀ node ∈ (runFrom tableStep start calls).listSubHandle,
        (coversOpen (topicLevels node.topicFilter.bytes) (topicLevels topicFilter.bytes) ↔
          node.topicFilter = topicFilter) := by
  rw [mqttUnsubscribe_listSubHandle, if_pos hsuccess]
  exact removeHandles_exact_iff _ topicFilter

/-- Parameters without credentials, with buffers of 1024 bytes. -/
def plainParams : MqttParam :=
  ⟨none, none, none, true, 2000, 60000, 1024, 1024, by decide, by decide⟩

/-- A client as it is set up from plain parameters. -/
def plainClient : Client := iotxMcInit plainParams

/-- An environment in which every allocation and the whole packet succeed. -/
def plainSubscribeEnv : SubscribeEnv := ⟨true, true, true, 0, [⟨0, .accept 1024⟩]⟩

/-- The wildcard filter `/a/+` is removed by its own unsubscription. -/
theorem unsubscribe_exact_wildcard :
    (mqttUnsubscribe (runFrom tableStep plainClient
        [.subscribe ⟨[47, 97, 47, 43], by decide⟩ 1 1 7 0 plainSubscribeEnv])
        ⟨[47, 97, 47, 43], by decide⟩ 2 plainSubscribeEnv).2.listSubHandle =
      (runFrom tableStep plainClient
        [.subscribe ⟨[47, 97, 47, 43], by decide⟩ 1 1 7 0 plainSubscribeEnv]).listSubHandle.filter
          (fun node => node.topicFilter ≠ ⟨[47, 97, 47, 43], by decide⟩) :=
  (unsubscribe_exact_iff plainClient
    [.subscribe ⟨[47, 97, 47, 43], by decide⟩ 1 1 7 0 plainSubscribeEnv]
    ⟨[47, 97, 47, 43], by decide⟩ 2 plainSubscribeEnv (by decide)).mpr (by decide)

/-- The literal filter `/a` stays registered after its own successful unsubscription. -/
theorem unsubscribe_keeps_literal :
    AcceptedFilter ⟨[47, 97], by decide⟩ ∧
      (mqttUnsubscribe (runFrom tableStep plainClient
        [.subscribe ⟨[47, 97], by decide⟩ 1 1 7 0 plainSubscribeEnv])
        ⟨[47, 97], by decide⟩ 2 plainSubscribeEnv).1 = stateSuccess ∧
      ⟨⟨[47, 97], by decide⟩, 7, 0⟩ ∈
        (mqttUnsubscribe (runFrom tableStep plainClient
          [.subscribe ⟨[47, 97], by decide⟩ 1 1 7 0 plainSubscribeEnv])
          ⟨[47, 97], by decide⟩ 2 plainSubscribeEnv).2.listSubHandle := by
  decide

/-! ## The registry the table stands for -/

/-- The registry that a table stands for. -/
def registry (c : Client) : Set TopicHandle := {handle | handle ∈ c.listSubHandle}

/-- What a call means for the registry, given whether it succeeds. -/
def registryStep (handles : Set TopicHandle) (succeeds : Prop) : TableCall → Set TopicHandle
  | .subscribe topicFilter _ _ messageHandler pcontext _ =>
      {handle | handle ∈ handles ∨ succeeds ∧ handle = ⟨topicFilter, messageHandler, pcontext⟩}
  | .unsubscribe topicFilter _ _ =>
      {handle | handle ∈ handles ∧ ¬ (succeeds ∧ handle.topicFilter = topicFilter)}

/-- The registry after a run, started from the given handles. -/
def registryRun : Client → Set TopicHandle → List TableCall → Set TopicHandle
  | _, handles, [] => handles
  | c, handles, call :: rest =>
      registryRun (tableStep c call)
        (registryStep handles ((performTableCall c call).1 = stateSuccess) call) rest

/-- A successful unsubscription finds its own filter, and no other stored one, to
cover it with a character more. -/
def CoversOnlyItself (c : Client) : TableCall → Prop
  | .subscribe .. => True
  | .unsubscribe topicFilter msgId env =>
      (mqttUnsubscribe c topicFilter msgId env).1 = stateSuccess →
        ∀ node ∈ c.listSubHandle,
          (coversOpen (topicLevels node.topicFilter.bytes) (topicLevels topicFilter.bytes) ↔
            node.topicFilter = topicFilter)

theorem mem_addHandle (table : List TopicHandle) (handler handle : TopicHandle) :
    handle ∈ addHandle table handler ↔ handle ∈ table ∨ handle = handler := by
  rw [addHandle]
  split
  · next hduplicate =>
      obtain ⟨node, hnode, hsame⟩ := List.any_eq_true.mp hduplicate
      have heq : node = handler := by
        obtain ⟨_, _, _⟩ := node
        obtain ⟨_, _, _⟩ := handler
        simpa [handleIsIdentical, and_assoc] using hsame
      refine ⟨Or.inl, fun hmem => hmem.elim id fun hhandle => ?_⟩
      rw [hhandle, ← heq]
      exact hnode
  · simp

/-- A call whose unsubscription meets the condition acts on the registry as it should. -/
theorem registry_tableStep (c : Client) (call : TableCall) (hcovers : CoversOnlyItself c call) :
    registry (tableStep c call) =
      registryStep (registry c) ((performTableCall c call).1 = stateSuccess) call := by
  ext handle
  cases call with
  | subscribe topicFilter qos msgId messageHandler pcontext env =>
      simp only [registry, tableStep, performTableCall, registryStep, Set.mem_ofPred_eq]
      rw [mqttSubscribe_listSubHandle]
      split
      · next hsuccess => rw [mem_addHandle, and_iff_right hsuccess]
      · next hfailed => simp [hfailed]
  | unsubscribe topicFilter msgId env =>
      simp only [registry, tableStep, performTableCall, registryStep, Set.mem_ofPred_eq]
      rw [mqttUnsubscribe_listSubHandle]
      split
      · next hsuccess =>
          rw [(removeHandles_exact_iff _ topicFilter).mpr (hcovers hsuccess),
            and_iff_right hsuccess]
          simp
      · next hfailed => simp [hfailed]

/-- Where every unsubscription of a run meets the condition, the table of handlers
is the registry. -/
theorem registry_runFrom {start : Client} {calls : List TableCall}
    (hmeet : StepsMeet tableStep CoversOnlyItself start calls) :
    registry (runFrom tableStep start calls) = registryRun start (registry start) calls := by
  induction calls generalizing start with
  | nil => rfl
  | cons call rest ih =>
      rw [runFrom_cons, registryRun, ← registry_tableStep start call hmeet.1]
      exact ih hmeet.2

end EnosDeviceSdk.Mqtt
