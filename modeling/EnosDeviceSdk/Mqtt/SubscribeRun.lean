/-
# Subscriptions from several threads

`MQTTSubscribe` allocates its handler first, may send a packet under `lock_write_buf`, and
looks for a duplicate and links the handler in one section under `lock_generic`. Threads
that subscribe interleave between these sections. What they share is the table
`list_sub_handle`, a list that is meant to be a set: nothing is in it twice, a failed call
adds nothing, and what a successful call leaves there stays.

A call is a frame on the stack of its thread. Beside it the model keeps the table as the
call found it, and whether the call's own sections or those of other threads have changed
the table since. None of this influences a step.
-/

import EnosDeviceSdk.Mqtt.Subscription

namespace EnosDeviceSdk.Mqtt.SubscribeRun

open EnosDeviceSdk.Infra EnosDeviceSdk.Library

/-! ## The sections of `MQTTSubscribe` -/

/-- The arguments of a call. A NULL pointer is `none`. -/
structure SubscribeArgs where
  topicFilter : Option CString
  qos : UInt8
  msgId : Nat
  messageHandler : Option Nat
  pcontext : Nat
  deriving DecidableEq

/-- The handler that the arguments describe. -/
def SubscribeArgs.handle (args : SubscribeArgs) : Option TopicHandle :=
  match args.topicFilter, args.messageHandler with
  | some topicFilter, some messageHandler =>
      some ⟨topicFilter, messageHandler, args.pcontext⟩
  | _, _ => none

/-- The check of the arguments and the allocation of the handler with its filter. -/
def SubscribeArgs.allocHandler (args : SubscribeArgs) (mallocHandler mallocFilter : Bool) :
    Except Int TopicHandle :=
  match args.handle with
  | none => .error stateUserInputInvalid
  | some handler =>
      if !mallocHandler || !mallocFilter then .error stateSysDependMalloc else .ok handler

/-- The section under `lock_generic`: the handler is linked, or freed as a duplicate. -/
def linkHandler (c : Client) (handler : TopicHandle) : Client :=
  { c with listSubHandle := addHandle c.listSubHandle handler }

/-- The section under `lock_write_buf`: the SUBSCRIBE packet is serialized and sent. -/
def sendSubscribe (c : Client) (args : SubscribeArgs) (handler : TopicHandle) (env : SendEnv) :
    Int × Client :=
  c.sendSerialized handler.topicFilter.strlen
    (mqttSerializeSubscribe · 0 args.msgId
      [(MqttString.ofCString handler.topicFilter, args.qos)])
    stateMqttSerializeSubError c.requestTimeoutMs env

/-- Where a call stands: its handler is allocated, or its packet is sent as well. -/
inductive Point
  | allocated
  | sent
  deriving DecidableEq

/-- What a section makes of a call: it returns a code, or it stands at a later point. -/
inductive Next
  | returns (rc : Int)
  | goesOn (point : Point)
  deriving DecidableEq

/-- The next section of a call. -/
def nextSection (c : Client) (args : SubscribeArgs) (handler : TopicHandle) (env : SendEnv) :
    Point → Client × Next
  | .allocated =>
      if args.qos = iotxMqttQos3SubLocal then (linkHandler c handler, .returns stateSuccess)
      else
        let (res, c) := sendSubscribe c args handler env
        if res ≠ stateSuccess then (c, .returns res) else (c, .goesOn .sent)
  | .sent => (linkHandler c handler, .returns stateSuccess)

/-- A section either leaves the table alone and does not return success, or it is the
linking section and returns success. -/
theorem nextSection_cases (c : Client) (args : SubscribeArgs) (handler : TopicHandle)
    (env : SendEnv) (point : Point) :
    ((nextSection c args handler env point).1.listSubHandle = c.listSubHandle ∧
        (nextSection c args handler env point).2 ≠ .returns stateSuccess) ∨
      ((nextSection c args handler env point).1.listSubHandle =
          addHandle c.listSubHandle handler ∧
        (nextSection c args handler env point).2 = .returns stateSuccess) := by
  cases point with
  | sent => exact Or.inr ⟨rfl, rfl⟩
  | allocated =>
      rw [nextSection]
      split
      · exact Or.inr ⟨rfl, rfl⟩
      · left
        obtain ⟨bytes, hframe⟩ := c.sendSerialized_frame handler.topicFilter.strlen
          (mqttSerializeSubscribe · 0 args.msgId
            [(MqttString.ofCString handler.topicFilter, args.qos)])
          stateMqttSerializeSubError c.requestTimeoutMs env
        rw [← sendSubscribe] at hframe
        dsimp only
        split
        · next hfailed =>
            refine ⟨by simp [hframe], ?_⟩
            intro hsame
            exact hfailed (Next.returns.inj hsame)
        · refine ⟨by simp [hframe], ?_⟩
          intro hsame
          cases hsame

/-! ## The threads -/

/-- A call in progress: its arguments, its handler and its place, and beside them the
table as the call found it, whether its own sections have changed the table, and whether
another thread's section has. -/
structure Frame where
  args : SubscribeArgs
  handler : TopicHandle
  point : Point
  start : List TopicHandle
  changed : Bool
  disturbed : Bool

/-- A call that has returned `rc`, with the tables it found and left. -/
structure Returned where
  args : SubscribeArgs
  rc : Int
  start : List TopicHandle
  finish : List TopicHandle
  changed : Bool
  disturbed : Bool
  deriving DecidableEq

/-- The client with its subscribing threads, and the calls that have returned. -/
structure State where
  client : Client
  threads : Nat → Option Frame
  returned : List Returned

/-- Every thread is outside `MQTTSubscribe`. -/
def State.initial (c : Client) : State := ⟨c, fun _ => none, []⟩

/-- A thread calls `MQTTSubscribe`, a call goes through its next section, or something
else happens to the client that leaves the table alone. -/
inductive Action
  | call (thread : Nat) (args : SubscribeArgs) (mallocHandler mallocFilter : Bool)
  | proceed (thread : Nat) (env : SendEnv)
  | elsewhere (c : Client)

/-- The frame of a call whose handler has been allocated. -/
def State.enter (s : State) (args : SubscribeArgs) (handler : TopicHandle) : Frame :=
  ⟨args, handler, .allocated, s.client.listSubHandle, false, false⟩

/-- The frame after a section of its own call. -/
def Frame.goOn (frame : Frame) (point : Point) (touched : Bool) : Frame :=
  { frame with point := point, changed := frame.changed || touched }

/-- The frame after a section of another call. -/
def Frame.disturb (frame : Frame) (touched : Bool) : Frame :=
  { frame with disturbed := frame.disturbed || touched }

/-- The record of a call that returns. -/
def Frame.return (frame : Frame) (rc : Int) (finish : List TopicHandle) (touched : Bool) :
    Returned :=
  ⟨frame.args, rc, frame.start, finish, frame.changed || touched, frame.disturbed⟩

/-- A call of the given thread goes through its next section. -/
def State.proceed (s : State) (thread : Nat) (frame : Frame) (env : SendEnv) : State :=
  let (c, next) := nextSection s.client frame.args frame.handler env frame.point
  let touched := decide (c.listSubHandle ≠ s.client.listSubHandle)
  let own : Option Frame :=
    match next with
    | .returns _ => none
    | .goesOn point => some (frame.goOn point touched)
  { client := c
    threads := fun index =>
      if index = thread then own else (s.threads index).map (·.disturb touched)
    returned :=
      match next with
      | .returns rc => s.returned ++ [frame.return rc c.listSubHandle touched]
      | .goesOn _ => s.returned }

/-- One action. -/
def step (s : State) : Action → State
  | .call thread args mallocHandler mallocFilter =>
      match s.threads thread with
      | some _ => s
      | none =>
          match args.allocHandler mallocHandler mallocFilter with
          | .error rc =>
              { s with returned := s.returned ++
                  [⟨args, rc, s.client.listSubHandle, s.client.listSubHandle, false, false⟩] }
          | .ok handler =>
              { s with threads := fun index =>
                  if index = thread then some (s.enter args handler) else s.threads index }
  | .proceed thread env =>
      match s.threads thread with
      | none => s
      | some frame => s.proceed thread frame env
  | .elsewhere c => { s with client := { c with listSubHandle := s.client.listSubHandle } }

/-! ## What a run keeps -/

/-- What is promised of a call that has returned, seen from a table of a later time. A
failed call has changed nothing, and unless another call interfered it leaves the very table
that it found. A successful call leaves its entry there. Either keeps all entries in their
order. -/
structure Returned.Kept (table : List TopicHandle) (call : Returned) : Prop where
  failed : call.rc ≠ stateSuccess →
    call.changed = false ∧ (call.disturbed = false → call.finish = call.start)
  succeeded : call.rc = stateSuccess →
    ∃ handler, call.args.handle = some handler ∧ handler ∈ call.finish
  keeps : call.start <+: call.finish
  stays : call.finish <+: table

/-- The table is a set, and every call that has returned kept its promise. -/
structure TableKept (s : State) : Prop where
  nodup : s.client.listSubHandle.Nodup
  returned : ∀ call ∈ s.returned, call.Kept s.client.listSubHandle

/-- What holds of a call in progress: it has changed nothing so far, and its table is still
there. -/
structure Frame.Sound (table : List TopicHandle) (frame : Frame) : Prop where
  handler : frame.args.handle = some frame.handler
  unchanged : frame.changed = false
  undisturbed : frame.disturbed = false → table = frame.start
  keeps : frame.start <+: table

/-- The invariant of the runs. -/
structure Consistent (s : State) : Prop extends TableKept s where
  threads : ∀ thread frame, s.threads thread = some frame → frame.Sound s.client.listSubHandle

theorem prefix_addHandle (table : List TopicHandle) (handler : TopicHandle) :
    table <+: addHandle table handler := by
  rw [addHandle]
  split
  · exact List.prefix_refl table
  · exact List.prefix_append table [handler]

theorem nodup_addHandle {table : List TopicHandle} (htable : table.Nodup)
    (handler : TopicHandle) : (addHandle table handler).Nodup := by
  rw [addHandle]
  split
  · exact htable
  · next hnew =>
      have hfresh : handler ∉ table := by
        intro hmem
        apply hnew
        rw [List.any_eq_true]
        exact ⟨handler, hmem, by simp [handleIsIdentical]⟩
      rw [List.nodup_append]
      refine ⟨htable, by simp, ?_⟩
      intro node hnode added hadded hsame
      rw [List.mem_singleton.mp hadded] at hsame
      exact hfresh (hsame ▸ hnode)

theorem SubscribeArgs.handle_of_allocHandler {args : SubscribeArgs}
    {mallocHandler mallocFilter : Bool} {handler : TopicHandle}
    (halloc : args.allocHandler mallocHandler mallocFilter = .ok handler) :
    args.handle = some handler := by
  rw [SubscribeArgs.allocHandler] at halloc
  cases hhandle : args.handle with
  | none =>
      rw [hhandle] at halloc
      cases halloc
  | some described =>
      rw [hhandle] at halloc
      dsimp only at halloc
      split at halloc
      · cases halloc
      · rw [Except.ok.inj halloc]

/-- No refusal before the first section is a success. -/
theorem SubscribeArgs.allocHandler_ne_success {args : SubscribeArgs}
    {mallocHandler mallocFilter : Bool} {rc : Int}
    (halloc : args.allocHandler mallocHandler mallocFilter = .error rc) :
    rc ≠ stateSuccess := by
  rw [SubscribeArgs.allocHandler] at halloc
  cases hhandle : args.handle with
  | none =>
      rw [hhandle] at halloc
      rw [← Except.error.inj halloc]
      decide
  | some described =>
      rw [hhandle] at halloc
      dsimp only at halloc
      split at halloc
      · rw [← Except.error.inj halloc]
        decide
      · cases halloc

theorem Returned.Kept.mono {table later : List TopicHandle} {call : Returned}
    (hkept : call.Kept table) (hlater : table <+: later) : call.Kept later :=
  { hkept with stays := hkept.stays.trans hlater }

/-- A frame stays sound when another call's section adds to the table. -/
theorem Frame.Sound.disturb {table later : List TopicHandle} {frame : Frame}
    (hframe : frame.Sound table) (hlater : table <+: later) :
    (frame.disturb (decide (later ≠ table))).Sound later where
  handler := hframe.handler
  unchanged := hframe.unchanged
  undisturbed := by
    intro hundisturbed
    rw [Frame.disturb, Bool.or_eq_false_iff, decide_eq_false_iff_not, not_not] at hundisturbed
    rw [hundisturbed.2]
    exact hframe.undisturbed hundisturbed.1
  keeps := hframe.keeps.trans hlater

/-- The table after a section extends the one before, and has no entry twice. -/
theorem nextSection_table (c : Client) (args : SubscribeArgs) (handler : TopicHandle)
    (env : SendEnv) (point : Point) (hnodup : c.listSubHandle.Nodup) :
    c.listSubHandle <+: (nextSection c args handler env point).1.listSubHandle ∧
      (nextSection c args handler env point).1.listSubHandle.Nodup := by
  rcases nextSection_cases c args handler env point with ⟨htable, _⟩ | ⟨htable, _⟩
  · rw [htable]
    exact ⟨List.prefix_refl _, hnodup⟩
  · rw [htable]
    exact ⟨prefix_addHandle _ _, nodup_addHandle hnodup handler⟩

/-- A sound call that returns from a section keeps its promise. -/
theorem Frame.Sound.kept {c : Client} {frame : Frame} {env : SendEnv} {rc : Int}
    (hframe : frame.Sound c.listSubHandle) (hnodup : c.listSubHandle.Nodup)
    (hreturns :
      (nextSection c frame.args frame.handler env frame.point).2 = .returns rc) :
    (frame.return rc (nextSection c frame.args frame.handler env frame.point).1.listSubHandle
      (decide ((nextSection c frame.args frame.handler env frame.point).1.listSubHandle ≠
        c.listSubHandle))).Kept
      (nextSection c frame.args frame.handler env frame.point).1.listSubHandle := by
  have hprefix := (nextSection_table c frame.args frame.handler env frame.point hnodup).1
  have hkeeps := hframe.keeps.trans hprefix
  rcases nextSection_cases c frame.args frame.handler env frame.point with
    ⟨htable, hcode⟩ | ⟨htable, hcode⟩
  · have hrc : rc ≠ stateSuccess := by
      rintro rfl
      exact hcode hreturns
    refine ⟨fun _ => ⟨?_, ?_⟩, fun hsuccess => absurd hsuccess hrc, hkeeps,
      List.prefix_refl _⟩
    · simp [Frame.return, hframe.unchanged, htable]
    · intro hundisturbed
      rw [Frame.return, htable]
      exact hframe.undisturbed hundisturbed
  · have hrc : rc = stateSuccess := Next.returns.inj (hreturns.symm.trans hcode)
    refine ⟨fun hfailed => absurd hrc hfailed, fun _ => ⟨frame.handler, hframe.handler, ?_⟩,
      hkeeps, List.prefix_refl _⟩
    rw [Frame.return, htable, mem_addHandle]
    exact Or.inr rfl

/-- A sound call that goes on from a section is sound. -/
theorem Frame.Sound.goOn {c : Client} {frame : Frame} {env : SendEnv} {point : Point}
    (hframe : frame.Sound c.listSubHandle)
    (hgoesOn :
      (nextSection c frame.args frame.handler env frame.point).2 = .goesOn point) :
    (frame.goOn point
      (decide ((nextSection c frame.args frame.handler env frame.point).1.listSubHandle ≠
        c.listSubHandle))).Sound
      (nextSection c frame.args frame.handler env frame.point).1.listSubHandle := by
  rcases nextSection_cases c frame.args frame.handler env frame.point with
    ⟨htable, _⟩ | ⟨_, hcode⟩
  · rw [htable]
    refine ⟨hframe.handler, ?_, hframe.undisturbed, hframe.keeps⟩
    simp [Frame.goOn, hframe.unchanged]
  · rw [hgoesOn] at hcode
    cases hcode

theorem consistent_proceed {s : State} (hs : Consistent s) {thread : Nat} {frame : Frame}
    (hframe : s.threads thread = some frame) (env : SendEnv) :
    Consistent (s.proceed thread frame env) := by
  have hsound := hs.threads thread frame hframe
  have htable :=
    nextSection_table s.client frame.args frame.handler env frame.point hs.nodup
  have hothers : ∀ index other, index ≠ thread →
      (s.proceed thread frame env).threads index = some other →
      other.Sound (s.proceed thread frame env).client.listSubHandle := by
    intro index other hindex hother
    rw [State.proceed] at hother
    dsimp only at hother
    rw [if_neg hindex, Option.map_eq_some_iff] at hother
    obtain ⟨before, hbefore, rfl⟩ := hother
    exact (hs.threads index before hbefore).disturb htable.1
  cases hnext : (nextSection s.client frame.args frame.handler env frame.point).2 with
  | returns rc =>
      refine ⟨⟨htable.2, ?_⟩, ?_⟩
      · intro call hcall
        rw [State.proceed] at hcall
        dsimp only at hcall
        rw [hnext] at hcall
        rcases List.mem_append.mp hcall with hearlier | hnew
        · exact (hs.returned call hearlier).mono htable.1
        · rw [List.mem_singleton.mp hnew]
          exact hsound.kept hs.nodup hnext
      · intro index other hother
        by_cases hindex : index = thread
        · rw [State.proceed] at hother
          dsimp only at hother
          rw [if_pos hindex, hnext] at hother
          cases hother
        · exact hothers index other hindex hother
  | goesOn point =>
      refine ⟨⟨htable.2, ?_⟩, ?_⟩
      · intro call hcall
        rw [State.proceed] at hcall
        dsimp only at hcall
        rw [hnext] at hcall
        exact (hs.returned call hcall).mono htable.1
      · intro index other hother
        by_cases hindex : index = thread
        · rw [State.proceed] at hother
          dsimp only at hother
          rw [if_pos hindex, hnext] at hother
          rw [← Option.some.inj hother]
          exact hsound.goOn hnext
        · exact hothers index other hindex hother

/-- The step lemma. -/
theorem consistent_step (s : State) (action : Action) (hs : Consistent s) :
    Consistent (step s action) := by
  cases action with
  | elsewhere c => exact ⟨⟨hs.nodup, hs.returned⟩, hs.threads⟩
  | proceed thread env =>
      rw [step]
      cases hframe : s.threads thread with
      | none => exact hs
      | some frame => exact consistent_proceed hs hframe env
  | call thread args mallocHandler mallocFilter =>
      rw [step]
      cases hframe : s.threads thread with
      | some frame => exact hs
      | none =>
          cases halloc : args.allocHandler mallocHandler mallocFilter with
          | error rc =>
              refine ⟨⟨hs.nodup, ?_⟩, hs.threads⟩
              intro call hcall
              rcases List.mem_append.mp hcall with hearlier | hnew
              · exact hs.returned call hearlier
              · rw [List.mem_singleton.mp hnew]
                exact ⟨fun _ => ⟨rfl, fun _ => rfl⟩,
                  fun hsuccess => absurd hsuccess (SubscribeArgs.allocHandler_ne_success halloc),
                  List.prefix_refl _, List.prefix_refl _⟩
          | ok handler =>
              refine ⟨⟨hs.nodup, hs.returned⟩, ?_⟩
              intro index other hother
              dsimp only at hother
              split at hother
              · rw [← Option.some.inj hother]
                exact ⟨SubscribeArgs.handle_of_allocHandler halloc, rfl, fun _ => rfl,
                  List.prefix_refl _⟩
              · exact hs.threads index other hother

/-- In every state of every run, whatever fails and however the threads interleave, the
table has no entry twice and every call that has returned kept its promise. -/
theorem tableKept_always {c : Client} (hnodup : c.listSubHandle.Nodup)
    (actions : List Action) : Always step TableKept (State.initial c) actions := by
  have hinitial : Consistent (State.initial c) := by
    refine ⟨⟨hnodup, ?_⟩, ?_⟩
    · intro call hcall
      cases hcall
    · intro thread frame hframe
      cases hframe
  have hmeet : StepsMeet step (fun _ _ => True) (State.initial c) actions :=
    stepsMeet_of_forall (fun _ _ => trivial) _ actions
  have halways : Always step Consistent (State.initial c) actions :=
    always_of_stepsMeet (fun s action hs _ => consistent_step s action hs) hinitial hmeet
  exact halways.mono fun s hs => hs.toTableKept

/-- The filter `/a` for the handler 7. -/
def plainArgs (qos : UInt8) : SubscribeArgs :=
  ⟨some plainTopic, qos, 1, some 7, 0⟩

/-- Two threads subscribe the same filter, handler and context, one with a packet and one
locally, and a third call fails in its allocation. -/
def twoThreads : List Action :=
  [.call 0 (plainArgs 1) true true, .call 1 (plainArgs iotxMqttQos3SubLocal) true true,
    .proceed 0 plainSubscribeEnv.send, .proceed 1 plainSubscribeEnv.send,
    .call 2 (plainArgs 1) true false, .proceed 0 plainSubscribeEnv.send]

/-- In the run of the two threads one entry is left, and all three calls kept their
promises. -/
theorem tableKept_twoThreads :
    Always step TableKept (State.initial plainClient) twoThreads ∧
      (runFrom step (State.initial plainClient) twoThreads).client.listSubHandle =
        [⟨⟨[47, 97], by decide⟩, 7, 0⟩] ∧
      (runFrom step (State.initial plainClient) twoThreads).returned.map (·.rc) =
        [stateSuccess, stateSysDependMalloc, stateSuccess] :=
  ⟨tableKept_always (by decide) twoThreads, by decide, by decide⟩

/-! ## A call that nobody interrupts -/

/-- `MQTTSubscribe` in terms of its sections. -/
theorem mqttSubscribe_sections (c : Client) (topicFilter : CString) (qos : UInt8)
    (msgId messageHandler pcontext : Nat) (env : SubscribeEnv) :
    mqttSubscribe c topicFilter qos msgId messageHandler pcontext env =
      if !env.mallocHandler || !env.mallocFilter then (stateSysDependMalloc, c)
      else if qos = iotxMqttQos3SubLocal then
        (stateSuccess, linkHandler c ⟨topicFilter, messageHandler, pcontext⟩)
      else
        let sent := sendSubscribe c
          ⟨some topicFilter, qos, msgId, some messageHandler, pcontext⟩
          ⟨topicFilter, messageHandler, pcontext⟩ env.send
        if sent.1 ≠ stateSuccess then sent
        else (stateSuccess, linkHandler sent.2 ⟨topicFilter, messageHandler, pcontext⟩) := rfl

/-- A thread that goes through its call alone does what `MQTTSubscribe` does in one go: it
returns the same code and leaves the same client. -/
theorem alone_eq_mqttSubscribe (s : State) (thread : Nat) (hidle : s.threads thread = none)
    (topicFilter : CString) (qos : UInt8) (msgId messageHandler pcontext : Nat)
    (env : SubscribeEnv) :
    let result := mqttSubscribe s.client topicFilter qos msgId messageHandler pcontext env
    let after := runFrom step s
      [.call thread ⟨some topicFilter, qos, msgId, some messageHandler, pcontext⟩
          env.mallocHandler env.mallocFilter,
        .proceed thread env.send, .proceed thread env.send]
    after.client = result.2 ∧ after.threads thread = none ∧
      after.returned.map (·.rc) = s.returned.map (·.rc) ++ [result.1] := by
  intro result after
  simp only [result, after, runFrom_cons, runFrom_nil]
  rw [mqttSubscribe_sections]
  by_cases hmalloc : (!env.mallocHandler || !env.mallocFilter) = true
  · simp [step, hidle, SubscribeArgs.allocHandler, SubscribeArgs.handle, hmalloc]
  · by_cases hlocal : qos = iotxMqttQos3SubLocal
    · simp [step, hidle, SubscribeArgs.allocHandler, SubscribeArgs.handle, hmalloc, hlocal,
        State.enter, State.proceed, nextSection, Frame.return]
    · by_cases hsend : (sendSubscribe s.client
          ⟨some topicFilter, qos, msgId, some messageHandler, pcontext⟩
          ⟨topicFilter, messageHandler, pcontext⟩ env.send).1 = stateSuccess <;>
        simp [step, hidle, SubscribeArgs.allocHandler, SubscribeArgs.handle, hmalloc, hlocal,
          State.enter, State.proceed, nextSection, hsend, Frame.goOn, Frame.return]

end EnosDeviceSdk.Mqtt.SubscribeRun
