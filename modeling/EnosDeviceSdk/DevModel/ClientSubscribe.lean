/-
# Subscribing to the topics of a device

A table lists the topics that the device model subscribes to for a device. The reply to posted
events is meant to be left out unless the user wants replies, and the code that does so takes the
first entry of the table for it. The first entry is the topic by which the cloud sets measurepoints.

So without the option the device gets no measurepoint commands, and the replies that nobody wants.
-/

import EnosDeviceSdk.DevModel.Uri

namespace EnosDeviceSdk.DevModel.ClientSubscribe

open EnosDeviceSdk.Infra EnosDeviceSdk.Library

/-! ## The table -/

/-- `IOTX_DM_DEVICE_ALL` -/
def iotxDmDeviceAll : BitVec 32 := 0x07

/-- `IOTX_DM_DEVICE_GATEWAY` -/
def iotxDmDeviceGateway : BitVec 32 := 0x04

/-- `IOTX_DM_CLIENT_SUB_RETRY_MAX_COUNTS` -/
def iotxDmClientSubRetryMaxCounts : Nat := 3

/-- `dm_client_uri_map_t`, without the callback. -/
structure DmClientUriMap where
  uriName : CString
  uriPrefix : UriPrefix
  devType : BitVec 32
  deriving DecidableEq

/-- The options of the build that the table depends on. -/
structure Build where
  rawdataSolo : Bool
  measurepointResume : Bool
  gateway : Bool

/-- `DM_URI_THING_EVENT_POST_REPLY_WILDCARD` -/
def dmUriThingEventPostReplyWildcard : CString := .ofArray (ascii "thing/event/+/post_reply")

/-- The first entry of the table, unless the build is for raw data only. -/
def measurepointSetEntry : DmClientUriMap :=
  ⟨.ofArray (ascii "thing/service/measurepoint/set"), .sys, iotxDmDeviceAll⟩

/-- The entries between the first one and those for resuming. -/
def thingEntries : List DmClientUriMap :=
  [⟨.ofArray (ascii "thing/service/+"), .sys, iotxDmDeviceAll⟩,
    ⟨.ofArray (ascii "thing/tag/query_reply"), .sys, iotxDmDeviceAll⟩,
    ⟨.ofArray (ascii "thing/tag/update_reply"), .sys, iotxDmDeviceAll⟩,
    ⟨.ofArray (ascii "thing/tag/delete_reply"), .sys, iotxDmDeviceAll⟩,
    ⟨.ofArray (ascii "thing/attribute/query_reply"), .sys, iotxDmDeviceAll⟩,
    ⟨.ofArray (ascii "thing/attribute/update_reply"), .sys, iotxDmDeviceAll⟩,
    ⟨.ofArray (ascii "thing/attribute/delete_reply"), .sys, iotxDmDeviceAll⟩,
    ⟨.ofArray (ascii "thing/measurepoint/post_reply"), .sys, iotxDmDeviceAll⟩,
    ⟨.ofArray (ascii "thing/measurepoint/post/batch_reply"), .sys, iotxDmDeviceAll⟩]

/-- The entries under `DEVICE_MEASUREPOINT_RESUME`. -/
def resumeEntries : List DmClientUriMap :=
  [⟨.ofArray (ascii "thing/measurepoint/resume_reply"), .sys, iotxDmDeviceAll⟩,
    ⟨.ofArray (ascii "thing/measurepoint/resume/batch_reply"), .sys, iotxDmDeviceAll⟩]

/-- The entry for event replies. -/
def eventPostReplyEntry : DmClientUriMap :=
  ⟨dmUriThingEventPostReplyWildcard, .sys, iotxDmDeviceAll⟩

/-- The entries for raw data. -/
def rawEntries : List DmClientUriMap :=
  [⟨.ofArray (ascii "thing/model/down_raw"), .sys, iotxDmDeviceAll⟩,
    ⟨.ofArray (ascii "thing/model/up_raw_reply"), .sys, iotxDmDeviceAll⟩]

/-- The entries under `DEVICE_MODEL_GATEWAY`. -/
def gatewayEntries : List DmClientUriMap :=
  [⟨.ofArray (ascii "thing/device/register_reply"), .sys, iotxDmDeviceGateway⟩,
    ⟨.ofArray (ascii "thing/topo/add_reply"), .sys, iotxDmDeviceGateway⟩,
    ⟨.ofArray (ascii "thing/topo/delete_reply"), .sys, iotxDmDeviceGateway⟩,
    ⟨.ofArray (ascii "thing/topo/get_reply"), .sys, iotxDmDeviceGateway⟩,
    ⟨.ofArray (ascii "combine/login_reply"), .extSession, iotxDmDeviceGateway⟩,
    ⟨.ofArray (ascii "combine/login/batch_reply"), .extSession, iotxDmDeviceGateway⟩,
    ⟨.ofArray (ascii "combine/logout_reply"), .extSession, iotxDmDeviceGateway⟩,
    ⟨.ofArray (ascii "thing/disable"), .sys, iotxDmDeviceGateway⟩,
    ⟨.ofArray (ascii "thing/enable"), .sys, iotxDmDeviceGateway⟩,
    ⟨.ofArray (ascii "thing/delete"), .sys, iotxDmDeviceGateway⟩,
    ⟨.ofArray (ascii "combine/disable"), .extSession, iotxDmDeviceGateway⟩,
    ⟨.ofArray (ascii "combine/enable"), .extSession, iotxDmDeviceGateway⟩,
    ⟨.ofArray (ascii "combine/delete"), .extSession, iotxDmDeviceGateway⟩]

/-- `g_dm_client_uri_map` -/
def gDmClientUriMap (build : Build) : List DmClientUriMap :=
  (if build.rawdataSolo then []
  else measurepointSetEntry :: (thingEntries ++
    (if build.measurepointResume then resumeEntries else []) ++ [eventPostReplyEntry])) ++
  rawEntries ++ (if build.gateway then gatewayEntries else [])

/-! ## Subscribing -/

/-- What the calls do in the course of a run: whether the memory for the topic of an entry is there,
whether an attempt to subscribe to a topic succeeds, and whether unsubscribing does. -/
structure Calls where
  mallocOk : DmClientUriMap → Bool
  subscribeOk : List UInt8 → Nat → Bool
  unsubscribeOk : Bool

/-- The topic of an entry for a device, unless the memory for it is missing. -/
def DmClientUriMap.uri (entry : DmClientUriMap) (calls : Calls) (productKey deviceKey : CString) :
    Option (List UInt8) :=
  (dmUtilsServiceName (some entry.uriPrefix) (some entry.uriName) productKey deviceKey
    (calls.mallocOk entry)).toOption.map arrayText

/-- The attempts to subscribe to a topic, on the list of what is subscribed. -/
def subscribeAttempts (calls : Calls) (uri : List UInt8) :
    Nat → Nat → List (List UInt8) → List (List UInt8)
  | 0, _, subscribed => subscribed
  | left + 1, attempt, subscribed =>
      if calls.subscribeOk uri attempt then uri :: subscribed
      else subscribeAttempts calls uri left (attempt + 1) subscribed

/-- `_dm_client_subscribe_filter` -/
def dmClientSubscribeFilter (calls : Calls) (eventPostReplyOpt : Int) (uri : List UInt8)
    (subscribed : List (List UInt8)) : List (List UInt8) :=
  if eventPostReplyOpt = 0 then
    if calls.unsubscribeOk then subscribed.filter (· ≠ uri) else subscribed
  else subscribeAttempts calls uri iotxDmClientSubRetryMaxCounts 0 subscribed

/-- One turn of the loop of `dm_client_subscribe_all`. -/
def subscribeEntry (calls : Calls) (devType : BitVec 32) (productKey deviceKey : CString)
    (subscribed : List (List UInt8)) (entry : DmClientUriMap) : List (List UInt8) :=
  if entry.devType &&& devType = 0 then subscribed
  else
    match entry.uri calls productKey deviceKey with
    | none => subscribed
    | some uri => subscribeAttempts calls uri iotxDmClientSubRetryMaxCounts 0 subscribed

/-- What `dm_client_subscribe_all` does with the first entry, of any device type. -/
def subscribeFirst (calls : Calls) (eventPostReplyOpt : Int) (productKey deviceKey : CString)
    (subscribed : List (List UInt8)) (entry : DmClientUriMap) : List (List UInt8) :=
  match entry.uri calls productKey deviceKey with
  | none => subscribed
  | some uri => dmClientSubscribeFilter calls eventPostReplyOpt uri subscribed

/-- `dm_client_subscribe_all`, on the list of what is subscribed. -/
def dmClientSubscribeAll (build : Build) (calls : Calls) (eventPostReplyOpt : Int)
    (productKey deviceKey : CString) (devType : BitVec 32) (subscribed : List (List UInt8)) :
    List (List UInt8) :=
  let table := gDmClientUriMap build
  if build.rawdataSolo then
    table.foldl (subscribeEntry calls devType productKey deviceKey) subscribed
  else
    (table.drop 1).foldl (subscribeEntry calls devType productKey deviceKey)
      ((table.take 1).foldl (subscribeFirst calls eventPostReplyOpt productKey deviceKey)
        subscribed)

/-! ## What is meant -/

/-- The topic of an entry for a device. -/
def DmClientUriMap.topic (entry : DmClientUriMap) (productKey deviceKey : CString) : List UInt8 :=
  entry.uriPrefix.topic productKey deviceKey entry.uriName

/-- Each topic is subscribed within its attempts. -/
structure Calls.WithinBudget (calls : Calls) : Prop where
  mallocOk : ∀ entry, calls.mallocOk entry
  subscribeOk : ∀ uri, ∃ attempt < iotxDmClientSubRetryMaxCounts, calls.subscribeOk uri attempt

/-- Of the topics for a device type, the one of event replies is subscribed if the user wants
replies, and the others are subscribed in any case. -/
def SubscribesAll (build : Build) (eventPostReplyOpt : Int) (productKey deviceKey : CString)
    (devType : BitVec 32) (subscribed : List (List UInt8)) : Prop :=
  ∀ entry ∈ gDmClientUriMap build, entry.devType &&& devType ≠ 0 →
    (entry.topic productKey deviceKey ∈ subscribed ↔
      ¬ (entry.uriName = dmUriThingEventPostReplyWildcard ∧ eventPostReplyOpt = 0))

/-! ## The attempts and the loop -/

section Loop

variable {calls : Calls} {uri : List UInt8} {subscribed : List (List UInt8)}
  {devType : BitVec 32} {productKey deviceKey : CString}

/-- An attempt that succeeds is reached. -/
theorem mem_subscribeAttempts {left attempt : Nat}
    (hwithin : ∃ later < attempt + left, attempt ≤ later ∧ calls.subscribeOk uri later) :
    uri ∈ subscribeAttempts calls uri left attempt subscribed := by
  induction left generalizing attempt with
  | zero =>
      obtain ⟨later, hbelow, habove, -⟩ := hwithin
      omega
  | succ left ih =>
      rw [subscribeAttempts]
      by_cases hnow : calls.subscribeOk uri attempt
      · rw [if_pos hnow]
        exact List.mem_cons_self
      · rw [if_neg hnow]
        obtain ⟨later, hbelow, habove, hlater⟩ := hwithin
        have hne : attempt ≠ later := fun hsame => hnow (hsame ▸ hlater)
        exact ih ⟨later, by omega, by omega, hlater⟩

/-- Attempts for one topic leave the others as they are. -/
theorem mem_subscribeAttempts_of_ne {left attempt : Nat} {other : List UInt8} (hne : other ≠ uri) :
    other ∈ subscribeAttempts calls uri left attempt subscribed ↔ other ∈ subscribed := by
  induction left generalizing attempt with
  | zero => exact Iff.rfl
  | succ left ih =>
      rw [subscribeAttempts]
      by_cases hnow : calls.subscribeOk uri attempt
      · rw [if_pos hnow, List.mem_cons, or_iff_right hne]
      · rw [if_neg hnow]
        exact ih

theorem Calls.WithinBudget.mem_attempts (hbudget : calls.WithinBudget) :
    uri ∈ subscribeAttempts calls uri iotxDmClientSubRetryMaxCounts 0 subscribed := by
  obtain ⟨attempt, hbelow, hok⟩ := hbudget.subscribeOk uri
  exact mem_subscribeAttempts ⟨attempt, by rwa [Nat.zero_add], Nat.zero_le _, hok⟩

theorem Calls.WithinBudget.uri_eq (hbudget : calls.WithinBudget) (entry : DmClientUriMap) :
    entry.uri calls productKey deviceKey = some (entry.topic productKey deviceKey) := by
  rw [DmClientUriMap.uri, hbudget.mallocOk entry, dmUtilsServiceName_eq]
  exact congrArg some (arrayText_padded (zero_not_mem_topic _ _ _ _) _)

/-- A turn of the loop subscribes to the topic of its entry, if that is for the device type, and to
nothing else. -/
theorem Calls.WithinBudget.mem_subscribeEntry (hbudget : calls.WithinBudget)
    (entry : DmClientUriMap) :
    uri ∈ subscribeEntry calls devType productKey deviceKey subscribed entry ↔
      uri ∈ subscribed ∨
        entry.devType &&& devType ≠ 0 ∧ uri = entry.topic productKey deviceKey := by
  rw [subscribeEntry]
  by_cases hother : entry.devType &&& devType = 0
  · rw [if_pos hother, or_iff_left (fun hboth => hboth.1 hother)]
  · rw [if_neg hother, hbudget.uri_eq entry]
    dsimp only
    by_cases hsame : uri = entry.topic productKey deviceKey
    · rw [hsame]
      exact iff_of_true hbudget.mem_attempts (.inr ⟨hother, rfl⟩)
    · rw [mem_subscribeAttempts_of_ne hsame, or_iff_left (fun hboth => hsame hboth.2)]

/-- The loop subscribes to the topics of the entries for the device type. -/
theorem Calls.WithinBudget.mem_loop (hbudget : calls.WithinBudget) (table : List DmClientUriMap) :
    uri ∈ table.foldl (subscribeEntry calls devType productKey deviceKey) subscribed ↔
      uri ∈ subscribed ∨ ∃ entry ∈ table,
        entry.devType &&& devType ≠ 0 ∧ uri = entry.topic productKey deviceKey := by
  induction table generalizing subscribed with
  | nil => simp
  | cons entry table ih =>
      rw [List.foldl_cons, ih, hbudget.mem_subscribeEntry entry, or_assoc, List.exists_mem_cons_iff]

end Loop

/-! ## The table -/

/-- Unless the build is for raw data only, the first entry is the one for setting measurepoints, and
the one for event replies is further back. -/
theorem gDmClientUriMap_eq_cons {build : Build} (hsolo : build.rawdataSolo = false) :
    gDmClientUriMap build = measurepointSetEntry :: (gDmClientUriMap build).drop 1 ∧
      eventPostReplyEntry ∈ (gDmClientUriMap build).drop 1 := by
  rw [gDmClientUriMap, if_neg (by rw [hsolo]; decide), List.cons_append, List.cons_append,
    List.drop_succ_cons, List.drop_zero]
  refine ⟨rfl, List.mem_append_left _ (List.mem_append_left _ ?_)⟩
  exact List.mem_append_right _ List.mem_cons_self

/-- The other entries have other names, and their device types are among those of the first. -/
structure Other (entry : DmClientUriMap) : Prop where
  notMeasurepointSet : entry.uriName ≠ measurepointSetEntry.uriName
  notEventPostReply : entry.uriName ≠ dmUriThingEventPostReplyWildcard
  devType : entry.devType &&& iotxDmDeviceAll = entry.devType

theorem mem_of_mem_ite {part : List DmClientUriMap} {option : Bool} {entry : DmClientUriMap}
    (hentry : entry ∈ if option = true then part else []) : entry ∈ part := by
  cases option with
  | true => exact hentry
  | false => exact absurd hentry List.not_mem_nil

theorem other_of_mem {entry : DmClientUriMap}
    (hentry : entry ∈ thingEntries ++ resumeEntries ++ rawEntries ++ gatewayEntries) :
    Other entry := by
  have hall : (thingEntries ++ resumeEntries ++ rawEntries ++ gatewayEntries).all
      (fun entry => entry.uriName ≠ measurepointSetEntry.uriName ∧
        entry.uriName ≠ dmUriThingEventPostReplyWildcard ∧
        entry.devType &&& iotxDmDeviceAll = entry.devType) = true := by decide +kernel
  obtain ⟨hfirst, hevent, htype⟩ := of_decide_eq_true (List.all_eq_true.mp hall entry hentry)
  exact ⟨hfirst, hevent, htype⟩

theorem eventPostReply_ne_measurepointSet :
    eventPostReplyEntry.uriName ≠ measurepointSetEntry.uriName := by decide +kernel

/-- What the table has behind the first entry. -/
theorem mem_behind {build : Build} (hsolo : build.rawdataSolo = false) {entry : DmClientUriMap}
    (hentry : entry ∈ (gDmClientUriMap build).drop 1) :
    entry = eventPostReplyEntry ∨ Other entry := by
  rw [gDmClientUriMap, if_neg (by rw [hsolo]; decide), List.cons_append, List.cons_append,
    List.drop_succ_cons, List.drop_zero, List.mem_append, List.mem_append, List.mem_append,
    List.mem_append, List.mem_singleton] at hentry
  rcases hentry with (((hthing | hresume) | hevent) | hraw) | hgateway
  · exact .inr (other_of_mem (by simp [hthing]))
  · exact .inr (other_of_mem (by simp [mem_of_mem_ite hresume]))
  · exact .inl hevent
  · exact .inr (other_of_mem (by simp [hraw]))
  · exact .inr (other_of_mem (by simp [mem_of_mem_ite hgateway]))

/-- What the table has in a build for raw data only. -/
theorem other_of_rawdataSolo {build : Build} (hsolo : build.rawdataSolo = true)
    {entry : DmClientUriMap} (hentry : entry ∈ gDmClientUriMap build) : Other entry := by
  rw [gDmClientUriMap, if_pos hsolo, List.nil_append, List.mem_append] at hentry
  rcases hentry with hraw | hgateway
  · exact other_of_mem (by simp [hraw])
  · exact other_of_mem (by simp [mem_of_mem_ite hgateway])

/-- Every device type that the table knows is among those of the first entries. -/
theorem devType_and_eq_zero {build : Build} {devType : BitVec 32}
    (hnone : iotxDmDeviceAll &&& devType = 0) {entry : DmClientUriMap}
    (hentry : entry ∈ gDmClientUriMap build) : entry.devType &&& devType = 0 := by
  have hpart (hother : Other entry) : entry.devType &&& devType = 0 := by
    rw [← hother.devType, BitVec.and_assoc, hnone]
    exact BitVec.and_zero
  cases hsolo : build.rawdataSolo with
  | true => exact hpart (other_of_rawdataSolo hsolo hentry)
  | false =>
      rw [(gDmClientUriMap_eq_cons hsolo).1, List.mem_cons] at hentry
      rcases hentry with rfl | hbehind
      · exact hnone
      · rcases mem_behind hsolo hbehind with rfl | hother
        · exact hnone
        · exact hpart hother

/-- No other entry has the topic of the first one. -/
theorem topic_ne_measurepointSet {build : Build} (hsolo : build.rawdataSolo = false)
    {entry : DmClientUriMap} (hentry : entry ∈ (gDmClientUriMap build).drop 1)
    (productKey deviceKey : CString) :
    entry.topic productKey deviceKey ≠ measurepointSetEntry.topic productKey deviceKey := by
  have hname : entry.uriName ≠ measurepointSetEntry.uriName := by
    rcases mem_behind hsolo hentry with rfl | hother
    · exact eventPostReply_ne_measurepointSet
    · exact hother.notMeasurepointSet
  intro hsame
  rw [DmClientUriMap.topic, DmClientUriMap.topic] at hsame
  cases hkind : entry.uriPrefix with
  | sys =>
      rw [hkind] at hsame
      have hbytes : entry.uriName.bytes = measurepointSetEntry.uriName.bytes := by
        simpa [UriPrefix.topic, measurepointSetEntry] using hsame
      exact hname ((CString.mk.injEq _ _ _ _).mpr hbytes)
  | extSession =>
      -- the second bytes of the prefixes differ
      rw [hkind] at hsame
      have hsecond := congrArg (fun topic : List UInt8 => topic[1]?) hsame
      simp [UriPrefix.topic, UriPrefix.start, measurepointSetEntry, ascii] at hsecond
      exact absurd hsecond (by decide)

/-! ## The result -/

section Result

variable {build : Build} {calls : Calls} {eventPostReplyOpt : Int} {productKey deviceKey : CString}
  {devType : BitVec 32} {subscribed : List (List UInt8)}

/-- The loop subscribes to event replies whatever the user wants. -/
theorem eventPostReply_mem (hbudget : calls.WithinBudget) (hsolo : build.rawdataSolo = false)
    (htype : iotxDmDeviceAll &&& devType ≠ 0) :
    eventPostReplyEntry.topic productKey deviceKey ∈
      dmClientSubscribeAll build calls eventPostReplyOpt productKey deviceKey devType
        subscribed := by
  rw [dmClientSubscribeAll, if_neg (by rw [hsolo]; decide), hbudget.mem_loop]
  exact .inr ⟨eventPostReplyEntry, (gDmClientUriMap_eq_cons hsolo).2, htype, rfl⟩

/-- Without replies wanted, the device gets no commands that set measurepoints. -/
theorem measurepointSet_not_mem (hbudget : calls.WithinBudget)
    (hunsubscribe : calls.unsubscribeOk = true) (hsolo : build.rawdataSolo = false) :
    measurepointSetEntry.topic productKey deviceKey ∉
      dmClientSubscribeAll build calls 0 productKey deviceKey devType subscribed := by
  rw [dmClientSubscribeAll, if_neg (by rw [hsolo]; decide), hbudget.mem_loop,
    (gDmClientUriMap_eq_cons hsolo).1, List.take_succ_cons, List.take_zero, List.foldl_cons,
    List.foldl_nil, List.drop_succ_cons, List.drop_zero, subscribeFirst, hbudget.uri_eq]
  dsimp only
  rw [dmClientSubscribeFilter, if_pos rfl, if_pos hunsubscribe]
  rintro (hfirst | ⟨entry, hentry, -, htopic⟩)
  · exact absurd rfl (of_decide_eq_true (List.mem_filter.mp hfirst).2)
  · exact topic_ne_measurepointSet hsolo hentry productKey deviceKey htopic.symm

/-- With replies wanted, every entry for the device type is subscribed. -/
theorem topic_mem_of_wanted (hbudget : calls.WithinBudget) (hwanted : eventPostReplyOpt ≠ 0)
    {entry : DmClientUriMap} (hentry : entry ∈ gDmClientUriMap build)
    (htype : entry.devType &&& devType ≠ 0) :
    entry.topic productKey deviceKey ∈
      dmClientSubscribeAll build calls eventPostReplyOpt productKey deviceKey devType
        subscribed := by
  rw [dmClientSubscribeAll]
  cases hsolo : build.rawdataSolo with
  | true =>
      rw [if_pos rfl, hbudget.mem_loop]
      exact .inr ⟨entry, hentry, htype, rfl⟩
  | false =>
      rw [if_neg (by decide), hbudget.mem_loop]
      rw [(gDmClientUriMap_eq_cons hsolo).1, List.mem_cons] at hentry
      rcases hentry with rfl | hbehind
      · refine .inl ?_
        rw [(gDmClientUriMap_eq_cons hsolo).1, List.take_succ_cons, List.take_zero, List.foldl_cons,
          List.foldl_nil, subscribeFirst, hbudget.uri_eq]
        dsimp only
        rw [dmClientSubscribeFilter, if_neg hwanted]
        exact hbudget.mem_attempts
      · exact .inr ⟨entry, hbehind, htype, rfl⟩

/-- The topics of a device are subscribed as meant exactly if the user wants replies to events, if
the build has none, or if the device is of no type that the table knows. -/
theorem subscribesAll_iff (build : Build) (calls : Calls) (eventPostReplyOpt : Int)
    (productKey deviceKey : CString) (devType : BitVec 32) (subscribed : List (List UInt8))
    (hbudget : calls.WithinBudget) :
    SubscribesAll build eventPostReplyOpt productKey deviceKey devType
        (dmClientSubscribeAll build calls eventPostReplyOpt productKey deviceKey devType
          subscribed) ↔
      build.rawdataSolo = true ∨ eventPostReplyOpt ≠ 0 ∨ iotxDmDeviceAll &&& devType = 0 := by
  constructor
  · intro hmeant
    by_contra hcontra
    obtain ⟨hsolo, hopt, htype⟩ : build.rawdataSolo = false ∧ eventPostReplyOpt = 0 ∧
        iotxDmDeviceAll &&& devType ≠ 0 := by
      simpa only [not_or, Bool.not_eq_true, not_not] using hcontra
    have hentry : eventPostReplyEntry ∈ gDmClientUriMap build :=
      List.mem_of_mem_drop (gDmClientUriMap_eq_cons hsolo).2
    have hunwanted := (hmeant eventPostReplyEntry hentry htype).mp
      (eventPostReply_mem hbudget hsolo htype)
    exact hunwanted ⟨rfl, hopt⟩
  · rintro (hsolo | hwanted | hnone) entry hentry htype
    · refine iff_of_true ?_ fun hboth =>
        (other_of_rawdataSolo hsolo hentry).notEventPostReply hboth.1
      rw [dmClientSubscribeAll, if_pos hsolo, hbudget.mem_loop]
      exact .inr ⟨entry, hentry, htype, rfl⟩
    · exact iff_of_true (topic_mem_of_wanted hbudget hwanted hentry htype)
        fun hboth => hwanted hboth.2
    · exact absurd (devType_and_eq_zero hnone hentry) htype

end Result

/-! ## Runs -/

/-- Every call succeeds at once. -/
def noFailures : Calls where
  mallocOk _ := true
  subscribeOk _ _ := true
  unsubscribeOk := true

theorem noFailures_withinBudget : noFailures.WithinBudget where
  mallocOk _ := rfl
  subscribeOk _ := ⟨0, by decide, rfl⟩

/-- A gateway whose user wants replies to events. -/
theorem subscribesAll_gateway :
    SubscribesAll ⟨false, true, true⟩ 1 (.ofArray (ascii "pk")) (.ofArray (ascii "dk"))
      iotxDmDeviceGateway
      (dmClientSubscribeAll ⟨false, true, true⟩ noFailures 1 (.ofArray (ascii "pk"))
        (.ofArray (ascii "dk")) iotxDmDeviceGateway []) :=
  (subscribesAll_iff ⟨false, true, true⟩ noFailures 1 (.ofArray (ascii "pk"))
    (.ofArray (ascii "dk")) iotxDmDeviceGateway [] noFailures_withinBudget).mpr
    (.inr (.inl (by decide)))

/-- With the option left as it is, a gateway is not subscribed to the commands that set
measurepoints, and to the replies to events it is. -/
theorem not_subscribesAll_default :
    ¬ SubscribesAll ⟨false, true, true⟩ 0 (.ofArray (ascii "pk")) (.ofArray (ascii "dk"))
      iotxDmDeviceGateway
      (dmClientSubscribeAll ⟨false, true, true⟩ noFailures 0 (.ofArray (ascii "pk"))
        (.ofArray (ascii "dk")) iotxDmDeviceGateway []) := by
  intro hmeant
  have hentry : measurepointSetEntry ∈ gDmClientUriMap ⟨false, true, true⟩ := List.mem_cons_self
  have hwanted := (hmeant measurepointSetEntry hentry (by decide)).mpr
    fun hboth => eventPostReply_ne_measurepointSet hboth.1.symm
  exact measurepointSet_not_mem noFailures_withinBudget rfl rfl hwanted

end EnosDeviceSdk.DevModel.ClientSubscribe
