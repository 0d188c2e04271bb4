/-
# From a received topic to one callback for one device

The device model subscribes to the topics of a table for every device, each with the callback
of its entry, and all of them end up in the one table of handlers of the MQTT client. A message is
given to every handler whose filter the delivery test selects, and the callback then takes the keys
of the device from the topic.

Topics of different devices differ in a literal level, and so do topics of different entries. So
among all that the device model ever subscribes to, at most one handler gets a message. It is the
one of the device that the topic names, and its callback finds the keys of this device in the topic.

As in the modules that this rests on, the build is the default one, without `WITH_MQTT_ZIP_TOPIC`.
-/

import EnosDeviceSdk.DevModel.ClientSubscribe
import EnosDeviceSdk.Mqtt.LevelPatterns
import EnosDeviceSdk.Mqtt.SubscribeRun
import Mathlib.Data.List.Perm.Subperm

namespace EnosDeviceSdk.DevModel.Dispatch

open EnosDeviceSdk.Infra EnosDeviceSdk.Library EnosDeviceSdk.Mqtt ClientSubscribe

/-! ## The callbacks of the table -/

/-- The callbacks of `g_dm_client_uri_map`. -/
inductive DmClientCallback
  | thingMeasurepointSet | thingServiceInvoke | thingReply | thingModelDownRaw
  | thingModelUpRawReply | thingDeviceRegisterReply | thingTopoAddReply | thingTopoDeleteReply
  | thingTopoGetReply | combineLoginReply | combineLoginBatchReply | combineLogoutReply
  | thingDisable | thingEnable | thingDelete | combineDisable | combineEnable | combineDelete
  deriving DecidableEq

/-- The callbacks of the entries before those for resuming. -/
def thingCallbacks : List (DmClientUriMap × DmClientCallback) :=
  thingEntries.zip (.thingServiceInvoke :: List.replicate 8 .thingReply)

/-- The callbacks of the entries for resuming. -/
def resumeCallbacks : List (DmClientUriMap × DmClientCallback) :=
  resumeEntries.zip [.thingReply, .thingReply]

/-- The callbacks of the entries for raw data. -/
def rawCallbacks : List (DmClientUriMap × DmClientCallback) :=
  rawEntries.zip [.thingModelDownRaw, .thingModelUpRawReply]

/-- The callbacks of the entries for a gateway. -/
def gatewayCallbacks : List (DmClientUriMap × DmClientCallback) :=
  gatewayEntries.zip [.thingDeviceRegisterReply, .thingTopoAddReply, .thingTopoDeleteReply,
    .thingTopoGetReply, .combineLoginReply, .combineLoginBatchReply, .combineLogoutReply,
    .thingDisable, .thingEnable, .thingDelete, .combineDisable, .combineEnable, .combineDelete]

/-- `g_dm_client_uri_map` with its callbacks. -/
def callbackMap (build : Build) : List (DmClientUriMap × DmClientCallback) :=
  (if build.rawdataSolo then []
  else (measurepointSetEntry, .thingMeasurepointSet) :: (thingCallbacks ++
    (if build.measurepointResume then resumeCallbacks else []) ++
      [(eventPostReplyEntry, .thingReply)])) ++
  rawCallbacks ++ (if build.gateway then gatewayCallbacks else [])

/-- The table is the one that is subscribed to. -/
theorem map_fst_callbackMap (build : Build) :
    (callbackMap build).map Prod.fst = gDmClientUriMap build := by
  obtain ⟨solo, resume, gateway⟩ := build
  cases solo <;> cases resume <;> cases gateway <;> rfl

/-- The table with all options. -/
def fullMap : List (DmClientUriMap × DmClientCallback) := callbackMap ⟨false, true, true⟩

theorem callbackMap_sublist (build : Build) : (callbackMap build).Sublist fullMap := by
  have hoption (option : Bool) (part : List (DmClientUriMap × DmClientCallback)) :
      (if option then part else []).Sublist part := by
    cases option
    · exact List.nil_sublist part
    · exact List.Sublist.refl part
  rw [fullMap, callbackMap, callbackMap]
  refine (List.Sublist.append ?_ (List.Sublist.refl _)).append (hoption _ _)
  rw [if_neg (by decide : ¬(Build.mk false true true).rawdataSolo = true)]
  split
  · exact List.nil_sublist _
  · exact (((List.Sublist.refl _).append (hoption _ _)).append (List.Sublist.refl _)).cons_cons _

/-- What the delivery test sees of an entry. -/
def pattern (pair : DmClientUriMap × DmClientCallback) : UriPrefix × List (List UInt8) :=
  (pair.1.uriPrefix, topicLevels pair.1.uriName.bytes)

/-- No name agrees with two entries that have the same prefix. -/
theorem fullMap_clash : (fullMap.map pattern).Pairwise fun first second =>
    first.1 = second.1 → compatible first.2 second.2 = false := by
  decide +kernel

/-- The levels of an entry are literals or single wildcards, and the first is a literal. -/
theorem fullMap_plain : ∀ pair ∈ fullMap.map pattern,
    (∀ level ∈ pair.2, PlainLevel level) ∧ pair.2.headD [] ≠ [] ∧
      WildcardFree (pair.2.headD []) := by
  decide +kernel

/-- Two members of a list are the same, or one stands before the other. -/
theorem eq_or_of_pairwise {α : Type} {relation : α → α → Prop} {list : List α}
    (hpairwise : list.Pairwise relation) {first second : α} (hfirst : first ∈ list)
    (hsecond : second ∈ list) :
    first = second ∨ relation first second ∨ relation second first := by
  induction hpairwise with
  | nil => simp at hfirst
  | @cons head tail hhead _ ih =>
      rw [List.mem_cons] at hfirst hsecond
      rcases hfirst with hfirst | hfirst
      · rcases hsecond with hsecond | hsecond
        · exact Or.inl (hfirst.trans hsecond.symm)
        · exact Or.inr (Or.inl (hfirst ▸ hhead second hsecond))
      · rcases hsecond with hsecond | hsecond
        · exact Or.inr (Or.inr (hsecond ▸ hhead first hfirst))
        · exact ih hfirst hsecond

/-- Entries with the same prefix that a name agrees with are the same, callback included. -/
theorem eq_of_levelsAgree {build : Build} {first second : DmClientUriMap × DmClientCallback}
    (hfirst : first ∈ callbackMap build) (hsecond : second ∈ callbackMap build)
    (hkinds : first.1.uriPrefix = second.1.uriPrefix) {names : List (List UInt8)}
    (hagree : LevelsAgree (topicLevels first.1.uriName.bytes) names)
    (hagree' : LevelsAgree (topicLevels second.1.uriName.bytes) names) : first = second := by
  have hsublist := (callbackMap_sublist build).subset
  rcases eq_or_of_pairwise (List.pairwise_map.mp fullMap_clash) (hsublist hfirst)
    (hsublist hsecond) with hsame | hclash | hclash
  · exact hsame
  · exact absurd (compatible_of_agree hagree hagree') (ne_true_of_eq_false (hclash hkinds))
  · exact absurd (compatible_of_agree hagree' hagree) (ne_true_of_eq_false (hclash hkinds.symm))

/-! ## The filters of devices -/

/-- A key can be a level of a topic. -/
structure CleanKey (key : CString) : Prop where
  slash : slash ∉ key.bytes
  free : WildcardFree key.bytes

/-- An entry of the table for a device. -/
structure Route (build : Build) where
  productKey : CString
  deviceKey : CString
  entry : DmClientUriMap
  callback : DmClientCallback
  listed : (entry, callback) ∈ callbackMap build
  productKey_clean : CleanKey productKey
  deviceKey_clean : CleanKey deviceKey

/-- The topic that is subscribed to for a device. -/
def topicOf (entry : DmClientUriMap) (productKey deviceKey : CString) : CString :=
  ⟨entry.topic productKey deviceKey, zero_not_mem_topic _ productKey deviceKey _⟩

/-- The levels of a prefix. -/
def prefixLevels : UriPrefix → List (List UInt8)
  | .sys => [[], ascii "sys"]
  | .extSession => [[], ascii "ext", ascii "session"]

/-- The levels in front of the name of the service. -/
def Route.levels {build : Build} (route : Route build) : List (List UInt8) :=
  prefixLevels route.entry.uriPrefix ++ [route.productKey.bytes, route.deviceKey.bytes]

/-- The filter of a route. -/
def Route.filter {build : Build} (route : Route build) : CString :=
  topicOf route.entry route.productKey route.deviceKey

/-- The topic name names the device and agrees with the entry. -/
def Route.Addressed {build : Build} (route : Route build) (topicName : List UInt8) : Prop :=
  ∃ service, topicName = route.entry.uriPrefix.start ++ route.productKey.bytes ++
      slash :: (route.deviceKey.bytes ++ slash :: service) ∧
    LevelsAgree (topicLevels route.entry.uriName.bytes) (topicLevels service)

section Routes

variable {build : Build}

theorem joined_prefixLevels (kind : UriPrefix) (later : List UInt8) :
    joined (prefixLevels kind) later = kind.start ++ later := by
  cases kind <;> rfl

theorem Route.joined_levels (route : Route build) (service : List UInt8) :
    joined route.levels service = route.entry.uriPrefix.start ++ route.productKey.bytes ++
      slash :: (route.deviceKey.bytes ++ slash :: service) := by
  have hkeys : joined [route.productKey.bytes, route.deviceKey.bytes] service =
      route.productKey.bytes ++ slash :: (route.deviceKey.bytes ++ slash :: service) := by
    simp [joined]
  have hsplit : joined route.levels service = joined (prefixLevels route.entry.uriPrefix)
      (joined [route.productKey.bytes, route.deviceKey.bytes] service) := by
    simp only [joined, Route.levels, List.flatMap_append, List.append_assoc]
  rw [hsplit, joined_prefixLevels, hkeys, List.append_assoc]

theorem Route.levels_spec (route : Route build) :
    ∀ level ∈ route.levels, slash ∉ level ∧ WildcardFree level := by
  have hkinds : ∀ level ∈ prefixLevels route.entry.uriPrefix, slash ∉ level ∧
      WildcardFree level := by
    cases route.entry.uriPrefix <;> decide
  intro level hlevel
  simp only [Route.levels, List.mem_append, List.mem_cons, List.not_mem_nil, or_false] at hlevel
  rcases hlevel with hlevel | rfl | rfl
  · exact hkinds level hlevel
  · exact ⟨route.productKey_clean.slash, route.productKey_clean.free⟩
  · exact ⟨route.deviceKey_clean.slash, route.deviceKey_clean.free⟩

theorem Route.plain (route : Route build) :
    (∀ level ∈ topicLevels route.entry.uriName.bytes, PlainLevel level) ∧
      (topicLevels route.entry.uriName.bytes).headD [] ≠ [] ∧
        WildcardFree ((topicLevels route.entry.uriName.bytes).headD []) :=
  fullMap_plain _ (List.mem_map_of_mem ((callbackMap_sublist build).subset route.listed))

theorem Route.topicLevels_filter (route : Route build) :
    topicLevels route.filter.bytes =
      route.levels ++ topicLevels route.entry.uriName.bytes := by
  rw [← topicLevels_joined fun level hlevel => (route.levels_spec level hlevel).1,
    route.joined_levels]
  rfl

/-- The delivery test selects the filter of a route for the names that are addressed to it. -/
theorem Route.selected_iff (route : Route build) (topicName : List UInt8) :
    topicSelected route.filter (receivedTopic topicName) = true ↔ route.Addressed topicName := by
  have hslash : ∀ level ∈ route.levels, slash ∉ level :=
    fun level hlevel => (route.levels_spec level hlevel).1
  have hfree : ∀ level ∈ route.levels, WildcardFree level :=
    fun level hlevel => (route.levels_spec level hlevel).2
  have hplain : ∀ level ∈ topicLevels route.filter.bytes, PlainLevel level := by
    rw [route.topicLevels_filter]
    intro level hlevel
    rcases List.mem_append.mp hlevel with hfront | hname
    · exact Or.inl (hfree level hfront)
    · exact route.plain.1 level hname
  rw [topicSelected_plain hplain, route.topicLevels_filter, levelsAgree_append hfree]
  constructor
  · rintro ⟨rest, htopic, hrest⟩
    have hne : rest ≠ [] := by
      rintro rfl
      cases hname : topicLevels route.entry.uriName.bytes with
      | nil => exact topicLevels_ne_nil _ hname
      | cons level levels =>
          rw [hname] at hrest
          cases hrest
    obtain ⟨service, rfl, rfl⟩ := exists_joined_of_topicLevels hne htopic
    exact ⟨service, route.joined_levels service, hrest⟩
  · rintro ⟨service, rfl, hservice⟩
    rw [← route.joined_levels, topicLevels_joined hslash]
    exact ⟨_, rfl, hservice⟩

/-- A topic name is addressed to one route at most: it names the device and the entry. -/
theorem Route.eq_of_addressed {first second : Route build} {topicName : List UInt8}
    (hfirst : first.Addressed topicName) (hsecond : second.Addressed topicName) :
    first = second := by
  obtain ⟨firstService, hfirstName, hfirstAgree⟩ := hfirst
  obtain ⟨secondService, hsecondName, hsecondAgree⟩ := hsecond
  have hlevels : first.levels ++ topicLevels firstService =
      second.levels ++ topicLevels secondService := by
    rw [← topicLevels_joined fun level hlevel => (first.levels_spec level hlevel).1,
      ← topicLevels_joined fun level hlevel => (second.levels_spec level hlevel).1,
      first.joined_levels, second.joined_levels, ← hfirstName, ← hsecondName]
  have hsame : first.entry.uriPrefix = second.entry.uriPrefix ∧
      first.productKey.bytes = second.productKey.bytes ∧
      first.deviceKey.bytes = second.deviceKey.bytes ∧
      topicLevels firstService = topicLevels secondService := by
    rw [Route.levels, Route.levels] at hlevels
    cases hkind : first.entry.uriPrefix <;> cases hkind' : second.entry.uriPrefix
    · simpa [hkind, hkind', prefixLevels] using hlevels
    · have hclash : ascii "sys" ≠ ascii "ext" := by decide
      simp [hkind, hkind', prefixLevels, hclash] at hlevels
    · have hclash : ascii "ext" ≠ ascii "sys" := by decide
      simp [hkind, hkind', prefixLevels, hclash] at hlevels
    · simpa [hkind, hkind', prefixLevels] using hlevels
  obtain ⟨hkinds, hproduct, hdevice, hservice⟩ := hsame
  rw [← hservice] at hsecondAgree
  have hentry := eq_of_levelsAgree first.listed second.listed hkinds hfirstAgree hsecondAgree
  obtain ⟨productKey, deviceKey, entry, callback⟩ := first
  obtain ⟨productKey', deviceKey', entry', callback'⟩ := second
  obtain rfl : productKey = productKey' := CString.ext hproduct
  obtain rfl : deviceKey = deviceKey' := CString.ext hdevice
  obtain ⟨rfl, rfl⟩ := Prod.mk.inj hentry
  rfl

/-- A topic begins with its first level. -/
theorem exists_eq_head_append (topic : List UInt8) :
    ∃ behind, topic = (topicLevels topic).headD [] ++ behind := by
  obtain ⟨level, behind, htopic, -, ⟨-, hsingle⟩ | ⟨later, -, hmore⟩⟩ := topicLevels_cases topic
  · exact ⟨behind, by rw [hsingle]; exact htopic⟩
  · exact ⟨behind, by rw [hmore]; exact htopic⟩

/-- A service that agrees with an entry begins with the first level of the name of the entry. -/
theorem Route.service_eq (route : Route build) {service : List UInt8}
    (hagree : LevelsAgree (topicLevels route.entry.uriName.bytes) (topicLevels service)) :
    ∃ behind, service = (topicLevels route.entry.uriName.bytes).headD [] ++ behind := by
  obtain ⟨behind, hservice⟩ := exists_eq_head_append service
  have hfree := route.plain.2.2
  refine ⟨behind, ?_⟩
  cases hnames : topicLevels route.entry.uriName.bytes with
  | nil => exact absurd hnames (topicLevels_ne_nil _)
  | cons level levels =>
      rw [hnames] at hagree hfree
      cases hlevels : topicLevels service with
      | nil => exact absurd hlevels (topicLevels_ne_nil _)
      | cons first later =>
          rw [hlevels] at hagree hservice
          have hfirst := (List.forall₂_cons.mp hagree).1
          rw [List.headD_cons] at hfree hservice ⊢
          rw [hfirst.eq_of_free hfree]
          exact hservice

/-- Something of the name of the service is left in the topic as the callback gets it, which ends at
the first terminator. -/
theorem Route.arrayText_service (route : Route build) {service : List UInt8}
    (hagree : LevelsAgree (topicLevels route.entry.uriName.bytes) (topicLevels service)) :
    arrayText service ≠ [] := by
  obtain ⟨behind, rfl⟩ := route.service_eq hagree
  obtain ⟨rest, hname⟩ := exists_eq_head_append route.entry.uriName.bytes
  have hnoNul : 0 ∉ (topicLevels route.entry.uriName.bytes).headD [] := by
    intro hzero
    apply route.entry.uriName.noNul
    rw [hname]
    exact List.mem_append_left rest hzero
  rw [arrayText_append hnoNul]
  exact List.append_ne_nil_of_left_ne_nil route.plain.2.1 _

/-- The callback finds the keys of the device in a topic that is addressed to the route. -/
theorem Route.hasKeys (route : Route build) (hsys : route.entry.uriPrefix = .sys)
    {topicName : List UInt8} (haddressed : route.Addressed topicName) :
    HasKeys (arrayText topicName) route.productKey.bytes route.deviceKey.bytes := by
  obtain ⟨service, rfl, hagree⟩ := haddressed
  have hfront : 0 ∉ ascii "/sys/" ++ route.productKey.bytes ++
      slash :: (route.deviceKey.bytes ++ [slash]) := by
    have hslash : (0 : UInt8) ≠ slash := by decide
    have hsysText : 0 ∉ ascii "/sys/" := by decide
    simp [route.productKey.noNul, route.deviceKey.noNul, hslash, hsysText]
  have htext := arrayText_append hfront service
  simp only [List.append_assoc, List.cons_append, List.nil_append] at htext
  refine ⟨ascii "/sys", arrayText service, ?_, by decide, route.productKey_clean.slash,
    route.deviceKey_clean.slash, route.arrayText_service hagree⟩
  rw [hsys, UriPrefix.start, List.append_assoc, htext]
  rfl

end Routes

/-! ## The table of handlers -/

section Table

variable {build : Build} (eventHandle : Nat) (address : DmClientCallback → Nat)

/-- The handler of a route. The function is `iotx_cloud_conn_mqtt_event_handle` for all of them, and
the callback of the entry is its context. -/
def Route.handle (route : Route build) : TopicHandle :=
  ⟨route.filter, eventHandle, address route.callback⟩

/-- A call of the device model: it subscribes along a route, or unsubscribes from a topic. -/
inductive RouteCall (build : Build)
  | subscribe (route : Route build) (qos : UInt8) (msgId : Nat) (env : SubscribeEnv)
  | unsubscribe (topicFilter : CString) (msgId : Nat) (env : SubscribeEnv)

/-- What `_mqtt_sub` and `_mqtt_unsub` make of it. -/
def RouteCall.tableCall : RouteCall build → TableCall
  | .subscribe route qos msgId env =>
      .subscribe route.filter qos msgId eventHandle (address route.callback) env
  | .unsubscribe topicFilter msgId env => .unsubscribe topicFilter msgId env

/-- The table has handlers of routes only, and each once. -/
structure HandlesOfRoutes (build : Build) (table : List TopicHandle) : Prop where
  nodup : table.Nodup
  route : ∀ handle ∈ table, ∃ route : Route build, handle = route.handle eventHandle address

variable {eventHandle address}

theorem HandlesOfRoutes.tableCall {c : Client}
    (htable : HandlesOfRoutes eventHandle address build c.listSubHandle)
    (call : RouteCall build) :
    HandlesOfRoutes eventHandle address build
      (tableStep c (call.tableCall eventHandle address)).listSubHandle := by
  cases call with
  | subscribe route qos msgId env =>
      rw [RouteCall.tableCall, tableStep, performTableCall, mqttSubscribe_listSubHandle]
      split
      · refine ⟨SubscribeRun.nodup_addHandle htable.nodup _, fun handle hhandle => ?_⟩
        rcases (mem_addHandle _ _ _).mp hhandle with hold | hnew
        · exact htable.route handle hold
        · exact ⟨route, hnew⟩
      · exact htable
  | unsubscribe topicFilter msgId env =>
      rw [RouteCall.tableCall, tableStep, performTableCall, mqttUnsubscribe_listSubHandle]
      split
      · rw [removeHandles]
        exact ⟨htable.nodup.filter _, fun handle hhandle =>
          htable.route handle (List.mem_of_mem_filter hhandle)⟩
      · exact htable

/-- The handlers stay those of routes over any calls of the device model. -/
theorem HandlesOfRoutes.run {start : Client} (calls : List (RouteCall build))
    (hstart : HandlesOfRoutes eventHandle address build start.listSubHandle) :
    HandlesOfRoutes eventHandle address build (runFrom tableStep start
      (calls.map (·.tableCall eventHandle address))).listSubHandle := by
  induction calls generalizing start with
  | nil => exact hstart
  | cons call calls ih => exact ih (hstart.tableCall call)

/-- The handlers that get a message. -/
def selectedHandles (table : List TopicHandle) (topicName : List UInt8) : List TopicHandle :=
  table.filter fun handle => topicSelected handle.topicFilter (receivedTopic topicName)

/-- Two handlers that get the same message are the same. -/
theorem HandlesOfRoutes.eq_of_selected {table : List TopicHandle}
    (htable : HandlesOfRoutes eventHandle address build table) {topicName : List UInt8}
    {first second : TopicHandle} (hfirst : first ∈ selectedHandles table topicName)
    (hsecond : second ∈ selectedHandles table topicName) : first = second := by
  obtain ⟨hfirst, hfirstSelected⟩ := List.mem_filter.mp hfirst
  obtain ⟨hsecond, hsecondSelected⟩ := List.mem_filter.mp hsecond
  obtain ⟨route, rfl⟩ := htable.route first hfirst
  obtain ⟨route', rfl⟩ := htable.route second hsecond
  rw [Route.eq_of_addressed ((route.selected_iff topicName).mp hfirstSelected)
    ((route'.selected_iff topicName).mp hsecondSelected)]

/-- At most one handler gets a message. -/
theorem HandlesOfRoutes.length_selectedHandles {table : List TopicHandle}
    (htable : HandlesOfRoutes eventHandle address build table) (topicName : List UInt8) :
    (selectedHandles table topicName).length ≤ 1 := by
  cases hselected : selectedHandles table topicName with
  | nil => exact Nat.zero_le 1
  | cons first rest =>
      have hnodup : (first :: rest).Nodup := hselected ▸ htable.nodup.filter _
      have hsubset : first :: rest ⊆ [first] := by
        intro handle hhandle
        rw [← hselected] at hhandle
        have hfirst : first ∈ selectedHandles table topicName := hselected ▸ List.mem_cons_self
        exact List.mem_singleton.mpr (htable.eq_of_selected hhandle hfirst)
      exact (hnodup.subperm hsubset).length_le

/-- For all calls of the device model and every topic name that arrives: at most one handler gets
the message. It is the handler of the entry and the device that the topic name is addressed to, and
its callback finds the keys of this device in the topic. -/
theorem dispatched {start : Client} (hstart : start.listSubHandle = [])
    (calls : List (RouteCall build)) (topicName : List UInt8) :
    let table := (runFrom tableStep start
      (calls.map (·.tableCall eventHandle address))).listSubHandle
    (selectedHandles table topicName).length ≤ 1 ∧
      (∀ handle ∈ selectedHandles table topicName, ∃ route : Route build,
        handle = route.handle eventHandle address ∧ route.Addressed topicName ∧
          (route.entry.uriPrefix = .sys → route.productKey.strlen ≤ iotxProductKeyLen →
            route.deviceKey.strlen ≤ iotxDeviceKeyLen →
              uriKeys (arrayText topicName) =
                .ok (route.productKey.stored (iotxProductKeyLen + 1),
                  route.deviceKey.stored (iotxDeviceKeyLen + 1)))) ∧
      ∀ route : Route build, route.handle eventHandle address ∈ table →
        route.Addressed topicName →
          selectedHandles table topicName = [route.handle eventHandle address] := by
  intro table
  have htable : HandlesOfRoutes eventHandle address build table :=
    HandlesOfRoutes.run calls ⟨by simp [hstart], by simp [hstart]⟩
  have hlength := htable.length_selectedHandles topicName
  refine ⟨hlength, fun handle hhandle => ?_, fun route hroute haddressed => ?_⟩
  · obtain ⟨hmem, hselected⟩ := List.mem_filter.mp hhandle
    obtain ⟨route, rfl⟩ := htable.route handle hmem
    have haddressed := (route.selected_iff topicName).mp hselected
    refine ⟨route, rfl, haddressed, fun hsys hproduct hdevice => ?_⟩
    exact (route.hasKeys hsys haddressed).uriKeys_of_fits (Nat.le_succ_of_le hproduct)
      (Nat.le_succ_of_le hdevice)
  · have hmem : route.handle eventHandle address ∈ selectedHandles table topicName :=
      List.mem_filter.mpr ⟨hroute, (route.selected_iff topicName).mpr haddressed⟩
    cases hselected : selectedHandles table topicName with
    | nil => simp [hselected] at hmem
    | cons first rest =>
        rw [hselected] at hmem hlength
        obtain rfl : rest = [] := by simpa using hlength
        rw [List.mem_singleton.mp hmem]

end Table

theorem cleanKey_letter {letter : UInt8} (hletter : WildcardFree [letter] ∧ slash ∉ [letter]) :
    CleanKey (.ofArray [letter]) := by
  have hbytes : (CString.ofArray [letter]).bytes ⊆ [letter] := List.takeWhile_subset _
  exact ⟨fun hslash => hletter.2 (hbytes hslash),
    fun hplus => hletter.1.1 (hbytes hplus), fun hhash => hletter.1.2 (hbytes hhash)⟩

/-- The route of raw data for the device `d` or another one of the product `p`. -/
def downRawRoute (letter : UInt8) (hletter : WildcardFree [letter] ∧ slash ∉ [letter]) :
    Route ⟨true, false, false⟩ where
  productKey := .ofArray [112]
  deviceKey := .ofArray [letter]
  entry := ⟨.ofArray (ascii "thing/model/down_raw"), .sys, iotxDmDeviceAll⟩
  callback := .thingModelDownRaw
  listed := List.mem_cons_self
  productKey_clean := cleanKey_letter (by decide)
  deviceKey_clean := cleanKey_letter hletter

/-- Two devices are subscribed, and one gets the message. -/
theorem dispatched_downRaw :
    selectedHandles (runFrom tableStep plainClient
      ([.subscribe (downRawRoute 100 (by decide)) 3 1 plainSubscribeEnv,
        .subscribe (downRawRoute 101 (by decide)) 3 2 plainSubscribeEnv].map
          (RouteCall.tableCall 7 (fun _ => 9) ·))).listSubHandle
        (ascii "/sys/p/d/thing/model/down_raw") =
      [(downRawRoute 100 (by decide)).handle 7 fun _ => 9] :=
  (dispatched rfl _ _).2.2 (downRawRoute 100 (by decide)) (by decide)
    ⟨ascii "thing/model/down_raw", by decide, levelsAgree_self (downRawRoute 100 _).plain.1⟩

end EnosDeviceSdk.DevModel.Dispatch
