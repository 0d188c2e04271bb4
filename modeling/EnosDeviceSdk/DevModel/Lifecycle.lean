/-
# The lifecycle of a sub-device

A sub-device is added to the topology of its gateway, logged in, logged out and deleted from the
topology. `dm_manager.c` sends the requests and enters each in the message cache, and the handlers
of `dm_message.c` write the status of a device when the cloud's replies come in, in whatever order
and however late.

Beside the manager and the cache the state has what the cloud has said so far: for every device
whether the last successful topology reply was a deletion, and whether it has a session. The
statuses agree with that as long as no deletion of a listed device succeeds, because the handler
gives a deleted device the status of an added one, and no session reply comes for a deleted device.
A reply that reports a failure never changes a device.
-/

import EnosDeviceSdk.DevModel.RegisterReply

namespace EnosDeviceSdk.DevModel

open EnosDeviceSdk.Infra EnosDeviceSdk.Library

/-- The number of the event in `iotx_dm_event_types_t`. -/
def ReplyEvent.number : ReplyEvent → Nat
  | .subdevRegisterReply => iotxDmEventSubdevRegisterReply
  | .topoAddReply => 26
  | .topoDeleteReply => 27
  | .combineLoginReply => 31
  | .combineLoginBatchReply => 32
  | .combineLogoutReply => 33

/-- `dm_mgr_get_dev_status` -/
def dmMgrGetDevStatus (ctx : DmMgrCtx) (devid : Int) : Option DevStatus :=
  if devid < 0 then none else (dmMgrSearchDevByDevid ctx devid).map DmMgrDevNode.devStatus

/-- A gateway: its devices, the requests that wait for replies, the counter of request ids, and
what requests and replies have said. `requested` has the device of the last request with an id. -/
structure Gateway where
  ctx : DmMgrCtx
  cache : DmMsgCacheCtx
  gReportId : Nat
  requested : Int → Option Int
  deleted : Int → Bool
  inSession : Int → Bool

/-- The requests of `dm_manager.c` for the device, known by the replies that they ask for.
`paramsOk` says whether the message can be built. -/
def upstreamRequest (gateway : Gateway) (kind : ReplyEvent) (devid : Int)
    (paramsOk mallocOk sendOk : Bool) (uptime : Nat) : Gateway :=
  if devid < 0 then gateway
  else
    match dmMgrSearchDevByDevid gateway.ctx devid with
    | none => gateway
    | some node =>
        if kind = .combineLogoutReply ∧ node.devStatus.toNat < DevStatus.logined.toNat then gateway
        else if !paramsOk then gateway
        else
          let msgid := iotxReportId gateway.gReportId
          let cache :=
            (dmMsgCacheInsert gateway.cache msgid devid kind.number none mallocOk uptime).2
          if sendOk then
            { gateway with
              cache := cache
              gReportId := gateway.gReportId + 1
              requested := Function.update gateway.requested msgid (some devid) }
          else
            { gateway with
              cache := (dmMsgCacheRemove cache msgid).2
              gReportId := gateway.gReportId + 1 }

/-- The handler of a reply, with what the register handler has around it. Where that runs over its
arrays there is no result, and the model goes on without one. -/
def handleReply (kind : ReplyEvent) (ctx : DmMgrCtx) (cache : DmMsgCacheCtx)
    (response : DmMsgResponsePayload) (surroundings : RegisterSurroundings) :
    DmMgrCtx × List ReplyMessage :=
  let single := fun (result : DmMgrCtx × Option ReplyMessage) => (result.1, result.2.toList)
  let queued := surroundings.queued 0
  match kind with
  | .subdevRegisterReply =>
      (dmMsgThingDeviceRegisterReply response surroundings ctx).getD (ctx, [])
  | .topoAddReply => single (dmMsgThingTopoAddReply ctx cache response queued)
  | .topoDeleteReply => single (dmMsgThingTopoDeleteReply ctx cache response queued)
  | .combineLoginReply => single (dmMsgCombineLoginReply ctx response surroundings.stack queued)
  | .combineLoginBatchReply =>
      single (dmMsgCombineLoginBatchReply ctx response surroundings.stack queued)
  | .combineLogoutReply => single (dmMsgCombineLogoutReply ctx response surroundings.stack queued)

/-- The id of a reply as the topology handlers and the cache read it. -/
def replyId (response : DmMsgResponsePayload) : Int :=
  atoi (padded (dmUtilsUint32Strlen + 1) response.id)

/-- The removal from the cache after the handler has run. -/
def removeReplied (cache : DmMsgCacheCtx) (response : DmMsgResponsePayload) : DmMsgCacheCtx :=
  if response.id.length > dmUtilsUint32Strlen then cache
  else (dmMsgCacheRemove cache (replyId response)).2

/-! ## What the cloud says -/

/-- The device that a reply to a topology request is about: that of the request. -/
def repliedDevid (gateway : Gateway) (response : DmMsgResponsePayload) : Option Int :=
  match dmMsgCacheSearch gateway.cache (replyId response) with
  | some node => some node.devid
  | none => gateway.requested (replyId response)

/-- The devices of an array, up to one that is not understood or not known. -/
def subdevDevids (ctx : DmMgrCtx) (src : List UInt8) (subdevs : LiteCjson) : List Nat → List Int
  | [] => []
  | index :: rest =>
      match subdevAt ctx src subdevs index with
      | none => []
      | some devid => devid :: subdevDevids ctx src subdevs rest

/-- The devices that a reply to a batch login calls logged in. -/
def loginedDevids (ctx : DmMgrCtx) (data : List UInt8) : List Int :=
  match jsonParse data with
  | none => []
  | some item =>
      match subdevArray data item (ascii "loginedSubDevices") with
      | none => []
      | some (subdevs, indices) => subdevDevids ctx data subdevs indices

/-- The listed devices that a reply is about. A registration makes new ones. -/
def aboutDevids (kind : ReplyEvent) (gateway : Gateway) (response : DmMsgResponsePayload) :
    List Int :=
  match kind with
  | .subdevRegisterReply => []
  | .topoAddReply | .topoDeleteReply => (repliedDevid gateway response).toList
  | .combineLoginReply | .combineLogoutReply =>
      (replyDevid gateway.ctx response.data).toList
  | .combineLoginBatchReply => loginedDevids gateway.ctx response.data

/-- Whether a device is deleted after a successful reply. -/
def deletedAfter (kind : ReplyEvent) (deleted : Bool) : Bool :=
  match kind with
  | .topoAddReply => false
  | .topoDeleteReply => true
  | .subdevRegisterReply | .combineLoginReply | .combineLoginBatchReply | .combineLogoutReply =>
      deleted

/-- Whether a device has a session after a successful reply. -/
def inSessionAfter (kind : ReplyEvent) (inSession : Bool) : Bool :=
  match kind with
  | .combineLoginReply | .combineLoginBatchReply => true
  | .combineLogoutReply | .topoDeleteReply => false
  | .subdevRegisterReply | .topoAddReply => inSession

/-- What is known of the devices after a reply. -/
def recordReply (kind : ReplyEvent) (gateway : Gateway) (response : DmMsgResponsePayload) :
    Gateway :=
  if response.code = iotxDmErrCodeSuccess then
    let about := aboutDevids kind gateway response
    { gateway with
      deleted := fun devid =>
        if devid ∈ about then deletedAfter kind (gateway.deleted devid) else gateway.deleted devid
      inSession := fun devid =>
        if devid ∈ about then inSessionAfter kind (gateway.inSession devid)
        else gateway.inSession devid }
  else gateway

/-- What happens to a gateway: a device is created, a request is sent, the cache is swept, or a
reply comes in. -/
inductive GatewayEvent
  | create (request : CreateRequest) (mallocOk : Bool)
  | request (kind : ReplyEvent) (devid : Int) (paramsOk mallocOk sendOk : Bool) (uptime : Nat)
  | tick (uptime : Nat)
  | reply (kind : ReplyEvent) (response : DmMsgResponsePayload)
      (surroundings : RegisterSurroundings)

/-- The gateway after an event. -/
def gatewayStep (gateway : Gateway) : GatewayEvent → Gateway
  | .create request mallocOk =>
      { gateway with ctx := (dmMgrDeviceCreate gateway.ctx request mallocOk).2.2 }
  | .request kind devid paramsOk mallocOk sendOk uptime =>
      upstreamRequest gateway kind devid paramsOk mallocOk sendOk uptime
  | .tick uptime => { gateway with cache := (dmMsgCacheTick gateway.cache uptime).1 }
  | .reply kind response surroundings =>
      { recordReply kind gateway response with
        ctx := (handleReply kind gateway.ctx gateway.cache response surroundings).1
        cache := removeReplied gateway.cache response }

/-- A gateway right after its initialisation. -/
def gatewayStart (ctx : DmMgrCtx) : Gateway :=
  ⟨ctx, dmMsgCacheInit, 0, fun _ => none, fun _ => false, fun _ => false⟩

/-- The status is one for what the cloud has said. -/
def Suits (deleted inSession : Bool) (status : DevStatus) : Prop :=
  (deleted = true → status.toNat < DevStatus.attached.toNat) ∧
    (status = .logined → inSession = true)

/-- A device that was deleted last is not attached, and one that is logged in has a session. -/
def FollowsLifecycle (gateway : Gateway) : Prop :=
  ∀ devid status, dmMgrGetDevStatus gateway.ctx devid = some status →
    Suits (gateway.deleted devid) (gateway.inSession devid) status

/-- A reply that reports a failure leaves the devices as they are. -/
def FailureKeeps (gateway : Gateway) : GatewayEvent → Prop
  | .reply kind response surroundings =>
      response.code ≠ iotxDmErrCodeSuccess →
        (gatewayStep gateway (.reply kind response surroundings)).ctx = gateway.ctx
  | .create _ _ | .request _ _ _ _ _ _ | .tick _ => True

/-- The handler of the reply writes a status. Those for topology requests do so only for an id in
the cache. -/
def appliesReply (kind : ReplyEvent) (cache : DmMsgCacheCtx) (response : DmMsgResponsePayload) :
    Bool :=
  match kind with
  | .topoAddReply | .topoDeleteReply =>
      response.id.length ≤ dmUtilsUint32Strlen && (dmMsgCacheSearch cache (replyId response)).isSome
  | .subdevRegisterReply | .combineLoginReply | .combineLoginBatchReply
  | .combineLogoutReply => true

/-- The status that the handler writes. -/
def writtenStatus : ReplyEvent → DevStatus
  | .combineLoginReply | .combineLoginBatchReply => .logined
  | .topoAddReply | .topoDeleteReply | .combineLogoutReply => .attached
  | .subdevRegisterReply => .registered

/-- A device may get a successful reply: a deletion only if the reply is not applied and the device
is not attached, one about a session only if the device is not deleted. -/
def MayFollow (kind : ReplyEvent) (applies deleted : Bool) (status : DevStatus) : Prop :=
  match kind with
  | .topoDeleteReply => applies = false ∧ status.toNat < DevStatus.attached.toNat
  | .combineLoginReply | .combineLoginBatchReply | .combineLogoutReply => deleted = false
  | .subdevRegisterReply | .topoAddReply => True

/-- An event is no successful reply, or every device that it is about may get it. -/
def InOrder (gateway : Gateway) : GatewayEvent → Prop
  | .reply kind response _ =>
      response.code = iotxDmErrCodeSuccess →
        ∀ devid ∈ aboutDevids kind gateway response, ∀ status,
          dmMgrGetDevStatus gateway.ctx devid = some status →
            MayFollow kind (appliesReply kind gateway.cache response) (gateway.deleted devid) status
  | .create _ _ | .request _ _ _ _ _ _ | .tick _ => True

/-! ## Statuses -/

/-- Writing a status changes that of one device. -/
theorem getDevStatus_setDevStatus (ctx : DmMgrCtx) (devid other : Int) (status : DevStatus) :
    dmMgrGetDevStatus (dmMgrSetDevStatus ctx devid status) other =
      if other = devid then (dmMgrGetDevStatus ctx other).map fun _ => status
      else dmMgrGetDevStatus ctx other := by
  have hkeeps : ∀ node : DmMgrDevNode,
      ({ node with devStatus := status } : DmMgrDevNode).devid = node.devid := fun _ => rfl
  unfold dmMgrGetDevStatus dmMgrSetDevStatus
  by_cases hnegative : other < 0
  · simp [hnegative]
  · by_cases hsame : other = devid
    · subst hsame
      simp only [hnegative, if_false, if_true, dmMgrSearchDevByDevid,
        find?_writeFirst_self hkeeps, Option.map_map]
      rfl
    · by_cases hvalid : devid < 0
      · simp [hsame, hvalid]
      · simp only [hnegative, if_false, hsame, hvalid, dmMgrSearchDevByDevid,
          find?_writeFirst_of_ne hkeeps hsame]

/-- Writing a status for several devices changes theirs. -/
theorem getDevStatus_foldl (devids : List Int) (status : DevStatus) (ctx : DmMgrCtx)
    (other : Int) :
    dmMgrGetDevStatus
        (devids.foldl (fun ctx devid => dmMgrSetDevStatus ctx devid status) ctx) other =
      if other ∈ devids then (dmMgrGetDevStatus ctx other).map fun _ => status
      else dmMgrGetDevStatus ctx other := by
  induction devids generalizing ctx with
  | nil => simp
  | cons devid rest ih =>
      rw [List.foldl_cons, ih, getDevStatus_setDevStatus]
      by_cases hlater : other ∈ rest
      · by_cases hsame : other = devid
        · simp [hsame, Option.map_map, Function.comp_def]
        · simp [hlater, hsame]
      · by_cases hsame : other = devid
        · simp [hsame, Option.map_map, Function.comp_def]
        · simp [hlater, hsame]

/-- Writing a status disturbs no search by keys. -/
theorem subdevDevid_setDevStatus (ctx : DmMgrCtx) (devid : Int) (status : DevStatus)
    (src : List UInt8) (item : LiteCjson) :
    subdevDevid (dmMgrSetDevStatus ctx devid status) src item = subdevDevid ctx src item := by
  have hsearch : ∀ productKey deviceKey,
      (dmMgrSearchDevByPkdk (dmMgrSetDevStatus ctx devid status) productKey deviceKey).map
          DmMgrDevNode.devid =
        (dmMgrSearchDevByPkdk ctx productKey deviceKey).map DmMgrDevNode.devid := by
    intro productKey deviceKey
    unfold dmMgrSetDevStatus
    split
    · rfl
    · apply map_find?_writeFirst
      · exact fun _ => rfl
      · exact fun _ => rfl
  unfold subdevDevid
  cases keyMember src item (ascii "productKey") iotxProductKeyLen with
  | none => rfl
  | some productKey =>
      cases keyMember src item (ascii "deviceKey") iotxDeviceKeyLen with
      | none => rfl
      | some deviceKey =>
          have hsame := hsearch productKey deviceKey
          rw [Option.map_eq_bind, Option.map_eq_bind] at hsame
          exact hsame

/-! ## What the handlers do to the devices -/

/-- A loop over devices visits those that it finds from the start. -/
theorem subdevLoop_fst {visit : DmMgrCtx → Int → DmMgrCtx} {src : List UInt8}
    (hvisit : ∀ ctx devid item, subdevDevid (visit ctx devid) src item = subdevDevid ctx src item)
    (subdevs : LiteCjson) (indices : List Nat) (ctx : DmMgrCtx) (devids : List Int) :
    (subdevLoop visit src subdevs indices ctx devids).1 =
      (subdevDevids ctx src subdevs indices).foldl visit ctx := by
  have hat : ∀ ctx devid index,
      subdevAt (visit ctx devid) src subdevs index = subdevAt ctx src subdevs index := by
    intro ctx devid index
    simp only [subdevAt, hvisit]
  have hall : ∀ ctx devid indices,
      subdevDevids (visit ctx devid) src subdevs indices =
        subdevDevids ctx src subdevs indices := by
    intro ctx devid indices
    induction indices with
    | nil => rfl
    | cons index rest ih => rw [subdevDevids, subdevDevids, hat, ih]
  induction indices generalizing ctx devids with
  | nil => rfl
  | cons index rest ih =>
      rw [subdevLoop, subdevDevids]
      cases subdevAt ctx src subdevs index with
      | none => rfl
      | some devid => exact (ih _ _).trans (by rw [hall]; rfl)

theorem subdevDevid_updateStatus (ctx : DmMgrCtx) (code devid : Int) (status : DevStatus)
    (src : List UInt8) (item : LiteCjson) :
    subdevDevid (updateStatus ctx code devid status) src item = subdevDevid ctx src item := by
  unfold updateStatus
  split
  · exact subdevDevid_setDevStatus ctx devid status src item
  · rfl

/-- The handler of a batch login visits the devices that the reply calls logged in. -/
theorem combineLoginBatchReply_fst (ctx : DmMgrCtx) (response : DmMsgResponsePayload)
    (stack : List UInt8) (queued : Bool) :
    (dmMsgCombineLoginBatchReply ctx response stack queued).1 =
      (loginedDevids ctx response.data).foldl
        (fun ctx devid => updateStatus ctx response.code devid .logined) ctx := by
  have hlook : ∀ ctx subdevs indices devids,
      (subdevLoop (fun ctx _ => ctx) response.data subdevs indices ctx devids).1 = ctx := by
    intro ctx subdevs indices devids
    rw [subdevLoop_fst (fun _ _ _ => rfl)]
    exact List.foldl_fixed' (fun _ => rfl) _
  unfold dmMsgCombineLoginBatchReply loginedDevids
  dsimp only
  cases jsonParse response.data with
  | none => rfl
  | some item =>
      dsimp only
      cases subdevArray response.data item (ascii "loginedSubDevices") with
      | none => rfl
      | some found =>
          dsimp only
          rw [← subdevLoop_fst (fun ctx devid item =>
            subdevDevid_updateStatus ctx response.code devid
            .logined response.data item) found.1 found.2 ctx []]
          split
          · split <;> exact hlook _ _ _ _
          · rfl

/-- A topology handler writes for the device of a cached request. -/
theorem topoReply_fst (event : ReplyEvent) (ctx : DmMgrCtx) (cache : DmMsgCacheCtx)
    (response : DmMsgResponsePayload) (queued : Bool) :
    (topoReply event ctx cache response queued).1 =
      if response.id.length ≤ dmUtilsUint32Strlen then
        match dmMsgCacheSearch cache (replyId response) with
        | none => ctx
        | some node => updateStatus ctx response.code node.devid .attached
      else ctx := by
  unfold topoReply replyId
  by_cases hlong : response.id.length ≤ dmUtilsUint32Strlen
  · rw [if_neg (Nat.not_lt.mpr hlong), if_pos hlong]
    dsimp only
    cases dmMsgCacheSearch cache (atoi (padded (dmUtilsUint32Strlen + 1) response.id)) with
    | none => rfl
    | some node => rfl
  · rw [if_pos (Nat.not_le.mp hlong), if_neg hlong]

/-- A session handler writes for the device that the reply names. -/
theorem sessionReply_fst (event : ReplyEvent) (status : DevStatus) (ctx : DmMgrCtx)
    (response : DmMsgResponsePayload) (stack : List UInt8) (queued : Bool) :
    (sessionReply event status ctx response stack queued).1 =
      (replyDevid ctx response.data).toList.foldl
        (fun ctx devid => updateStatus ctx response.code devid status) ctx := by
  unfold sessionReply
  cases replyDevid ctx response.data with
  | none => rfl
  | some devid => rfl

/-- The handler of a successful reply writes its status for the devices that it is about, or for
none. -/
theorem handleReply_ctx {kind : ReplyEvent} (hkind : kind ≠ .subdevRegisterReply)
    (gateway : Gateway) {response : DmMsgResponsePayload}
    (hcode : response.code = iotxDmErrCodeSuccess) (surroundings : RegisterSurroundings) :
    (handleReply kind gateway.ctx gateway.cache response surroundings).1 =
      (if appliesReply kind gateway.cache response then aboutDevids kind gateway response
        else []).foldl
          (fun ctx devid => dmMgrSetDevStatus ctx devid (writtenStatus kind)) gateway.ctx := by
  have hupdate : ∀ ctx devid status,
      updateStatus ctx response.code devid status = dmMgrSetDevStatus ctx devid status :=
    fun _ _ _ => if_pos hcode
  have htopo : ∀ event, (topoReply event gateway.ctx gateway.cache response
        (surroundings.queued 0)).1 =
      (if response.id.length ≤ dmUtilsUint32Strlen &&
          (dmMsgCacheSearch gateway.cache (replyId response)).isSome then
        (repliedDevid gateway response).toList else []).foldl
          (fun ctx devid => dmMgrSetDevStatus ctx devid .attached) gateway.ctx := by
    intro event
    refine (topoReply_fst _ _ _ _ _).trans ?_
    by_cases hlong : response.id.length ≤ dmUtilsUint32Strlen
    · cases hsearch : dmMsgCacheSearch gateway.cache (replyId response) with
      | none => simp
      | some node =>
          have hdevid : repliedDevid gateway response = some node.devid := by
            unfold repliedDevid
            rw [hsearch]
          simp [hlong, hupdate, hdevid]
    · simp [hlong]
  cases kind with
  | subdevRegisterReply => exact absurd rfl hkind
  | topoAddReply => exact htopo .topoAddReply
  | topoDeleteReply => exact htopo .topoDeleteReply
  | combineLoginReply | combineLogoutReply =>
      refine (sessionReply_fst _ _ _ _ _ _).trans ?_
      simp only [hupdate]
      rfl
  | combineLoginBatchReply =>
      refine (combineLoginBatchReply_fst _ _ _ _).trans ?_
      simp only [hupdate]
      rfl

/-- The handler of a reply that reports a failure writes nothing. -/
theorem handleReply_ctx_of_failure (kind : ReplyEvent) (ctx : DmMgrCtx) (cache : DmMsgCacheCtx)
    {response : DmMsgResponsePayload} (hcode : response.code ≠ iotxDmErrCodeSuccess)
    (surroundings : RegisterSurroundings) :
    (handleReply kind ctx cache response surroundings).1 = ctx := by
  have hupdate : ∀ ctx devid status, updateStatus ctx response.code devid status = ctx :=
    fun _ _ _ => if_neg hcode
  have htopo : ∀ event,
      (topoReply event ctx cache response (surroundings.queued 0)).1 = ctx := by
    intro event
    rw [topoReply_fst]
    split
    · split
      · rfl
      · exact hupdate _ _ _
    · rfl
  have hnothing : ∀ (devids : List Int) (status : DevStatus),
      devids.foldl (fun ctx devid => updateStatus ctx response.code devid status) ctx = ctx :=
    fun devids status => List.foldl_fixed' (fun devid => hupdate ctx devid status) devids
  cases kind with
  | subdevRegisterReply =>
      unfold handleReply dmMsgThingDeviceRegisterReply
      dsimp only
      rw [if_pos hcode]
      cases registerMessage response surroundings 0 (surroundings.queued 0) with
      | none => rfl
      | some messages => rfl
  | topoAddReply => exact htopo .topoAddReply
  | topoDeleteReply => exact htopo .topoDeleteReply
  | combineLoginReply | combineLogoutReply =>
      exact (sessionReply_fst _ _ _ _ _ _).trans (hnothing _ _)
  | combineLoginBatchReply => exact (combineLoginBatchReply_fst _ _ _ _).trans (hnothing _ _)

/-- The status of a device after a successful reply that is about it. -/
def statusAfter (kind : ReplyEvent) (applies : Bool) (status : DevStatus) : DevStatus :=
  if applies then writtenStatus kind else status

theorem handleReply_status {kind : ReplyEvent} (hkind : kind ≠ .subdevRegisterReply)
    (gateway : Gateway) {response : DmMsgResponsePayload}
    (hcode : response.code = iotxDmErrCodeSuccess) (surroundings : RegisterSurroundings)
    (devid : Int) :
    dmMgrGetDevStatus
        (handleReply kind gateway.ctx gateway.cache response surroundings).1 devid =
      if devid ∈ aboutDevids kind gateway response then
        (dmMgrGetDevStatus gateway.ctx devid).map
          (statusAfter kind (appliesReply kind gateway.cache response))
      else dmMgrGetDevStatus gateway.ctx devid := by
  rw [handleReply_ctx hkind gateway hcode, getDevStatus_foldl]
  cases appliesReply kind gateway.cache response with
  | true => rfl
  | false =>
      rw [if_neg (by simp)]
      split
      · exact Option.map_id'.symm
      · rfl

/-- A status that suits a device goes on to do so exactly if the device may get the reply. -/
theorem suits_after_iff {kind : ReplyEvent} {applies deleted inSession : Bool}
    {status : DevStatus}
    (happlies : kind ≠ .topoAddReply → kind ≠ .topoDeleteReply → applies = true)
    (hsuits : Suits deleted inSession status) :
    Suits (deletedAfter kind deleted) (inSessionAfter kind inSession)
        (statusAfter kind applies status) ↔
      MayFollow kind applies deleted status := by
  obtain ⟨_, hsession⟩ := hsuits
  have hbelow : status.toNat < DevStatus.attached.toNat → status ≠ .logined := by
    rintro hlow rfl
    exact absurd hlow (by decide)
  cases kind with
  | subdevRegisterReply =>
      have happlied := happlies nofun nofun
      simp [Suits, MayFollow, deletedAfter, statusAfter, writtenStatus, happlied,
        DevStatus.toNat]
  | topoAddReply =>
      cases applies with
      | true => simp [Suits, MayFollow, deletedAfter, statusAfter, writtenStatus]
      | false =>
          simpa [Suits, MayFollow, deletedAfter, inSessionAfter, statusAfter] using hsession
  | topoDeleteReply =>
      cases applies with
      | true => simp [Suits, MayFollow, deletedAfter, statusAfter, writtenStatus]
      | false => simpa [Suits, MayFollow, deletedAfter, inSessionAfter, statusAfter] using hbelow
  | combineLoginReply | combineLoginBatchReply | combineLogoutReply =>
      have happlied := happlies nofun nofun
      simp [Suits, MayFollow, deletedAfter, inSessionAfter, statusAfter, writtenStatus, happlied,
        DevStatus.toNat]

/-! ## New devices -/

/-- Every status is one from before or lies below that of an attached device. -/
def AddsBelow (before after : DmMgrCtx) : Prop :=
  ∀ devid status, dmMgrGetDevStatus after devid = some status →
    dmMgrGetDevStatus before devid = some status ∨ status.toNat < DevStatus.attached.toNat

theorem AddsBelow.refl (ctx : DmMgrCtx) : AddsBelow ctx ctx := fun _ _ hstatus => Or.inl hstatus

theorem AddsBelow.trans {first second third : DmMgrCtx} (hfirst : AddsBelow first second)
    (hsecond : AddsBelow second third) : AddsBelow first third := by
  intro devid status hstatus
  rcases hsecond devid status hstatus with hbefore | hbelow
  · exact hfirst devid status hbefore
  · exact Or.inr hbelow

theorem addsBelow_setDevStatus (ctx : DmMgrCtx) (devid : Int) {status : DevStatus}
    (hbelow : status.toNat < DevStatus.attached.toNat) :
    AddsBelow ctx (dmMgrSetDevStatus ctx devid status) := by
  intro other found hfound
  rw [getDevStatus_setDevStatus] at hfound
  split at hfound
  · obtain ⟨_, _, rfl⟩ := Option.map_eq_some_iff.mp hfound
    exact Or.inr hbelow
  · exact Or.inl hfound

theorem addsBelow_link (globalDevid : Int) (ctx : DmMgrCtx) {node : DmMgrDevNode}
    (hnode : node.devStatus.toNat < DevStatus.attached.toNat) :
    AddsBelow ctx ⟨globalDevid, ctx.devList ++ [node]⟩ := by
  intro devid status hstatus
  unfold dmMgrGetDevStatus at hstatus ⊢
  split at hstatus
  · exact absurd hstatus nofun
  · next hvalid =>
    obtain ⟨found, hfound, rfl⟩ := Option.map_eq_some_iff.mp hstatus
    rw [dmMgrSearchDevByDevid, List.find?_append, Option.or_eq_some_iff] at hfound
    rcases hfound with hold | ⟨_, hnew⟩
    · rw [if_neg hvalid, dmMgrSearchDevByDevid, hold]
      exact Or.inl rfl
    · obtain rfl := List.mem_singleton.mp (List.mem_of_find?_eq_some hnew)
      exact Or.inr hnode

/-- A device that is created is authorized. -/
theorem addsBelow_create (ctx : DmMgrCtx) (request : CreateRequest) (mallocOk : Bool) :
    AddsBelow ctx (dmMgrDeviceCreate ctx request mallocOk).2.2 := by
  unfold dmMgrDeviceCreate
  split
  · split
    · exact AddsBelow.refl ctx
    · split
      · exact AddsBelow.refl ctx
      · split
        · exact AddsBelow.refl ctx
        · split
          · exact AddsBelow.refl ctx
          · apply addsBelow_link _ ctx
            dsimp only
            decide
  · exact AddsBelow.refl ctx

/-- The gateway's own device is unauthorized. -/
theorem addsBelow_insertDev (ctx : DmMgrCtx) (devid devType : Int)
    (productKey deviceKey : CString) (mallocOk : Bool) :
    AddsBelow ctx (dmMgrInsertDev ctx devid devType productKey deviceKey mallocOk).2 := by
  unfold dmMgrInsertDev
  split
  · exact AddsBelow.refl ctx
  · split
    · exact AddsBelow.refl ctx
    · split
      · exact AddsBelow.refl ctx
      · split
        · exact AddsBelow.refl ctx
        · apply addsBelow_link _ ctx
          dsimp only
          decide

theorem addsBelow_setDeviceSecret (ctx : DmMgrCtx) (devid : Int) (secret : CString) :
    AddsBelow ctx (dmMgrSetDeviceSecret ctx devid secret).2 := by
  unfold dmMgrSetDeviceSecret
  split
  · exact AddsBelow.refl ctx
  · split
    · exact AddsBelow.refl ctx
    · intro other status hstatus
      refine Or.inl ?_
      unfold dmMgrGetDevStatus at hstatus ⊢
      split at hstatus
      · cases hstatus
      · next hvalid =>
        rw [if_neg hvalid]
        refine (map_find?_writeFirst ?_ ?_ _ _).symm.trans hstatus
        · exact fun _ => rfl
        · exact fun _ => rfl

/-- A turn of the registration leaves the statuses of the other devices. -/
theorem addsBelow_registerItem {response : DmMsgResponsePayload}
    {surroundings : RegisterSurroundings} {src : List UInt8} {lite : LiteCjson}
    {state next : RegisterState} {index : Nat}
    (hnext : registerItem response surroundings src lite state index = some next) :
    AddsBelow state.ctx next.ctx := by
  unfold registerItem at hnext
  split at hnext
  · obtain rfl := Option.some.inj hnext
    exact AddsBelow.refl _
  · obtain ⟨productKey, _, hnext⟩ := Option.bind_eq_some_iff.mp hnext
    obtain ⟨deviceKey, _, hnext⟩ := Option.bind_eq_some_iff.mp hnext
    obtain ⟨deviceSecret, _, hnext⟩ := Option.bind_eq_some_iff.mp hnext
    have hcreate := addsBelow_create state.ctx
      { devType := iotxDmDeviceSubdev
        productKey := some (.ofArray productKey)
        productSecret := some .empty
        deviceKey := some (.ofArray deviceKey)
        deviceSecret := some (.ofArray deviceSecret) } (surroundings.createOk index)
    have hstatus : ∀ ctx devid,
        AddsBelow ctx (updateStatus ctx response.code devid .registered) := by
      intro ctx devid
      unfold updateStatus
      split
      · exact addsBelow_setDevStatus ctx devid (by decide)
      · exact AddsBelow.refl ctx
    have hwrites := fun devid => (hcreate.trans (hstatus _ devid)).trans
      (addsBelow_setDeviceSecret _ devid (.ofArray deviceSecret))
    simp only [registerDevice] at hnext
    split at hnext
    · obtain rfl := Option.some.inj hnext
      exact hcreate
    · split at hnext
      · obtain rfl := Option.some.inj hnext
        exact hwrites _
      · obtain ⟨messages, _, hnext⟩ := Option.bind_eq_some_iff.mp hnext
        obtain rfl := Option.some.inj hnext
        exact hwrites _

/-- A registration adds devices that are not attached. -/
theorem addsBelow_registerReply (response : DmMsgResponsePayload)
    (surroundings : RegisterSurroundings) (ctx : DmMgrCtx) :
    AddsBelow ctx
      ((dmMsgThingDeviceRegisterReply response surroundings ctx).getD (ctx, [])).1 := by
  have hloop : ∀ {src lite indices} {state final : RegisterState},
      registerLoop response surroundings src lite indices state = some final →
        AddsBelow state.ctx final.ctx := by
    intro src lite indices state final hfinal
    induction indices generalizing state with
    | nil =>
        obtain rfl := Option.some.inj hfinal
        exact AddsBelow.refl _
    | cons index rest ih =>
        obtain ⟨next, hnext, hrest⟩ := Option.bind_eq_some_iff.mp hfinal
        exact (addsBelow_registerItem hnext).trans (ih hrest)
  cases hreply : dmMsgThingDeviceRegisterReply response surroundings ctx with
  | none => exact AddsBelow.refl ctx
  | some result =>
      rw [Option.getD_some]
      unfold dmMsgThingDeviceRegisterReply at hreply
      split at hreply
      · obtain ⟨_, _, rfl⟩ := Option.map_eq_some_iff.mp hreply
        exact AddsBelow.refl ctx
      · split at hreply
        · obtain rfl := Option.some.inj hreply
          exact AddsBelow.refl ctx
        · split at hreply
          · obtain rfl := Option.some.inj hreply
            exact AddsBelow.refl ctx
          · obtain ⟨final, hfinal, rfl⟩ := Option.map_eq_some_iff.mp hreply
            exact hloop hfinal

/-! ## Runs -/

/-- Devices with statuses that suit what the cloud has said go on to do so when others are added. -/
theorem FollowsLifecycle.of_addsBelow {gateway next : Gateway} (hfollows : FollowsLifecycle gateway)
    (hctx : AddsBelow gateway.ctx next.ctx) (hdeleted : next.deleted = gateway.deleted)
    (hsession : next.inSession = gateway.inSession) : FollowsLifecycle next := by
  intro devid status hstatus
  rw [hdeleted, hsession]
  rcases hctx devid status hstatus with hbefore | hbelow
  · exact hfollows devid status hbefore
  · refine ⟨fun _ => hbelow, ?_⟩
    rintro rfl
    exact absurd hbelow (by decide)

/-- A request is no reply. -/
theorem upstreamRequest_keeps (gateway : Gateway) (kind : ReplyEvent) (devid : Int)
    (paramsOk mallocOk sendOk : Bool) (uptime : Nat) :
    let next := upstreamRequest gateway kind devid paramsOk mallocOk sendOk uptime
    next.ctx = gateway.ctx ∧ next.deleted = gateway.deleted ∧
      next.inSession = gateway.inSession := by
  unfold upstreamRequest
  dsimp only
  split
  · exact ⟨rfl, rfl, rfl⟩
  · split
    · exact ⟨rfl, rfl, rfl⟩
    · split
      · exact ⟨rfl, rfl, rfl⟩
      · split
        · exact ⟨rfl, rfl, rfl⟩
        · split <;> exact ⟨rfl, rfl, rfl⟩

/-- A successful reply keeps to the lifecycle exactly if all devices that it is about may get it. -/
theorem followsLifecycle_success_iff {kind : ReplyEvent} (hkind : kind ≠ .subdevRegisterReply)
    {gateway : Gateway} {response : DmMsgResponsePayload}
    (hcode : response.code = iotxDmErrCodeSuccess) (surroundings : RegisterSurroundings)
    (hfollows : FollowsLifecycle gateway) :
    FollowsLifecycle (gatewayStep gateway (.reply kind response surroundings)) ↔
      InOrder gateway (.reply kind response surroundings) := by
  have happlies : kind ≠ .topoAddReply → kind ≠ .topoDeleteReply →
      appliesReply kind gateway.cache response = true := by
    intro hadd hdelete
    cases kind with
    | topoAddReply => exact absurd rfl hadd
    | topoDeleteReply => exact absurd rfl hdelete
    | subdevRegisterReply | combineLoginReply | combineLoginBatchReply
    | combineLogoutReply => rfl
  have hstatus := handleReply_status hkind gateway hcode surroundings
  simp only [FollowsLifecycle, gatewayStep, recordReply, hcode, if_true, InOrder, hstatus,
    true_imp_iff]
  constructor
  · intro hnext devid habout status hbefore
    have hsuits := hnext devid (statusAfter kind (appliesReply kind gateway.cache response) status)
    rw [if_pos habout, if_pos habout, if_pos habout, hbefore] at hsuits
    exact (suits_after_iff happlies (hfollows devid status hbefore)).mp (hsuits rfl)
  · intro hmay devid status hafter
    by_cases habout : devid ∈ aboutDevids kind gateway response
    · rw [if_pos habout] at hafter
      rw [if_pos habout, if_pos habout]
      obtain ⟨before, hbefore, rfl⟩ := Option.map_eq_some_iff.mp hafter
      exact (suits_after_iff happlies (hfollows devid before hbefore)).mpr
        (hmay devid habout before hbefore)
    · rw [if_neg habout] at hafter
      rw [if_neg habout, if_neg habout]
      exact hfollows devid status hafter

/-- An event keeps to the lifecycle exactly if it is in order. -/
theorem followsLifecycle_step_iff {gateway : Gateway} (hfollows : FollowsLifecycle gateway)
    (event : GatewayEvent) :
    FollowsLifecycle (gatewayStep gateway event) ↔ InOrder gateway event := by
  cases event with
  | create request mallocOk =>
      exact iff_of_true
        (hfollows.of_addsBelow (addsBelow_create gateway.ctx request mallocOk) rfl rfl) trivial
  | request kind devid paramsOk mallocOk sendOk uptime =>
      obtain ⟨hctx, hdeleted, hsession⟩ :=
        upstreamRequest_keeps gateway kind devid paramsOk mallocOk sendOk uptime
      refine iff_of_true (hfollows.of_addsBelow ?_ hdeleted hsession) trivial
      rw [gatewayStep, hctx]
      exact AddsBelow.refl _
  | tick uptime =>
      exact iff_of_true (hfollows.of_addsBelow (AddsBelow.refl _) rfl rfl) trivial
  | reply kind response surroundings =>
      by_cases hcode : response.code = iotxDmErrCodeSuccess
      · by_cases hkind : kind = .subdevRegisterReply
        · subst hkind
          refine iff_of_true ?_ fun _ _ hmem => absurd hmem List.not_mem_nil
          apply hfollows.of_addsBelow (addsBelow_registerReply response surroundings gateway.ctx)
          · simp [gatewayStep, recordReply, aboutDevids]
          · simp [gatewayStep, recordReply, aboutDevids]
        · exact followsLifecycle_success_iff hkind hcode surroundings hfollows
      · refine iff_of_true (hfollows.of_addsBelow ?_ ?_ ?_) fun hsuccess => absurd hsuccess hcode
        · rw [gatewayStep, handleReply_ctx_of_failure kind _ _ hcode]
          exact AddsBelow.refl _
        · simp [gatewayStep, recordReply, hcode]
        · simp [gatewayStep, recordReply, hcode]

theorem failureKeeps (gateway : Gateway) (event : GatewayEvent) : FailureKeeps gateway event := by
  cases event with
  | create request mallocOk => trivial
  | request kind devid paramsOk mallocOk sendOk uptime => trivial
  | tick uptime => trivial
  | reply kind response surroundings =>
      intro hcode
      exact handleReply_ctx_of_failure kind _ _ hcode surroundings

/-- The gateway itself is not attached to anything. -/
theorem followsLifecycle_start {productKey deviceKey : CString} {mutexOk mallocOk : Bool}
    {ctx : DmMgrCtx}
    (hinit : dmMgrInit productKey deviceKey mutexOk mallocOk = (successReturn, some ctx)) :
    FollowsLifecycle (gatewayStart ctx) := by
  have hctx : ctx = (dmMgrInsertDev ⟨iotxDmLocalNodeDevid + 1, []⟩ iotxDmLocalNodeDevid
      iotxDmDeviceType productKey deviceKey mallocOk).2 := by
    cases mutexOk with
    | false => simp [dmMgrInit] at hinit
    | true =>
        simp only [dmMgrInit, Bool.not_true, Bool.false_eq_true, if_false] at hinit
        split at hinit
        · simp at hinit
        · simpa using hinit.symm
  have hadds := addsBelow_insertDev ⟨iotxDmLocalNodeDevid + 1, []⟩ iotxDmLocalNodeDevid
    iotxDmDeviceType productKey deviceKey mallocOk
  rw [← hctx] at hadds
  intro devid status hstatus
  rcases hadds devid status hstatus with hnone | hbelow
  · simp [dmMgrGetDevStatus, dmMgrSearchDevByDevid] at hnone
  · refine ⟨fun hdeleted => absurd hdeleted (by simp [gatewayStart]), ?_⟩
    rintro rfl
    exact absurd hbelow (by decide)

/-- A reply that is no deletion is in order for devices that are not deleted. -/
theorem inOrder_of_not_deleted (kind : ReplyEvent) (hkind : kind ≠ .topoDeleteReply)
    {gateway : Gateway} {response : DmMsgResponsePayload} (surroundings : RegisterSurroundings)
    (hpresent : ∀ devid ∈ aboutDevids kind gateway response, gateway.deleted devid = false) :
    InOrder gateway (.reply kind response surroundings) := by
  intro _ devid habout status _
  cases kind with
  | topoDeleteReply => exact absurd rfl hkind
  | subdevRegisterReply | topoAddReply => trivial
  | combineLoginReply | combineLoginBatchReply | combineLogoutReply => exact hpresent devid habout

/-- A device with product key `p` and device key `d` is created and added to the topology. -/
def addDevice : List GatewayEvent :=
  [.create subdevRequest true,
    .request .topoAddReply 1 true true true 0,
    .reply .topoAddReply ⟨ascii "0", 200, [], []⟩ plentiful]

/-- The keys of the device. -/
def deviceKeys : List UInt8 :=
  ascii "\x7b\"productKey\":\"p\",\"deviceKey\":\"d\"\x7d"

end EnosDeviceSdk.DevModel
