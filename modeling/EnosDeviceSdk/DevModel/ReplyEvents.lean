/-
# From the reply to the caller that waits for it

The handler of a reply prints an event with the id, the code and the device id into a JSON text.
The dispatcher reads the text back, takes the numbers, and posts the caller that waits for the id.
What was printed is read back in every case.

A caller is posted exactly when there is an event. A topology reply has one if its request is in
the cache, and a reply to a login or a logout if its data has the keys of a known device. The event
of a batch login has no case in the dispatcher. The session handlers read the id from a buffer
without room for a terminator, so that an id of ten digits is read together with what lies behind.
-/

import EnosDeviceSdk.DevModel.Lifecycle

namespace EnosDeviceSdk.DevModel

open EnosDeviceSdk.Infra EnosDeviceSdk.Library

/-- `value_int` of a member of an event, if it is a number. -/
def eventNumber (payload key : List UInt8) : Option Int := do
  let lite ← jsonParse payload
  let text ← jsonMember payload lite key .number
  return valueInt text

/-- `_iotx_enos_event_callback` on the events of replies, as far as the callers in the list are
concerned. The case of a registration does not look at the types of the members, and an item that
was not found is zeroed. -/
def iotxEnosEventCallback (list : List SyncNode) (message : ReplyMessage) : List SyncNode :=
  let id := eventNumber message.payload (ascii "id")
  let devid := eventNumber message.payload (ascii "devid")
  let code := eventNumber message.payload (ascii "code")
  match message.event with
  | .subdevRegisterReply =>
      if (jsonParse message.payload).isNone then list
      else handleReplyEvent list message.event (id.getD 0) (code.getD 0)
  | .topoDeleteReply | .topoAddReply | .combineLoginReply | .combineLogoutReply =>
      match id, devid, code with
      | some id, some _, some code => handleReplyEvent list message.event id code
      | _, _, _ => list
  | .combineLoginBatchReply => list

/-- The list after the handler of a reply has run and its event was dispatched. -/
def listAfterReply (list : List SyncNode) (kind : ReplyEvent) (ctx : DmMgrCtx)
    (cache : DmMsgCacheCtx) (response : DmMsgResponsePayload)
    (surroundings : RegisterSurroundings) : List SyncNode :=
  (handleReply kind ctx cache response surroundings).2.foldl iotxEnosEventCallback list

/-- Whatever callers are in the list, the reply posts the one that waits for the id, with the code,
and no other. -/
def AnswersWaiter (kind : ReplyEvent) (ctx : DmMgrCtx) (cache : DmMsgCacheCtx)
    (response : DmMsgResponsePayload) (surroundings : RegisterSurroundings) (msgid : Int) : Prop :=
  ∀ list : List SyncNode, (list.map SyncNode.msgid).Nodup →
    listAfterReply list kind ctx cache response surroundings =
      list.map fun node => if node.msgid = msgid then node.answer response.code else node

/-- The reply makes an event, with this id in it, for which the dispatcher has a case. -/
def MakesEvent (kind : ReplyEvent) (ctx : DmMgrCtx) (cache : DmMsgCacheCtx)
    (response : DmMsgResponsePayload) (surroundings : RegisterSurroundings) (msgid : Int) : Prop :=
  surroundings.queued 0 = true ∧
    match kind with
    | .topoAddReply | .topoDeleteReply => (dmMsgCacheSearch cache msgid).isSome = true
    | .combineLoginReply | .combineLogoutReply =>
        (replyDevid ctx response.data).isSome = true ∧
          sessionId response surroundings.stack = msgid
    | .subdevRegisterReply | .combineLoginBatchReply => False

/-! ## Events -/

/-- The members of an event with an id, a code and a device id. -/
def replyMembers (id code devid : Int) : List (List UInt8 × Doc) :=
  [(ascii "id", .scalar (.number (intDecimal id))),
    (ascii "code", .scalar (.number (intDecimal code))),
    (ascii "devid", .scalar (.number (intDecimal devid)))]

/-- The event is the text of an object. -/
theorem formatText_replyFormat (id code devid : Int) :
    formatText (replyFormat id code devid) = (objectOf (replyMembers id code devid)).render := by
  have hid : ascii "\x7b\"id\":" = 123 :: 34 :: (ascii "id" ++ [34, 58]) := by decide
  have hcode : ascii ",\"code\":" = 44 :: 34 :: (ascii "code" ++ [34, 58]) := by decide
  have hdevid : ascii ",\"devid\":" = 44 :: 34 :: (ascii "devid" ++ [34, 58]) := by decide
  have hend : ascii "\x7d" = [125] := by decide
  rw [render_objectOf _ (by simp [replyMembers])]
  simp [formatText, replyFormat, FormatPart.print, replyMembers, joinCommas, Doc.render,
    Token.render, hid, hcode, hdevid, hend]

/-- The numbers of an event are read back. -/
theorem eventNumber_replyFormat {id code devid : Int} (hid : IsInt id) (hcode : IsInt code)
    (hdevid : IsInt devid) :
    eventNumber (formatText (replyFormat id code devid)) (ascii "id") = some id ∧
      eventNumber (formatText (replyFormat id code devid)) (ascii "code") = some code ∧
      eventNumber (formatText (replyFormat id code devid)) (ascii "devid") = some devid := by
  have hobject : (objectOf (replyMembers id code devid)).WellFormed liteCjsonNestingLimit := by
    apply objectOf_wellFormed
    · simp only [replyMembers, List.forall_mem_cons, List.not_mem_nil, false_imp_iff,
        implies_true, and_true]
      exact ⟨stringBody_of_plain (by decide), stringBody_of_plain (by decide),
        stringBody_of_plain (by decide)⟩
    · simp only [replyMembers, List.forall_mem_cons, List.not_mem_nil, false_imp_iff,
        implies_true, and_true]
      exact ⟨.scalar (numberToken_intDecimal hid), .scalar (numberToken_intDecimal hcode),
        .scalar (numberToken_intDecimal hdevid)⟩
  obtain ⟨item, hparse, _, hmember⟩ := jsonMember_objectOf hobject
  have hnumber : ∀ {key : List UInt8} {value : Int}, key ≠ [] → IsInt value →
      (replyMembers id code devid).find? (fun entry => entry.1 = key) =
        some (key, .scalar (.number (intDecimal value))) →
      eventNumber (objectOf (replyMembers id code devid)).render key = some value := by
    intro key value hsome hvalue hfind
    simp only [eventNumber, hparse, Option.bind_eq_bind, Option.bind_some,
      hmember key _ .number hsome hfind]
    exact congrArg some (valueInt_intDecimal hvalue)
  rw [formatText_replyFormat]
  exact ⟨hnumber (by decide) hid rfl, hnumber (by decide) hcode rfl,
    hnumber (by decide) hdevid rfl⟩

/-- A printed event reaches its case with its numbers. -/
theorem eventCallback_replyFormat (event : ReplyEvent) {id code devid : Int} (hid : IsInt id)
    (hcode : IsInt code) (hdevid : IsInt devid) (list : List SyncNode) :
    iotxEnosEventCallback list ⟨event, formatText (replyFormat id code devid)⟩ =
      handleReplyEvent list event id code := by
  obtain ⟨hidRead, hcodeRead, hdevidRead⟩ := eventNumber_replyFormat hid hcode hdevid
  cases event with
  | subdevRegisterReply =>
      have hparsed : (jsonParse (formatText (replyFormat id code devid))).isNone = false := by
        cases hparse : jsonParse (formatText (replyFormat id code devid)) with
        | some item => rfl
        | none => simp [eventNumber, hparse] at hidRead
      simp only [iotxEnosEventCallback, hidRead, hcodeRead, hparsed, Option.getD_some]
      rfl
  | topoAddReply | topoDeleteReply | combineLoginReply | combineLogoutReply =>
      simp only [iotxEnosEventCallback, hidRead, hcodeRead, hdevidRead]
  | combineLoginBatchReply => rfl

/-! ## Replies -/

variable {kind : ReplyEvent} {ctx : DmMgrCtx} {cache : DmMsgCacheCtx}
  {response : DmMsgResponsePayload} {surroundings : RegisterSurroundings} {msgid : Int}

/-- A reply whose event has an id answers the caller exactly if the id is the caller's. -/
theorem answersWaiter_iff_of_id {id : Int}
    (hposts : ∀ list, listAfterReply list kind ctx cache response surroundings =
      upstreamCallbackRemove list id response.code) :
    AnswersWaiter kind ctx cache response surroundings msgid ↔ id = msgid := by
  constructor
  · intro hanswers
    have hone := hanswers [⟨msgid, 0, 0⟩] (List.nodup_singleton _)
    rw [hposts] at hone
    by_contra hother
    have hsame : ¬msgid = id := fun hsame => hother hsame.symm
    simp [upstreamCallbackRemove, writeFirst, hsame, SyncNode.answer] at hone
  · rintro rfl list hdistinct
    rw [hposts, upstreamCallbackRemove, writeFirst_eq_map hdistinct]

/-- A reply without an event answers nobody. -/
theorem not_answersWaiter_of_silent
    (hsilent : ∀ list, listAfterReply list kind ctx cache response surroundings = list) :
    ¬AnswersWaiter kind ctx cache response surroundings msgid := by
  intro hanswers
  have hone := hanswers [⟨msgid, 0, 0⟩] (List.nodup_singleton _)
  rw [hsilent] at hone
  simp [SyncNode.answer] at hone

/-- The message that reports an id, if it is queued. -/
theorem replyMessage_reply {id devid : Int} (hid : IsInt id) (hcode : IsInt response.code)
    (hdevid : IsInt devid) (event : ReplyEvent) (queued : Bool) :
    replyMessage event (replyFormat id response.code devid) (dmUtilsUint32Strlen * 3) queued =
      if queued then some ⟨event, formatText (replyFormat id response.code devid)⟩ else none := by
  have hidText := (length_intDecimal_le hid).2
  have hcodeText := (length_intDecimal_le hcode).2
  have hdevidText := (length_intDecimal_le hdevid).2
  have hextra : dmUtilsUint32Strlen * 3 = 30 := rfl
  cases queued with
  | true => exact replyMessage_of_fits event (by omega)
  | false => rfl

/-- The topology handlers and the cache read the id of the request. -/
theorem replyId_eq (hmsgid : 0 ≤ msgid ∧ msgid < 2 ^ 31) (hid : response.id = intDecimal msgid) :
    response.id.length ≤ dmUtilsUint32Strlen ∧ replyId response = msgid := by
  obtain ⟨hlow, hhigh⟩ := hmsgid
  have hplain : intDecimal msgid = decimal msgid.natAbs := if_neg (by omega)
  have hlength := (@length_intDecimal_le msgid ⟨by omega, hhigh⟩).1
  rw [hid, hplain]
  refine ⟨hlength, ?_⟩
  rw [replyId, hid, hplain, padded, atoi_decimal (by omega)]
  · omega
  · intro byte hbyte
    have hzero := List.mem_of_mem_head? hbyte
    rw [List.eq_of_mem_replicate hzero]
    decide

/-- A topology reply answers its caller if there is a message and the request is in the cache. -/
theorem answersWaiter_topo_iff (hmsgid : 0 ≤ msgid ∧ msgid < 2 ^ 31)
    (hid : response.id = intDecimal msgid) (hcode : IsInt response.code)
    (hcache : ∀ node ∈ cache.dmcList, IsInt node.devid)
    (hkind : ∀ list, listAfterReply list kind ctx cache response surroundings =
      (topoReply kind ctx cache response (surroundings.queued 0)).2.toList.foldl
        iotxEnosEventCallback list)
    (hcase : kind ≠ .combineLoginBatchReply) :
    AnswersWaiter kind ctx cache response surroundings msgid ↔
      surroundings.queued 0 = true ∧ (dmMsgCacheSearch cache msgid).isSome = true := by
  obtain ⟨hlength, hread⟩ := replyId_eq hmsgid hid
  have hint : IsInt msgid := ⟨by omega, hmsgid.2⟩
  have hatoi : atoi (padded (dmUtilsUint32Strlen + 1) response.id) = msgid := hread
  have hshort : ¬response.id.length > dmUtilsUint32Strlen := Nat.not_lt.mpr hlength
  simp only [topoReply, hshort, if_false, hatoi] at hkind
  cases hsearch : dmMsgCacheSearch cache msgid with
  | none =>
      simp only [hsearch] at hkind
      exact iff_of_false (not_answersWaiter_of_silent hkind) (by simp)
  | some node =>
      have hmem : node ∈ cache.dmcList := by
        unfold dmMsgCacheSearch at hsearch
        split at hsearch
        · exact absurd hsearch nofun
        · exact List.mem_of_find?_eq_some hsearch
      simp only [hsearch, replyMessage_reply hint hcode (hcache node hmem)] at hkind
      cases hqueued : surroundings.queued 0 with
      | false =>
          simp only [hqueued] at hkind
          exact iff_of_false (not_answersWaiter_of_silent hkind) (by simp)
      | true =>
          simp only [hqueued, if_true] at hkind
          refine iff_of_true ((answersWaiter_iff_of_id fun list => ?_).mpr rfl) ⟨rfl, rfl⟩
          refine (hkind list).trans ?_
          refine (eventCallback_replyFormat kind hint hcode (hcache node hmem) list).trans ?_
          exact handleReplyEvent_of_ne hcase list msgid response.code

/-- The device that a reply names is one of the list. -/
theorem mem_of_replyDevid {data : List UInt8} {devid : Int}
    (hdevid : replyDevid ctx data = some devid) :
    ∃ node ∈ ctx.devList, node.devid = devid := by
  obtain ⟨item, _, hitem⟩ := Option.bind_eq_some_iff.mp hdevid
  obtain ⟨productKey, _, hitem⟩ := Option.bind_eq_some_iff.mp hitem
  obtain ⟨deviceKey, _, hitem⟩ := Option.bind_eq_some_iff.mp hitem
  obtain ⟨node, hnode, hsame⟩ := Option.bind_eq_some_iff.mp hitem
  exact ⟨node, List.mem_of_find?_eq_some hnode, Option.some.inj hsame⟩

/-- A session reply answers its caller if there is a message, its device is known and its id is
read as it is. -/
theorem answersWaiter_session_iff {status : DevStatus} (hcode : IsInt response.code)
    (hctx : ∀ node ∈ ctx.devList, IsInt node.devid)
    (hkind : ∀ list, listAfterReply list kind ctx cache response surroundings =
      (sessionReply kind status ctx response surroundings.stack
        (surroundings.queued 0)).2.toList.foldl iotxEnosEventCallback list)
    (hcase : kind ≠ .combineLoginBatchReply) :
    AnswersWaiter kind ctx cache response surroundings msgid ↔
      surroundings.queued 0 = true ∧ (replyDevid ctx response.data).isSome = true ∧
        sessionId response surroundings.stack = msgid := by
  unfold sessionReply at hkind
  cases hreply : replyDevid ctx response.data with
  | none =>
      simp only [hreply] at hkind
      exact iff_of_false (not_answersWaiter_of_silent hkind) (by simp)
  | some devid =>
      obtain ⟨node, hnode, rfl⟩ := mem_of_replyDevid hreply
      have hint : IsInt (sessionId response surroundings.stack) := isInt_atoi _
      simp only [hreply, replyMessage_reply hint hcode (hctx node hnode)] at hkind
      cases hqueued : surroundings.queued 0 with
      | false =>
          simp only [hqueued] at hkind
          exact iff_of_false (not_answersWaiter_of_silent hkind) (by simp)
      | true =>
          simp only [hqueued, if_true] at hkind
          rw [@answersWaiter_iff_of_id _ _ _ _ _ _ (sessionId response surroundings.stack)
            fun list => ?_]
          · simp
          · refine (hkind list).trans ?_
            refine (eventCallback_replyFormat kind hint hcode (hctx node hnode) list).trans ?_
            exact handleReplyEvent_of_ne hcase list _ response.code

/-- The handler of a batch login makes no other event than its own. -/
theorem combineLoginBatchReply_event {stack : List UInt8} {queued : Bool} {message : ReplyMessage}
    (hmessage : (dmMsgCombineLoginBatchReply ctx response stack queued).2 = some message) :
    ∃ payload, message = ⟨.combineLoginBatchReply, payload⟩ := by
  have hown : ∀ format extra,
      replyMessage .combineLoginBatchReply format extra queued = some message →
        ∃ payload, message = ⟨.combineLoginBatchReply, payload⟩ := by
    intro format extra hsome
    cases queued with
    | false => exact absurd hsome nofun
    | true => exact ⟨_, (Option.some.inj hsome).symm⟩
  unfold dmMsgCombineLoginBatchReply at hmessage
  dsimp only at hmessage
  split at hmessage
  · exact absurd hmessage nofun
  · split at hmessage
    · exact absurd hmessage nofun
    · split at hmessage
      · split at hmessage
        · exact hown _ _ hmessage
        · exact absurd hmessage nofun
      · exact absurd hmessage nofun

/-- The reply to a batch login answers nobody. -/
theorem not_answersWaiter_batch :
    ¬AnswersWaiter .combineLoginBatchReply ctx cache response surroundings msgid := by
  apply not_answersWaiter_of_silent
  intro list
  unfold listAfterReply handleReply
  dsimp only
  cases hmessage : (dmMsgCombineLoginBatchReply ctx response surroundings.stack
      (surroundings.queued 0)).2 with
  | none => rfl
  | some message =>
      obtain ⟨payload, rfl⟩ := combineLoginBatchReply_event hmessage
      rfl

/-- A reply to a request that has blocked a caller answers this caller and no other, whoever is in
the list, exactly when it makes an event with the caller's id that has a case. -/
theorem answersWaiter_iff_makesEvent (hkind : kind ≠ .subdevRegisterReply)
    (hmsgid : 0 ≤ msgid ∧ msgid < 2 ^ 31) (hid : response.id = intDecimal msgid)
    (hcode : IsInt response.code) (hctx : ∀ node ∈ ctx.devList, IsInt node.devid)
    (hcache : ∀ node ∈ cache.dmcList, IsInt node.devid) :
    AnswersWaiter kind ctx cache response surroundings msgid ↔
      MakesEvent kind ctx cache response surroundings msgid := by
  cases kind with
  | subdevRegisterReply => exact absurd rfl hkind
  | topoAddReply | topoDeleteReply =>
      exact answersWaiter_topo_iff hmsgid hid hcode hcache (fun _ => rfl) nofun
  | combineLoginReply | combineLogoutReply =>
      exact answersWaiter_session_iff hcode hctx (fun _ => rfl) nofun
  | combineLoginBatchReply =>
      exact iff_of_false not_answersWaiter_batch fun hmakes => hmakes.2

/-- A gateway with the device that has key `d`. -/
def deviceAlone : DmMgrCtx :=
  (dmMgrDeviceCreate gatewayAlone subdevRequest true).2.2

/-- The login of the device, request 7, is answered. -/
theorem answersWaiter_login :
    AnswersWaiter .combineLoginReply deviceAlone dmMsgCacheInit ⟨ascii "7", 200, deviceKeys, []⟩
      plentiful 7 := by
  apply Iff.mpr (answersWaiter_iff_makesEvent ?_ ?_ ?_ ?_ ?_ ?_)
  · exact ⟨rfl, by decide +kernel, by decide +kernel⟩
  · exact nofun
  · exact ⟨by decide, by decide⟩
  · decide
  · decide
  · decide
  · exact nofun

/-- Its batch login is not, although the reply has everything that the handler looks for and the
handler makes an event. -/
theorem batch_login_not_answered :
    let response : DmMsgResponsePayload :=
      ⟨ascii "7", 200, ascii "\x7b\"loginedSubDevices\":[" ++ deviceKeys ++
        ascii "],\"failedSubDevices\":[]\x7d", []⟩
    (handleReply .combineLoginBatchReply deviceAlone dmMsgCacheInit response plentiful).2.length =
        1 ∧
      ¬AnswersWaiter .combineLoginBatchReply deviceAlone dmMsgCacheInit response plentiful 7 := by
  refine ⟨?_, not_answersWaiter_batch⟩
  decide +kernel

end EnosDeviceSdk.DevModel
