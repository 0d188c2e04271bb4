/-
# What becomes of the id of a command

The id of a request goes through an event, a node and an array before it comes back in the
response. The node keeps digits only, so an id that comes back consists of digits, and an id of
digits comes back if the event still has it and the array has room for it.

The event of a service always has room for everything. The event of a measurepoint is cut where
the id is long. The parser accepts it without its closing bracket, but not with a shorter
object of parameters: what the dispatcher takes for the parameters begins too early for the
bracket that it must begin with.
-/

import EnosDeviceSdk.DevModel.CommandChain

namespace EnosDeviceSdk.DevModel.CommandChain

open EnosDeviceSdk.Infra EnosDeviceSdk.Library EnosDeviceSdk.DevModel.CommandList

universe u v

variable {ι : Type u} {τ : Type v}

/-! ## Responses -/

theorem zero_not_mem_digits {text : List UInt8} (hdigits : ∀ byte ∈ text, isDigit byte = true) :
    0 ∉ text :=
  fun hzero => absurd (hdigits 0 hzero) (by decide)

theorem stringBody_digits {text : List UInt8} (hdigits : ∀ byte ∈ text, isDigit byte = true) :
    StringBody text := by
  apply stringBody_of_plain
  rw [List.all_eq_true]
  intro byte hbyte
  have hdigit := hdigits byte hbyte
  apply decide_eq_true
  refine ⟨?_, ?_⟩ <;>
    (rintro rfl
     exact absurd hdigit (by decide))

/-- The members of a response. -/
def responseMembers (id : List UInt8) (code : Int) (data : Doc) : List (List UInt8 × Doc) :=
  [(ascii "id", .scalar (.string id)), (ascii "code", .scalar (.number (intDecimal code))),
    (ascii "data", data)]

theorem formatText_responseFormat {id : List UInt8} (hid : 0 ∉ id) (code : Int) {data : Doc}
    (hdata : 0 ∉ data.render) :
    formatText (responseFormat id code data.render) =
      (objectOf (responseMembers id code data)).render := by
  have hfirst : ascii "\x7b\"id\":\"" = 123 :: 34 :: (ascii "id" ++ [34, 58, 34]) := by decide
  have hcode : ascii "\",\"code\":" = 34 :: 44 :: 34 :: (ascii "code" ++ [34, 58]) := by decide
  have hkey : ascii ",\"data\":" = 44 :: 34 :: (ascii "data" ++ [34, 58]) := by decide
  have hend : ascii "\x7d" = [125] := by decide
  rw [render_objectOf _ (by simp [responseMembers])]
  simp [formatText, responseFormat, FormatPart.print, responseMembers, joinCommas, Doc.render,
    Token.render, hfirst, hcode, hkey, hend, arrayText_of_noNul hid, arrayText_of_noNul hdata]

theorem responseMembers_wellFormed {id : List UInt8} (hid : StringBody id) {code : Int}
    (hcode : IsInt code) {data : Doc} (hdata : data.WellFormed (liteCjsonNestingLimit - 1)) :
    (objectOf (responseMembers id code data)).WellFormed liteCjsonNestingLimit := by
  apply @objectOf_wellFormed (liteCjsonNestingLimit - 1)
  · simp only [responseMembers, List.forall_mem_cons, List.not_mem_nil, false_imp_iff,
      implies_true, and_true]
    exact ⟨stringBody_of_plain (by decide), stringBody_of_plain (by decide),
      stringBody_of_plain (by decide)⟩
  · simp only [responseMembers, List.forall_mem_cons, List.not_mem_nil, false_imp_iff,
      implies_true, and_true]
    exact ⟨.scalar hid, .scalar (numberToken_intDecimal hcode), hdata⟩

/-- The zeros behind a text are white space to the parser. -/
theorem jsonParse_padded {doc : Doc} (hdoc : doc.WellFormed liteCjsonNestingLimit) (size : Nat) :
    (jsonParse (padded size doc.render)).isSome = true := by
  have hzeros : Blank (List.replicate (size - doc.render.length) 0) := by
    intro byte hbyte
    rw [List.eq_of_mem_replicate hbyte]
    decide
  obtain ⟨item, hparse, -, -⟩ := document_recovered .zero blank_nil hzeros hdoc
  rw [List.nil_append] at hparse
  rw [jsonParse, padded, hparse, Outcome.toOption_ok]
  rfl

/-- A response is published with its id. -/
theorem dmMsgResponse_id {id : List UInt8} (hdigits : ∀ byte ∈ id, isDigit byte = true)
    {data : List UInt8} (hdata : JsonValue data) :
    (dmMsgResponse id iotxDmErrCodeSuccess data true).bind responseId = some id := by
  obtain ⟨doc, hdoc, rfl, hnoNul⟩ := hdata
  have hobject := responseMembers_wellFormed (stringBody_digits hdigits)
    (by decide : IsInt iotxDmErrCodeSuccess) hdoc
  have hsome : doc.render ≠ [] := by
    obtain ⟨byte, rest, hcons, -⟩ := startsValue_render hdoc
    rw [hcons]
    exact List.cons_ne_nil byte rest
  have htext := formatText_responseFormat (zero_not_mem_digits hdigits) iotxDmErrCodeSuccess hnoNul
  have hprinted : halSnprintf (formatStrlen (responseFormat id iotxDmErrCodeSuccess doc.render) +
      id.length + dmUtilsUint32Strlen + doc.render.length + 1)
        (responseFormat id iotxDmErrCodeSuccess doc.render) =
      (objectOf (responseMembers id iotxDmErrCodeSuccess doc)).render := by
    rw [halSnprintf, List.take_of_length_le, htext]
    have hcode : (intDecimal iotxDmErrCodeSuccess).length = 3 := by decide
    simp [formatText, formatStrlen, responseFormat, FormatPart.print, FormatPart.strlen,
      arrayText_of_noNul (zero_not_mem_digits hdigits), arrayText_of_noNul hnoNul, hcode]
    omega
  obtain ⟨item, hparse, -, hmember⟩ := jsonMember_objectOf hobject
  have hid := hmember (ascii "id") (.scalar (.string id)) .string (by decide) rfl
  rw [dmMsgResponse, if_neg (by simpa using hsome)]
  dsimp only
  rw [hprinted, if_pos (jsonParse_padded hobject _), Option.bind_some, responseId, hparse]
  exact hid

/-! ## Replies -/

/-- A context with one device. -/
def oneDevice (devid : Int) : DmMgrCtx :=
  ⟨0, [⟨devid, 0, [], [], [], [], .enable, .online⟩]⟩

section Reply

variable [DecidableEq ι] {world : World τ ι} {context : ι} {node : CommandNode ι}

/-- A reply for a linked node whose id fits into the array publishes the id. -/
theorem iotEnosCommandReply_id (hnode : world.nodeAt context = some node)
    (hdigits : ∀ byte ∈ node.msgid, isDigit byte = true) (hsome : node.msgid ≠ [])
    (hshort : node.msgid.length < 32) {ctx : DmMgrCtx} {devid : Int} (hdevid : 0 ≤ devid)
    (hdevice : (dmMgrSearchDevByDevid ctx devid).isSome = true) (type : CommandType)
    {serviceid payload : List UInt8} (hservice : serviceid ≠ []) (hpayload : JsonValue payload) :
    (iotEnosCommandReply world ctx true true devid type serviceid payload (some context)
      true).bind responseId = some node.msgid := by
  have hpayloadSome : payload ≠ [] := by
    obtain ⟨doc, hdoc, rfl, -⟩ := hpayload
    obtain ⟨byte, rest, hcons, -⟩ := startsValue_render hdoc
    rw [hcons]
    exact List.cons_ne_nil byte rest
  have hmsgid : replyMsgid node.msgid = some node.msgid := by
    rw [replyMsgid, if_pos hshort, arrayText_padded (zero_not_mem_digits hdigits)]
  have hresponse : (dmMgrUpstreamThingMeasurepointSetResponse ctx devid node.msgid payload
      true).bind responseId = some node.msgid := by
    obtain ⟨device, hfound⟩ := Option.isSome_iff_exists.mp hdevice
    have hvalid : ¬(devid < 0 ∨ node.msgid = [] ∨ payload = []) := by
      rintro (hnegative | hnil | hnil)
      · exact absurd hdevid (Int.not_le.mpr hnegative)
      · exact hsome hnil
      · exact hpayloadSome hnil
    rw [dmMgrUpstreamThingMeasurepointSetResponse, if_neg hvalid, hfound]
    exact dmMsgResponse_id hdigits hpayload
  have hvalid : ¬(devid < 0 ∨ type = .serviceInvoke ∧ serviceid = [] ∨ payload = []) := by
    rintro (hnegative | ⟨-, hnil⟩ | hnil)
    · exact absurd hdevid (Int.not_le.mpr hnegative)
    · exact hservice hnil
    · exact hpayloadSome hnil
  rw [iotEnosCommandReply, if_neg hvalid, if_neg (by decide), Option.bind_some, hnode,
    Option.bind_some, hmsgid]
  cases type with
  | measurepointSet => exact hresponse
  | serviceInvoke =>
      dsimp only
      rw [dmMgrUpstreamThingServiceInvokeResponse, if_neg hservice]
      exact hresponse

/-- There is no response with an empty id, and none that the code promises with a longer one. -/
theorem iotEnosCommandReply_none (hnode : world.nodeAt context = some node)
    (hlong : node.msgid = [] ∨ 32 ≤ node.msgid.length) (ctx : DmMgrCtx) (devid : Int)
    (type : CommandType) (serviceid payload : List UInt8) :
    iotEnosCommandReply world ctx true true devid type serviceid payload (some context) true =
      none := by
  rw [iotEnosCommandReply]
  split
  · rfl
  · rw [if_neg (by decide), Option.bind_some, hnode, Option.bind_some, replyMsgid]
    rcases hlong with hnil | hlong
    · have hempty : ∀ size, arrayText (padded size node.msgid) = [] := by
        intro size
        rw [hnil, arrayText_padded List.not_mem_nil]
      rw [hnil] at hempty ⊢
      have hnone : dmMgrUpstreamThingMeasurepointSetResponse ctx devid [] payload true = none :=
        if_pos (Or.inr (Or.inl rfl))
      rw [if_pos (by decide), hempty]
      cases type with
      | measurepointSet => exact hnone
      | serviceInvoke =>
          dsimp only
          rw [dmMgrUpstreamThingServiceInvokeResponse, hnone, ite_self]
    · rw [if_neg (Nat.not_lt.mpr hlong)]

/-- Replies have the id of the request exactly where the node has it and the array has room. -/
theorem repliesWith_iff {id : List UInt8} {type : CommandType} {devid : Int}
    (hnode : world.nodeAt context = some node)
    (hdigits : ∀ byte ∈ node.msgid, isDigit byte = true) (hdevid : 0 ≤ devid) :
    RepliesWith id type devid world context ↔
      id = node.msgid ∧ id ≠ [] ∧ id.length < 32 := by
  constructor
  · intro hreplies
    have hvalue : JsonValue [48] :=
      ⟨.scalar (.number [48]), .scalar (numberToken_intDecimal (by decide : IsInt 0)), rfl,
        by decide⟩
    have hdevice : (dmMgrSearchDevByDevid (oneDevice devid) devid).isSome = true := by
      simp [dmMgrSearchDevByDevid, oneDevice]
    have hreply := hreplies world (oneDevice devid) [83] [48] rfl hdevice (by decide) hvalue
    have hfits : node.msgid ≠ [] ∧ node.msgid.length < 32 := by
      rw [← not_le, ← not_or]
      intro hlong
      rw [iotEnosCommandReply_none hnode hlong] at hreply
      cases hreply
    rw [iotEnosCommandReply_id hnode hdigits hfits.1 hfits.2 hdevid hdevice type (by decide)
      hvalue] at hreply
    obtain rfl : node.msgid = id := Option.some.inj hreply
    exact ⟨rfl, hfits⟩
  · rintro ⟨rfl, hsome, hshort⟩ later ctx serviceid payload hlater hdevice hservice hpayload
    exact iotEnosCommandReply_id (hlater.trans hnode) hdigits hsome hshort hdevid hdevice type
      hservice hpayload

end Reply

/-! ## Events and nodes -/

section Insert

variable [DecidableEq ι] [DecidableEq τ] {allocator : HeapAllocator ι} {world : World τ ι}
  {moment : Nat}

/-- A node is linked with the digits at the address of the id. -/
theorem enosCommandListInsert_some (hroom : world.commandListNum < configCommandListMaxlen)
    {context : ι} (hmalloc : allocator.malloc moment
      (world.downstreamCommandList.map CommandNode.address) = some context)
    (thread : τ) (uptime : Nat) (text : List UInt8) (address : Int) :
    ∃ linked, enosCommandListInsert allocator world thread moment uptime text address =
        (linked, some context) ∧
      linked.nodeAt context = some ⟨context, world.allocated,
        (text.drop address.toNat).takeWhile isDigit, uptime⟩ := by
  refine ⟨link allocator
    (arrive world thread ((text.drop address.toNat).takeWhile isDigit)) thread moment uptime,
    ?_, ?_⟩
  · simp [enosCommandListInsert, arrive, link, hroom.not_ge, hmalloc]
  · simp [arrive, link, hroom.not_ge, hmalloc, World.nodeAt]

omit [DecidableEq ι] in
theorem enosCommandListInsert_none (hroom : world.commandListNum < configCommandListMaxlen)
    (hmalloc : allocator.malloc moment
      (world.downstreamCommandList.map CommandNode.address) = none)
    (thread : τ) (uptime : Nat) (text : List UInt8) (address : Int) :
    (enosCommandListInsert allocator world thread moment uptime text address).2 = none := by
  simp [enosCommandListInsert, arrive, link, hroom.not_ge, hmalloc]

/-- The items are what the user is to be called with. -/
def Command.Wants (command : Command) (devid : Int) (params : List UInt8)
    (items : EventItems) : Prop :=
  items.devid = devid ∧ items.payload = params ∧
    match command with
    | .measurepointSet => True
    | .serviceInvoke identifier _ => items.serviceid = identifier.bytes

omit [DecidableEq ι] in
theorem userCall_eq_call_iff (command : Command) (items : EventItems) (found : Option ι)
    (devid : Int) (params : List UInt8) (context : ι) :
    userCall command.type items found = some (command.call devid params context) ↔
      found = some context ∧ command.Wants devid params items := by
  cases command with
  | measurepointSet =>
      simp only [userCall, Command.type, Command.call, Command.Wants, Option.some.injEq,
        UserCall.measurepointSet.injEq, and_true]
      tauto
  | serviceInvoke identifier bytes =>
      cases found with
      | none => simp [userCall, Command.type]
      | some node =>
          simp only [userCall, Command.type, Command.call, Command.Wants, Option.map_some,
            Option.some.injEq, UserCall.serviceRequest.injEq]
          tauto

/-- The chain holds exactly where the event has everything, a node is allocated, and the digits
at the address of the id are the id, which the array has room for. -/
theorem delivers_iff_items {command : Command} {ctx : DmMgrCtx}
    {productKey deviceKey : CString} {payload : List UInt8} {queued : Bool} {devid : Int}
    {request : DmMsgRequestPayload} (hroom : world.commandListNum < configCommandListMaxlen)
    (hid : request.id ≠ []) (hdevid : 0 ≤ devid) (thread : τ) (uptime : Nat) :
    Delivers allocator command ctx productKey deviceKey payload queued world thread moment uptime
        devid request ↔
      ∃ text items,
        dmMsgProcCommand command ctx productKey deviceKey payload queued = some text ∧
        eventItems command.type text = some items ∧
        (allocator.malloc moment
          (world.downstreamCommandList.map CommandNode.address)).isSome = true ∧
        command.Wants devid request.params items ∧
        request.id = (text.drop items.id.toNat).takeWhile isDigit ∧ request.id.length < 32 := by
  have hkept : ∀ text : List UInt8, ∀ byte ∈ text.takeWhile isDigit, isDigit byte = true :=
    fun text => List.all_eq_true.mp List.all_takeWhile
  constructor
  · rintro ⟨linked, context, hcall, hreplies⟩
    cases hevent : dmMsgProcCommand command ctx productKey deviceKey payload queued with
    | none => simp [handleCommand, hevent] at hcall
    | some text =>
        cases hitems : eventItems command.type text with
        | none => simp [handleCommand, iotxEnosEventCallback, hevent, hitems] at hcall
        | some items =>
            simp only [handleCommand, iotxEnosEventCallback, hevent, hitems, Prod.mk.injEq] at hcall
            obtain ⟨rfl, hcall⟩ := hcall
            obtain ⟨hfound, hwants⟩ := (userCall_eq_call_iff ..).mp hcall
            cases hmalloc : allocator.malloc moment
                (world.downstreamCommandList.map CommandNode.address) with
            | none =>
                rw [enosCommandListInsert_none hroom hmalloc] at hfound
                cases hfound
            | some address =>
                obtain ⟨linked, hinsert, hnode⟩ :=
                  enosCommandListInsert_some hroom hmalloc thread uptime text items.id
                rw [hinsert] at hfound hreplies
                obtain rfl : address = context := Option.some.inj hfound
                obtain ⟨hsame, -, hshort⟩ :=
                  (repliesWith_iff hnode (hkept _) hdevid).mp hreplies
                exact ⟨text, items, rfl, hitems, rfl, hwants, hsame, hshort⟩
  · rintro ⟨text, items, hevent, hitems, hmalloc, hwants, hsame, hshort⟩
    obtain ⟨context, hmalloc⟩ := Option.isSome_iff_exists.mp hmalloc
    obtain ⟨linked, hinsert, hnode⟩ :=
      enosCommandListInsert_some hroom hmalloc thread uptime text items.id
    refine ⟨linked, context, ?_, (repliesWith_iff hnode (hkept _) hdevid).mpr
      ⟨hsame, hid, hshort⟩⟩
    have hcall := (userCall_eq_call_iff command items (some context) devid request.params
      context).mpr ⟨rfl, hwants⟩
    simp only [handleCommand, iotxEnosEventCallback, hevent, hitems, hinsert, hcall]

end Insert

end EnosDeviceSdk.DevModel.CommandChain
