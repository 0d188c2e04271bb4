/-
# The reply that the user gets

The handler of a reply prints an event with the id, the code and the device id of the request, the
method of the topic, and the data and the message of the response, and the dispatcher reads it back
and calls the user. The data stands between quotes, whatever it is, and the length of the buffer
leaves it out.

So the user gets the data of a response if it is short, because the format and its numbers have left
room for it, and if it can stand between quotes, as a string can and no object with a member.
-/

import EnosDeviceSdk.DevModel.BatchReply
import EnosDeviceSdk.DevModel.Messages

namespace EnosDeviceSdk.DevModel.Messages

open EnosDeviceSdk.Infra EnosDeviceSdk.Library
open EnosDeviceSdk.DevModel.CommandChain

/-! ## The code -/

/-- `DM_MSG_THING_REPLY_FMT` -/
def thingReplyFormat (id code devid : Int) (identifier data message : List UInt8) :
    List FormatPart :=
  [.text (ascii "\x7b\"id\":"), .d id, .text (ascii ",\"code\":"), .d code,
    .text (ascii ",\"devid\":"), .d devid, .text (ascii ",\"eventid\":\""), .precise identifier,
    .text (ascii "\",\"payload\":\""), .precise data, .text (ascii "\",\"message\":\""),
    .precise message, .text (ascii "\"\x7d")]

/-- `dm_msg_thing_reply`: the event, if there is memory for it and room in the queue. -/
def dmMsgThingReply (cache : DmMsgCacheCtx) (identifier : CString)
    (response : DmMsgResponsePayload) (queued : Bool) : Option (List UInt8) :=
  if response.id.length > dmUtilsUint32Strlen then none
  else
    let id := atoi (padded (dmUtilsUint32Strlen + 1) response.id)
    match dmMsgCacheSearch cache id with
    | none => none
    | some node =>
        let format := thingReplyFormat id response.code node.devid identifier.bytes response.data
          response.message
        let messageLen := formatStrlen format + dmUtilsUint32Strlen * 3 + identifier.strlen +
          response.message.length + 1
        if queued then some (halSnprintf messageLen format) else none

/-- A call of the `ITE_THING_REPLY` callback, with the bytes that its lengths span. -/
structure ThingReplyCall where
  devid : Int
  id : Int
  code : Int
  eventid : List UInt8
  payload : List UInt8
  deriving DecidableEq

/-- The case `IOTX_DM_EVENT_THING_REPLY` of `_iotx_enos_event_callback`, with a callback registered
and memory for the two strings. -/
def thingReplyCall (text : List UInt8) : Option ThingReplyCall := do
  let lite ← jsonParse text
  let id ← jsonMember text lite (ascii "id") .number
  let code ← jsonMember text lite (ascii "code") .number
  let devid ← jsonMember text lite (ascii "devid") .number
  let eventid ← jsonMember text lite (ascii "eventid") .string
  let payload ← jsonMember text lite (ascii "payload") .string
  return ⟨valueInt devid, valueInt id, valueInt code, eventid, payload⟩

/-- The calls that a response leads to. -/
def thingReplyCalls (cache : DmMsgCacheCtx) (identifier : CString)
    (response : DmMsgResponsePayload) (queued : Bool) : List ThingReplyCall :=
  ((dmMsgThingReply cache identifier response queued).bind thingReplyCall).toList

/-! ## What is promised -/

/-- The user is called once, with the device id, the id and the code, the name of the method and the
text of the data. -/
def InvokesOnce (cache : DmMsgCacheCtx) (devid : Int) (identifier : CString)
    (response : DmMsgResponsePayload) (queued : Bool) : Prop :=
  thingReplyCalls cache identifier response queued =
    [⟨devid, atoi response.id, response.code, identifier.bytes, response.data⟩]

/-- The event is queued, the id is not too long, the names and texts can stand between quotes, and
the buffer has room for the data: what the format has for its conversions and the code for three
numbers is left for it, and what the message has lost behind a NUL. -/
structure FitsEvent (devid : Int) (identifier : CString) (response : DmMsgResponsePayload)
    (queued : Bool) : Prop where
  queued : queued = true
  id : response.id.length ≤ dmUtilsUint32Strlen
  identifier : StringBody identifier.bytes
  data : StringBody response.data
  noNul : 0 ∉ response.data
  message : StringBody (arrayText response.message)
  room : (intDecimal (atoi response.id)).length + (intDecimal response.code).length +
    (intDecimal devid).length + response.data.length + (arrayText response.message).length ≤
      48 + response.message.length

/-! ## Events -/

/-- The members of an event. -/
def thingReplyMembers (id code devid : Int) (eventid payload message : List UInt8) :
    List (List UInt8 × Doc) :=
  [(ascii "id", .scalar (.number (intDecimal id))),
    (ascii "code", .scalar (.number (intDecimal code))),
    (ascii "devid", .scalar (.number (intDecimal devid))),
    (ascii "eventid", .scalar (.string eventid)), (ascii "payload", .scalar (.string payload)),
    (ascii "message", .scalar (.string message))]

theorem formatText_thingReplyFormat (id code devid : Int) {identifier data : List UInt8}
    (hidentifier : 0 ∉ identifier) (hdata : 0 ∉ data) (message : List UInt8) :
    formatText (thingReplyFormat id code devid identifier data message) =
      openText (thingReplyMembers id code devid identifier data (arrayText message)) ++ [125] := by
  have hid : ascii "\x7b\"id\":" = 123 :: 34 :: (ascii "id" ++ [34, 58]) := by decide
  have hcode : ascii ",\"code\":" = 44 :: 34 :: (ascii "code" ++ [34, 58]) := by decide
  have hdevid : ascii ",\"devid\":" = 44 :: 34 :: (ascii "devid" ++ [34, 58]) := by decide
  have heventid : ascii ",\"eventid\":\"" = 44 :: 34 :: (ascii "eventid" ++ [34, 58, 34]) := by
    decide
  have hpayload : ascii "\",\"payload\":\"" =
      34 :: 44 :: 34 :: (ascii "payload" ++ [34, 58, 34]) := by decide
  have hmessage : ascii "\",\"message\":\"" =
      34 :: 44 :: 34 :: (ascii "message" ++ [34, 58, 34]) := by decide
  have hend : ascii "\"\x7d" = [34, 125] := by decide
  rw [← render_openText (by simp [thingReplyMembers]),
    render_objectOf _ (by simp [thingReplyMembers])]
  simp [formatText, thingReplyFormat, FormatPart.print, thingReplyMembers, joinCommas, Doc.render,
    Token.render, hid, hcode, hdevid, heventid, hpayload, hmessage, hend,
    arrayText_of_noNul hidentifier, arrayText_of_noNul hdata]

/-- What the buffer has for the conversions and for three numbers, it has left for the numbers and
the data. -/
theorem length_thingReplyFormat (id code devid : Int) {identifier data : List UInt8}
    (hidentifier : 0 ∉ identifier) (hdata : 0 ∉ data) (message : List UInt8) :
    (formatText (thingReplyFormat id code devid identifier data message)).length + 18 =
      formatStrlen (thingReplyFormat id code devid identifier data message) + identifier.length +
        ((intDecimal id).length + (intDecimal code).length + (intDecimal devid).length +
          data.length + (arrayText message).length) := by
  simp only [formatText, formatStrlen, thingReplyFormat, List.map_cons, List.map_nil,
    FormatPart.print, FormatPart.strlen, List.flatten_cons, List.flatten_nil, List.sum_cons,
    List.sum_nil, List.length_append, List.length_nil, arrayText_of_noNul hidentifier,
    arrayText_of_noNul hdata]
  omega

section Event

variable {id code devid : Int} {eventid payload message : List UInt8}

theorem thingReplyMembers_valid (hid : IsInt id) (hcode : IsInt code) (hdevid : IsInt devid)
    (heventid : StringBody eventid) (hpayload : StringBody payload)
    (hmessage : StringBody message) :
    ∀ entry ∈ thingReplyMembers id code devid eventid payload message,
      StringBody entry.1 ∧ ∃ token : Token, token.Valid ∧ entry.2 = .scalar token := by
  simp only [thingReplyMembers, List.forall_mem_cons, List.not_mem_nil, false_imp_iff,
    implies_true, and_true]
  exact ⟨⟨stringBody_of_plain (by decide), .number _, numberToken_intDecimal hid, rfl⟩,
    ⟨stringBody_of_plain (by decide), .number _, numberToken_intDecimal hcode, rfl⟩,
    ⟨stringBody_of_plain (by decide), .number _, numberToken_intDecimal hdevid, rfl⟩,
    ⟨stringBody_of_plain (by decide), .string eventid, heventid, rfl⟩,
    ⟨stringBody_of_plain (by decide), .string payload, hpayload, rfl⟩,
    ⟨stringBody_of_plain (by decide), .string message, hmessage, rfl⟩⟩

/-- The user is called with what a whole event has. -/
theorem thingReplyCall_render (hid : IsInt id) (hcode : IsInt code) (hdevid : IsInt devid)
    (heventid : StringBody eventid) (hpayload : StringBody payload)
    (hmessage : StringBody message) :
    thingReplyCall (openText (thingReplyMembers id code devid eventid payload message) ++ [125]) =
      some ⟨devid, id, code, eventid, payload⟩ := by
  have hvalid := thingReplyMembers_valid hid hcode hdevid heventid hpayload hmessage
  have hobject : (objectOf (thingReplyMembers id code devid eventid payload message)).WellFormed
      liteCjsonNestingLimit := by
    apply @objectOf_wellFormed (liteCjsonNestingLimit - 1)
    · exact fun entry hentry => (hvalid entry hentry).1
    · intro entry hentry
      obtain ⟨-, token, htoken, hvalue⟩ := hvalid entry hentry
      rw [hvalue]
      exact .scalar htoken
  obtain ⟨item, hparse, -, hmember⟩ := jsonMember_objectOf hobject
  rw [← render_openText (by simp [thingReplyMembers])]
  simp only [thingReplyCall, hparse, Option.bind_eq_bind, Option.bind_some, Option.pure_def,
    hmember (ascii "id") _ .number (by decide) rfl,
    hmember (ascii "code") _ .number (by decide) rfl,
    hmember (ascii "devid") _ .number (by decide) rfl,
    hmember (ascii "eventid") _ .string (by decide) rfl,
    hmember (ascii "payload") _ .string (by decide) rfl]
  simp [Doc.type, Token.type, Doc.contents, Doc.render, Token.render, valueInt_intDecimal hid,
    valueInt_intDecimal hcode, valueInt_intDecimal hdevid]

/-- Nothing is read if any of the end is missing. -/
theorem jsonParse_front_thingReply (hid : IsInt id) (hcode : IsInt code) (hdevid : IsInt devid)
    (heventid : StringBody eventid) (hpayload : StringBody payload)
    (hmessage : StringBody message) {text : List UInt8}
    (hfront : text <+: openText (thingReplyMembers id code devid eventid payload message)) :
    jsonParse text = none := by
  have hvalid := thingReplyMembers_valid hid hcode hdevid heventid hpayload hmessage
  refine jsonParse_of_front (flat_joinCommas ?_) hfront
  rw [framed, List.map_map]
  intro entryText hentryText
  obtain ⟨entry, hentry, rfl⟩ := List.mem_map.mp hentryText
  obtain ⟨hkey, token, htoken, hvalue⟩ := hvalid entry hentry
  have hflat := (flat_lead (member_fits hkey entry.2)).append (flat_token htoken.spelled)
  simpa [Infra.entryText, Frame.wrap, member, hvalue, Doc.render] using hflat

/-- A message that ends with an escape goes on behind the quote. -/
theorem openText_escape (id code devid : Int) (eventid payload body : List UInt8) :
    openText (thingReplyMembers id code devid eventid payload (body ++ [92])) ++ [125] <+:
      openText (thingReplyMembers id code devid eventid payload (body ++ [92, 34, 125])) := by
  refine ⟨[34], ?_⟩
  simp [openText, framed, thingReplyMembers, joinCommas, entryText, Frame.wrap, Doc.render,
    Token.render, member]

end Event

/-! ## Which replies reach the user -/

/-- The texts of a call stand between quotes in the event. -/
theorem thingReplyCall_texts {text : List UInt8} {call : ThingReplyCall}
    (hcall : thingReplyCall text = some call) :
    (StringBody call.eventid ∧ ∀ byte ∈ call.eventid, byte ∈ text) ∧
      StringBody call.payload ∧ ∀ byte ∈ call.payload, byte ∈ text := by
  obtain ⟨lite, hparse, hcall⟩ := Option.bind_eq_some_iff.mp hcall
  obtain ⟨id, -, hcall⟩ := Option.bind_eq_some_iff.mp hcall
  obtain ⟨code, -, hcall⟩ := Option.bind_eq_some_iff.mp hcall
  obtain ⟨devid, -, hcall⟩ := Option.bind_eq_some_iff.mp hcall
  obtain ⟨eventid, heventid, hcall⟩ := Option.bind_eq_some_iff.mp hcall
  obtain ⟨payload, hpayload, hcall⟩ := Option.bind_eq_some_iff.mp hcall
  obtain rfl := Option.some.inj hcall
  exact ⟨⟨stringBody_of_jsonMember hparse heventid, fun _ => mem_of_jsonMember heventid⟩,
    stringBody_of_jsonMember hparse hpayload, fun _ => mem_of_jsonMember hpayload⟩

/-- The parser of responses keeps an `int` for the code. -/
theorem response_isInt {payload : List UInt8} {response : DmMsgResponsePayload}
    (hresponse : dmMsgResponseParse payload = some response) : IsInt response.code := by
  obtain ⟨lite, -, hresponse⟩ := Option.bind_eq_some_iff.mp hresponse
  obtain ⟨id, -, hresponse⟩ := Option.bind_eq_some_iff.mp hresponse
  obtain ⟨code, -, hresponse⟩ := Option.bind_eq_some_iff.mp hresponse
  obtain ⟨data, -, hresponse⟩ := Option.bind_eq_some_iff.mp hresponse
  obtain ⟨-, hresponse⟩ := Option.ite_none_right_eq_some.mp hresponse
  obtain rfl := Option.some.inj hresponse
  exact isInt_valueInt code

/-- A message that is a string can stand between quotes. -/
theorem response_stringBody {payload : List UInt8} {response : DmMsgResponsePayload}
    (hresponse : dmMsgResponseParse payload = some response)
    (hmessage : memberType payload (ascii "message") = none ∨
      memberType payload (ascii "message") = some .string) :
    StringBody response.message := by
  obtain ⟨lite, hparse, hresponse⟩ := Option.bind_eq_some_iff.mp hresponse
  obtain ⟨id, -, hresponse⟩ := Option.bind_eq_some_iff.mp hresponse
  obtain ⟨code, -, hresponse⟩ := Option.bind_eq_some_iff.mp hresponse
  obtain ⟨data, -, hresponse⟩ := Option.bind_eq_some_iff.mp hresponse
  obtain ⟨-, hresponse⟩ := Option.ite_none_right_eq_some.mp hresponse
  obtain rfl := Option.some.inj hresponse
  cases hitem : jsonObjectItem payload lite (ascii "message") with
  | none => exact .nil
  | some item =>
      have htype : item.type = .string := by
        simpa [memberType, hparse, hitem] using hmessage
      exact (jsonObjectItem_embedded hparse hitem).stringBody htype

/-- The bytes of an event have no NUL. -/
theorem zero_not_mem_thingReply (id code devid : Int) (identifier data message : List UInt8)
    (size : Nat) :
    0 ∉ halSnprintf size (thingReplyFormat id code devid identifier data message) := by
  apply zero_not_mem_halSnprintf
  intro bytes hbytes
  simp only [thingReplyFormat, List.mem_cons, List.not_mem_nil, or_false, reduceCtorEq, false_or,
    FormatPart.text.injEq] at hbytes
  rcases hbytes with rfl | rfl | rfl | rfl | rfl | rfl | rfl <;> decide

section Replies

variable {cache : DmMsgCacheCtx} {node : DmMsgCacheNode} {response : DmMsgResponsePayload}
  {identifier : CString} {queued : Bool}

/-- The buffer of an event. -/
def thingReplyLen (devid : Int) (identifier : CString) (response : DmMsgResponsePayload) : Nat :=
  formatStrlen (thingReplyFormat (atoi response.id) response.code devid identifier.bytes
    response.data response.message) + dmUtilsUint32Strlen * 3 + identifier.strlen +
      response.message.length + 1

/-- An event is queued if the id is not too long. -/
theorem dmMsgThingReply_eq_some_iff
    (hnode : dmMsgCacheSearch cache (atoi response.id) = some node) {text : List UInt8} :
    dmMsgThingReply cache identifier response queued = some text ↔
      queued = true ∧ response.id.length ≤ dmUtilsUint32Strlen ∧
        text = halSnprintf (thingReplyLen node.devid identifier response)
          (thingReplyFormat (atoi response.id) response.code node.devid identifier.bytes
            response.data response.message) := by
  rw [dmMsgThingReply, BatchReply.atoi_padded]
  by_cases hlong : response.id.length > dmUtilsUint32Strlen
  · simp [hlong, hlong.not_ge]
  · rw [if_neg hlong]
    simp only [hnode, Option.ite_none_right_eq_some, Option.some.injEq]
    rw [and_iff_right (Nat.not_lt.mp hlong), thingReplyLen, eq_comm (a := text)]

/-- The user is called once if the event has the reply, and is put into the queue whole. -/
theorem invokesOnce_iff_call (hnode : dmMsgCacheSearch cache (atoi response.id) = some node) :
    InvokesOnce cache node.devid identifier response queued ↔
      queued = true ∧ response.id.length ≤ dmUtilsUint32Strlen ∧
        thingReplyCall (halSnprintf (thingReplyLen node.devid identifier response)
          (thingReplyFormat (atoi response.id) response.code node.devid identifier.bytes
            response.data response.message)) =
          some ⟨node.devid, atoi response.id, response.code, identifier.bytes, response.data⟩ := by
  rw [InvokesOnce, thingReplyCalls, Option.toList_eq_singleton_iff, Option.bind_eq_some_iff]
  simp only [dmMsgThingReply_eq_some_iff hnode]
  constructor
  · rintro ⟨text, ⟨hqueued, hid, rfl⟩, hcall⟩
    exact ⟨hqueued, hid, hcall⟩
  · rintro ⟨hqueued, hid, hcall⟩
    exact ⟨_, ⟨hqueued, hid, rfl⟩, hcall⟩

/-- What an event leaves of a whole one that fits, and of one that does not. -/
theorem thingReply_whole (hidentifier : 0 ∉ identifier.bytes) (hdata : 0 ∉ response.data)
    (devid : Int) :
    halSnprintf (thingReplyLen devid identifier response)
        (thingReplyFormat (atoi response.id) response.code devid identifier.bytes response.data
          response.message) =
      if (intDecimal (atoi response.id)).length + (intDecimal response.code).length +
          (intDecimal devid).length + response.data.length +
            (arrayText response.message).length ≤ 48 + response.message.length then
        openText (thingReplyMembers (atoi response.id) response.code devid identifier.bytes
          response.data (arrayText response.message)) ++ [125]
      else
        (openText (thingReplyMembers (atoi response.id) response.code devid identifier.bytes
          response.data (arrayText response.message))).take
            (thingReplyLen devid identifier response - 1) := by
  have hlength := length_thingReplyFormat (atoi response.id) response.code devid hidentifier hdata
    response.message
  have htext := formatText_thingReplyFormat (atoi response.id) response.code devid hidentifier
    hdata response.message
  rw [htext, List.length_append, List.length_singleton] at hlength
  have hsize : thingReplyLen devid identifier response - 1 =
      formatStrlen (thingReplyFormat (atoi response.id) response.code devid identifier.bytes
        response.data response.message) + 30 + identifier.bytes.length +
          response.message.length := rfl
  rw [halSnprintf, htext]
  split
  next hroom =>
    apply List.take_of_length_le
    rw [List.length_append, List.length_singleton]
    omega
  next hroom =>
    rw [List.take_append_of_le_length]
    omega

/-- An event that fits is read back. -/
theorem thingReplyCall_of_fits {devid : Int} (hcode : IsInt response.code) (hdevid : IsInt devid)
    (hfits : FitsEvent devid identifier response queued) :
    thingReplyCall (halSnprintf (thingReplyLen devid identifier response)
        (thingReplyFormat (atoi response.id) response.code devid identifier.bytes response.data
          response.message)) =
      some ⟨devid, atoi response.id, response.code, identifier.bytes, response.data⟩ := by
  rw [thingReply_whole identifier.noNul hfits.noNul, if_pos hfits.room]
  exact thingReplyCall_render (isInt_atoi response.id) hcode hdevid hfits.identifier hfits.data
    hfits.message

end Replies

/-- A cache with the request 7 of the device 3. -/
def cachedRequest : DmMsgCacheCtx := ⟨1, [⟨7, 3, 0, none, 0⟩]⟩

/-- The method name of a reply to a measurepoint. -/
def postMethod : CString := ⟨ascii "measurepoint.post_reply", by decide⟩

/-- A response to the request with the data and without a message. -/
def replyPayload (data : List UInt8) : List UInt8 :=
  ascii "\x7b\"id\":\"7\",\"code\":200,\"data\":" ++ data ++ [125]

theorem replyPayload_parsed {data contents : List UInt8}
    (hparse : (dmMsgResponseParse (replyPayload data)).map (fun response =>
      (response.id, response.code, response.data, response.message)) =
        some ([55], 200, contents, [])) :
    dmMsgResponseParse (replyPayload data) = some ⟨[55], 200, contents, []⟩ := by
  obtain ⟨⟨id, code, data, message⟩, hresponse, hfields⟩ := Option.map_eq_some_iff.mp hparse
  simp only [Prod.mk.injEq] at hfields
  obtain ⟨rfl, rfl, rfl, rfl⟩ := hfields
  exact hresponse

end EnosDeviceSdk.DevModel.Messages
