/-
# Requests and responses that come back

Every message of the device model to the cloud is printed into a buffer whose length is computed
before, parsed once to see whether it is JSON, and published. Here the message is parsed again, as
its receiver would.

A request comes back as it was handed over, whatever its number and parameters are. A response
comes back unless its id has a NUL in it: the parser takes the id of a request with the NUL, and
the response has what stands in front of it.
-/

import EnosDeviceSdk.Infra.JsonUnique
import EnosDeviceSdk.DevModel.CommandDelivery
import EnosDeviceSdk.DevModel.GatewayReply
import EnosDeviceSdk.DevModel.Management

namespace EnosDeviceSdk.DevModel.Messages

open EnosDeviceSdk.Infra EnosDeviceSdk.Library
open EnosDeviceSdk.DevModel.CommandChain EnosDeviceSdk.DevModel.Management

/-! ## Messages -/

/-- `DM_MSG_VERSION` -/
def dmMsgVersion : CString := ⟨ascii "1.0", by decide⟩

/-- `dm_msg_request_t`, with the bytes that the length of the parameters spans. -/
structure DmMsgRequest where
  msgid : Int
  servicePrefix : UriPrefix
  serviceName : CString
  productKey : List UInt8
  deviceKey : List UInt8
  params : List UInt8
  method : CString

/-- `DM_MSG_REQUEST` -/
def requestFormat (msgid : Int) (params : List UInt8) (method : CString) : List FormatPart :=
  [.text (ascii "\x7b\"id\":\""), .d msgid, .text (ascii "\",\"version\":\""),
    .s dmMsgVersion.bytes, .text (ascii "\",\"params\":"), .precise params,
    .text (ascii ",\"method\":\""), .s method.bytes, .text (ascii "\"\x7d")]

/-- `dm_msg_request` to the cloud: the topic and the payload that it publishes. The buffer is
parsed with the zeros behind the text. -/
def dmMsgRequest (request : DmMsgRequest) (uriOk payloadOk : Bool) :
    Option (List UInt8 × List UInt8) :=
  match dmUtilsServiceName (some request.servicePrefix) (some request.serviceName)
      (CString.ofArray request.productKey) (CString.ofArray request.deviceKey) uriOk with
  | .ok uri =>
      let format := requestFormat request.msgid request.params request.method
      let payloadLen := formatStrlen format + 10 + dmMsgVersion.strlen + request.params.length +
        request.method.strlen + 1
      let payload := halSnprintf payloadLen format
      if payloadOk ∧ (jsonParse (padded payloadLen payload)).isSome then
        some (arrayText uri, payload)
      else none
  | _ => none

/-- `dm_msg_response` to the cloud: the topic and the payload that it publishes. -/
def dmMsgRespond (received : DmMsgRequestPayload) (response : DmMsgResponse) (data : List UInt8)
    (uriOk payloadOk : Bool) : Option (List UInt8 × List UInt8) :=
  match dmUtilsServiceName (some response.replyPrefix) (some response.replyName)
      (CString.ofArray response.productKey) (CString.ofArray response.deviceKey) uriOk with
  | .ok uri =>
      (dmMsgResponse received.id response.code data payloadOk).map fun payload =>
        (arrayText uri, payload)
  | _ => none

/-- `dm_msg_response_parse`. The data may be of any type, and so may the message, which may be
missing. -/
def dmMsgResponseParse (payload : List UInt8) : Option DmMsgResponsePayload := do
  let lite ← jsonParse payload
  let id ← jsonMember payload lite (ascii "id") .string
  let code ← jsonMember payload lite (ascii "code") .number
  let data ← jsonObjectItem payload lite (ascii "data")
  let message := jsonObjectItem payload lite (ascii "message")
  if lite.type = .object then
    return ⟨id, valueInt code, itemText payload data, (message.map (itemText payload)).getD []⟩
  else none

/-- The type of the item that the parsers leave for a member. -/
def memberType (payload key : List UInt8) : Option CjsonType := do
  let lite ← jsonParse payload
  let item ← jsonObjectItem payload lite key
  return item.type

/-! ## What comes back -/

/-- A JSON text: a value of any size with white space around it. A C string has no NUL. -/
structure JsonText where
  before : List UInt8
  value : Doc
  after : List UInt8
  blank_before : Blank before
  blank_after : Blank after
  spelled : value.Spelled
  noNul : 0 ∉ before ++ value.render ++ after

/-- Its bytes. -/
def JsonText.bytes (text : JsonText) : List UInt8 := text.before ++ text.value.render ++ text.after

theorem JsonText.arrayText_bytes (text : JsonText) : arrayText text.bytes = text.bytes :=
  arrayText_of_noNul text.noNul

/-- The payload is the whole text of the request, and its receiver reads the number, the method
and the parameters that were handed over. -/
structure RequestReturns (request : DmMsgRequest) (params : JsonText) (payload : List UInt8) :
    Prop where
  whole : payload = formatText (requestFormat request.msgid request.params request.method)
  parsed : dmMsgRequestParse payload = some ⟨intDecimal request.msgid, dmMsgVersion.bytes,
    request.method.bytes, params.value.contents⟩
  type : memberType payload (ascii "params") = some params.value.type

/-- The payload is the whole text of the response, and its receiver reads the id, the code and the
data that were handed over. -/
structure ResponseReturns (id : List UInt8) (code : Int) (data : JsonText)
    (payload : List UInt8) : Prop where
  whole : payload = formatText (responseFormat id code data.bytes)
  parsed : ∃ response, dmMsgResponseParse payload = some response ∧ response.id = id ∧
    response.code = code ∧ response.data = data.value.contents
  type : memberType payload (ascii "data") = some data.value.type

/-- A request is published if the parser takes its parameters and there is memory, and whatever
is published of it comes back. -/
structure RequestSurvives (request : DmMsgRequest) (params : JsonText) : Prop where
  published : params.value.WellFormed (liteCjsonNestingLimit - 1) →
    (dmMsgRequest request true true).isSome = true
  returns : ∀ uriOk payloadOk uri payload,
    dmMsgRequest request uriOk payloadOk = some (uri, payload) →
      RequestReturns request params payload

/-- A response is published if the parser takes its data and there is memory, and whatever is
published of it comes back. -/
structure ResponseSurvives (received : DmMsgRequestPayload) (response : DmMsgResponse)
    (data : JsonText) : Prop where
  published : data.value.WellFormed (liteCjsonNestingLimit - 1) →
    (dmMsgRespond received response data.bytes true true).isSome = true
  returns : ∀ uriOk payloadOk uri payload,
    dmMsgRespond received response data.bytes uriOk payloadOk = some (uri, payload) →
      ResponseReturns received.id response.code data payload

/-! ## The trees of the messages -/

/-- A member whose value has the white space of the text around it. -/
def textMember (key : List UInt8) (text : JsonText) : Frame × Doc :=
  (⟨[], some ⟨key, [], text.before⟩, text.after⟩, text.value)

theorem textMember_fits {key : List UInt8} (hkey : StringBody key) (text : JsonText) :
    (textMember key text).1.Fits .object where
  before := blank_nil
  after := text.blank_after
  label := by simp [textMember]
  key := by
    rintro _ ⟨⟩
    exact hkey
  gap := by
    rintro _ ⟨⟩
    exact blank_nil
  blank := by
    rintro _ ⟨⟩
    exact text.blank_before

/-- The tree of a request. -/
def requestDoc (msgid : Int) (params : JsonText) (method : List UInt8) : Doc :=
  .nest .object [] [member (ascii "id") (.scalar (.string (intDecimal msgid))),
    member (ascii "version") (.scalar (.string dmMsgVersion.bytes)),
    textMember (ascii "params") params, member (ascii "method") (.scalar (.string method))]

/-- The tree of a response. -/
def responseDoc (id : List UInt8) (code : Int) (data : JsonText) : Doc :=
  .nest .object [] [member (ascii "id") (.scalar (.string id)),
    member (ascii "code") (.scalar (.number (intDecimal code))), textMember (ascii "data") data]

theorem render_requestDoc (msgid : Int) (params : JsonText) (method : CString) :
    formatText (requestFormat msgid params.bytes method) =
      (requestDoc msgid params method.bytes).render := by
  have hid : ascii "\x7b\"id\":\"" = 123 :: 34 :: (ascii "id" ++ [34, 58, 34]) := by decide
  have hversion : ascii "\",\"version\":\"" =
      34 :: 44 :: 34 :: (ascii "version" ++ [34, 58, 34]) := by decide
  have hparams : ascii "\",\"params\":" = 34 :: 44 :: 34 :: (ascii "params" ++ [34, 58]) := by
    decide
  have hmethod : ascii ",\"method\":\"" = 44 :: 34 :: (ascii "method" ++ [34, 58, 34]) := by
    decide
  have hend : ascii "\"\x7d" = [34, 125] := by decide
  have hbytes := params.arrayText_bytes
  rw [JsonText.bytes, List.append_assoc] at hbytes
  rw [requestDoc, render_nest]
  simp [formatText, requestFormat, FormatPart.print, bodyText, joinCommas, entryText, Frame.wrap,
    Frame.lead, Label.render, member, textMember, Doc.render, Token.render, Nest.opening,
    Nest.closing, hid, hversion, hparams, hmethod, hend, JsonText.bytes,
    hbytes, arrayText_of_noNul dmMsgVersion.noNul, arrayText_of_noNul method.noNul]

theorem render_responseDoc (id : List UInt8) (code : Int) (data : JsonText) :
    formatText (responseFormat id code data.bytes) =
      (responseDoc (arrayText id) code data).render := by
  have hid : ascii "\x7b\"id\":\"" = 123 :: 34 :: (ascii "id" ++ [34, 58, 34]) := by decide
  have hcode : ascii "\",\"code\":" = 34 :: 44 :: 34 :: (ascii "code" ++ [34, 58]) := by decide
  have hdata : ascii ",\"data\":" = 44 :: 34 :: (ascii "data" ++ [34, 58]) := by decide
  have hend : ascii "\x7d" = [125] := by decide
  have hbytes := data.arrayText_bytes
  rw [JsonText.bytes, List.append_assoc] at hbytes
  rw [responseDoc, render_nest]
  simp [formatText, responseFormat, FormatPart.print, bodyText, joinCommas, entryText, Frame.wrap,
    Frame.lead, Label.render, member, textMember, Doc.render, Token.render, Nest.opening,
    Nest.closing, hid, hcode, hdata, hend, hbytes, JsonText.bytes]

theorem stringBody_intDecimal (value : Int) : StringBody (intDecimal value) := by
  apply stringBody_of_plain
  rw [List.all_eq_true]
  intro byte hbyte
  apply decide_eq_true
  refine ⟨?_, ?_⟩ <;>
    (rintro rfl
     exact absurd (intDecimal_bytes value _ hbyte) (by decide))

theorem requestDoc_spelled (msgid : Int) (params : JsonText) {method : List UInt8}
    (hmethod : StringBody method) : (requestDoc msgid params method).Spelled := by
  apply Doc.Spelled.nest blank_nil
  · simp only [List.forall_mem_cons, List.not_mem_nil, false_imp_iff, implies_true, and_true]
    exact ⟨member_fits (stringBody_of_plain (by decide)) _,
      member_fits (stringBody_of_plain (by decide)) _,
      textMember_fits (stringBody_of_plain (by decide)) _,
      member_fits (stringBody_of_plain (by decide)) _⟩
  · simp only [List.forall_mem_cons, List.not_mem_nil, false_imp_iff, implies_true, and_true]
    exact ⟨.scalar (stringBody_intDecimal msgid), .scalar (stringBody_of_plain (by decide)),
      params.spelled, .scalar hmethod⟩

theorem responseDoc_spelled {id : List UInt8} (hid : StringBody id) {code : Int}
    (hcode : IsInt code) (data : JsonText) : (responseDoc id code data).Spelled := by
  apply Doc.Spelled.nest blank_nil
  · simp only [List.forall_mem_cons, List.not_mem_nil, false_imp_iff, implies_true, and_true]
    exact ⟨member_fits (stringBody_of_plain (by decide)) _,
      member_fits (stringBody_of_plain (by decide)) _,
      textMember_fits (stringBody_of_plain (by decide)) _⟩
  · simp only [List.forall_mem_cons, List.not_mem_nil, false_imp_iff, implies_true, and_true]
    have hnumber : (Token.number (intDecimal code)).Valid := numberToken_intDecimal hcode
    exact ⟨.scalar hid, .scalar hnumber.spelled, data.spelled⟩

theorem wellFormed_requestDoc_iff (msgid : Int) (params : JsonText) {method : List UInt8}
    (hmethod : StringBody method) :
    (requestDoc msgid params method).WellFormed liteCjsonNestingLimit ↔
      params.value.WellFormed (liteCjsonNestingLimit - 1) := by
  refine (@wellFormed_nest_iff (liteCjsonNestingLimit - 1) _ _ _
    (requestDoc_spelled msgid params hmethod)).trans ?_
  simp only [List.forall_mem_cons, List.not_mem_nil, false_imp_iff, implies_true, and_true]
  constructor
  · rintro ⟨-, -, hparams, -⟩
    exact hparams
  · intro hparams
    exact ⟨.scalar (stringBody_intDecimal msgid), .scalar (stringBody_of_plain (by decide)),
      hparams, .scalar hmethod⟩

theorem wellFormed_responseDoc_iff {id : List UInt8} (hid : StringBody id) {code : Int}
    (hcode : IsInt code) (data : JsonText) :
    (responseDoc id code data).WellFormed liteCjsonNestingLimit ↔
      data.value.WellFormed (liteCjsonNestingLimit - 1) := by
  refine (@wellFormed_nest_iff (liteCjsonNestingLimit - 1) _ _ _
    (responseDoc_spelled hid hcode data)).trans ?_
  simp only [List.forall_mem_cons, List.not_mem_nil, false_imp_iff, implies_true, and_true]
  constructor
  · rintro ⟨-, -, hdata⟩
    exact hdata
  · intro hdata
    exact ⟨.scalar hid, .scalar (numberToken_intDecimal hcode), hdata⟩

/-- The check of a printed message asks for the parser's limits. -/
theorem accepts_padded_iff {kind : Nest} {blank : List UInt8} {entries : List (Frame × Doc)}
    (hdoc : (Doc.nest kind blank entries).Spelled) (size : Nat) :
    (jsonParse (padded size (Doc.nest kind blank entries).render)).isSome = true ↔
      (Doc.nest kind blank entries).WellFormed liteCjsonNestingLimit := by
  constructor
  · intro haccepted
    have hzeros : Blank
        (List.replicate (size - (Doc.nest kind blank entries).render.length) 0) := by
      intro byte hbyte
      rw [List.eq_of_mem_replicate hbyte]
      decide
    exact wellFormed_of_accepted hdoc hzeros haccepted
  · intro hwell
    exact jsonParse_padded hwell size

theorem accepts_requestDoc_iff (msgid : Int) (params : JsonText) {method : List UInt8}
    (hmethod : StringBody method) (size : Nat) :
    (jsonParse (padded size (requestDoc msgid params method).render)).isSome = true ↔
      params.value.WellFormed (liteCjsonNestingLimit - 1) :=
  (accepts_padded_iff (requestDoc_spelled msgid params hmethod) size).trans
    (wellFormed_requestDoc_iff msgid params hmethod)

theorem accepts_responseDoc_iff {id : List UInt8} (hid : StringBody id) {code : Int}
    (hcode : IsInt code) (data : JsonText) (size : Nat) :
    (jsonParse (padded size (responseDoc id code data).render)).isSome = true ↔
      data.value.WellFormed (liteCjsonNestingLimit - 1) :=
  (accepts_padded_iff (responseDoc_spelled hid hcode data) size).trans
    (wellFormed_responseDoc_iff hid hcode data)

/-! ## Publishing -/

/-- The buffer of a request has room for all of it. -/
theorem request_fits {msgid : Int} (hmsgid : IsInt msgid) (params : JsonText) (method : CString) :
    halSnprintf (formatStrlen (requestFormat msgid params.bytes method) + 10 +
        dmMsgVersion.strlen + params.bytes.length + method.strlen + 1)
        (requestFormat msgid params.bytes method) =
      (requestDoc msgid params method.bytes).render := by
  have hdigits := (length_intDecimal_le hmsgid).2
  rw [halSnprintf, List.take_of_length_le, render_requestDoc]
  simp [formatText, formatStrlen, requestFormat, FormatPart.print, FormatPart.strlen,
    params.arrayText_bytes, arrayText_of_noNul dmMsgVersion.noNul,
    arrayText_of_noNul method.noNul, CString.strlen]
  omega

/-- The buffer of a response has room for all of it. -/
theorem response_fits (id : List UInt8) {code : Int} (hcode : IsInt code) (data : JsonText) :
    halSnprintf (formatStrlen (responseFormat id code data.bytes) + id.length +
        dmUtilsUint32Strlen + data.bytes.length + 1) (responseFormat id code data.bytes) =
      (responseDoc (arrayText id) code data).render := by
  have hdigits := (length_intDecimal_le hcode).2
  have hid : (arrayText id).length ≤ id.length := (List.takeWhile_prefix _).length_le
  rw [halSnprintf, List.take_of_length_le, render_responseDoc]
  simp [formatText, formatStrlen, responseFormat, FormatPart.print, FormatPart.strlen,
    data.arrayText_bytes, dmUtilsUint32Strlen]
  omega

/-- A request is published where there is memory and the parser takes the parameters. -/
theorem dmMsgRequest_eq_some_iff {request : DmMsgRequest} {params : JsonText}
    (hmsgid : IsInt request.msgid) (hparams : request.params = params.bytes)
    (hmethod : StringBody request.method.bytes) {uriOk payloadOk : Bool}
    {published : List UInt8 × List UInt8} :
    dmMsgRequest request uriOk payloadOk = some published ↔
      uriOk = true ∧ payloadOk = true ∧ params.value.WellFormed (liteCjsonNestingLimit - 1) ∧
        published = (request.servicePrefix.topic (CString.ofArray request.productKey)
          (CString.ofArray request.deviceKey) request.serviceName,
          (requestDoc request.msgid params request.method.bytes).render) := by
  cases uriOk with
  | false => simp [dmMsgRequest, dmUtilsServiceName]
  | true =>
      rw [dmMsgRequest, dmUtilsServiceName_eq, @eq_comm _ published]
      dsimp only
      rw [hparams, request_fits hmsgid params request.method,
        arrayText_padded (zero_not_mem_topic _ _ _ _), Option.ite_none_right_eq_some,
        Option.some.injEq, and_assoc, accepts_requestDoc_iff _ _ hmethod]
      simp

/-- A response is refused if its id is cut behind an escape: the quote behind the id is escaped
then, and a string ends within the name of the code. -/
theorem escaped_refused {body : List UInt8} (hbody : StringBody body) (code : Int)
    (data : JsonText) (zeros : List UInt8) :
    jsonParse ((responseDoc (body ++ [92]) code data).render ++ zeros) = none := by
  rw [Option.eq_none_iff_forall_ne_some]
  intro item hparse
  have hlong : StringBody (body ++ [92, 34, 44]) :=
    hbody.append (.escaped (.plain (by decide) (by decide) .nil))
  have hcode : ascii "code" = 99 :: ascii "ode" := by decide
  have htext : ∃ rest, (responseDoc (body ++ [92]) code data).render ++ zeros =
      123 :: 34 :: (ascii "id" ++ 34 :: 58 :: 34 :: (body ++ [92, 34, 44] ++
        34 :: 99 :: rest)) := by
    rw [responseDoc, render_nest]
    simp only [bodyText, joinCommas, entryText, Frame.wrap, Frame.lead, Label.render, member,
      Doc.render, Token.render, Nest.opening, hcode, List.map_cons, Option.map_some,
      Option.getD_some, List.flatten_cons, List.append_assoc, List.cons_append, List.nil_append]
    exact ⟨_, rfl⟩
  obtain ⟨rest, htext⟩ := htext
  rw [htext] at hparse
  obtain ⟨space, byte, more, hsplit, hspace, hbyte⟩ :=
    behind_stringMember (stringBody_of_plain (by decide)) hlong hparse
  have hsolid : ¬(99 : UInt8) ≤ 32 := by decide
  have hother : ¬byte ≤ 32 := by rcases hbyte with rfl | rfl <;> decide
  obtain ⟨-, hsame⟩ := blank_nil.unique hspace (solid_cons hsolid _) (solid_cons hother _) hsplit
  rcases hbyte with rfl | rfl <;> exact absurd (List.cons.inj hsame).1 (by decide)

/-- A response is published where there is memory, the id in front of its NUL can stand between
quotes, and the parser takes the data. -/
theorem dmMsgResponse_eq_some_iff {id : List UInt8} (hid : StringBody id) {code : Int}
    (hcode : IsInt code) (data : JsonText) {payloadOk : Bool} {payload : List UInt8} :
    dmMsgResponse id code data.bytes payloadOk = some payload ↔
      payloadOk = true ∧ StringBody (arrayText id) ∧
        data.value.WellFormed (liteCjsonNestingLimit - 1) ∧
        payload = (responseDoc (arrayText id) code data).render := by
  have hsome : data.bytes ≠ [] := by
    obtain ⟨byte, rest, hcons, -⟩ := data.spelled.head
    simp [JsonText.bytes, hcons]
  cases payloadOk with
  | false => simp [dmMsgResponse]
  | true =>
      rw [dmMsgResponse, if_neg (by simpa using hsome)]
      dsimp only
      rw [response_fits id hcode data, Option.ite_none_right_eq_some, Option.some.injEq]
      obtain ⟨back, hback⟩ : ∃ back, id = arrayText id ++ back :=
        ⟨_, (List.takeWhile_append_dropWhile).symm⟩
      have hfront := hid
      rw [hback] at hfront
      rcases hfront.front with hbody | ⟨body, hescape, hbody⟩
      · rw [accepts_responseDoc_iff hbody hcode data, eq_comm]
        simp [hbody]
      · rw [hescape, padded, escaped_refused hbody]
        simp [not_stringBody_escape hbody]

/-! ## Parsing what was published -/

/-- A member that the text of an object has, as the accessors give it out. -/
theorem member_read {doc value : Doc} {item : LiteCjson} {key : List UInt8}
    (hparse : jsonParse doc.render = some item) (hitem : Represents doc.render item doc [])
    (hdoc : doc.WellFormed liteCjsonNestingLimit) (hsome : key ≠ [])
    (hfield : doc.field key = some value) :
    (∃ found, jsonObjectItem doc.render item key = some found ∧
      itemText doc.render found = value.contents) ∧
      memberType doc.render key = some value.type := by
  obtain ⟨found, place, hfound, hrepresents⟩ := jsonObjectItem_field hitem hdoc hsome hfield
  refine ⟨⟨found, hfound, hrepresents.itemText⟩, ?_⟩
  simp only [memberType, hparse, hfound, Option.bind_eq_bind, Option.bind_some, Option.pure_def,
    hrepresents.denotes.type]

/-- A published request is read back. -/
theorem requestDoc_returns {msgid : Int} {params : JsonText} {method : List UInt8}
    (hmethod : StringBody method) (hparams : params.value.WellFormed (liteCjsonNestingLimit - 1)) :
    dmMsgRequestParse (requestDoc msgid params method).render =
        some ⟨intDecimal msgid, dmMsgVersion.bytes, method, params.value.contents⟩ ∧
      memberType (requestDoc msgid params method).render (ascii "params") =
        some params.value.type := by
  have hdoc := (wellFormed_requestDoc_iff msgid params hmethod).mpr hparams
  obtain ⟨item, hparse, hitem⟩ := jsonParse_render hdoc
  have hid : (requestDoc msgid params method).field (ascii "id") =
      some (.scalar (.string (intDecimal msgid))) := rfl
  have hversion : (requestDoc msgid params method).field (ascii "version") =
      some (.scalar (.string dmMsgVersion.bytes)) := rfl
  have hname : (requestDoc msgid params method).field (ascii "method") =
      some (.scalar (.string method)) := rfl
  obtain ⟨⟨found, hfound, htext⟩, htype⟩ :=
    member_read hparse hitem hdoc (by decide : ascii "params" ≠ []) rfl
  refine ⟨?_, htype⟩
  simp only [dmMsgRequestParse, hparse, jsonMember_field hitem hdoc (by decide) hid,
    jsonMember_field hitem hdoc (by decide) hversion, jsonMember_field hitem hdoc (by decide) hname,
    hfound, htext, hitem.denotes.type, Option.bind_eq_bind, Option.bind_some]
  rfl

/-- A published response is read back. -/
theorem responseDoc_returns {id : List UInt8} (hid : StringBody id) {code : Int}
    (hcode : IsInt code) {data : JsonText}
    (hdata : data.value.WellFormed (liteCjsonNestingLimit - 1)) :
    (∃ response, dmMsgResponseParse (responseDoc id code data).render = some response ∧
        response.id = id ∧ response.code = code ∧ response.data = data.value.contents) ∧
      memberType (responseDoc id code data).render (ascii "data") = some data.value.type := by
  have hdoc := (wellFormed_responseDoc_iff hid hcode data).mpr hdata
  obtain ⟨item, hparse, hitem⟩ := jsonParse_render hdoc
  have hidField : (responseDoc id code data).field (ascii "id") = some (.scalar (.string id)) := rfl
  have hcodeField : (responseDoc id code data).field (ascii "code") =
      some (.scalar (.number (intDecimal code))) := rfl
  have hidMember : jsonMember (responseDoc id code data).render item (ascii "id") .string =
      some id := by
    rw [jsonMember_field hitem hdoc (by decide) hidField]
    rfl
  have hcodeMember : jsonMember (responseDoc id code data).render item (ascii "code") .number =
      some (intDecimal code) := by
    rw [jsonMember_field hitem hdoc (by decide) hcodeField]
    rfl
  obtain ⟨⟨found, hfound, htext⟩, htype⟩ :=
    member_read hparse hitem hdoc (by decide : ascii "data" ≠ []) rfl
  let message := jsonObjectItem (responseDoc id code data).render item (ascii "message")
  refine ⟨⟨⟨id, code, data.value.contents,
    (message.map (itemText (responseDoc id code data).render)).getD []⟩, ?_, rfl, rfl, rfl⟩, htype⟩
  simp only [dmMsgResponseParse, hparse, hidMember, hcodeMember, hfound, htext, hitem.denotes.type,
    valueInt_intDecimal hcode, Option.bind_eq_bind, Option.bind_some]
  rfl

/-! ## Which messages come back -/

/-- Every request comes back. -/
theorem requestSurvives {request : DmMsgRequest} {params : JsonText}
    (hmsgid : IsInt request.msgid) (hparams : request.params = params.bytes)
    (hmethod : StringBody request.method.bytes) : RequestSurvives request params where
  published := by
    intro hlimits
    rw [Option.isSome_iff_exists]
    exact ⟨_, (dmMsgRequest_eq_some_iff hmsgid hparams hmethod).mpr ⟨rfl, rfl, hlimits, rfl⟩⟩
  returns := by
    intro uriOk payloadOk uri payload hpublished
    obtain ⟨-, -, hlimits, hsame⟩ :=
      (dmMsgRequest_eq_some_iff hmsgid hparams hmethod).mp hpublished
    obtain ⟨-, rfl⟩ := Prod.mk.inj hsame
    obtain ⟨hparsed, htype⟩ := @requestDoc_returns request.msgid _ _ hmethod hlimits
    exact ⟨by rw [hparams, render_requestDoc], hparsed, htype⟩

theorem dmMsgRespond_eq_some_iff {received : DmMsgRequestPayload} {response : DmMsgResponse}
    (hid : StringBody received.id) (hcode : IsInt response.code) (data : JsonText)
    {uriOk payloadOk : Bool} {published : List UInt8 × List UInt8} :
    dmMsgRespond received response data.bytes uriOk payloadOk = some published ↔
      uriOk = true ∧ payloadOk = true ∧ StringBody (arrayText received.id) ∧
        data.value.WellFormed (liteCjsonNestingLimit - 1) ∧
        published = (response.replyPrefix.topic (CString.ofArray response.productKey)
          (CString.ofArray response.deviceKey) response.replyName,
          (responseDoc (arrayText received.id) response.code data).render) := by
  cases uriOk with
  | false => simp [dmMsgRespond, dmUtilsServiceName]
  | true =>
      rw [dmMsgRespond, dmUtilsServiceName_eq]
      dsimp only
      rw [arrayText_padded (zero_not_mem_topic _ _ _ _), Option.map_eq_some_iff]
      simp only [dmMsgResponse_eq_some_iff hid hcode data]
      constructor
      · rintro ⟨payload, ⟨hmemory, hbody, hlimits, rfl⟩, rfl⟩
        exact ⟨trivial, hmemory, hbody, hlimits, rfl⟩
      · rintro ⟨-, hmemory, hbody, hlimits, rfl⟩
        exact ⟨_, ⟨hmemory, hbody, hlimits, rfl⟩, rfl⟩

/-- A response comes back if its id has no NUL, and else just if the parser refuses the data. -/
theorem responseSurvives_iff {received : DmMsgRequestPayload} {response : DmMsgResponse}
    (hid : StringBody received.id) (hcode : IsInt response.code) (data : JsonText) :
    ResponseSurvives received response data ↔
      0 ∉ received.id ∨ ¬data.value.WellFormed (liteCjsonNestingLimit - 1) := by
  constructor
  · rintro ⟨hpublished, hreturns⟩
    by_contra hneither
    rw [not_or, not_not, not_not] at hneither
    obtain ⟨hzero, hlimits⟩ := hneither
    obtain ⟨⟨uri, payload⟩, hsome⟩ := Option.isSome_iff_exists.mp (hpublished hlimits)
    obtain ⟨-, -, hbody, -, hsame⟩ := (dmMsgRespond_eq_some_iff hid hcode data).mp hsome
    obtain ⟨-, rfl⟩ := Prod.mk.inj hsame
    obtain ⟨⟨other, hother, hcut, -⟩, -⟩ := responseDoc_returns hbody hcode hlimits
    obtain ⟨-, ⟨parsed, hparsed, hwhole, -⟩, -⟩ := hreturns _ _ _ _ hsome
    -- the parser gives back the id up to its NUL
    obtain rfl : other = parsed := Option.some.inj (hother.symm.trans hparsed)
    rw [← hwhole, hcut] at hzero
    exact zero_not_mem_arrayText _ hzero
  · rintro (hzero | hlimits)
    · have hwhole := arrayText_of_noNul hzero
      have hpublish : ∀ {uriOk payloadOk : Bool} {published : List UInt8 × List UInt8},
          dmMsgRespond received response data.bytes uriOk payloadOk = some published ↔ _ :=
        dmMsgRespond_eq_some_iff hid hcode data
      rw [hwhole] at hpublish
      constructor
      · intro hlimits
        rw [Option.isSome_iff_exists]
        exact ⟨_, hpublish.mpr ⟨rfl, rfl, hid, hlimits, rfl⟩⟩
      · intro uriOk payloadOk uri payload hsome
        obtain ⟨-, -, -, hlimits, hsame⟩ := hpublish.mp hsome
        obtain ⟨-, rfl⟩ := Prod.mk.inj hsame
        obtain ⟨hparsed, htype⟩ := responseDoc_returns hid hcode hlimits
        exact ⟨by rw [render_responseDoc, hwhole], hparsed, htype⟩
    · refine ⟨fun hwithin => absurd hwithin hlimits, ?_⟩
      intro uriOk payloadOk uri payload hsome
      obtain ⟨-, -, -, hwithin, -⟩ := (dmMsgRespond_eq_some_iff hid hcode data).mp hsome
      exact absurd hwithin hlimits

/-- The id of a parsed request can stand between quotes. -/
theorem stringBody_id {payload : List UInt8} {request : DmMsgRequestPayload}
    (hrequest : dmMsgRequestParse payload = some request) : StringBody request.id := by
  obtain ⟨lite, hparse, hrequest⟩ := Option.bind_eq_some_iff.mp hrequest
  obtain ⟨id, hid, hrequest⟩ := Option.bind_eq_some_iff.mp hrequest
  obtain ⟨version, -, hrequest⟩ := Option.bind_eq_some_iff.mp hrequest
  obtain ⟨method, -, hrequest⟩ := Option.bind_eq_some_iff.mp hrequest
  obtain ⟨params, -, hrequest⟩ := Option.bind_eq_some_iff.mp hrequest
  obtain ⟨-, hrequest⟩ := Option.ite_none_right_eq_some.mp hrequest
  obtain rfl := Option.some.inj hrequest
  exact stringBody_of_jsonMember hparse hid

/-- All requests come back, and just the responses to requests whose id has no NUL, as long as the
parser takes what the user hands over as data. -/
theorem messagesSurvive_iff {request : DmMsgRequest} {params : JsonText}
    (hmsgid : IsInt request.msgid) (hparams : request.params = params.bytes)
    (hmethod : ∀ byte ∈ request.method.bytes, byte ≠ 34 ∧ byte ≠ 92)
    {payload : List UInt8} {received : DmMsgRequestPayload}
    (hreceived : dmMsgRequestParse payload = some received) {response : DmMsgResponse}
    (hcode : IsInt response.code) (data : JsonText) :
    RequestSurvives request params ∧ ResponseSurvives received response data ↔
      0 ∉ received.id ∨ ¬data.value.WellFormed (liteCjsonNestingLimit - 1) := by
  have hbody : StringBody request.method.bytes := by
    simpa using stringBody_append hmethod .nil
  rw [responseSurvives_iff (stringBody_id hreceived) hcode data]
  exact and_iff_right (requestSurvives hmsgid hparams hbody)

/-- The text `{}`. -/
def emptyText : JsonText where
  before := []
  value := .nest .object [] []
  after := []
  blank_before := blank_nil
  blank_after := blank_nil
  spelled := .nest blank_nil (List.forall_mem_nil _) (List.forall_mem_nil _)
  noNul := by decide

/-- A request of a gateway with empty parameters. -/
def plainRequest : DmMsgRequest where
  msgid := -7
  servicePrefix := .sys
  serviceName := ⟨ascii "thing/measurepoint/post", by decide⟩
  productKey := ascii "pk"
  deviceKey := ascii "dk"
  params := emptyText.bytes
  method := ⟨ascii "thing.measurepoint.post", by decide⟩

/-- A response of the gateway. -/
def plainResponse : DmMsgResponse :=
  ⟨.sys, ⟨ascii "thing/service/reply", by decide⟩, ascii "pk", ascii "dk", 200⟩

/-- A gateway's own request and the response to it come back. -/
theorem messagesSurvive_plain :
    RequestSurvives plainRequest emptyText ∧
      ResponseSurvives ⟨intDecimal 7, dmMsgVersion.bytes, ascii "m", emptyText.value.contents⟩
        plainResponse emptyText := by
  have hmethod : ∀ byte ∈ plainRequest.method.bytes, byte ≠ 34 ∧ byte ≠ 92 := by
    simpa using List.all_eq_true.mp (by decide : plainRequest.method.bytes.all
      (fun byte => byte ≠ 34 ∧ byte ≠ 92) = true)
  have hempty : emptyText.value.WellFormed (liteCjsonNestingLimit - 1) :=
    .nest blank_nil (List.forall_mem_nil _) (List.forall_mem_nil _)
  have hreceived := (@requestDoc_returns 7 emptyText (ascii "m")
    (stringBody_of_plain (by decide)) hempty).1
  exact (messagesSurvive_iff (by decide) rfl hmethod hreceived (by decide) emptyText).mpr
    (Or.inl (by decide))

/-- The request `{"id":"a‹NUL›b","version":"1.0","params":{},"method":"m"}`. -/
def nulRequest : List UInt8 :=
  ascii "\x7b\"id\":\"a" ++
    0 :: ascii "b\",\"version\":\"1.0\",\"params\":\x7b\x7d,\"method\":\"m\"\x7d"

/-- It is parsed, and the response to it has the id `a`. -/
theorem not_messagesSurvive_nul :
    ∃ received, dmMsgRequestParse nulRequest = some received ∧
      ¬(RequestSurvives plainRequest emptyText ∧
        ResponseSurvives received plainResponse emptyText) := by
  have hid : (dmMsgRequestParse nulRequest).map DmMsgRequestPayload.id = some [97, 0, 98] := by
    decide +kernel
  obtain ⟨received, hreceived, hid⟩ := Option.map_eq_some_iff.mp hid
  refine ⟨received, hreceived, ?_⟩
  rintro ⟨-, hresponse⟩
  have hempty : emptyText.value.WellFormed (liteCjsonNestingLimit - 1) :=
    .nest blank_nil (List.forall_mem_nil _) (List.forall_mem_nil _)
  rcases (responseSurvives_iff (stringBody_id hreceived) (by decide) emptyText).mp hresponse with
    hzero | hlimits
  · exact hzero (by rw [hid]; decide)
  · exact hlimits hempty

end EnosDeviceSdk.DevModel.Messages
