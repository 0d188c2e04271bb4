/-
# Which commands come through their events

The event of a service has room for everything, so a service comes through if its name can stand
between quotes and its parameters have no NUL. The event of a measurepoint has room for twenty
characters of its two numbers. If they have one more it loses its closing bracket, which the parser
does not miss. If they have two more it loses the end of the parameters, and whatever the parser
then takes for them, it is not what the request had.
-/

import EnosDeviceSdk.DevModel.CommandDelivery
import EnosDeviceSdk.Infra.JsonUnique

namespace EnosDeviceSdk.DevModel.CommandChain

open EnosDeviceSdk.Infra EnosDeviceSdk.Library EnosDeviceSdk.DevModel.CommandList

universe u v

variable {ι : Type u} {τ : Type v}

/-! ## Objects that may lack their bracket -/

section Objects

variable {members : List (List UInt8 × Doc)} {text : List UInt8} {item : LiteCjson}

theorem jsonMember_framed (hobject : (objectOf members).WellFormed liteCjsonNestingLimit)
    (hitem : Lists text item .object (framed members) []) {key : List UInt8} {value : Doc}
    (hsome : key ≠ [])
    (hfind : members.find? (fun entry => entry.1 = key) = some (key, value)) (type : CjsonType) :
    jsonMember text item key type = if value.type = type then some value.contents else none := by
  obtain ⟨hframes, hvalues⟩ := @framed_fits 999 _ hobject
  have hframed : (framed members).find? (fun entry => keyOf entry = key) =
      some (member key value) := by
    rw [framed, List.find?_map]
    exact congrArg (Option.map fun entry => member entry.1 entry.2) hfind
  exact jsonMember_found hitem hframes (fun entry hentry => (hvalues entry hentry).mono (by decide))
    hsome hframed type

/-- Where the text of a member begins. -/
theorem jsonObjectItem_address (hobject : (objectOf members).WellFormed liteCjsonNestingLimit)
    (hitem : Lists text item .object (framed members) []) {index : Nat}
    (hindex : index < members.length) (hsome : members[index].1 ≠ [])
    (hfirst : ∀ earlier (hearlier : earlier < index), members[earlier].1 ≠ members[index].1) :
    ∃ value, jsonObjectItem text item members[index].1 = some value ∧
      value.type = members[index].2.type ∧
      value.value = some (((entryAhead .object (framed members) index ++
        (member members[index].1 members[index].2).1.lead).length : Int) +
          members[index].2.indent) := by
  obtain ⟨hframes, hvalues⟩ := @framed_fits 999 _ hobject
  have hlength : (framed members).length = members.length := List.length_map ..
  have hentry : ∀ place (hplace : place < members.length)
      (hframed : place < (framed members).length),
      (framed members)[place] = member members[place].1 members[place].2 := by
    intro place hplace hframed
    exact List.getElem_map ..
  obtain ⟨value, hvalue, hrepresents⟩ := objectItem_found hitem hframes
    (fun entry hentry => (hvalues entry hentry).mono (by decide)) (hlength ▸ hindex) hsome
    (by rw [hentry index hindex, keyOf_member])
    (fun earlier hearlier => by
      rw [hentry earlier (Nat.lt_trans hearlier hindex), keyOf_member]
      exact hfirst earlier hearlier)
  rw [hentry index hindex] at hrepresents
  exact ⟨value, by rw [jsonObjectItem, hvalue, Outcome.toOption_ok], hrepresents.denotes.type,
    hrepresents.denotes.value⟩

end Objects

/-- The digits at an address. -/
theorem digits_at {front id behind : List UInt8} {byte : UInt8}
    (hdigits : ∀ byte ∈ id, isDigit byte = true) (hbyte : isDigit byte = false) {address : Int}
    (haddress : address = front.length) :
    ((front ++ (id ++ byte :: behind)).drop address.toNat).takeWhile isDigit = id := by
  rw [haddress, Int.toNat_natCast, List.drop_left]
  exact (takeWhile_digits hdigits (by simpa using hbyte)).1

/-! ## The event of a service -/

/-- The members of the event of a service. -/
def serviceMembers (id : List UInt8) (devid : Int) (serviceid : List UInt8) (params : Doc)
    (ctx : List UInt8) : List (List UInt8 × Doc) :=
  [(ascii "id", .scalar (.string id)), (ascii "devid", .scalar (.number (intDecimal devid))),
    (ascii "serviceid", .scalar (.string serviceid)), (ascii "payload", params),
    (ascii "ctx", .scalar (.string ctx))]

section Service

variable {id serviceid ctx : List UInt8} {devid : Int} {params : Doc}

theorem formatText_serviceInvokeFormat (hid : 0 ∉ id) (devid : Int) (hserviceid : 0 ∉ serviceid)
    (hparams : 0 ∉ params.render) (hctx : 0 ∉ ctx) :
    formatText (serviceInvokeFormat devid id serviceid params.render ctx) =
      openText (serviceMembers id devid serviceid params ctx) ++ [125] := by
  have hidKey : ascii "\x7b\"id\":\"" = 123 :: 34 :: (ascii "id" ++ [34, 58, 34]) := by decide
  have hdevidKey : ascii "\",\"devid\":" = 34 :: 44 :: 34 :: (ascii "devid" ++ [34, 58]) := by
    decide
  have hserviceKey : ascii ",\"serviceid\":\"" =
      44 :: 34 :: (ascii "serviceid" ++ [34, 58, 34]) := by decide
  have hpayloadKey : ascii "\",\"payload\":" = 34 :: 44 :: 34 :: (ascii "payload" ++ [34, 58]) := by
    decide
  have hctxKey : ascii ",\"ctx\":\"" = 44 :: 34 :: (ascii "ctx" ++ [34, 58, 34]) := by decide
  have hend : ascii "\"\x7d" = [34, 125] := by decide
  rw [← render_openText (by simp [serviceMembers]), render_objectOf _ (by simp [serviceMembers])]
  simp [formatText, serviceInvokeFormat, FormatPart.print, serviceMembers, joinCommas, Doc.render,
    Token.render, hidKey, hdevidKey, hserviceKey, hpayloadKey, hctxKey, hend,
    arrayText_of_noNul hid, arrayText_of_noNul hserviceid, arrayText_of_noNul hparams,
    arrayText_of_noNul hctx]

theorem serviceMembers_wellFormed (hid : StringBody id) (hdevid : IsInt devid)
    (hserviceid : StringBody serviceid) (hparams : params.WellFormed (liteCjsonNestingLimit - 1))
    (hctx : StringBody ctx) :
    (objectOf (serviceMembers id devid serviceid params ctx)).WellFormed
      liteCjsonNestingLimit := by
  apply @objectOf_wellFormed (liteCjsonNestingLimit - 1)
  · simp only [serviceMembers, List.forall_mem_cons, List.not_mem_nil, false_imp_iff, implies_true,
      and_true]
    exact ⟨stringBody_of_plain (by decide), stringBody_of_plain (by decide),
      stringBody_of_plain (by decide), stringBody_of_plain (by decide),
      stringBody_of_plain (by decide)⟩
  · simp only [serviceMembers, List.forall_mem_cons, List.not_mem_nil, false_imp_iff, implies_true,
      and_true]
    exact ⟨.scalar hid, .scalar (numberToken_intDecimal hdevid), .scalar hserviceid, hparams,
      .scalar hctx⟩

/-- The event of a service is read back. -/
theorem serviceInvokeItems_read (hid : StringBody id) (hdevid : IsInt devid)
    (hserviceid : StringBody serviceid) {blank : List UInt8} {entries : List (Frame × Doc)}
    (hparams : (Doc.nest .object blank entries).WellFormed (liteCjsonNestingLimit - 1))
    (hctx : StringBody ctx) :
    serviceInvokeItems (openText (serviceMembers id devid serviceid
        (.nest .object blank entries) ctx) ++ [125]) =
      some ⟨7, devid, serviceid, (Doc.nest .object blank entries).render⟩ := by
  have hobject := serviceMembers_wellFormed hid hdevid hserviceid hparams hctx
  obtain ⟨item, hparse, hitem⟩ :=
    jsonParse_members hobject (by simp [serviceMembers]) (Or.inl rfl)
  obtain ⟨value, hvalue, htype, haddress⟩ := @jsonObjectItem_address _ _ _ hobject hitem 0
    (show 0 < 5 by decide) (by decide : ascii "id" ≠ []) (fun _ hearlier => nomatch hearlier)
  have hidRead : jsonObjectItem _ item (ascii "id") = some value := hvalue
  have hplace : value.value.getD 0 = 7 := by
    rw [haddress]
    rfl
  have hstring : value.type = .string := htype
  have hdevidRead : jsonMember _ item (ascii "devid") .number = some (intDecimal devid) :=
    (jsonMember_framed hobject hitem (by decide) rfl .number).trans (if_pos rfl)
  have hserviceRead : jsonMember _ item (ascii "serviceid") .string = some serviceid :=
    (jsonMember_framed hobject hitem (by decide) rfl .string).trans (if_pos rfl)
  have hpayloadRead : jsonMember _ item (ascii "payload") .object =
      some (Doc.nest .object blank entries).render :=
    (jsonMember_framed hobject hitem (by decide) rfl .object).trans (if_pos rfl)
  simp only [serviceInvokeItems, hparse, hidRead, hdevidRead, hserviceRead, hpayloadRead, hstring,
    hplace, valueInt_intDecimal hdevid, Option.bind_eq_bind, Option.bind_some, Option.pure_def,
    if_true]

/-- The buffer of a service event has room for all of it. -/
theorem dmMsgThingServiceInvoke_whole {request : DmMsgRequestPayload} (hid : 0 ∉ request.id)
    (hrender : request.params = params.render) (hparams : 0 ∉ request.params)
    (hdevid : IsInt devid) (identifier : CString) (context : List UInt8) :
    dmMsgThingServiceInvoke devid identifier request context true =
      some (openText (serviceMembers request.id devid identifier.bytes params
        (infraHex2str context)) ++ [125]) := by
  have hhex := zero_not_mem_hex context
  have hshort := (length_intDecimal_le hdevid).2
  have htext := formatText_serviceInvokeFormat hid devid identifier.noNul (hrender ▸ hparams) hhex
  rw [dmMsgThingServiceInvoke, if_pos rfl, halSnprintf, List.take_of_length_le, hrender, htext]
  simp only [formatText, formatStrlen, serviceInvokeFormat, List.map_cons, List.map_nil,
    FormatPart.print, FormatPart.strlen, List.flatten_cons, List.flatten_nil, List.sum_cons,
    List.sum_nil, List.length_append, List.length_nil, CString.strlen, dmUtilsUint32Strlen,
    arrayText_of_noNul hid, arrayText_of_noNul identifier.noNul, arrayText_of_noNul hparams,
    arrayText_of_noNul hhex]
  omega

/-- The id stands behind the seven bytes with which the event begins. -/
theorem openText_serviceMembers (id : List UInt8) (devid : Int) (serviceid : List UInt8)
    (params : Doc) (ctx : List UInt8) :
    ∃ behind, openText (serviceMembers id devid serviceid params ctx) ++ [125] =
      ascii "\x7b\"id\":\"" ++ (id ++ 34 :: behind) := by
  have hidKey : ascii "\x7b\"id\":\"" = 123 :: 34 :: (ascii "id" ++ [34, 58, 34]) := by decide
  rw [hidKey]
  simp only [openText, framed, serviceMembers, joinCommas, entryText, Frame.wrap, Frame.lead,
    member, Label.render, Doc.render, Token.render, List.map_cons, Option.map_some,
    Option.getD_some, List.cons_append, List.append_assoc, List.nil_append]
  exact ⟨_, rfl⟩

/-- What the dispatcher takes for the name of a service can stand between quotes, and what it takes
for the parameters is in the event. -/
theorem serviceInvokeItems_texts {text : List UInt8} {items : EventItems}
    (hitems : serviceInvokeItems text = some items) :
    StringBody items.serviceid ∧ ∀ byte ∈ items.payload, byte ∈ text := by
  obtain ⟨lite, hparse, hitems⟩ := Option.bind_eq_some_iff.mp hitems
  obtain ⟨id, -, hitems⟩ := Option.bind_eq_some_iff.mp hitems
  obtain ⟨devid, -, hitems⟩ := Option.bind_eq_some_iff.mp hitems
  obtain ⟨serviceid, hserviceid, hitems⟩ := Option.bind_eq_some_iff.mp hitems
  obtain ⟨payload, hpayload, hitems⟩ := Option.bind_eq_some_iff.mp hitems
  obtain ⟨-, hitems⟩ := Option.ite_none_right_eq_some.mp hitems
  obtain rfl := Option.some.inj hitems
  exact ⟨stringBody_of_jsonMember hparse hserviceid, fun _ => mem_of_jsonMember hpayload⟩

/-- A service comes through its event just if its texts allow it. -/
theorem serviceInvoke_comesThrough {request : DmMsgRequestPayload}
    {blank : List UInt8} {entries : List (Frame × Doc)}
    (hdoc : (Doc.nest .object blank entries).WellFormed (liteCjsonNestingLimit - 1))
    (hrender : (Doc.nest .object blank entries).render = request.params) (hdevid : IsInt devid)
    (identifier : CString) (context : List UInt8) (queued : Bool) :
    (∃ text items, dmMsgThingServiceInvoke devid identifier request context queued = some text ∧
      serviceInvokeItems text = some items ∧
      (Command.serviceInvoke identifier context).Wants devid request.params items ∧
      request.id = (text.drop items.id.toNat).takeWhile isDigit) ↔
      queued = true ∧ 0 ∉ request.params ∧ (∀ byte ∈ request.id, isDigit byte = true) ∧
        StringBody identifier.bytes := by
  simp only [dmMsgThingServiceInvoke, Option.ite_none_right_eq_some, Option.some.injEq]
  constructor
  · rintro ⟨text, items, ⟨hqueued, rfl⟩, hitems, ⟨-, hpayload, hname⟩, hid⟩
    obtain ⟨hbody, hinside⟩ := serviceInvokeItems_texts hitems
    refine ⟨hqueued, fun hzero => ?_, ?_, hname ▸ hbody⟩
    · refine zero_not_mem_halSnprintf ?_ _ (hinside 0 (hpayload ▸ hzero))
      intro bytes hbytes
      simp only [serviceInvokeFormat, List.mem_cons, List.not_mem_nil, or_false, reduceCtorEq,
        false_or, FormatPart.text.injEq] at hbytes
      rcases hbytes with rfl | rfl | rfl | rfl | rfl | rfl <;> decide
    · rw [hid]
      exact List.all_eq_true.mp List.all_takeWhile
  · rintro ⟨hqueued, hzero, hdigits, hname⟩
    have hwhole := @dmMsgThingServiceInvoke_whole devid (.nest .object blank entries) request
      (zero_not_mem_digits hdigits) hrender.symm hzero hdevid identifier context
    rw [dmMsgThingServiceInvoke, if_pos rfl, Option.some.injEq] at hwhole
    refine ⟨_, ⟨7, devid, identifier.bytes, request.params⟩, ⟨hqueued, rfl⟩, ?_,
      ⟨rfl, rfl, rfl⟩, ?_⟩
    · rw [hwhole, ← hrender]
      exact serviceInvokeItems_read (stringBody_digits hdigits) hdevid hname hdoc
        (stringBody_hex context)
    · obtain ⟨behind, hbehind⟩ := openText_serviceMembers request.id devid identifier.bytes
        (.nest .object blank entries) (infraHex2str context)
      rw [hwhole, hbehind]
      exact (@digits_at (ascii "\x7b\"id\":\"") request.id behind 34 hdigits (by decide) 7
        (by decide)).symm

end Service

/-! ## The event of a measurepoint -/

/-- The event up to the parameters. -/
def measurepointFront (devid : Int) (id : List UInt8) : List UInt8 :=
  ascii "\x7b\"devid\":" ++ intDecimal devid ++ ascii ",\"id\":" ++ id ++ ascii ",\"payload\":"

/-- The members of the event of a measurepoint. -/
def measurepointMembers (devid : Int) (id : List UInt8) (params : Doc) :
    List (List UInt8 × Doc) :=
  [(ascii "devid", .scalar (.number (intDecimal devid))), (ascii "id", .scalar (.number id)),
    (ascii "payload", params)]

section Measurepoint

variable {devid : Int} {request : DmMsgRequestPayload}

/-- The buffer of a measurepoint event has room for twenty characters of its numbers. -/
theorem dmMsgMeasurepointSet_cut (devid : Int) (hid : 0 ∉ request.id)
    (hparams : 0 ∉ request.params) :
    dmMsgMeasurepointSet devid request true =
      some ((measurepointFront devid request.id ++ request.params ++ [125]).take
        (47 + request.params.length)) := by
  have htext : formatText (measurepointSetFormat devid request.id request.params) =
      measurepointFront devid request.id ++ request.params ++ [125] := by
    have hend : ascii "\x7d" = [125] := by decide
    simp [formatText, measurepointSetFormat, FormatPart.print, measurepointFront, hend,
      arrayText_of_noNul hid, arrayText_of_noNul hparams]
  have hsize : formatStrlen (measurepointSetFormat devid request.id request.params) +
      dmUtilsUint32Strlen + request.params.length + 1 - 1 = 47 + request.params.length := by
    have hformat : formatStrlen (measurepointSetFormat devid request.id request.params) = 37 := rfl
    rw [hformat, Nat.add_sub_cancel]
    rfl
  rw [dmMsgMeasurepointSet, if_pos rfl, halSnprintf, hsize, htext]

theorem length_measurepointFront (devid : Int) (id : List UInt8) :
    (measurepointFront devid id).length = 26 + (intDecimal devid).length + id.length := by
  have hdevid : (ascii "\x7b\"devid\":").length = 9 := by decide
  have hid : (ascii ",\"id\":").length = 6 := by decide
  have hpayload : (ascii ",\"payload\":").length = 11 := by decide
  simp only [measurepointFront, List.length_append, hdevid, hid, hpayload]
  omega

theorem openText_measurepointMembers (devid : Int) (id : List UInt8) (params : Doc) :
    openText (measurepointMembers devid id params) =
      measurepointFront devid id ++ params.render := by
  have hdevid : ascii "\x7b\"devid\":" = 123 :: 34 :: (ascii "devid" ++ [34, 58]) := by decide
  have hid : ascii ",\"id\":" = 44 :: 34 :: (ascii "id" ++ [34, 58]) := by decide
  have hpayload : ascii ",\"payload\":" = 44 :: 34 :: (ascii "payload" ++ [34, 58]) := by decide
  simp [openText, framed, measurepointMembers, measurepointFront, joinCommas, entryText, Frame.wrap,
    Frame.lead, member, Label.render, Doc.render, Token.render, hdevid, hid, hpayload]

/-- The first bracket is the only one in front of the parameters. -/
theorem measurepointFront_brackets (devid : Int) {id : List UInt8}
    (hdigits : ∀ byte ∈ id, isDigit byte = true) : 123 ∉ (measurepointFront devid id).tail := by
  have hdevid : (ascii "\x7b\"devid\":") = 123 :: ascii "\"devid\":" := by decide
  have hdevidKey : 123 ∉ ascii "\"devid\":" := by decide
  have hidKey : 123 ∉ ascii ",\"id\":" := by decide
  have hpayloadKey : 123 ∉ ascii ",\"payload\":" := by decide
  have hnumber : 123 ∉ intDecimal devid := by
    intro hbracket
    rcases intDecimal_bytes devid 123 hbracket with hsign | hdigit
    · exact absurd hsign (by decide)
    · exact absurd hdigit (by decide)
  have hid : 123 ∉ id := fun hbracket => absurd (hdigits 123 hbracket) (by decide)
  simp only [measurepointFront, hdevid, List.cons_append, List.tail_cons, List.mem_append, not_or]
  exact ⟨⟨⟨⟨hdevidKey, hnumber⟩, hidKey⟩, hid⟩, hpayloadKey⟩

/-- What the dispatcher takes for the parameters is an object in the event. -/
theorem measurepointSetItems_payload {text : List UInt8} {items : EventItems}
    (hitems : measurepointSetItems text = some items) :
    ∃ item, Embedded text item ∧ item.type = .object ∧ itemText text item = items.payload := by
  obtain ⟨lite, hparse, hitems⟩ := Option.bind_eq_some_iff.mp hitems
  obtain ⟨devid, -, hitems⟩ := Option.bind_eq_some_iff.mp hitems
  obtain ⟨payload, hpayload, hitems⟩ := Option.bind_eq_some_iff.mp hitems
  obtain ⟨id, -, hitems⟩ := Option.bind_eq_some_iff.mp hitems
  obtain rfl := Option.some.inj hitems
  exact jsonMember_embedded hparse hpayload

theorem measurepointMembers_wellFormed (hdevid : IsInt devid) {id : List UInt8} (hsome : id ≠ [])
    (hdigits : ∀ byte ∈ id, isDigit byte = true) (hshort : id.length ≤ 63) {params : Doc}
    (hparams : params.WellFormed (liteCjsonNestingLimit - 1)) :
    (objectOf (measurepointMembers devid id params)).WellFormed liteCjsonNestingLimit := by
  apply @objectOf_wellFormed (liteCjsonNestingLimit - 1)
  · simp only [measurepointMembers, List.forall_mem_cons, List.not_mem_nil, false_imp_iff,
      implies_true, and_true]
    exact ⟨stringBody_of_plain (by decide), stringBody_of_plain (by decide),
      stringBody_of_plain (by decide)⟩
  · simp only [measurepointMembers, List.forall_mem_cons, List.not_mem_nil, false_imp_iff,
      implies_true, and_true]
    have hdigitsToken : Digits id := ⟨hsome, hdigits⟩
    exact ⟨.scalar (numberToken_intDecimal hdevid), .scalar (hdigitsToken.numberToken hshort),
      hparams⟩

/-- The event of a measurepoint is read back, also without its closing bracket. -/
theorem measurepointSetItems_read (hdevid : IsInt devid) {id : List UInt8} (hsome : id ≠ [])
    (hdigits : ∀ byte ∈ id, isDigit byte = true) (hshort : id.length ≤ 63)
    {blank : List UInt8} {entries : List (Frame × Doc)}
    (hparams : (Doc.nest .object blank entries).WellFormed (liteCjsonNestingLimit - 1))
    {rest : List UInt8} (hrest : rest = [125] ∨ rest = []) :
    measurepointSetItems (openText (measurepointMembers devid id
        (.nest .object blank entries)) ++ rest) =
      some ⟨15 + (intDecimal devid).length, devid, [],
        (Doc.nest .object blank entries).render⟩ := by
  have hobject := measurepointMembers_wellFormed hdevid hsome hdigits hshort hparams
  obtain ⟨item, hparse, hitem⟩ := @jsonParse_members _ rest hobject (by simp [measurepointMembers])
    (hrest.imp_right fun hnil => ⟨hnil,
      [(ascii "devid", .scalar (.number (intDecimal devid))), (ascii "id", .scalar (.number id))],
      ascii "payload", blank, entries, rfl⟩)
  obtain ⟨value, hvalue, -, haddress⟩ := @jsonObjectItem_address _ _ _ hobject hitem 1
    (show 1 < 3 by decide) (by decide : ascii "id" ≠ [])
    (fun earlier hearlier => by
      obtain rfl : earlier = 0 := Nat.lt_one_iff.mp hearlier
      exact (by decide : ascii "devid" ≠ ascii "id"))
  have hidRead : jsonObjectItem _ item (ascii "id") = some value := hvalue
  have hplace : value.value.getD 0 = 15 + (intDecimal devid).length := by
    have hkey : (ascii "devid").length = 5 := by decide
    have hid : (ascii "id").length = 2 := by decide
    rw [haddress, Option.getD_some]
    simp [entryAhead, framed, measurepointMembers, priorText, entryText, Frame.wrap, Frame.lead,
      member, Label.render, Doc.render, Token.render, Doc.indent, hkey, hid]
    omega
  have hdevidRead : jsonMember _ item (ascii "devid") .number = some (intDecimal devid) :=
    (jsonMember_framed hobject hitem (by decide) rfl .number).trans (if_pos rfl)
  have hpayloadRead : jsonMember _ item (ascii "payload") .object =
      some (Doc.nest .object blank entries).render :=
    (jsonMember_framed hobject hitem (by decide) rfl .object).trans (if_pos rfl)
  simp only [measurepointSetItems, hparse, hidRead, hdevidRead, hpayloadRead, hplace,
    valueInt_intDecimal hdevid, Option.bind_eq_bind, Option.bind_some, Option.pure_def]

/-- Of twenty-one characters the closing bracket is lost. -/
theorem measurepoint_cut {id params : List UInt8}
    (hroom : (intDecimal devid).length + id.length ≤ 21) :
    ∃ rest, (rest = [125] ∨ rest = []) ∧
      (measurepointFront devid id ++ params ++ [125]).take (47 + params.length) =
        measurepointFront devid id ++ params ++ rest := by
  have hlength := length_measurepointFront devid id
  by_cases hlast : (intDecimal devid).length + id.length = 21
  · refine ⟨[], Or.inr rfl, ?_⟩
    rw [List.take_left' (by rw [List.length_append]; omega), List.append_nil]
  · refine ⟨[125], Or.inl rfl, ?_⟩
    apply List.take_of_length_le
    rw [List.length_append, List.length_append, List.length_singleton]
    omega

/-- What begins with a bracket in the event does not begin in front of the parameters. -/
theorem length_front_le {front ahead more rest : List UInt8} (hbrackets : 123 ∉ front.tail)
    (hsome : ahead ≠ []) (hplaced : ahead ++ 123 :: more <+: front ++ rest) :
    front.length ≤ ahead.length := by
  by_contra hless
  rw [Nat.not_le] at hless
  obtain ⟨byte, ahead, rfl⟩ := List.exists_cons_of_ne_nil hsome
  obtain ⟨behind, hwhole⟩ := hplaced
  cases front with
  | nil => exact absurd hless (Nat.not_lt_zero _)
  | cons first front =>
      have hinside : ahead.length < front.length := Nat.lt_of_succ_lt_succ hless
      have hbracket : (ahead ++ 123 :: more ++ behind)[ahead.length]? = some 123 := by simp
      have hsame : ahead ++ 123 :: more ++ behind = front ++ rest := (List.cons.inj hwhole).2
      rw [hsame, List.getElem?_append_left hinside] at hbracket
      exact hbrackets (List.mem_of_getElem? hbracket)

/-- A measurepoint comes through its event just if its parameters allow it and its numbers have at
most twenty-one characters. -/
theorem measurepointSet_comesThrough {blank : List UInt8} {entries : List (Frame × Doc)}
    (hdoc : (Doc.nest .object blank entries).WellFormed (liteCjsonNestingLimit - 1))
    (hrender : (Doc.nest .object blank entries).render = request.params)
    (hsome : request.id ≠ []) (hdevid : IsInt devid) (queued : Bool) :
    (∃ text items, dmMsgMeasurepointSet devid request queued = some text ∧
      measurepointSetItems text = some items ∧
      Command.measurepointSet.Wants devid request.params items ∧
      request.id = (text.drop items.id.toNat).takeWhile isDigit) ↔
      queued = true ∧ 0 ∉ request.params ∧ (∀ byte ∈ request.id, isDigit byte = true) ∧
        (intDecimal devid).length + request.id.length ≤ 21 := by
  constructor
  · rintro ⟨text, items, hevent, hitems, ⟨-, hpayload, -⟩, hid⟩
    have hdigits : ∀ byte ∈ request.id, isDigit byte = true := by
      rw [hid]
      exact List.all_eq_true.mp List.all_takeWhile
    obtain ⟨hqueued, hprinted⟩ := Option.ite_none_right_eq_some.mp hevent
    have hzeroText : 0 ∉ text := by
      rw [← Option.some.inj hprinted]
      apply zero_not_mem_halSnprintf
      intro bytes hbytes
      simp only [measurepointSetFormat, List.mem_cons, List.not_mem_nil, or_false, reduceCtorEq,
        false_or, FormatPart.text.injEq] at hbytes
      rcases hbytes with rfl | rfl | rfl | rfl <;> decide
    obtain ⟨item, hitem, htype, htext⟩ := measurepointSetItems_payload hitems
    rw [hpayload] at htext
    have hzero : 0 ∉ request.params := by
      rw [← htext]
      exact fun hzero => hzeroText (mem_of_mem_itemText hzero)
    refine ⟨hqueued, hzero, hdigits, ?_⟩
    rw [hqueued, dmMsgMeasurepointSet_cut devid (zero_not_mem_digits hdigits) hzero,
      Option.some.injEq] at hevent
    obtain ⟨ahead, more, hahead, hplaced, hbracket⟩ := hitem.object htype
    have hshort := hplaced.length_le
    have hprefix : ahead ++ 123 :: more <+:
        measurepointFront devid request.id ++ (request.params ++ [125]) := by
      rw [← List.append_assoc, ← hbracket]
      exact hplaced.trans (hevent ▸ List.take_prefix _ _)
    have hbehind :=
      length_front_le (measurepointFront_brackets devid hdigits) hahead hprefix
    rw [htext, ← hevent, List.length_append, List.length_take] at hshort
    rw [length_measurepointFront] at hbehind
    omega
  · rintro ⟨hqueued, hzero, hdigits, hroom⟩
    obtain ⟨rest, hrest, hcut⟩ := @measurepoint_cut devid request.id request.params hroom
    have hevent := dmMsgMeasurepointSet_cut devid (zero_not_mem_digits hdigits) hzero
    rw [hcut] at hevent
    refine ⟨_, ⟨15 + (intDecimal devid).length, devid, [], request.params⟩,
      by rw [hqueued, hevent], ?_, ⟨rfl, rfl, trivial⟩, ?_⟩
    · rw [← hrender, ← openText_measurepointMembers]
      exact measurepointSetItems_read hdevid hsome hdigits (by omega) hdoc hrest
    · have hpayload : ascii ",\"payload\":" = 44 :: ascii "\"payload\":" := by decide
      have hsplit : measurepointFront devid request.id ++ request.params ++ rest =
          (ascii "\x7b\"devid\":" ++ intDecimal devid ++ ascii ",\"id\":") ++
            (request.id ++ 44 :: (ascii "\"payload\":" ++ request.params ++ rest)) := by
        simp [measurepointFront, hpayload]
      have haddress : (15 + (intDecimal devid).length : Int) =
          (ascii "\x7b\"devid\":" ++ intDecimal devid ++ ascii ",\"id\":").length := by
        have hdevid : (ascii "\x7b\"devid\":").length = 9 := by decide
        have hid : (ascii ",\"id\":").length = 6 := by decide
        rw [List.length_append, List.length_append, hdevid, hid]
        omega
      have hcomma : isDigit 44 = false := by decide
      rw [hsplit]
      exact (digits_at hdigits hcomma haddress).symm

end Measurepoint

/-! ## Which commands survive -/

/-- The parameters keep the limits that an event can have. -/
theorem ObjectParams.wellFormed {payload : List UInt8} {request : DmMsgRequestPayload}
    (hparams : ObjectParams payload request) :
    ∃ blank entries, (Doc.nest .object blank entries).WellFormed (liteCjsonNestingLimit - 1) ∧
      (Doc.nest .object blank entries).render = request.params := by
  obtain ⟨hmember, blank, entries, hdoc, hrender⟩ := hparams
  obtain ⟨lite, hparse, hmember⟩ := Option.bind_eq_some_iff.mp hmember
  obtain ⟨item, hitem, htyped⟩ := Option.bind_eq_some_iff.mp hmember
  obtain ⟨htype, htext⟩ := Option.ite_none_right_eq_some.mp htyped
  have hsame := hrender.trans (Option.some.inj htext).symm
  exact ⟨blank, entries, wellFormed_of_member hparse hitem htype hdoc hsame, hrender⟩

section Delivery

variable [DecidableEq ι] [DecidableEq τ] {allocator : HeapAllocator ι} {world : World τ ι}
  {moment : Nat}

end Delivery

/-- A device with the product key `p`, the device key `d` and the id 1. -/
def commandDevice : DmMgrDevNode where
  devid := 1
  devType := 2
  productKey := padded 21 [112]
  productSecret := List.replicate 65 0
  deviceKey := padded 65 [100]
  deviceSecret := List.replicate 65 0
  status := .enable
  devStatus := .online

/-- A request with the id and the parameters `{"a":1}`. -/
def commandRequest (id : List UInt8) : List UInt8 :=
  ascii "\x7b\"id\":\"" ++ id ++
    ascii "\",\"version\":\"1.0\",\"params\":\x7b\"a\":1\x7d,\"method\":\"m\"\x7d"

theorem commandRequest_parsed {id : List UInt8}
    (hparse : (dmMsgRequestParse (commandRequest id)).map (fun request =>
      (request.id, request.version, request.method, request.params)) =
        some (id, ascii "1.0", ascii "m", ascii "\x7b\"a\":1\x7d")) :
    dmMsgRequestParse (commandRequest id) =
      some ⟨id, ascii "1.0", ascii "m", ascii "\x7b\"a\":1\x7d"⟩ := by
  obtain ⟨⟨first, version, method, params⟩, hrequest, hfields⟩ := Option.map_eq_some_iff.mp hparse
  simp only [Prod.mk.injEq] at hfields
  obtain ⟨rfl, rfl, rfl, rfl⟩ := hfields
  exact hrequest

theorem objectParams_request {id : List UInt8}
    (hmember : (jsonParse (commandRequest id)).bind (fun lite =>
      jsonMember (commandRequest id) lite (ascii "params") .object) =
        some (ascii "\x7b\"a\":1\x7d")) :
    ObjectParams (commandRequest id) ⟨id, ascii "1.0", ascii "m", ascii "\x7b\"a\":1\x7d"⟩ := by
  have hobject : (objectOf [(ascii "a", .scalar (.number [49]))]).WellFormed 1 := by
    apply @objectOf_wellFormed 0
    · exact List.forall_mem_singleton.mpr (stringBody_of_plain (by decide))
    · exact List.forall_mem_singleton.mpr (.scalar (numberToken_intDecimal (by decide : IsInt 1)))
  have hrender : (objectOf [(ascii "a", .scalar (.number [49]))]).render =
      ascii "\x7b\"a\":1\x7d" := by decide
  exact ⟨hmember, [], _, hobject.spelled, hrender⟩

end EnosDeviceSdk.DevModel.CommandChain
