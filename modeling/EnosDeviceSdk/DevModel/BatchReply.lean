/-
# The event of a batch login

The reply to a batch login lists the devices that the cloud has logged in and those that it has
not. Its handler prints their ids into two buffers of five bytes for each device, the size of which
it keeps in a `char`, and prints both into an event with room for three numbers.

Here the buffers are kept as they are. The handler stays inside of them, and the event has all the
devices, just if neither list is empty, none has more than 25 devices, their ids have four digits
on average, the id of the reply ends within its array, and everything fits into the event.
-/

import EnosDeviceSdk.Infra.JsonUnique
import EnosDeviceSdk.DevModel.TextBuffer
import EnosDeviceSdk.DevModel.Lifecycle

namespace EnosDeviceSdk.DevModel.BatchReply

open EnosDeviceSdk.Infra EnosDeviceSdk.Library

/-! ## The handler -/

/-- What the handler asks of the heap and of the queue: buffers for the two lists and for the
message, and room in the queue. -/
structure Memory where
  logined : Bool
  failed : Bool
  message : Bool
  queued : Bool

/-- `logined_devids_len`: five bytes for each device, as a `char` keeps them. -/
def devidsLen (count : Nat) : Int := (count * 5 : Int).bmod 256

/-- The buffer of a list. It is zeroed without a look at the result of `malloc`, which finds no
room for a negative length. -/
def listBuffer (count : Nat) (mallocOk : Bool) : Outcome (List UInt8) :=
  if devidsLen count < 0 ∨ !mallocOk then .stray
  else .ok (padded (devidsLen count).toNat [])

/-- A device id is printed behind the others, with a comma behind it unless it is the last. -/
def appendDevid (buffer : List UInt8) (devid : Int) (comma : Bool) : Outcome (List UInt8) := do
  let place ← boundedStrlen buffer
  let buffer ← printAt buffer place buffer.length (intDecimal devid)
  if comma then appendText buffer [44] else return buffer

/-- The loop over a list of the reply. It stops at a device that is not understood or not known. -/
def devidLoop (visit : DmMgrCtx → Int → DmMgrCtx) (src : List UInt8) (subdevs : LiteCjson) :
    List Nat → DmMgrCtx → List UInt8 → Outcome (DmMgrCtx × Option (List UInt8))
  | [], ctx, buffer => .ok (ctx, some buffer)
  | index :: rest, ctx, buffer =>
      match subdevAt ctx src subdevs index with
      | none => .ok (ctx, none)
      | some devid => do
          let buffer ← appendDevid buffer devid !rest.isEmpty
          devidLoop visit src subdevs rest (visit ctx devid) buffer

/-- `atoi` finds a byte behind the number that is none of it. -/
def AtoiStops (array : List UInt8) : Prop :=
  (dropSign (array.dropWhile isSpace)).dropWhile isDigit ≠ []

instance (array : List UInt8) : Decidable (AtoiStops array) :=
  inferInstanceAs (Decidable (_ ≠ _))

/-- `atoi` of what is in an array. -/
def boundedAtoi (array : List UInt8) : Outcome Int :=
  if AtoiStops array then .ok (atoi array) else .stray

/-- `DM_MSG_EVENT_COMBINE_LOGIN_BATCH_REPLY_FMT` -/
def batchFormat (id code : Int) (logined failed : List UInt8) : List FormatPart :=
  [.text (ascii "\x7b\"id\":"), .d id, .text (ascii ",\"code\":"), .d code,
    .text (ascii ",\"logined_devids\":["), .s logined, .text (ascii "],\"failed_devids\":["),
    .s failed, .text (ascii "]\x7d")]

/-- An array of the reply is printed to a buffer of its own. -/
def printDevids (visit : DmMgrCtx → Int → DmMgrCtx) (src : List UInt8)
    (found : LiteCjson × List Nat) (mallocOk : Bool) (ctx : DmMgrCtx) :
    Outcome (DmMgrCtx × Option (List UInt8)) := do
  let buffer ← listBuffer found.2.length mallocOk
  devidLoop visit src found.1 found.2 ctx buffer

/-- The end of the handler: the id is copied, the event printed and put into the queue. -/
def sendBatchReply (response : DmMsgResponsePayload) (memory : Memory)
    (logined failed : List UInt8) : Outcome (Option ReplyMessage) := do
  let tempId ← copyAt (padded dmUtilsUint32Strlen []) 0 response.id
  if !memory.message then return none
  else do
    let id ← boundedAtoi tempId
    let logined ← boundedText logined
    let failed ← boundedText failed
    return replyMessage .combineLoginBatchReply (batchFormat id response.code logined failed)
      (dmUtilsUint32Strlen * 3) memory.queued

/-- `dm_msg_combine_login_batch_reply`, with its buffers. -/
def dmMsgCombineLoginBatchReply (ctx : DmMgrCtx) (response : DmMsgResponsePayload)
    (memory : Memory) : Outcome (DmMgrCtx × Option ReplyMessage) :=
  let login := fun ctx devid => updateStatus ctx response.code devid .logined
  match jsonParse response.data with
  | none => .ok (ctx, none)
  | some item =>
      match subdevArray response.data item (ascii "loginedSubDevices") with
      | none => .ok (ctx, none)
      | some found => do
          let (ctx, logined) ← printDevids login response.data found memory.logined ctx
          match logined, subdevArray response.data item (ascii "failedSubDevices") with
          | some logined, some found => do
              let (ctx, failed) ←
                printDevids (fun ctx _ => ctx) response.data found memory.failed ctx
              match failed with
              | none => return (ctx, none)
              | some failed => do
                  let message ← sendBatchReply response memory logined failed
                  return (ctx, message)
          | _, _ => return (ctx, none)

/-! ## What the event tells -/

/-- The number of a number token. -/
def numberOf : Doc → Option Int
  | .scalar (.number text) => some (valueInt text)
  | _ => none

/-- The numbers of an array of numbers. -/
def numbersOf : Doc → Option (List Int)
  | .nest .array _ entries => entries.mapM fun entry => numberOf entry.2
  | _ => none

/-- The payload is a JSON object with the id, the code and the two lists of devices. -/
def Tells (payload : List UInt8) (id code : Int) (logined failed : List Int) : Prop :=
  ∃ doc : Doc, doc.WellFormed liteCjsonNestingLimit ∧ doc.render = payload ∧
    (doc.field (ascii "id")).bind numberOf = some id ∧
    (doc.field (ascii "code")).bind numberOf = some code ∧
    (doc.field (ascii "logined_devids")).bind numbersOf = some logined ∧
    (doc.field (ascii "failed_devids")).bind numbersOf = some failed

/-- The data of a reply lists these devices under the key, all of them known. -/
def ListsDevices (ctx : DmMgrCtx) (data key : List UInt8) (devids : List Int) : Prop :=
  ∃ item subdevs indices, jsonParse data = some item ∧
    subdevArray data item key = some (subdevs, indices) ∧
    indices.map (subdevAt ctx data subdevs) = devids.map some

/-- The handler stays inside its buffers and sends one event, which has the number of the reply,
its code and its devices. -/
def ReportsBatch (ctx : DmMgrCtx) (response : DmMsgResponsePayload) (memory : Memory)
    (logined failed : List Int) : Prop :=
  ∃ after message,
    dmMsgCombineLoginBatchReply ctx response memory = .ok (after, some message) ∧
      message.event = .combineLoginBatchReply ∧
      Tells message.payload (atoi response.id) response.code logined failed

/-- The buffer of a list has room for its ids, commas and terminator. -/
structure ListFits (devids : List Int) : Prop where
  some : devids ≠ []
  few : devids.length ≤ 25
  digits : (devids.map fun devid => (intDecimal devid).length).sum ≤ 4 * devids.length

/-- Everything fits where it is printed to. -/
structure BatchFits (response : DmMsgResponsePayload) (memory : Memory)
    (logined failed : List Int) : Prop where
  enough : memory = ⟨true, true, true, true⟩
  id : response.id.length ≤ dmUtilsUint32Strlen
  stops : AtoiStops (padded dmUtilsUint32Strlen response.id)
  loginedFits : ListFits logined
  failedFits : ListFits failed
  event : (intDecimal (atoi response.id)).length + (intDecimal response.code).length +
    (devidsText logined).length + (devidsText failed).length ≤ 38

/-! ## Lists of ids in their buffers -/

theorem zero_not_mem_intDecimal (value : Int) : 0 ∉ intDecimal value := by
  intro hzero
  rcases intDecimal_bytes value 0 hzero with hsign | hdigit
  · exact absurd hsign (by decide)
  · exact absurd hdigit (by decide)

theorem intDecimal_ne_nil (value : Int) : intDecimal value ≠ [] := by
  rw [intDecimal]
  split
  · exact List.cons_ne_nil _ _
  · exact decimal_ne_nil _

@[simp]
theorem devidsText_singleton (devid : Int) : devidsText [devid] = intDecimal devid := by
  simp [devidsText]

theorem devidsText_cons {devids : List Int} (devid : Int) (hmore : devids ≠ []) :
    devidsText (devid :: devids) = intDecimal devid ++ 44 :: devidsText devids := by
  obtain ⟨next, rest, rfl⟩ := List.exists_cons_of_ne_nil hmore
  simp [devidsText]

theorem zero_not_mem_devidsText (devids : List Int) : 0 ∉ devidsText devids := by
  induction devids with
  | nil => simp [devidsText]
  | cons devid rest ih =>
      by_cases hmore : rest = []
      · rw [hmore, devidsText_singleton]
        exact zero_not_mem_intDecimal devid
      · rw [devidsText_cons devid hmore, List.mem_append, List.mem_cons, not_or, not_or]
        exact ⟨zero_not_mem_intDecimal devid, by decide, ih⟩

/-- The ids and the commas between them. -/
theorem length_devidsText {devids : List Int} (hsome : devids ≠ []) :
    (devidsText devids).length + 1 =
      (devids.map fun devid => (intDecimal devid).length).sum + devids.length := by
  induction devids with
  | nil => exact absurd rfl hsome
  | cons devid rest ih =>
      by_cases hmore : rest = []
      · simp [hmore]
      · rw [devidsText_cons devid hmore, List.length_append, List.length_cons, List.map_cons,
          List.sum_cons, List.length_cons]
        have hrest := ih hmore
        omega

/-- The appends of a loop whose devices are all known. -/
def appendDevids : List Int → List UInt8 → Outcome (List UInt8)
  | [], buffer => .ok buffer
  | devid :: rest, buffer => do
      let buffer ← appendDevid buffer devid !rest.isEmpty
      appendDevids rest buffer

section Appends

variable {size : Nat} {text : List UInt8}

/-- What an append leaves behind the id. -/
def commaText (comma : Bool) : List UInt8 := if comma then [44] else []

theorem appendDevid_fits (htext : 0 ∉ text) (devid : Int)
    (hfits : text.length + (intDecimal devid).length < size) (comma : Bool) :
    appendDevid (padded size text) devid comma =
      .ok (padded size (text ++ intDecimal devid ++ commaText comma)) := by
  have hlength : (padded size text).length = size := by
    rw [length_padded]
    omega
  have hmore : 0 ∉ text ++ intDecimal devid := by
    rw [List.mem_append, not_or]
    exact ⟨htext, zero_not_mem_intDecimal devid⟩
  have hroom : (text ++ intDecimal devid).length < size := by rwa [List.length_append]
  rw [appendDevid, boundedStrlen_padded htext (by omega), Outcome.ok_bind, hlength,
    printAt_padded (by omega) hfits, Outcome.ok_bind]
  cases comma with
  | false => simp [commaText]
  | true =>
      have hfits : (text ++ intDecimal devid).length + [(44 : UInt8)].length ≤ size := hroom
      rw [if_pos rfl, appendText_padded hmore hroom hfits]
      rfl

theorem appendDevid_full (htext : 0 ∉ text) (hfull : size ≤ text.length) (devid : Int)
    (comma : Bool) : appendDevid (padded size text) devid comma = .stray := by
  rw [appendDevid, boundedStrlen_full htext hfull]
  rfl

theorem appendDevid_stray (htext : 0 ∉ text) (hsome : text ≠ []) (devid : Int)
    (hlong : size ≤ text.length + (intDecimal devid).length) (comma : Bool) :
    appendDevid (padded size text) devid comma = .stray := by
  by_cases hroom : text.length < size
  · have hlength : (padded size text).length = size := by
      rw [length_padded]
      omega
    rw [appendDevid, boundedStrlen_padded htext hroom, Outcome.ok_bind, hlength,
      printAt_stray hsome hlong (by omega)]
    rfl
  · exact appendDevid_full htext (Nat.not_lt.mp hroom) devid comma

/-- The first id is cut if it is too long. -/
theorem appendDevid_cut (hsize : 0 < size) (devid : Int) (hlong : size ≤ (intDecimal devid).length)
    (comma : Bool) :
    appendDevid (padded size []) devid comma =
      .ok (padded size ((intDecimal devid).take (size - 1) ++ commaText comma)) := by
  have hlength : (padded size []).length = size := by
    rw [length_padded, List.length_nil]
    omega
  have hcut : ((intDecimal devid).take (size - 1)).length = size - 1 := by
    rw [List.length_take]
    omega
  have hzero : 0 ∉ (intDecimal devid).take (size - 1) :=
    fun hmem => zero_not_mem_intDecimal devid (List.mem_of_mem_take hmem)
  rw [appendDevid, boundedStrlen_padded List.not_mem_nil hsize, Outcome.ok_bind, hlength,
    List.length_nil, printAt_cut hsize hlong, Outcome.ok_bind]
  cases comma with
  | false => simp [commaText]
  | true =>
      rw [if_pos rfl, appendText_padded hzero (by omega)]
      · rfl
      · rw [hcut, List.length_singleton]
        omega

/-- Behind another text the ids are appended if there is room for all of them, and else astray. -/
theorem appendDevids_behind {devids : List Int} (htext : 0 ∉ text) (hsome : text ≠ [])
    (hdevids : devids ≠ []) :
    appendDevids devids (padded size text) =
      if text.length + (devidsText devids).length < size then
        .ok (padded size (text ++ devidsText devids))
      else .stray := by
  induction devids generalizing text with
  | nil => exact absurd rfl hdevids
  | cons devid rest ih =>
      rw [appendDevids]
      by_cases hmore : rest = []
      · subst hmore
        rw [devidsText_singleton]
        by_cases hfits : text.length + (intDecimal devid).length < size
        · rw [if_pos hfits, List.isEmpty_nil, appendDevid_fits htext devid hfits, Outcome.ok_bind]
          simp [appendDevids, commaText]
        · rw [if_neg hfits, appendDevid_stray htext hsome devid (Nat.not_lt.mp hfits)]
          rfl
      · have hcomma : (!rest.isEmpty) = true := by simpa using hmore
        rw [devidsText_cons devid hmore, hcomma]
        by_cases hfits : text.length + (intDecimal devid).length < size
        · have hlater : 0 ∉ text ++ intDecimal devid ++ [44] := by
            simp [htext, zero_not_mem_intDecimal devid]
          rw [appendDevid_fits htext devid hfits, Outcome.ok_bind, commaText, if_pos rfl,
            ih hlater (by simp) hmore]
          simp only [List.length_append, List.length_cons, List.length_nil, List.append_assoc,
            List.singleton_append, Nat.add_assoc, Nat.zero_add, Nat.add_comm 1]
        · rw [appendDevid_stray htext hsome devid (Nat.not_lt.mp hfits), if_neg]
          · rfl
          · rw [List.length_append, List.length_cons]
            omega

/-- From the beginning of a buffer the ids are appended if there is room for all of them. A single
id that is too long is cut, and every longer list goes astray. -/
theorem appendDevids_eq {devids : List Int} (hsize : 0 < size) (hdevids : devids ≠ []) :
    appendDevids devids (padded size []) =
      if (devidsText devids).length < size then .ok (padded size (devidsText devids))
      else if devids.length = 1 then .ok (padded size ((devidsText devids).take (size - 1)))
      else .stray := by
  cases devids with
  | nil => exact absurd rfl hdevids
  | cons devid rest =>
      rw [appendDevids]
      by_cases hmore : rest = []
      · subst hmore
        rw [devidsText_singleton, List.isEmpty_nil]
        by_cases hfits : (intDecimal devid).length < size
        · rw [if_pos hfits, appendDevid_fits List.not_mem_nil devid (by simpa using hfits)]
          simp [appendDevids, commaText]
        · rw [if_neg hfits, appendDevid_cut hsize devid (Nat.not_lt.mp hfits)]
          simp [appendDevids, commaText]
      · have hcomma : (!rest.isEmpty) = true := by simpa using hmore
        have hone : (devid :: rest).length ≠ 1 := by simpa using hmore
        rw [devidsText_cons devid hmore, hcomma, if_neg hone]
        by_cases hfits : (intDecimal devid).length < size
        · have hlater : 0 ∉ intDecimal devid ++ [44] := by
            simp [zero_not_mem_intDecimal devid]
          rw [appendDevid_fits List.not_mem_nil devid (by simpa using hfits), Outcome.ok_bind,
            commaText, if_pos rfl, List.nil_append, appendDevids_behind hlater (by simp) hmore]
          simp only [List.length_append, List.length_cons, List.length_nil, List.append_assoc,
            List.singleton_append, Nat.add_assoc, Nat.zero_add, Nat.add_comm 1]
        · have hlater : 0 ∉ (intDecimal devid).take (size - 1) ++ [44] := by
            rw [List.mem_append, not_or]
            exact ⟨fun hmem => zero_not_mem_intDecimal devid (List.mem_of_mem_take hmem), by decide⟩
          rw [appendDevid_cut hsize devid (Nat.not_lt.mp hfits), Outcome.ok_bind, commaText,
            if_pos rfl, appendDevids_behind hlater (by simp) hmore, if_neg, if_neg]
          · rw [List.length_append, List.length_cons]
            omega
          · rw [List.length_append, List.length_take, List.length_singleton]
            omega

end Appends

/-! ## A list in its buffer -/

/-- The text of a list, as it is read from its buffer. -/
def listText (devids : List Int) (mallocOk : Bool) : Outcome (List UInt8) := do
  let buffer ← listBuffer devids.length mallocOk
  let buffer ← appendDevids devids buffer
  boundedText buffer

/-- Five bytes for each device are enough for a list of at least one device just if there are no
more than 25, and they have four digits on average. -/
theorem listFits_iff {devids : List Int} (hsome : devids ≠ []) :
    ListFits devids ↔ ((devidsText devids).length : Int) < devidsLen devids.length := by
  have hlength := length_devidsText hsome
  have hcount := List.length_pos_iff.mpr hsome
  have hdigits : devids.length ≤ (devids.map fun devid => (intDecimal devid).length).sum := by
    clear hlength hcount hsome
    induction devids with
    | nil => exact Nat.le_refl 0
    | cons devid rest ih =>
        have hpositive := List.length_pos_iff.mpr (intDecimal_ne_nil devid)
        rw [List.length_cons, List.map_cons, List.sum_cons]
        omega
  have hlen : devidsLen devids.length =
      if (devids.length * 5 : Int) % 256 < 128 then (devids.length * 5 : Int) % 256
      else (devids.length * 5 : Int) % 256 - 256 := rfl
  rw [hlen]
  constructor
  · rintro ⟨-, hfew, hdigits⟩
    split <;> omega
  · intro hroom
    have hfew : devids.length ≤ 25 := by
      -- a length that has wrapped around is too short for the ids alone
      have hbound : devids.length ≤ 63 := by
        split at hroom <;> omega
      have hwraps : (devids.length * 5 : Int) / 256 = 0 ∨ (devids.length * 5 : Int) / 256 = 1 := by
        omega
      rcases hwraps with hwraps | hwraps <;> split at hroom <;> omega
    refine ⟨hsome, hfew, ?_⟩
    split at hroom <;> omega

/-- What the buffer of a list has in it in the end, if nothing went astray. -/
theorem listText_eq_ok {devids : List Int} {mallocOk : Bool} {text : List UInt8}
    (htext : listText devids mallocOk = .ok text) :
    mallocOk = true ∧ (ListFits devids ∧ text = devidsText devids ∨
      ∃ devid, devids = [devid] ∧ 5 ≤ (intDecimal devid).length ∧
        text = (intDecimal devid).take 4) := by
  rw [listText, listBuffer] at htext
  by_cases hbuffer : devidsLen devids.length < 0 ∨ (!mallocOk) = true
  · rw [if_pos hbuffer] at htext
    exact nomatch htext
  · rw [if_neg hbuffer, Outcome.ok_bind] at htext
    rw [not_or, Bool.not_eq_true, Bool.not_eq_false'] at hbuffer
    obtain ⟨hlen, hmalloc⟩ := hbuffer
    refine ⟨hmalloc, ?_⟩
    cases devids with
    | nil => exact nomatch htext
    | cons devid rest =>
        by_cases hsize : 0 < (devidsLen (devid :: rest).length).toNat
        · rw [appendDevids_eq hsize (List.cons_ne_nil _ _)] at htext
          split at htext
          next hroom =>
            rw [Outcome.ok_bind, boundedText_padded (zero_not_mem_devidsText _) hroom] at htext
            have hfits := (listFits_iff (List.cons_ne_nil devid rest)).mpr (by omega)
            exact Or.inl ⟨hfits, (Outcome.ok.inj htext).symm⟩
          next hroom =>
            split at htext
            next hone =>
              obtain rfl : rest = [] := by simpa using hone
              have hcut : 0 ∉ (devidsText [devid]).take 4 := fun hmem =>
                zero_not_mem_devidsText [devid] (List.mem_of_mem_take hmem)
              have hshort : ((devidsText [devid]).take 4).length < 5 := by
                rw [List.length_take]
                omega
              have hfive : (devidsLen 1).toNat = 5 := by decide
              rw [List.length_singleton, hfive] at htext hroom
              rw [Outcome.ok_bind, boundedText_padded hcut hshort] at htext
              rw [devidsText_singleton] at htext hroom
              exact Or.inr ⟨devid, rfl, Nat.not_lt.mp hroom, (Outcome.ok.inj htext).symm⟩
            next => exact nomatch htext
        · have hfull : (devidsLen (devid :: rest).length).toNat ≤ ([] : List UInt8).length :=
            Nat.not_lt.mp hsize
          rw [appendDevids, appendDevid_full List.not_mem_nil hfull] at htext
          exact nomatch htext

theorem listText_of_fits {devids : List Int} (hfits : ListFits devids) :
    listText devids true = .ok (devidsText devids) := by
  have hroom := (listFits_iff hfits.some).mp hfits
  have hsize : (devidsText devids).length < (devidsLen devids.length).toNat := by omega
  have hbuffer : listBuffer devids.length true =
      .ok (padded (devidsLen devids.length).toNat []) := by
    rw [listBuffer, if_neg]
    simp only [Bool.not_true, Bool.false_eq_true, or_false]
    omega
  rw [listText, hbuffer, Outcome.ok_bind, appendDevids_eq (by omega) hfits.some, if_pos hsize,
    Outcome.ok_bind, boundedText_padded (zero_not_mem_devidsText devids) hsize]

/-! ## The handler and its texts -/

/-- What `atoi` reads is not changed by zeros behind the text. -/
theorem atoi_padded (size : Nat) (text : List UInt8) : atoi (padded size text) = atoi text := by
  have hspace : isSpace 0 = false := by decide
  have hdigit : isDigit 0 = false := by decide
  have hstop : ∀ {kind : UInt8 → Bool} (count : Nat), kind 0 = false →
      (List.replicate count (0 : UInt8)).dropWhile kind = List.replicate count 0 ∧
        (List.replicate count (0 : UInt8)).takeWhile kind = [] := by
    intro kind count hzero
    cases count <;> simp [List.replicate_succ, hzero]
  have hbehind : ∀ count (digits : List UInt8),
      (digits ++ List.replicate count 0).takeWhile isDigit = digits.takeWhile isDigit := by
    intro count digits
    induction digits with
    | nil => exact (hstop count hdigit).2
    | cons byte rest ih => rw [List.cons_append, List.takeWhile_cons, List.takeWhile_cons, ih]
  generalize hcount : size - text.length = count
  have hstart : (padded size text).dropWhile isSpace =
      text.dropWhile isSpace ++ List.replicate count 0 := by
    rw [padded, hcount, List.dropWhile_append]
    split
    next hempty => rw [(hstop count hspace).1, List.isEmpty_iff.mp hempty, List.nil_append]
    next => rfl
  unfold atoi
  rw [hstart]
  cases text.dropWhile isSpace with
  | nil =>
      cases count with
      | zero => rfl
      | succ count =>
          simp [dropSign, signed, hdigit, List.replicate_succ]
  | cons byte rest =>
      have hdrop : dropSign (byte :: rest ++ List.replicate count 0) =
          dropSign (byte :: rest) ++ List.replicate count 0 := by
        simp only [dropSign, List.cons_append]
        split <;> rfl
      dsimp only
      rw [hdrop, hbehind]
      rfl

section Handler

variable {ctx : DmMgrCtx} {src : List UInt8} {subdevs : LiteCjson}
  {visit : DmMgrCtx → Int → DmMgrCtx}

theorem subdevAt_foldl
    (hvisit : ∀ ctx devid item, subdevDevid (visit ctx devid) src item = subdevDevid ctx src item)
    (devids : List Int) (ctx : DmMgrCtx) (index : Nat) :
    subdevAt (devids.foldl visit ctx) src subdevs index = subdevAt ctx src subdevs index := by
  induction devids generalizing ctx with
  | nil => rfl
  | cons devid rest ih =>
      rw [List.foldl_cons, ih]
      simp only [subdevAt, hvisit]

/-- If all devices are known the loop is their appends. -/
theorem devidLoop_known
    (hvisit : ∀ ctx devid item, subdevDevid (visit ctx devid) src item = subdevDevid ctx src item)
    {indices : List Nat} {devids : List Int}
    (hknown : indices.map (subdevAt ctx src subdevs) = devids.map some) (buffer : List UInt8) :
    devidLoop visit src subdevs indices ctx buffer =
      (appendDevids devids buffer >>= fun buffer =>
        .ok (devids.foldl visit ctx, some buffer)) := by
  induction indices generalizing ctx devids buffer with
  | nil =>
      obtain rfl : devids = [] := by simpa using hknown.symm
      rfl
  | cons index rest ih =>
      cases devids with
      | nil => exact absurd hknown (by simp)
      | cons devid devids =>
          rw [List.map_cons, List.map_cons, List.cons.injEq] at hknown
          obtain ⟨hfirst, hothers⟩ := hknown
          have hend : rest.isEmpty = devids.isEmpty := by
            have hlength := congrArg List.length hothers
            rw [List.length_map, List.length_map] at hlength
            rw [Bool.eq_iff_iff, List.isEmpty_iff_length_eq_zero, List.isEmpty_iff_length_eq_zero,
              hlength]
          have hlater : rest.map (subdevAt (visit ctx devid) src subdevs) = devids.map some := by
            rw [← hothers]
            exact List.map_congr_left fun index _ => subdevAt_foldl hvisit [devid] ctx index
          rw [devidLoop, hfirst, appendDevids, hend]
          dsimp only
          cases appendDevid buffer devid !devids.isEmpty with
          | ok buffer => exact ih hlater buffer
          | failed | stray | running => rfl

theorem printDevids_known
    (hvisit : ∀ ctx devid item, subdevDevid (visit ctx devid) src item = subdevDevid ctx src item)
    {indices : List Nat} {devids : List Int}
    (hknown : indices.map (subdevAt ctx src subdevs) = devids.map some) (mallocOk : Bool)
    {result : DmMgrCtx × Option (List UInt8)} :
    printDevids visit src (subdevs, indices) mallocOk ctx = .ok result ↔
      ∃ buffer, (listBuffer devids.length mallocOk >>= appendDevids devids) = .ok buffer ∧
        result = (devids.foldl visit ctx, some buffer) := by
  have hcount : indices.length = devids.length := by
    simpa using congrArg List.length hknown
  rw [printDevids, hcount]
  simp only [devidLoop_known hvisit hknown, Outcome.bind_eq_ok_iff, Outcome.ok.injEq]
  constructor
  · rintro ⟨empty, hempty, buffer, hbuffer, rfl⟩
    exact ⟨buffer, ⟨empty, hempty, hbuffer⟩, rfl⟩
  · rintro ⟨buffer, ⟨empty, hempty, hbuffer⟩, rfl⟩
    exact ⟨empty, hempty, buffer, hbuffer, rfl⟩

theorem sendBatchReply_eq_ok_iff {response : DmMsgResponsePayload} {memory : Memory}
    {logined failed : List UInt8} {message : ReplyMessage} :
    sendBatchReply response memory logined failed = .ok (some message) ↔
      ∃ loginedText failedText, boundedText logined = .ok loginedText ∧
        boundedText failed = .ok failedText ∧
        response.id.length ≤ dmUtilsUint32Strlen ∧
        AtoiStops (padded dmUtilsUint32Strlen response.id) ∧ memory.message = true ∧
        replyMessage .combineLoginBatchReply
          (batchFormat (atoi response.id) response.code loginedText failedText)
          (dmUtilsUint32Strlen * 3) memory.queued = some message := by
  rw [sendBatchReply]
  by_cases hid : response.id.length ≤ dmUtilsUint32Strlen
  · rw [copyAt_zeros hid, Outcome.ok_bind]
    cases hmemory : memory.message with
    | false => simp
    | true =>
        rw [Bool.not_true, if_neg Bool.false_ne_true, boundedAtoi, atoi_padded]
        by_cases hstops : AtoiStops (padded dmUtilsUint32Strlen response.id)
        · rw [if_pos hstops, Outcome.ok_bind]
          simp only [Outcome.bind_eq_ok_iff, Outcome.pure_eq, Outcome.ok.injEq]
          constructor
          · rintro ⟨loginedText, hlogined, failedText, hfailed, hmessage⟩
            exact ⟨loginedText, failedText, hlogined, hfailed, hid, hstops, trivial, hmessage⟩
          · rintro ⟨loginedText, failedText, hlogined, hfailed, -, -, -, hmessage⟩
            exact ⟨loginedText, hlogined, failedText, hfailed, hmessage⟩
        · rw [if_neg hstops]
          exact iff_of_false (fun hsent => (nomatch hsent))
            fun ⟨_, _, _, _, _, hstop, _⟩ => hstops hstop
  · rw [copyAt_zeros_stray (Nat.not_le.mp hid)]
    exact iff_of_false (fun hsent => (nomatch hsent)) fun ⟨_, _, _, _, hfits, _⟩ => hid hfits

variable {response : DmMsgResponsePayload} {memory : Memory} {logined failed : List Int}

/-- The handler sends an event just if both lists end in their buffers, the id in its array, and
there is room for the event. -/
theorem batchReply_eq_ok_iff
    (hlogined : ListsDevices ctx response.data (ascii "loginedSubDevices") logined)
    (hfailed : ListsDevices ctx response.data (ascii "failedSubDevices") failed)
    {message : ReplyMessage} :
    (∃ after, dmMsgCombineLoginBatchReply ctx response memory = .ok (after, some message)) ↔
      ∃ loginedText failedText, listText logined memory.logined = .ok loginedText ∧
        listText failed memory.failed = .ok failedText ∧
        response.id.length ≤ dmUtilsUint32Strlen ∧
        AtoiStops (padded dmUtilsUint32Strlen response.id) ∧ memory.message = true ∧
        replyMessage .combineLoginBatchReply
          (batchFormat (atoi response.id) response.code loginedText failedText)
          (dmUtilsUint32Strlen * 3) memory.queued = some message := by
  obtain ⟨item, subdevs, indices, hparse, harray, hknown⟩ := hlogined
  obtain ⟨item', subdevs', indices', hparse', harray', hknown'⟩ := hfailed
  obtain rfl : item = item' := Option.some.inj (hparse.symm.trans hparse')
  have hvisit : ∀ ctx devid item,
      subdevDevid (updateStatus ctx response.code devid .logined) response.data item =
        subdevDevid ctx response.data item :=
    fun ctx devid item => subdevDevid_updateStatus ctx response.code devid .logined _ item
  have hlater : indices'.map (subdevAt (logined.foldl
      (fun ctx devid => updateStatus ctx response.code devid .logined) ctx) response.data
        subdevs') = failed.map some := by
    rw [← hknown']
    exact List.map_congr_left fun index _ => subdevAt_foldl hvisit logined ctx index
  rw [dmMsgCombineLoginBatchReply, hparse]
  simp only [harray, harray', Outcome.bind_eq_ok_iff, printDevids_known hvisit hknown, listText]
  constructor
  · rintro ⟨after, _, ⟨loginedBuffer, hlogined, rfl⟩, hrest⟩
    simp only [Outcome.bind_eq_ok_iff,
      printDevids_known (fun _ _ _ => rfl) hlater] at hrest
    obtain ⟨_, ⟨failedBuffer, hfailed, rfl⟩, hsent⟩ := hrest
    simp only [Outcome.bind_eq_ok_iff, Outcome.pure_eq, Outcome.ok.injEq, Prod.mk.injEq] at hsent
    obtain ⟨_, hsent, -, rfl⟩ := hsent
    obtain ⟨loginedText, failedText, hloginedText, hfailedText, hothers⟩ :=
      sendBatchReply_eq_ok_iff.mp hsent
    obtain ⟨first, hfirst, hloginedBuffer⟩ := hlogined
    obtain ⟨second, hsecond, hfailedBuffer⟩ := hfailed
    exact ⟨loginedText, failedText,
      ⟨first, hfirst, loginedBuffer, hloginedBuffer, hloginedText⟩,
      ⟨second, hsecond, failedBuffer, hfailedBuffer, hfailedText⟩, hothers⟩
  · rintro ⟨loginedText, failedText, ⟨first, hfirst, loginedBuffer, hloginedBuffer, hloginedText⟩,
      ⟨second, hsecond, failedBuffer, hfailedBuffer, hfailedText⟩, hothers⟩
    refine ⟨failed.foldl (fun ctx _ => ctx) (logined.foldl
      (fun ctx devid => updateStatus ctx response.code devid .logined) ctx), _,
      ⟨loginedBuffer, ⟨first, hfirst, hloginedBuffer⟩, rfl⟩, ?_⟩
    simp only [Outcome.bind_eq_ok_iff, printDevids_known (fun _ _ _ => rfl) hlater]
    refine ⟨_, ⟨failedBuffer, ⟨second, hsecond, hfailedBuffer⟩, rfl⟩, ?_⟩
    simp only [Outcome.bind_eq_ok_iff, Outcome.pure_eq, Outcome.ok.injEq, Prod.mk.injEq]
    exact ⟨_, sendBatchReply_eq_ok_iff.mpr
      ⟨loginedText, failedText, hloginedText, hfailedText, hothers⟩, trivial, rfl⟩

end Handler

/-! ## The tree of an event -/

/-- An array of numbers. -/
def numbersDoc (numbers : List Int) : Doc :=
  .nest .array [] (numbers.map fun number =>
    (elementFrame [], .scalar (.number (intDecimal number))))

/-- The members of an event. -/
def batchMembers (id code : Int) (logined failed : List Int) : List (List UInt8 × Doc) :=
  [(ascii "id", .scalar (.number (intDecimal id))),
    (ascii "code", .scalar (.number (intDecimal code))),
    (ascii "logined_devids", numbersDoc logined), (ascii "failed_devids", numbersDoc failed)]

/-- An event. -/
def batchDoc (id code : Int) (logined failed : List Int) : Doc :=
  objectOf (batchMembers id code logined failed)

theorem joinCommas_devids (devids : List Int) :
    joinCommas (devids.map intDecimal) = devidsText devids := by
  induction devids with
  | nil => rfl
  | cons devid rest ih =>
      by_cases hmore : rest = []
      · simp [hmore, joinCommas]
      · obtain ⟨next, others, rfl⟩ := List.exists_cons_of_ne_nil hmore
        rw [devidsText_cons devid hmore, ← ih]
        simp [joinCommas]

theorem render_numbersDoc {numbers : List Int} (hsome : numbers ≠ []) :
    (numbersDoc numbers).render = 91 :: (devidsText numbers ++ [93]) := by
  obtain ⟨number, rest, rfl⟩ := List.exists_cons_of_ne_nil hsome
  have htext : ∀ text : List UInt8,
      entryText (elementFrame [], Doc.scalar (.number text)) = text := by
    intro text
    simp [entryText, Frame.wrap, Frame.lead, elementFrame, Doc.render, Token.render]
  rw [numbersDoc, render_nest, List.map_cons, bodyText, List.map_cons, List.map_map,
    ← joinCommas_devids]
  simp [htext, Function.comp_def, Nest.opening, Nest.closing]

theorem wellFormed_numbersDoc {numbers : List Int} {levels : Nat}
    (hnumbers : ∀ number ∈ numbers, IsInt number) :
    (numbersDoc numbers).WellFormed (levels + 1) := by
  apply Doc.WellFormed.nest blank_nil
  · intro entry hentry
    obtain ⟨number, -, rfl⟩ := List.mem_map.mp hentry
    exact elementFrame_fits blank_nil
  · intro entry hentry
    obtain ⟨number, hnumber, rfl⟩ := List.mem_map.mp hentry
    exact .scalar (numberToken_intDecimal (hnumbers number hnumber))

theorem wellFormed_batchDoc {id code : Int} (hid : IsInt id) (hcode : IsInt code)
    {logined failed : List Int} (hlogined : ∀ devid ∈ logined, IsInt devid)
    (hfailed : ∀ devid ∈ failed, IsInt devid) :
    (batchDoc id code logined failed).WellFormed liteCjsonNestingLimit := by
  apply @objectOf_wellFormed (liteCjsonNestingLimit - 1)
  · simp only [batchMembers, List.forall_mem_cons, List.not_mem_nil, false_imp_iff,
      implies_true, and_true]
    exact ⟨stringBody_of_plain (by decide), stringBody_of_plain (by decide),
      stringBody_of_plain (by decide), stringBody_of_plain (by decide)⟩
  · simp only [batchMembers, List.forall_mem_cons, List.not_mem_nil, false_imp_iff,
      implies_true, and_true]
    exact ⟨.scalar (numberToken_intDecimal hid), .scalar (numberToken_intDecimal hcode),
      wellFormed_numbersDoc hlogined, wellFormed_numbersDoc hfailed⟩

/-- The text of an event before it is cut. -/
theorem formatText_batchFormat (id code : Int) {logined failed : List Int}
    (hlogined : logined ≠ []) (hfailed : failed ≠ []) :
    formatText (batchFormat id code (devidsText logined) (devidsText failed)) =
      (batchDoc id code logined failed).render := by
  have hfirst : ascii "\x7b\"id\":" = 123 :: 34 :: (ascii "id" ++ [34, 58]) := by decide
  have hsecond : ascii ",\"code\":" = 44 :: 34 :: (ascii "code" ++ [34, 58]) := by decide
  have hthird : ascii ",\"logined_devids\":[" =
      44 :: 34 :: (ascii "logined_devids" ++ [34, 58, 91]) := by decide
  have hfourth : ascii "],\"failed_devids\":[" =
      93 :: 44 :: 34 :: (ascii "failed_devids" ++ [34, 58, 91]) := by decide
  have hend : ascii "]\x7d" = [93, 125] := by decide
  rw [batchDoc, render_objectOf _ (by simp [batchMembers]), formatText, batchFormat]
  simp [FormatPart.print, hfirst, hsecond, hthird, hfourth, hend, batchMembers, joinCommas,
    arrayText_of_noNul (zero_not_mem_devidsText logined),
    arrayText_of_noNul (zero_not_mem_devidsText failed), render_numbersDoc hlogined,
    render_numbersDoc hfailed, Doc.render, Token.render]

/-- The bytes of an event, eight of the format's own being conversions. -/
theorem length_batchFormat (id code : Int) (logined failed : List Int) :
    (formatText (batchFormat id code (devidsText logined) (devidsText failed))).length + 8 =
      formatStrlen (batchFormat id code (devidsText logined) (devidsText failed)) +
        ((intDecimal id).length + (intDecimal code).length + (devidsText logined).length +
          (devidsText failed).length) := by
  simp only [formatText, formatStrlen, batchFormat, List.map_cons, List.map_nil, FormatPart.print,
    FormatPart.strlen, arrayText_of_noNul (zero_not_mem_devidsText logined),
    arrayText_of_noNul (zero_not_mem_devidsText failed), List.flatten_cons, List.flatten_nil,
    List.length_append, List.length_nil, List.sum_cons, List.sum_nil]
  omega

theorem numberOf_intDecimal {value : Int} (hvalue : IsInt value) :
    numberOf (.scalar (.number (intDecimal value))) = some value :=
  congrArg some (valueInt_intDecimal hvalue)

theorem numbersOf_numbersDoc {numbers : List Int} (hnumbers : ∀ number ∈ numbers, IsInt number) :
    numbersOf (numbersDoc numbers) = some numbers := by
  rw [numbersDoc, numbersOf]
  induction numbers with
  | nil => rfl
  | cons number rest ih =>
      rw [List.forall_mem_cons] at hnumbers
      rw [List.map_cons, List.mapM_cons, numberOf_intDecimal hnumbers.1, ih hnumbers.2]
      rfl

/-! ## Reading an event -/

/-- Numbers with the same text are the same. -/
theorem numberOf_unique {first second : Doc} (hfirst : first.Spelled) (hsecond : second.Spelled)
    (hsame : first.render = second.render) : numberOf first = numberOf second := by
  have htype := hfirst.type_unique hsecond (congrArg (· ++ []) hsame)
  have hnumber : ∀ doc : Doc, numberOf doc =
      if doc.type = .number then some (valueInt doc.render) else none := by
    intro doc
    cases doc with
    | nest kind => cases kind <;> rfl
    | scalar token => cases token <;> rfl
  rw [hnumber, hnumber, htype, hsame]

theorem mapM_numberOf_unique {first second : List (Frame × Doc)}
    (hfirst : ∀ entry ∈ first, entry.2.Spelled) (hsecond : ∀ entry ∈ second, entry.2.Spelled)
    (hsame : first.map spelling = second.map spelling) :
    (first.mapM fun entry => numberOf entry.2) = second.mapM fun entry => numberOf entry.2 := by
  induction first generalizing second with
  | nil =>
      obtain rfl : second = [] := by simpa using hsame.symm
      rfl
  | cons entry first ih =>
      cases second with
      | nil => exact absurd hsame (by simp)
      | cons entry' second =>
          rw [List.map_cons, List.map_cons, List.cons.injEq] at hsame
          rw [List.forall_mem_cons] at hfirst hsecond
          have hnumber := numberOf_unique hfirst.1 hsecond.1 (congrArg Prod.snd hsame.1)
          rw [List.mapM_cons, List.mapM_cons, hnumber, ih hfirst.2 hsecond.2 hsame.2]

/-- Arrays with the same text have the same numbers. -/
theorem numbersOf_unique {first second : Doc} (hfirst : first.Spelled) (hsecond : second.Spelled)
    (hsame : first.render = second.render) : numbersOf first = numbersOf second := by
  have htype := hfirst.type_unique hsecond (congrArg (· ++ []) hsame)
  cases hfirst with
  | @scalar token =>
      cases hsecond with
      | scalar => rfl
      | @nest kind => exact absurd htype (Token.Spelled.type_ne token kind)
  | @nest kind blank entries hblank hframes hvalues =>
      cases hsecond with
      | @scalar token => exact absurd htype.symm (Token.Spelled.type_ne token kind)
      | @nest kind' blank' entries' hblank' hframes' hvalues' =>
          cases kind with
          | array =>
              cases kind' with
              | array =>
                  exact mapM_numberOf_unique hvalues hvalues' (entries_unique
                    (.nest hblank hframes hvalues) (.nest hblank' hframes' hvalues') hsame)
              | object => exact absurd htype nofun
          | object =>
              cases kind' with
              | array => exact absurd htype nofun
              | object => rfl

/-- Objects with the same text tell the same under a key. -/
theorem field_bind_unique {α : Type} {first second : Doc} (hfirst : first.Spelled)
    (hsecond : second.Spelled) (hsame : first.render = second.render)
    (hkind : second.type = .object) (key : List UInt8) {read : Doc → Option α}
    (hread : ∀ {first second : Doc}, first.Spelled → second.Spelled →
      first.render = second.render → read first = read second) :
    (first.field key).bind read = (second.field key).bind read := by
  have hobject : ∀ doc : Doc, doc.type = .object →
      ∃ blank entries, doc = .nest .object blank entries := by
    intro doc hdoc
    cases doc with
    | scalar token => cases token <;> exact absurd hdoc nofun
    | nest kind blank entries =>
        cases kind with
        | array => exact absurd hdoc nofun
        | object => exact ⟨blank, entries, rfl⟩
  have htype := hfirst.type_unique hsecond (congrArg (· ++ []) hsame)
  obtain ⟨blank, entries, rfl⟩ := hobject first (htype.trans hkind)
  obtain ⟨blank', entries', rfl⟩ := hobject second hkind
  have hfields := field_unique hfirst hsecond hsame key
  cases hvalue : (Doc.nest .object blank entries).field key with
  | none =>
      rw [hvalue, Option.map_none, eq_comm, Option.map_eq_none_iff] at hfields
      rw [hfields]
  | some value =>
      rw [hvalue, Option.map_some, eq_comm, Option.map_eq_some_iff] at hfields
      obtain ⟨value', hvalue', hrender⟩ := hfields
      rw [hvalue', Option.bind_some, Option.bind_some,
        hread (hfirst.field hvalue) (hsecond.field hvalue') hrender.symm]

section Event

variable {id code : Int} {shown shown' logined failed : List Int}

/-- The text of an event tells what it was printed from. -/
theorem tells_render_iff (hid : IsInt id) (hcode : IsInt code)
    (hshown : ∀ devid ∈ shown, IsInt devid) (hshown' : ∀ devid ∈ shown', IsInt devid) :
    Tells (batchDoc id code shown shown').render id code logined failed ↔
      shown = logined ∧ shown' = failed := by
  have hwell := wellFormed_batchDoc hid hcode hshown hshown'
  have hlogined : ((batchDoc id code shown shown').field (ascii "logined_devids")).bind numbersOf =
      some shown := numbersOf_numbersDoc hshown
  have hfailed : ((batchDoc id code shown shown').field (ascii "failed_devids")).bind numbersOf =
      some shown' := numbersOf_numbersDoc hshown'
  constructor
  · rintro ⟨doc, hdoc, hrender, -, -, hfirst, hsecond⟩
    rw [field_bind_unique hdoc.spelled hwell.spelled hrender rfl _ numbersOf_unique,
      hlogined] at hfirst
    rw [field_bind_unique hdoc.spelled hwell.spelled hrender rfl _ numbersOf_unique,
      hfailed] at hsecond
    exact ⟨Option.some.inj hfirst, Option.some.inj hsecond⟩
  · rintro ⟨rfl, rfl⟩
    exact ⟨_, hwell, rfl, numberOf_intDecimal hid, numberOf_intDecimal hcode, hlogined, hfailed⟩

/-- An event tells what it was printed from if there was room for all of it, and else nothing: a
bracket is missing at its end. -/
theorem tells_iff (hid : IsInt id) (hcode : IsInt code)
    (hshown : ∀ devid ∈ shown, IsInt devid) (hshown' : ∀ devid ∈ shown', IsInt devid)
    (hsome : shown ≠ []) (hsome' : shown' ≠ []) :
    Tells (halSnprintf (formatStrlen (batchFormat id code (devidsText shown) (devidsText shown')) +
        dmUtilsUint32Strlen * 3 + 1)
      (batchFormat id code (devidsText shown) (devidsText shown'))) id code logined failed ↔
      (intDecimal id).length + (intDecimal code).length + (devidsText shown).length +
        (devidsText shown').length ≤ 38 ∧ shown = logined ∧ shown' = failed := by
  have hlength := length_batchFormat id code shown shown'
  have hextra : dmUtilsUint32Strlen * 3 = 30 := rfl
  have hwell := wellFormed_batchDoc hid hcode hshown hshown'
  rw [halSnprintf, hextra, Nat.add_sub_cancel]
  rw [formatText_batchFormat id code hsome hsome'] at hlength ⊢
  by_cases hroom : (intDecimal id).length + (intDecimal code).length + (devidsText shown).length +
      (devidsText shown').length ≤ 38
  · rw [List.take_of_length_le (by omega), and_iff_right hroom]
    exact tells_render_iff hid hcode hshown hshown'
  · refine iff_of_false ?_ fun hall => hroom hall.1
    rintro ⟨doc, hdoc, hrender, -⟩
    obtain ⟨byte, rest, hcons, -⟩ := hdoc.spelled.head
    refine level_of_part hwell.spelled (hcons ▸ List.cons_ne_nil byte rest)
      (hrender ▸ List.take_prefix _ _) ?_ hdoc.spelled.opens
    intro hwhole
    have hcut : (batchDoc id code shown shown').render.length ≤
        formatStrlen (batchFormat id code (devidsText shown) (devidsText shown')) + 30 := by
      rw [← show doc.render = (batchDoc id code shown shown').render from hwhole, hrender]
      exact List.length_take_le _ _
    omega

end Event

/-- What is printed for a list are the numbers of a list, which is another one if the list does not
fit. -/
theorem listText_shows {devids : List Int} {mallocOk : Bool} {text : List UInt8}
    (hdevids : ∀ devid ∈ devids, IsInt devid) (htext : listText devids mallocOk = .ok text) :
    mallocOk = true ∧ ∃ shown : List Int, shown ≠ [] ∧ (∀ devid ∈ shown, IsInt devid) ∧
      text = devidsText shown ∧ (shown = devids → ListFits devids) := by
  obtain ⟨hmalloc, ⟨hfits, rfl⟩ | ⟨devid, rfl, hlong, rfl⟩⟩ := listText_eq_ok htext
  · exact ⟨hmalloc, devids, hfits.some, hdevids, rfl, fun _ => hfits⟩
  · obtain ⟨front, hbetween, hfront⟩ := take_intDecimal (by decide : 1 < 4) devid
    have hdevid : IsInt devid := hdevids devid (List.mem_singleton_self devid)
    refine ⟨hmalloc, [front], List.cons_ne_nil _ _, ?_, ?_, ?_⟩
    · rw [List.forall_mem_singleton]
      obtain ⟨hlow, hhigh⟩ := hdevid
      constructor <;> omega
    · rw [devidsText_singleton, hfront]
    · intro hsame
      obtain rfl : front = devid := List.singleton_inj.mp hsame
      have hcut := congrArg List.length hfront
      rw [List.length_take] at hcut
      omega

/-- Where everything fits, the event is sent as it was printed. -/
theorem batchReply_sent {ctx : DmMgrCtx} {response : DmMsgResponsePayload} {memory : Memory}
    {logined failed : List Int}
    (hlogined : ListsDevices ctx response.data (ascii "loginedSubDevices") logined)
    (hfailed : ListsDevices ctx response.data (ascii "failedSubDevices") failed)
    (hfits : BatchFits response memory logined failed) {message : ReplyMessage}
    (hreply : replyMessage .combineLoginBatchReply (batchFormat (atoi response.id) response.code
      (devidsText logined) (devidsText failed)) (dmUtilsUint32Strlen * 3) true = some message) :
    ∃ after, dmMsgCombineLoginBatchReply ctx response memory = .ok (after, some message) := by
  obtain ⟨rfl, hlength, hstops, hloginedFits, hfailedFits, -⟩ := hfits
  have hfirst := listText_of_fits hloginedFits
  have hsecond := listText_of_fits hfailedFits
  exact (@batchReply_eq_ok_iff ctx response ⟨true, true, true, true⟩ _ _ hlogined hfailed _).mpr
    ⟨_, _, hfirst, hsecond, hlength, hstops, rfl, hreply⟩

/-- The handler stays inside its buffers and its event has all the devices, just if everything
fits. -/
theorem reportsBatch_iff {ctx : DmMgrCtx} {response : DmMsgResponsePayload} {memory : Memory}
    {logined failed : List Int}
    (hlogined : ListsDevices ctx response.data (ascii "loginedSubDevices") logined)
    (hfailed : ListsDevices ctx response.data (ascii "failedSubDevices") failed)
    (hloginedInts : ∀ devid ∈ logined, IsInt devid) (hfailedInts : ∀ devid ∈ failed, IsInt devid)
    (hcode : IsInt response.code) :
    ReportsBatch ctx response memory logined failed ↔ BatchFits response memory logined failed := by
  have hid : IsInt (atoi response.id) := isInt_atoi response.id
  constructor
  · rintro ⟨after, message, hsent, -, htells⟩
    obtain ⟨loginedText, failedText, hfirst, hsecond, hlength, hstops, hmessage, hreply⟩ :=
      (batchReply_eq_ok_iff hlogined hfailed).mp ⟨after, hsent⟩
    obtain ⟨hloginedOk, shown, hsome, hints, rfl, hshown⟩ := listText_shows hloginedInts hfirst
    obtain ⟨hfailedOk, shown', hsome', hints', rfl, hshown'⟩ := listText_shows hfailedInts hsecond
    obtain ⟨hqueued, hreply⟩ := Option.ite_none_right_eq_some.mp hreply
    obtain rfl := Option.some.inj hreply
    obtain ⟨hroom, rfl, rfl⟩ := (tells_iff hid hcode hints hints' hsome hsome').mp htells
    obtain ⟨loginedOk, failedOk, messageOk, queued⟩ := memory
    obtain rfl : loginedOk = true := hloginedOk
    obtain rfl : failedOk = true := hfailedOk
    obtain rfl : messageOk = true := hmessage
    obtain rfl : queued = true := hqueued
    exact ⟨rfl, hlength, hstops, hshown rfl, hshown' rfl, hroom⟩
  · intro hfits
    have htells := (tells_iff hid hcode hloginedInts hfailedInts hfits.loginedFits.some
      hfits.failedFits.some).mpr ⟨hfits.event, rfl, rfl⟩
    obtain ⟨after, hsent⟩ := batchReply_sent hlogined hfailed hfits (if_pos rfl)
    exact ⟨after, _, hsent, rfl, htells⟩

/-! ## The handler without its buffers -/

/-- If all devices are known the loop without a buffer collects them. -/
theorem subdevLoop_known {src : List UInt8} {subdevs : LiteCjson}
    {visit : DmMgrCtx → Int → DmMgrCtx}
    (hvisit : ∀ ctx devid item, subdevDevid (visit ctx devid) src item = subdevDevid ctx src item)
    {indices : List Nat} {ctx : DmMgrCtx} {devids : List Int}
    (hknown : indices.map (subdevAt ctx src subdevs) = devids.map some) (found : List Int) :
    subdevLoop visit src subdevs indices ctx found =
      (devids.foldl visit ctx, some (found ++ devids)) := by
  induction indices generalizing ctx devids found with
  | nil =>
      obtain rfl : devids = [] := by simpa using hknown.symm
      rw [List.append_nil]
      rfl
  | cons index rest ih =>
      cases devids with
      | nil => exact absurd hknown (by simp)
      | cons devid devids =>
          rw [List.map_cons, List.map_cons, List.cons.injEq] at hknown
          obtain ⟨hfirst, hothers⟩ := hknown
          have hlater : rest.map (subdevAt (visit ctx devid) src subdevs) = devids.map some := by
            rw [← hothers]
            exact List.map_congr_left fun index _ => subdevAt_foldl hvisit [devid] ctx index
          rw [subdevLoop, hfirst]
          dsimp only
          rw [ih hlater, List.foldl_cons, List.append_assoc, List.singleton_append]

/-- Where everything fits, the handler does what the one without buffers does. -/
theorem batchReply_of_fits {ctx : DmMgrCtx} {response : DmMsgResponsePayload} {memory : Memory}
    {logined failed : List Int}
    (hlogined : ListsDevices ctx response.data (ascii "loginedSubDevices") logined)
    (hfailed : ListsDevices ctx response.data (ascii "failedSubDevices") failed)
    (hfits : BatchFits response memory logined failed) :
    ∃ after message, dmMsgCombineLoginBatchReply ctx response memory = .ok (after, some message) ∧
      (DevModel.dmMsgCombineLoginBatchReply ctx response [] true).2 = some message := by
  have hvisit : ∀ ctx devid item,
      subdevDevid (updateStatus ctx response.code devid .logined) response.data item =
        subdevDevid ctx response.data item :=
    fun ctx devid item => subdevDevid_updateStatus ctx response.code devid .logined _ item
  have hreply : replyMessage .combineLoginBatchReply (batchFormat (atoi response.id)
      response.code (devidsText logined) (devidsText failed)) (dmUtilsUint32Strlen * 3) true =
      some _ := if_pos rfl
  obtain ⟨after, hsent⟩ := batchReply_sent hlogined hfailed hfits hreply
  refine ⟨after, _, hsent, ?_⟩
  obtain ⟨item, subdevs, indices, hparse, harray, hknown⟩ := hlogined
  obtain ⟨item', subdevs', indices', hparse', harray', hknown'⟩ := hfailed
  obtain rfl : item = item' := Option.some.inj (hparse.symm.trans hparse')
  have hlater : indices'.map (subdevAt (logined.foldl
      (fun ctx devid => updateStatus ctx response.code devid .logined) ctx) response.data
        subdevs') = failed.map some := by
    rw [← hknown']
    exact List.map_congr_left fun index _ => subdevAt_foldl hvisit logined ctx index
  have hid : sessionId response [] = atoi response.id := by
    rw [sessionId, List.append_nil, atoi_padded]
  simp only [DevModel.dmMsgCombineLoginBatchReply, hparse, harray, harray',
    subdevLoop_known hvisit hknown, subdevLoop_known (fun _ _ _ => rfl) hlater, List.nil_append,
    hid]
  exact hreply

/-- A device with the product key `p`, the device key `d` and the id. -/
def knownDevice (devid : Int) : DmMgrCtx where
  globalDevid := devid + 1
  devList :=
    [{ devid := devid
       devType := 2
       productKey := padded 21 [112]
       productSecret := List.replicate 65 0
       deviceKey := padded 65 [100]
       deviceSecret := List.replicate 65 0
       status := .enable
       devStatus := .attached }]

/-- A reply that lists devices with these keys. -/
def batchResponse (logined failed : List UInt8) : DmMsgResponsePayload where
  id := ascii "7"
  code := 200
  data := ascii "\x7b\"loginedSubDevices\":[" ++ logined ++ ascii "],\"failedSubDevices\":[" ++
    failed ++ ascii "]\x7d"
  message := []

/-- The device is logged in and no other has failed. -/
def onlyLogined : DmMsgResponsePayload := batchResponse deviceKeys []

/-- The device is in both lists. -/
def inBoth : DmMsgResponsePayload := batchResponse deviceKeys deviceKeys

theorem listsDevices_of_eq {ctx : DmMgrCtx} {data key : List UInt8} {devids : List Int}
    (hlisted : ((jsonParse data).bind fun item => (subdevArray data item key).map fun found =>
      found.2.map (subdevAt ctx data found.1)) = some (devids.map some)) :
    ListsDevices ctx data key devids := by
  obtain ⟨item, hparse, hlisted⟩ := Option.bind_eq_some_iff.mp hlisted
  obtain ⟨⟨subdevs, indices⟩, harray, hknown⟩ := Option.map_eq_some_iff.mp hlisted
  exact ⟨item, subdevs, indices, hparse, harray, hknown⟩

/-- With one device in each list the event has both. -/
theorem reportsBatch_pair :
    ReportsBatch (knownDevice 1) inBoth ⟨true, true, true, true⟩ [1] [1] := by
  have hints : ∀ devid ∈ [(1 : Int)], IsInt devid := by
    rw [List.forall_mem_singleton]
    decide
  have hfits : ListFits [1] := ⟨List.cons_ne_nil _ _, by decide, by decide⟩
  exact (reportsBatch_iff (listsDevices_of_eq (by decide +kernel))
    (listsDevices_of_eq (by decide +kernel)) hints hints (by decide)).mpr
    ⟨rfl, by decide, by decide, hfits, hfits, by decide⟩

/-- If no device has failed the handler reads an empty buffer. The id of the device with the number
10000 is cut. -/
theorem not_reportsBatch_empty :
    (ListsDevices (knownDevice 1) onlyLogined.data (ascii "loginedSubDevices") [1] ∧
      ListsDevices (knownDevice 1) onlyLogined.data (ascii "failedSubDevices") [] ∧
      ¬ReportsBatch (knownDevice 1) onlyLogined ⟨true, true, true, true⟩ [1] []) ∧
    (ListsDevices (knownDevice 10000) inBoth.data (ascii "loginedSubDevices") [10000] ∧
      ListsDevices (knownDevice 10000) inBoth.data (ascii "failedSubDevices") [10000] ∧
      ¬ReportsBatch (knownDevice 10000) inBoth ⟨true, true, true, true⟩ [10000] [10000]) := by
  have hlogined : ListsDevices (knownDevice 1) onlyLogined.data
      (ascii "loginedSubDevices") [1] := listsDevices_of_eq (by decide +kernel)
  have hfailed : ListsDevices (knownDevice 1) onlyLogined.data
      (ascii "failedSubDevices") [] := listsDevices_of_eq (by decide +kernel)
  have hlogined' : ListsDevices (knownDevice 10000) inBoth.data
      (ascii "loginedSubDevices") [10000] := listsDevices_of_eq (by decide +kernel)
  have hfailed' : ListsDevices (knownDevice 10000) inBoth.data
      (ascii "failedSubDevices") [10000] := listsDevices_of_eq (by decide +kernel)
  refine ⟨⟨hlogined, hfailed, ?_⟩, hlogined', hfailed', ?_⟩
  · rintro ⟨after, message, hsent, -⟩
    obtain ⟨_, _, -, hempty, -⟩ := (batchReply_eq_ok_iff hlogined hfailed).mp ⟨after, hsent⟩
    exact nomatch hempty
  · rintro ⟨after, message, hsent, -, htells⟩
    obtain ⟨first, second, hfirst, hsecond, -, -, -, hreply⟩ :=
      (batchReply_eq_ok_iff hlogined' hfailed').mp ⟨after, hsent⟩
    have hcut : listText [10000] true = .ok (devidsText [1000]) := by decide
    obtain rfl := Outcome.ok.inj (hcut.symm.trans hfirst)
    obtain rfl := Outcome.ok.inj (hcut.symm.trans hsecond)
    obtain ⟨-, hreply⟩ := Option.ite_none_right_eq_some.mp hreply
    obtain rfl := Option.some.inj hreply
    have hints : ∀ devid ∈ [(1000 : Int)], IsInt devid := by
      rw [List.forall_mem_singleton]
      decide
    obtain ⟨-, hsame, -⟩ := (tells_iff (by decide) (by decide) hints hints
      (List.cons_ne_nil _ _) (List.cons_ne_nil _ _)).mp htells
    exact absurd hsame (by decide)

end EnosDeviceSdk.DevModel.BatchReply
