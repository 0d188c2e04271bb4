/-
# Reading a packet into the buffer

`iotx_mc_read_packet` once more, with the memory it reads into. With dynamic buffers
`_alloc_recv_buffer` moves the part that is already read into a larger buffer between
header and body; without them one buffer serves all packets. Bytes are stored at
offsets, and a store that leaves the buffer has no result.

The calls on memory refine the model in `Receive`, for both kinds of buffers and
whatever they held before: no store leaves the buffer, and what is read stands at its
start. A packet with the shortest length field thus comes out as it was sent.
-/

import EnosDeviceSdk.Mqtt.PacketLen
import EnosDeviceSdk.Mqtt.Receive

namespace EnosDeviceSdk.Mqtt

open EnosDeviceSdk.Infra

/-- Whether `WITH_MQTT_DYN_BUF` is set: the read buffer is allocated for each packet, or
once for the client. -/
inductive BufferMode
  | dynamic | fixed
  deriving DecidableEq, Repr

/-- `buf_read` and `buf_size_read`. A null pointer is a buffer of size zero. -/
structure ReadBuffer where
  memory : Buf
  size : Nat

namespace ReadBuffer

/-- Bytes stored from an offset on, if they stay inside the buffer. -/
def store (buffer : ReadBuffer) (ptr : Nat) (bytes : List UInt8) : Option ReadBuffer :=
  if ptr + bytes.length ≤ buffer.size then
    some { buffer with memory := buffer.memory.write ptr bytes }
  else none

/-- A new zeroed buffer into which as much of the old one is copied as fits. -/
def moved (buffer : ReadBuffer) (tmpLen : Nat) : ReadBuffer where
  memory := fun offset => if offset < min buffer.size tmpLen then buffer.memory offset else 0
  size := tmpLen

/-- The terminator behind a packet, where the buffer has room for it. -/
def terminate (buffer : ReadBuffer) (length : Nat) : ReadBuffer :=
  if length < buffer.size then
    { buffer with memory := Function.update buffer.memory length 0 }
  else buffer

end ReadBuffer

/-- `_alloc_recv_buffer` -/
def allocRecvBufferInto (mode : BufferMode) (c : Client) (buffer : ReadBuffer) (len : Nat)
    (mallocOk : Bool) : Except Int ReadBuffer :=
  match mode with
  | .fixed => .ok buffer
  | .dynamic =>
      match allocRecvBuffer c len mallocOk with
      | .error rc => .error rc
      | .ok tmpLen => .ok (buffer.moved tmpLen)

/-- The loop that drains a packet larger than the read buffer into its start. -/
def drainLoopInto : List ReadOutcome → Nat → Network → ReadBuffer →
    Option (Bool × Network × ReadBuffer)
  | [], _, net, buffer => some (false, net, buffer)
  | outcome :: reads, remLen, net, buffer =>
      let needReadLen := if remLen > buffer.size then buffer.size else remLen
      let (rc, got, net) := net.read needReadLen outcome
      (buffer.store 0 got).bind fun buffer =>
        if rc ≠ needReadLen then some (false, net, buffer)
        else if remLen - needReadLen = 0 then some (true, net, buffer)
        else drainLoopInto reads (remLen - needReadLen) net buffer

/-- Result of `iotx_mc_read_packet`, its output parameter where it is written, and the
read buffer. -/
structure ReadIntoResult where
  rc : Int
  packetType : Option UInt8
  buffer : ReadBuffer
  client : Client

/-- The part of `iotx_mc_read_packet` behind the remaining length; `len` counts the bytes
that the buffer already holds. -/
def iotxMcReadRestInto (mode : BufferMode) (c : Client) (buffer : ReadBuffer)
    (len remLen : Nat) (env : ReadEnv) : Option ReadIntoResult :=
  match allocRecvBufferInto mode c buffer (remLen + len) env.mallocPacket with
  | .error rc => some ⟨rc, none, buffer, c⟩
  | .ok buffer =>
      if remLen > 0 && remLen + len > buffer.size then
        (drainLoopInto env.bodyReads remLen c.ipstack buffer).map
          fun (drained, ipstack, buffer) =>
            let c := { c with ipstack := ipstack }
            if drained then ⟨stateSuccess, some 0, buffer, performCalls c env.overflowCalls⟩
            else ⟨stateSysDependNwkReadError, some 0, buffer, c⟩
      else
        let (rc, body, ipstack) := c.ipstack.read remLen (env.bodyReads.headD .fail)
        let c := { c with ipstack := ipstack }
        (buffer.store len body).map fun buffer =>
          if remLen > 0 && rc < 0 then ⟨stateSysDependNwkClose, none, buffer, c⟩
          else if remLen > 0 && rc ≠ remLen then
            ⟨stateMqttPacketReadError, none, buffer, c⟩
          else
            ⟨stateSuccess, some (mqttHeaderGetType (buffer.memory 0)),
              buffer.terminate (len + remLen), c⟩

/-- `iotx_mc_read_packet` on the read buffer that it finds. -/
def iotxMcReadPacketInto (mode : BufferMode) (c : Client) (buffer : ReadBuffer)
    (env : ReadEnv) : Option ReadIntoResult :=
  match allocRecvBufferInto mode c buffer 0 env.mallocHeader with
  | .error rc => some ⟨rc, none, buffer, c⟩
  | .ok buffer =>
      let (rc, header, ipstack) := c.ipstack.read 1 env.headerRead
      let c := { c with ipstack := ipstack }
      (buffer.store 0 header).bind fun buffer =>
        if rc = 0 then some ⟨stateSuccess, some 0, buffer, c⟩
        else if rc < stateSuccess then some ⟨stateSysDependNwkClose, none, buffer, c⟩
        else
          let (decoded, ipstack) := iotxMcDecodePacket c.ipstack env.lengthReads
          let c := { c with ipstack := ipstack }
          match decoded with
          | .error rc => some ⟨rc, none, buffer, c⟩
          | .ok remLen =>
              (buffer.store 1 (mqttPacketEncode remLen)).bind fun buffer =>
                iotxMcReadRestInto mode c buffer (1 + (mqttPacketEncode remLen).length) remLen env

/-! ## The memory of the buffer -/

/-- A buffer that serves all packets has the configured size. -/
def BufferMode.Sized (mode : BufferMode) (c : Client) (buffer : ReadBuffer) : Prop :=
  mode = .fixed → buffer.size = c.bufSizeReadMax

/-- Without dynamic buffers no allocation can fail. -/
def BufferMode.malloc : BufferMode → Bool → Bool
  | .dynamic, mallocOk => mallocOk
  | .fixed, _ => true

/-- Bytes stay where they are while no store touches them. -/
theorem holds_of_agree {first second : Buf} {bytes : List UInt8} (hholds : first.Holds 0 bytes)
    (hagree : ∀ offset < bytes.length, second offset = first offset) : second.Holds 0 bytes := by
  rw [Buf.Holds] at hholds ⊢
  rw [← hholds, Buf.length_slice, Buf.slice, Buf.slice, List.map_inj_left]
  intro index hindex
  rw [Nat.zero_add]
  exact hagree index (List.mem_range.mp hindex)

theorem ReadBuffer.store_of_le {buffer : ReadBuffer} {ptr : Nat} {bytes : List UInt8}
    (hroom : ptr + bytes.length ≤ buffer.size) :
    buffer.store ptr bytes = some ⟨buffer.memory.write ptr bytes, buffer.size⟩ :=
  if_pos hroom

/-- Storing behind what is held appends to it. -/
theorem holds_write_append {memory : Buf} {held bytes : List UInt8}
    (hholds : memory.Holds 0 held) :
    (memory.write held.length bytes).Holds 0 (held ++ bytes) := by
  rw [Buf.holds_append, Nat.zero_add]
  refine ⟨holds_of_agree hholds fun offset hoffset => ?_, Buf.holds_write memory _ bytes⟩
  exact Buf.write_outside memory _ bytes (Or.inl hoffset)

/-- What an allocation makes of the buffer: an error as in the model of the call, or a
buffer that keeps what was read and is large enough. -/
theorem allocRecvBufferInto_spec {mode : BufferMode} {c : Client} {buffer : ReadBuffer}
    (hsized : mode.Sized c buffer) (len : Nat) (mallocOk : Bool) :
    match allocRecvBuffer c len (mode.malloc mallocOk) with
    | .error rc => allocRecvBufferInto mode c buffer len mallocOk = .error rc
    | .ok size => ∃ after, allocRecvBufferInto mode c buffer len mallocOk = .ok after ∧
        mode.Sized c after ∧ size ≤ after.size ∧ after.size ≤ c.bufSizeReadMax ∧
          ∀ offset < min buffer.size after.size, after.memory offset = buffer.memory offset := by
  have hsize (mallocOk : Bool) : allocRecvBuffer c len mallocOk =
      if mallocOk then .ok (min (mqttDynbufRecvMargin + len) c.bufSizeReadMax)
      else .error stateSysDependMalloc := by
    rw [allocRecvBuffer]
    congr 2
    split <;> omega
  cases mode with
  | fixed =>
      have hmax := hsized rfl
      rw [BufferMode.malloc, hsize, if_pos rfl]
      exact ⟨buffer, rfl, hsized, by omega, by omega, fun _ _ => rfl⟩
  | dynamic =>
      rw [BufferMode.malloc, allocRecvBufferInto, hsize]
      cases mallocOk with
      | false => rfl
      | true =>
          refine ⟨_, rfl, by intro hfixed; exact absurd hfixed (by decide), Nat.le_refl _,
            Nat.min_le_right _ _, fun offset hoffset => if_pos hoffset⟩

/-- A read hands out no more than it is asked for. -/
theorem Network.length_read_le (net : Network) (len : Nat) (outcome : ReadOutcome) :
    (net.read len outcome).2.1.length ≤ len := by
  cases outcome with
  | fail => exact Nat.zero_le len
  | bytes count =>
      simp only [Network.read, List.length_take]
      omega

/-- Draining into the buffer is draining, and stays inside it. -/
theorem drainLoopInto_eq (reads : List ReadOutcome) (remLen : Nat) (net : Network)
    (buffer : ReadBuffer) :
    ∃ after : ReadBuffer, after.size = buffer.size ∧
      drainLoopInto reads remLen net buffer =
        some ((drainLoop buffer.size reads remLen net).1,
          (drainLoop buffer.size reads remLen net).2, after) := by
  induction reads generalizing remLen net buffer with
  | nil => exact ⟨buffer, rfl, rfl⟩
  | cons outcome reads ih =>
      rw [drainLoopInto, drainLoop]
      generalize hneed : (if remLen > buffer.size then buffer.size else remLen) = needReadLen
      have hfits : needReadLen ≤ buffer.size := by
        rw [← hneed]
        split <;> omega
      have hgot := net.length_read_le needReadLen outcome
      cases hread : net.read needReadLen outcome with
      | mk rc result =>
          obtain ⟨got, rest⟩ := result
          rw [hread] at hgot
          have hroom : 0 + got.length ≤ buffer.size := by
            rw [Nat.zero_add]
            exact Nat.le_trans hgot hfits
          dsimp only
          rw [ReadBuffer.store_of_le hroom, Option.bind_some]
          by_cases hshort : rc ≠ needReadLen
          · rw [if_pos hshort, if_pos hshort]
            exact ⟨⟨buffer.memory.write 0 got, buffer.size⟩, rfl, rfl⟩
          · rw [if_neg hshort, if_neg hshort]
            split
            · exact ⟨⟨buffer.memory.write 0 got, buffer.size⟩, rfl, rfl⟩
            · obtain ⟨after, hsize, hloop⟩ := ih (remLen - needReadLen) rest
                ⟨buffer.memory.write 0 got, buffer.size⟩
              exact ⟨after, hsize, hloop⟩

/-! ## Reading into memory refines reading -/

/-- The allocations of a call, as far as its mode makes them. -/
def ReadEnv.inMode (env : ReadEnv) (mode : BufferMode) : ReadEnv :=
  { env with
    mallocHeader := mode.malloc env.mallocHeader
    mallocPacket := mode.malloc env.mallocPacket }

/-- The call on memory has a result, the one of the model, and what the model says to be
read stands at the start of the buffer. -/
def Refines (into : Option ReadIntoResult) (result : ReadResult) : Prop :=
  ∃ after, into = some after ∧ after.rc = result.rc ∧
    after.packetType.getD 0 = result.packetType ∧
      (result.bufRead ≠ [] → after.packetType = some result.packetType) ∧
      after.client = result.client ∧ after.buffer.memory.Holds 0 result.bufRead ∧
        result.bufRead.length ≤ after.buffer.size

/-- A result without anything read. -/
theorem refines_unread {rc : Int} {packetType : Option UInt8} {buffer : ReadBuffer}
    {client : Client} : Refines (some ⟨rc, packetType, buffer, client⟩)
      ⟨rc, packetType.getD 0, [], client⟩ :=
  ⟨_, rfl, rfl, rfl, fun hread => absurd rfl hread, rfl, rfl, Nat.zero_le _⟩

/-- Behind the remaining length, with header and length field in the buffer. -/
theorem iotxMcReadRestInto_refines {mode : BufferMode} {c : Client} {buffer : ReadBuffer}
    {header : UInt8} {remLen : Nat} (env : ReadEnv) (hsized : mode.Sized c buffer)
    (hmargin : mqttDynbufRecvMargin ≤ c.bufSizeReadMax)
    (hfield : (mqttPacketEncode remLen).length ≤ 4)
    (hroom : 1 + (mqttPacketEncode remLen).length ≤ buffer.size)
    (hholds : buffer.memory.Holds 0 (header :: mqttPacketEncode remLen)) :
    Refines
      (iotxMcReadRestInto mode c buffer (1 + (mqttPacketEncode remLen).length) remLen env)
      (iotxMcReadRest c header remLen (env.inMode mode)) := by
  rw [iotxMcReadRestInto, iotxMcReadRest]
  have hspec := allocRecvBufferInto_spec hsized (remLen + (1 + (mqttPacketEncode remLen).length))
    env.mallocPacket
  have hmalloc : (env.inMode mode).mallocPacket = mode.malloc env.mallocPacket := rfl
  rw [hmalloc]
  cases halloc : allocRecvBuffer c (remLen + (1 + (mqttPacketEncode remLen).length))
      (mode.malloc env.mallocPacket) with
  | error rc =>
      rw [halloc] at hspec
      rw [hspec]
      exact refines_unread
  | ok size =>
      rw [halloc] at hspec
      obtain ⟨moved, hmoved, hmovedSized, hlarge, hmax, hkept⟩ := hspec
      have hsize : size = min (mqttDynbufRecvMargin + (remLen +
          (1 + (mqttPacketEncode remLen).length))) c.bufSizeReadMax := by
        rw [allocRecvBuffer] at halloc
        split at halloc
        · simp only [Except.ok.injEq] at halloc
          rw [← halloc]
          split <;> omega
        · exact absurd halloc (by simp)
      rw [hmoved]
      simp only [mqttDynbufRecvMargin] at hmargin hsize
      by_cases hover : 0 < remLen ∧ moved.size < remLen + (1 + (mqttPacketEncode remLen).length)
      · obtain rfl : moved.size = size := by omega
        obtain ⟨after, _, hdrain⟩ := drainLoopInto_eq env.bodyReads remLen c.ipstack moved
        have hreads : (env.inMode mode).bodyReads = env.bodyReads := rfl
        have hcalls : (env.inMode mode).overflowCalls = env.overflowCalls := rfl
        simp only [hdrain, hover, decide_true, Bool.and_self, if_true, Option.map_some, hreads,
          hcalls]
        split
        · exact refines_unread
        · exact refines_unread
      · have hfits : ¬ (0 < remLen ∧ size < remLen + (1 + (mqttPacketEncode remLen).length)) := by
          omega
        have hreads : (env.inMode mode).bodyReads = env.bodyReads := rfl
        simp only [gt_iff_lt, Bool.and_eq_true, decide_eq_true_eq, hover, hfits, if_false, hreads]
        have hgot := c.ipstack.length_read_le remLen (env.bodyReads.headD .fail)
        cases hread : c.ipstack.read remLen (env.bodyReads.headD .fail) with
        | mk rc result =>
            obtain ⟨body, ipstack⟩ := result
            rw [hread] at hgot
            have hbody : body.length ≤ remLen := hgot
            have hstore : 1 + (mqttPacketEncode remLen).length + body.length ≤ moved.size := by
              omega
            dsimp only
            rw [ReadBuffer.store_of_le hstore, Option.map_some]
            split
            · exact refines_unread
            · split
              · exact refines_unread
              · have hlength : (header :: mqttPacketEncode remLen).length =
                    1 + (mqttPacketEncode remLen).length := Nat.add_comm _ 1
                have hcopied := holds_of_agree hholds fun offset hoffset =>
                  hkept offset (by rw [hlength] at hoffset; omega)
                have hwritten := @holds_write_append _ _ body hcopied
                rw [hlength] at hwritten
                have htype := congrArg mqttHeaderGetType ((Buf.holds_cons _ _ _ _).mp hwritten).1
                refine ⟨_, rfl, rfl, htype, fun _ => congrArg some htype, rfl, ?_, ?_⟩
                · apply holds_of_agree hwritten
                  intro offset hoffset
                  rw [ReadBuffer.terminate]
                  split
                  · rw [List.length_append, hlength] at hoffset
                    exact Function.update_of_ne (by omega) _ _
                  · rfl
                · have hterminated (buffer : ReadBuffer) (length : Nat) :
                      (buffer.terminate length).size = buffer.size := by
                    rw [ReadBuffer.terminate]
                    split <;> rfl
                  rw [hterminated, List.length_cons, List.length_append]
                  simp only
                  omega

/-- A decoded length has four digits, so the encoder writes at most four bytes for it. -/
theorem length_encode_of_decoded {net after : Network} {reads : List ReadOutcome} {remLen : Nat}
    (hdecode : iotxMcDecodePacket net reads = (.ok remLen, after)) :
    (mqttPacketEncode remLen).length ≤ 4 := by
  obtain ⟨decoded, count, hreading⟩ := exists_lengthReading 4 reads net.incoming
  rw [iotxMcDecodePacket, iotxMcDecodePacketLoop_of_reading hreading] at hdecode
  cases hreading with
  | @complete field rest value hstream hvalue hleft hreads =>
      simp only [Except.map, Nat.zero_add, Nat.mul_one, Prod.mk.injEq, Except.ok.injEq] at hdecode
      rw [← hdecode.1]
      apply length_mqttPacketEncode_le (by decide)
      exact Nat.lt_of_lt_of_le (lengthValue_lt hvalue) (Nat.pow_le_pow_right (by decide) hleft)
  | tooLong => simp [Except.map] at hdecode
  | interrupted => simp [Except.map] at hdecode

/-- A read of one byte that is neither empty nor failed has its byte. -/
theorem Network.read_one {net : Network} {outcome : ReadOutcome}
    (hsome : (net.read 1 outcome).1 ≠ 0) (hopen : ¬ (net.read 1 outcome).1 < stateSuccess) :
    ∃ byte, (net.read 1 outcome).2.1 = [byte] := by
  cases outcome with
  | fail => exact absurd (by decide : (-1 : Int) < stateSuccess) hopen
  | bytes count =>
      have hle := net.length_read_le 1 (.bytes count)
      have hlength : (net.read 1 (.bytes count)).1 =
          ((net.read 1 (.bytes count)).2.1.length : Int) := rfl
      apply List.length_eq_one_iff.mp
      omega

/-- With room for a header in the largest buffer, no store leaves the buffer, and the call
does what the model of the call says. -/
theorem iotxMcReadPacketInto_refines {mode : BufferMode} {c : Client} {buffer : ReadBuffer}
    (env : ReadEnv) (hsized : mode.Sized c buffer)
    (hmargin : mqttDynbufRecvMargin ≤ c.bufSizeReadMax) :
    Refines (iotxMcReadPacketInto mode c buffer env)
      (iotxMcReadPacket c (env.inMode mode)) := by
  rw [iotxMcReadPacketInto, iotxMcReadPacket]
  have hspec := allocRecvBufferInto_spec hsized 0 env.mallocHeader
  have hmalloc : (env.inMode mode).mallocHeader = mode.malloc env.mallocHeader := rfl
  rw [hmalloc]
  cases halloc : allocRecvBuffer c 0 (mode.malloc env.mallocHeader) with
  | error rc =>
      rw [halloc] at hspec
      rw [hspec]
      exact refines_unread
  | ok size =>
      rw [halloc] at hspec
      obtain ⟨moved, hmoved, hmovedSized, hlarge, _, _⟩ := hspec
      have hroom : mqttDynbufRecvMargin ≤ moved.size := by
        rw [allocRecvBuffer] at halloc
        split at halloc
        · simp only [Except.ok.injEq] at halloc
          rw [← halloc] at hlarge
          split at hlarge <;> omega
        · exact absurd halloc (by simp)
      rw [mqttDynbufRecvMargin] at hroom
      rw [hmoved]
      have hheaderRead : (env.inMode mode).headerRead = env.headerRead := rfl
      have hlengthReads : (env.inMode mode).lengthReads = env.lengthReads := rfl
      simp only [hheaderRead, hlengthReads]
      have hgot := c.ipstack.length_read_le 1 env.headerRead
      have hone := @Network.read_one c.ipstack env.headerRead
      cases hread : c.ipstack.read 1 env.headerRead with
      | mk rc result =>
          obtain ⟨header, ipstack⟩ := result
          rw [hread] at hgot hone
          have hstore : 0 + header.length ≤ moved.size := by
            have : header.length ≤ 1 := hgot
            omega
          dsimp only at hone ⊢
          rw [ReadBuffer.store_of_le hstore, Option.bind_some]
          by_cases hidle : rc = 0
          · rw [if_pos hidle, if_pos hidle]
            exact refines_unread
          by_cases hclosed : rc < stateSuccess
          · rw [if_neg hidle, if_neg hidle, if_pos hclosed, if_pos hclosed]
            exact refines_unread
          rw [if_neg hidle, if_neg hidle, if_neg hclosed, if_neg hclosed]
          obtain ⟨byte, rfl⟩ := hone hidle hclosed
          cases hdecode : iotxMcDecodePacket ipstack env.lengthReads with
          | mk decoded after =>
              cases decoded with
              | error rc => exact refines_unread
              | ok remLen =>
                  have hfield := length_encode_of_decoded hdecode
                  have hencode : 1 + (mqttPacketEncode remLen).length ≤ moved.size := by omega
                  dsimp only
                  rw [@ReadBuffer.store_of_le ⟨moved.memory.write 0 [byte], moved.size⟩ 1 _ hencode,
                    Option.bind_some]
                  apply iotxMcReadRestInto_refines env
                  · exact hmovedSized
                  · exact hmargin
                  · exact hfield
                  · exact hencode
                  · exact @holds_write_append _ [byte] _ (Buf.holds_write _ 0 [byte])

/-! ## A packet with the shortest length field -/

/-- Two length fields of one length and one value are the same. -/
theorem lengthField_eq {first second : List UInt8} {length : Nat}
    (hfirst : lengthValue first = some length) (hsecond : lengthValue second = some length)
    (hlength : first.length = second.length) : first = second := by
  induction first generalizing second length with
  | nil => simp [lengthValue] at hfirst
  | cons byte rest ih =>
      cases second with
      | nil => simp at hlength
      | cons other later =>
          have hrest : rest.length = later.length := by simpa using hlength
          have hbyte := byte.toNat_lt
          have hother := other.toNat_lt
          by_cases hlast : byte < 128
          · rw [lengthValue_cons_of_lt hlast] at hfirst
            split at hfirst
            · next hnil =>
                obtain rfl : later = [] := by
                  apply List.length_eq_zero_iff.mp
                  rw [← hrest, hnil, List.length_nil]
                have hend : other < 128 := by
                  by_contra hmore
                  rw [lengthValue_cons_of_ge hmore] at hsecond
                  simp [lengthValue] at hsecond
                rw [lengthValue_cons_of_lt hend, if_pos rfl] at hsecond
                have hsame : byte.toNat = other.toNat := by
                  rw [Option.some.inj hfirst, Option.some.inj hsecond]
                rw [hnil, UInt8.toNat_inj.mp hsame]
            · exact absurd hfirst (by simp)
          · rw [lengthValue_cons_of_ge hlast, Option.map_eq_some_iff] at hfirst
            obtain ⟨high, hhigh, rfl⟩ := hfirst
            have hmore : ¬ other < 128 := by
              intro hend
              rw [lengthValue_cons_of_lt hend] at hsecond
              split at hsecond
              · next hnil =>
                  rw [hnil, List.length_nil, List.length_eq_zero_iff] at hrest
                  rw [hrest] at hhigh
                  simp [lengthValue] at hhigh
              · exact absurd hsecond (by simp)
            rw [lengthValue_cons_of_ge hmore, Option.map_eq_some_iff] at hsecond
            obtain ⟨other', hhigh', hsame⟩ := hsecond
            have hbyteLarge : 128 ≤ byte.toNat := by
              have := mt UInt8.lt_iff_toNat_lt.mpr hlast
              exact Nat.not_lt.mp this
            have hotherLarge : 128 ≤ other.toNat := by
              have := mt UInt8.lt_iff_toNat_lt.mpr hmore
              exact Nat.not_lt.mp this
            have hdigit : byte.toNat = other.toNat := by omega
            obtain rfl : other' = high := by omega
            rw [UInt8.toNat_inj.mp hdigit, ih hhigh hhigh' hrest]

/-- The encoder writes the shortest length field. -/
theorem eq_mqttPacketEncode_of_shortest {field : List UInt8} {length : Nat}
    (hvalue : lengthValue field = some length)
    (hshortest : ∀ other, lengthValue other = some length → field.length ≤ other.length) :
    field = mqttPacketEncode length := by
  apply lengthField_eq hvalue (lengthValue_mqttPacketEncode length)
  apply Nat.le_antisymm (hshortest _ (lengthValue_mqttPacketEncode length))
  have hpositive : 0 < field.length := by
    cases field with
    | nil => simp [lengthValue] at hvalue
    | cons byte rest => exact Nat.succ_pos _
  exact length_mqttPacketEncode_le hpositive (lengthValue_lt hvalue)

/-- One MQTT packet whose length field is as short as it can be. -/
def OnePacket (packet : List UInt8) : Prop :=
  ∃ header field body, field.length ≤ 4 ∧ PacketOf header field body packet ∧
    ∀ other, lengthValue other = some body.length → field.length ≤ other.length

/-- The allocations that the mode makes succeed, and each read of the packet returns the
requested number of bytes. -/
def ReadEnv.GivesPacket (env : ReadEnv) (mode : BufferMode) (packet : List UInt8) : Prop :=
  mode.malloc env.mallocHeader = true ∧ mode.malloc env.mallocPacket = true ∧
    ∀ header field body, PacketOf header field body packet →
      env.headerRead.Gives 1 ∧ GiveBytes field.length env.lengthReads ∧
        (0 < body.length → (env.bodyReads.headD .fail).Gives body.length)

/-- The call succeeds, tells the packet's type, and leaves the packet's bytes at the start
of the read buffer. -/
def ComesOut (mode : BufferMode) (c : Client) (buffer : ReadBuffer) (env : ReadEnv)
    (packet : List UInt8) : Prop :=
  ∃ after, iotxMcReadPacketInto mode c buffer env = some after ∧ after.rc = stateSuccess ∧
    after.packetType = packet.head?.map mqttHeaderGetType ∧
      after.buffer.memory.Holds 0 packet ∧ packet.length ≤ after.buffer.size ∧
        after.client = c.consume packet.length

/-- What one of the serializers returns. -/
inductive SerializerOutput (packet : List UInt8) : Prop
  | call {call : SerializeCall} {buflen : Nat} (hformed : call.WellFormed)
      (hok : call.serialize buflen = .ok packet)
  | ack {buflen packetid : Nat} {packettype dup : UInt8}
      (hok : mqttSerializeAck buflen packettype dup packetid = .ok packet)
  | zero {buflen : Nat} {packettype : UInt8}
      (hok : mqttSerializeZero buflen packettype = .ok packet)

theorem SerializerOutput.serializedPacket {packet : List UInt8}
    (houtput : SerializerOutput packet) : SerializedPacket packet := by
  cases houtput with
  | @call call buflen hformed hok =>
      obtain ⟨header, body, hbody, hserialize⟩ := SerializeCall.serialize_eq hformed
      rw [hserialize] at hok
      exact serializedPacket_of_body hbody hok
  | ack hok => exact serializedPacket_ack hok
  | zero hok => exact serializedPacket_zero hok

/-- A serialized packet is one MQTT packet if it is no larger than these can be. -/
theorem SerializedPacket.onePacket {packet : List UInt8} (hserialized : SerializedPacket packet)
    (hsize : packet.length ≤ maxRemainingLength + 5) : OnePacket packet := by
  obtain ⟨header, body, rfl⟩ := hserialized
  have hshortest (other : List UInt8) (hother : lengthValue other = some body.length) :
      (mqttPacketEncode body.length).length ≤ other.length := by
    have hpositive : 0 < other.length := by
      cases other with
      | nil => simp [lengthValue] at hother
      | cons byte rest => exact Nat.succ_pos _
    exact length_mqttPacketEncode_le hpositive (lengthValue_lt hother)
  have hfour : (mqttPacketEncode body.length).length ≤ 4 := by
    by_contra hlong
    have hbody := mt (@length_mqttPacketEncode_le 4 body.length (by decide)) hlong
    simp only [List.length_cons, List.length_append, maxRemainingLength] at hsize
    omega
  exact ⟨header, _, body, hfour, ⟨lengthValue_mqttPacketEncode body.length, rfl⟩, hshortest⟩

theorem OnePacket.comesOut {mode : BufferMode} {c : Client} {buffer : ReadBuffer} {env : ReadEnv}
    {packet rest : List UInt8} (hpacket : OnePacket packet) (hsized : mode.Sized c buffer)
    (hmargin : mqttDynbufRecvMargin ≤ c.bufSizeReadMax)
    (hsize : packet.length ≤ c.bufSizeReadMax) (hstream : c.ipstack.incoming = packet ++ rest)
    (hgives : env.GivesPacket mode packet) : ComesOut mode c buffer env packet := by
  obtain ⟨header, field, body, hfour, hof, hshortest⟩ := hpacket
  obtain ⟨hmallocHeader, hmallocPacket, hreads⟩ := hgives
  obtain ⟨hheader, hlength, hbody⟩ := hreads header field body hof
  obtain ⟨hvalue, rfl⟩ := hof
  have hfield := eq_mqttPacketEncode_of_shortest hvalue hshortest
  simp only [List.length_cons, List.length_append] at hsize
  have hread : PacketRead c (env.inMode mode) header field body rest := by
    refine ⟨⟨⟨hmallocHeader, hheader, ?_⟩, hvalue, hfour, hlength⟩, hmallocPacket, ?_, hbody⟩
    · rw [hstream, List.cons_append, List.append_assoc]
    · rintro ⟨_, hover⟩
      rw [← hfield] at hover
      omega
  obtain ⟨after, hinto, hrc, _, htype, hclient, hholds, hroom⟩ :=
    @iotxMcReadPacketInto_refines mode c buffer env hsized hmargin
  rw [hread.result] at hrc htype hclient hholds hroom
  simp only [← hfield] at hrc htype hclient hholds hroom
  refine ⟨after, hinto, hrc, htype (by simp), hholds, hroom, ?_⟩
  rw [hclient, List.length_cons, List.length_append]
  congr 1
  omega

/-- Every packet with the shortest length field that fits the largest read buffer comes out
of `iotx_mc_read_packet` as it was sent, for both kinds of buffers and whatever they held
before; in particular so does every serializer's packet. -/
theorem iotxMcReadPacketInto_comesOut (mode : BufferMode) (c : Client) (buffer : ReadBuffer)
    (env : ReadEnv) (packet rest : List UInt8) (hsized : mode.Sized c buffer)
    (hmargin : mqttDynbufRecvMargin ≤ c.bufSizeReadMax)
    (hsize : packet.length ≤ c.bufSizeReadMax) (hstream : c.ipstack.incoming = packet ++ rest)
    (hgives : env.GivesPacket mode packet) :
    (OnePacket packet → ComesOut mode c buffer env packet) ∧
      (SerializerOutput packet → packet.length ≤ maxRemainingLength + 5 →
        ComesOut mode c buffer env packet) := by
  constructor
  · intro hpacket
    exact hpacket.comesOut hsized hmargin hsize hstream hgives
  · intro houtput hmax
    exact (houtput.serializedPacket.onePacket hmax).comesOut hsized hmargin hsize hstream hgives

/-- A client to which the broker has sent the CONNACK of an accepted connection. -/
def connackClient : Client := { plainClient with ipstack := ⟨[0x20, 2, 0, 0], [], []⟩ }

/-- Reads that return what is asked for. -/
def connackEnv : ReadEnv := ⟨true, .bytes 1, [.bytes 1], true, [.bytes 2], []⟩

theorem connackEnv_givesPacket : connackEnv.GivesPacket .dynamic [0x20, 2, 0, 0] := by
  refine ⟨rfl, rfl, ?_⟩
  rintro header field body ⟨hvalue, hbytes⟩
  cases field with
  | nil => exact absurd hvalue (by simp [lengthValue])
  | cons byte field =>
      simp only [List.cons_append, List.cons.injEq] at hbytes
      obtain ⟨_, rfl, hrest⟩ := hbytes
      cases field with
      | nil =>
          obtain rfl : body = [0, 0] := hrest.symm
          exact ⟨by decide, ⟨by decide, trivial⟩, fun _ => by decide⟩
      | cons more field => simp [lengthValue] at hvalue

/-- The CONNACK comes out of a buffer of 64 bytes that still holds ones. -/
theorem connackClient_comesOut :
    ComesOut .dynamic connackClient ⟨fun _ => 1, 64⟩ connackEnv [0x20, 2, 0, 0] := by
  have hpacket : OnePacket [0x20, 2, 0, 0] := by
    refine ⟨0x20, [2], [0, 0], by decide, ⟨by decide, rfl⟩, fun other hother => ?_⟩
    cases other with
    | nil => exact absurd hother (by decide)
    | cons byte rest => exact Nat.succ_le_succ (Nat.zero_le _)
  have hsized : BufferMode.Sized .dynamic connackClient ⟨fun _ => 1, 64⟩ :=
    fun hfixed => absurd hfixed (by decide)
  exact (iotxMcReadPacketInto_comesOut .dynamic connackClient ⟨fun _ => 1, 64⟩ connackEnv
    [0x20, 2, 0, 0] [] hsized (by decide) (by decide) rfl connackEnv_givesPacket).1 hpacket

end EnosDeviceSdk.Mqtt
