/-
# Reading one packet from the connection

`iotx_mc_read_packet` reads the header byte, the remaining length one byte at a
time, and the body, or drains the body in pieces when the packet is larger than the
read buffer. Every read may be short or fail, and every exit has its own code.

`Reading` lists what one call can make of the stream: nothing is read, the
connection is reported closed, one whole packet is read, or the packet is cut. The
last comes about in four ways, which `CutsPacket` states on the stream, the read
outcomes and the allocations.
-/

import EnosDeviceSdk.Mqtt.Api
import EnosDeviceSdk.Mqtt.Deserialize

namespace EnosDeviceSdk.Mqtt

open EnosDeviceSdk.Infra EnosDeviceSdk.Library

/-- `MQTT_DYNBUF_RECV_MARGIN` -/
def mqttDynbufRecvMargin : Nat := 8

/-- What the environment decides about reading one packet: the two allocations of the
read buffer, the outcomes of the reads of header, length bytes and body (a missing
outcome is a failure), and the calls that the application makes when it is told that
the packet was too large. -/
structure ReadEnv where
  mallocHeader : Bool
  headerRead : ReadOutcome
  lengthReads : List ReadOutcome
  mallocPacket : Bool
  bodyReads : List ReadOutcome
  overflowCalls : List ApiCall
  deriving DecidableEq

/-- `_alloc_recv_buffer`: the size of the new read buffer. -/
def allocRecvBuffer (c : Client) (len : Nat) (mallocOk : Bool) : Except Int Nat :=
  let tmpLen := mqttDynbufRecvMargin + len
  let tmpLen := if tmpLen > c.bufSizeReadMax then c.bufSizeReadMax else tmpLen
  if mallocOk then .ok tmpLen else .error stateSysDependMalloc

/-- The loop of `iotx_mc_decode_packet`. `left` counts the length bytes that may still
come before `++len` passes the limit of four. -/
def iotxMcDecodePacketLoop :
    Nat → List ReadOutcome → Network → Nat → Nat → Except Int Nat × Network
  | 0, _, net, _, _ => (.error mqttpacketReadError, net)
  | left + 1, reads, net, multiplier, value =>
      let (rc, i, net) := net.read 1 (reads.headD .fail)
      if rc ≤ stateSuccess then (.error stateSysDependNwkClose, net)
      else
        let i := i.headD 0
        let value := value + (i &&& 127).toNat * multiplier
        if i &&& 128 ≠ 0 then
          iotxMcDecodePacketLoop left reads.tail net (multiplier * 128) value
        else (.ok value, net)

/-- `iotx_mc_decode_packet`: the decoded length or an error code. -/
def iotxMcDecodePacket (net : Network) (reads : List ReadOutcome) : Except Int Nat × Network :=
  iotxMcDecodePacketLoop 4 reads net 1 0

/-- The loop that drains a packet larger than the read buffer; the result tells
whether every read got what it needed. -/
def drainLoop (bufSizeRead : Nat) :
    List ReadOutcome → Nat → Network → Bool × Network
  | [], _, net => (false, net)
  | outcome :: reads, remLen, net =>
      let needReadLen := if remLen > bufSizeRead then bufSizeRead else remLen
      let (rc, _, net) := net.read needReadLen outcome
      if rc ≠ needReadLen then (false, net)
      else if remLen - needReadLen = 0 then (true, net)
      else drainLoop bufSizeRead reads (remLen - needReadLen) net

/-- Result of `iotx_mc_read_packet`, its output parameter and the filled part of the
read buffer. -/
structure ReadResult where
  rc : Int
  packetType : UInt8
  bufRead : List UInt8
  client : Client

/-- The part of `iotx_mc_read_packet` behind the remaining length. -/
def iotxMcReadRest (c : Client) (header : UInt8) (remLen : Nat) (env : ReadEnv) : ReadResult :=
  let field := mqttPacketEncode remLen
  let len := 1 + field.length
  match allocRecvBuffer c (remLen + len) env.mallocPacket with
  | .error rc => ⟨rc, 0, [], c⟩
  | .ok bufSizeRead =>
      if remLen > 0 && remLen + len > bufSizeRead then
        let (drained, ipstack) := drainLoop bufSizeRead env.bodyReads remLen c.ipstack
        let c := { c with ipstack := ipstack }
        if drained then ⟨stateSuccess, 0, [], performCalls c env.overflowCalls⟩
        else ⟨stateSysDependNwkReadError, 0, [], c⟩
      else
        let (rc, body, ipstack) := c.ipstack.read remLen (env.bodyReads.headD .fail)
        let c := { c with ipstack := ipstack }
        if remLen > 0 && rc < 0 then ⟨stateSysDependNwkClose, 0, [], c⟩
        else if remLen > 0 && rc ≠ remLen then ⟨stateMqttPacketReadError, 0, [], c⟩
        else ⟨stateSuccess, mqttHeaderGetType header, header :: (field ++ body), c⟩

/-- `iotx_mc_read_packet` -/
def iotxMcReadPacket (c : Client) (env : ReadEnv) : ReadResult :=
  match allocRecvBuffer c 0 env.mallocHeader with
  | .error rc => ⟨rc, 0, [], c⟩
  | .ok _ =>
      let (rc, header, ipstack) := c.ipstack.read 1 env.headerRead
      let c := { c with ipstack := ipstack }
      if rc = 0 then ⟨stateSuccess, 0, [], c⟩
      else if rc < stateSuccess then ⟨stateSysDependNwkClose, 0, [], c⟩
      else
        let (decoded, ipstack) := iotxMcDecodePacket c.ipstack env.lengthReads
        let c := { c with ipstack := ipstack }
        match decoded with
        | .error rc => ⟨rc, 0, [], c⟩
        | .ok remLen => iotxMcReadRest c (header.headD 0) remLen env

/-! ## Reading the remaining length -/

/-- The first reads have their one byte each. -/
def GiveBytes : Nat → List ReadOutcome → Prop
  | 0, _ => True
  | count + 1, reads => (reads.headD .fail).Gives 1 ∧ GiveBytes count reads.tail

/-- What the decoder makes of the stream, and how many bytes it reads for it: a whole
length field, the most bytes it may read and no end, or an interruption. -/
inductive LengthReading (left : Nat) (reads : List ReadOutcome) (stream : List UInt8) :
    Except Int Nat → Nat → Prop
  | complete {field rest : List UInt8} {value : Nat} (hstream : stream = field ++ rest)
      (hvalue : lengthValue field = some value) (hleft : field.length ≤ left)
      (hreads : GiveBytes field.length reads) :
      LengthReading left reads stream (.ok value) field.length
  | tooLong {field rest : List UInt8} (hstream : stream = field ++ rest)
      (hmore : ∀ byte ∈ field, ¬ byte < 128) (hleft : field.length = left)
      (hreads : GiveBytes field.length reads) :
      LengthReading left reads stream (.error mqttpacketReadError) field.length
  | interrupted {field rest : List UInt8} (hstream : stream = field ++ rest)
      (hmore : ∀ byte ∈ field, ¬ byte < 128) (hleft : field.length < left)
      (hreads : GiveBytes field.length reads)
      (hstop : ¬ (((reads.drop field.length).headD .fail).Gives 1 ∧ rest ≠ [])) :
      LengthReading left reads stream (.error stateSysDependNwkClose) field.length

/-- Whatever the stream and the reads, the decoder makes something of them. -/
theorem exists_lengthReading (left : Nat) (reads : List ReadOutcome) (stream : List UInt8) :
    ∃ decoded count, LengthReading left reads stream decoded count := by
  induction left generalizing reads stream with
  | zero => exact ⟨_, _, .tooLong (List.nil_append stream).symm (by simp) rfl trivial⟩
  | succ left ih =>
      by_cases hgives : (reads.headD .fail).Gives 1 ∧ stream ≠ []
      · obtain ⟨byte, stream, rfl⟩ := List.exists_cons_of_ne_nil hgives.2
        by_cases hlast : byte < 128
        · exact ⟨_, _, @LengthReading.complete _ _ _ [byte] stream byte.toNat rfl
            (by rw [lengthValue_cons_of_lt hlast, if_pos rfl]) (by simp) ⟨hgives.1, trivial⟩⟩
        · have hcons {field : List UInt8} (hmore : ∀ later ∈ field, ¬ later < 128) :
              ∀ later ∈ byte :: field, ¬ later < 128 :=
            List.forall_mem_cons.mpr ⟨hlast, hmore⟩
          obtain ⟨decoded, count, hreading⟩ := ih reads.tail stream
          cases hreading with
          | @complete field rest value hsplit hvalue hleft hreads =>
              exact ⟨_, _, @LengthReading.complete _ _ _ (byte :: field) rest _
                (congrArg (byte :: ·) hsplit) (by rw [lengthValue_cons_of_ge hlast, hvalue]; rfl)
                (Nat.succ_le_succ hleft) ⟨hgives.1, hreads⟩⟩
          | @tooLong field rest hsplit hmore hleft hreads =>
              exact ⟨_, _, @LengthReading.tooLong _ _ _ (byte :: field) rest
                (congrArg (byte :: ·) hsplit) (hcons hmore) (congrArg Nat.succ hleft)
                ⟨hgives.1, hreads⟩⟩
          | @interrupted field rest hsplit hmore hleft hreads hstop =>
              refine ⟨_, _, @LengthReading.interrupted _ _ _ (byte :: field) rest
                (congrArg (byte :: ·) hsplit) (hcons hmore) (Nat.succ_lt_succ hleft)
                ⟨hgives.1, hreads⟩ ?_⟩
              rwa [List.length_cons, ← List.drop_tail]
      · exact ⟨_, _, .interrupted (List.nil_append stream).symm (by simp) (Nat.succ_pos left)
          trivial hgives⟩

/-- One turn of the decoder's loop that has its byte. -/
theorem iotxMcDecodePacketLoop_succ {left : Nat} {reads : List ReadOutcome} {net : Network}
    {byte : UInt8} {stream : List UInt8} (hgives : (reads.headD .fail).Gives 1)
    (hstream : net.incoming = byte :: stream) (multiplier value : Nat) :
    iotxMcDecodePacketLoop (left + 1) reads net multiplier value =
      if byte < 128 then (.ok (value + byte.toNat % 128 * multiplier), net.consume 1)
      else
        iotxMcDecodePacketLoop left reads.tail (net.consume 1) (multiplier * 128)
          (value + byte.toNat % 128 * multiplier) := by
  have hread := Network.read_of_gives hgives (by simp [hstream] : 1 ≤ net.incoming.length)
  have hpositive : ¬ ((1 : Nat) : Int) ≤ stateSuccess := by decide
  simp only [iotxMcDecodePacketLoop, hread, hpositive, if_false, hstream, List.take_succ_cons,
    List.headD_cons, and_128_ne_zero_iff, toNat_and_127, ite_not]

/-- One turn of the decoder's loop that does not get its byte. -/
theorem iotxMcDecodePacketLoop_stop {left : Nat} {reads : List ReadOutcome} {net : Network}
    (hshort : ¬ ((reads.headD .fail).Gives 1 ∧ 1 ≤ net.incoming.length))
    (multiplier value : Nat) :
    iotxMcDecodePacketLoop (left + 1) reads net multiplier value =
      (.error stateSysDependNwkClose, net) := by
  rw [iotxMcDecodePacketLoop]
  rcases Network.read_of_not_gives hshort with ⟨_, hread⟩ | ⟨count, _, hless, hread⟩
  · rw [hread]
    rfl
  · have hzero : min count net.incoming.length = 0 := Nat.lt_one_iff.mp hless
    rw [hread, hzero, net.consume_zero]
    rfl

/-- What the decoder finds in its first turn: the last byte of the field, a byte with more to
come, or no byte. -/
inductive FirstTurn (left : Nat) (reads : List ReadOutcome) (stream : List UInt8) :
    Except Int Nat → Nat → Prop
  | last {byte : UInt8} {rest : List UInt8} (hgives : (reads.headD .fail).Gives 1)
      (hstream : stream = byte :: rest) (hlast : byte < 128) :
      FirstTurn left reads stream (.ok byte.toNat) 1
  | more {byte : UInt8} {rest : List UInt8} {decoded : Except Int Nat} {count : Nat}
      (hgives : (reads.headD .fail).Gives 1) (hstream : stream = byte :: rest)
      (hmore : ¬ byte < 128) (hrest : LengthReading left reads.tail rest decoded count) :
      FirstTurn left reads stream (decoded.map fun high => (byte.toNat - 128) + 128 * high)
        (count + 1)
  | stop (hshort : ¬ ((reads.headD .fail).Gives 1 ∧ stream ≠ [])) :
      FirstTurn left reads stream (.error stateSysDependNwkClose) 0

theorem LengthReading.firstTurn {left : Nat} {reads : List ReadOutcome} {stream : List UInt8}
    {decoded : Except Int Nat} {count : Nat}
    (hreading : LengthReading (left + 1) reads stream decoded count) :
    FirstTurn left reads stream decoded count := by
  cases hreading with
  | @complete field rest length hstream hvalue hleft hreads =>
      cases field with
      | nil => exact absurd hvalue (by simp [lengthValue])
      | cons byte field =>
          by_cases hlast : byte < 128
          · rw [lengthValue_cons_of_lt hlast] at hvalue
            split at hvalue
            · next hnil =>
              subst hnil
              obtain rfl : byte.toNat = length := by simpa using hvalue
              exact .last hreads.1 hstream hlast
            · exact absurd hvalue (by simp)
          · rw [lengthValue_cons_of_ge hlast, Option.map_eq_some_iff] at hvalue
            obtain ⟨high, hhigh, rfl⟩ := hvalue
            exact .more hreads.1 hstream hlast
              (.complete rfl hhigh (Nat.le_of_succ_le_succ hleft) hreads.2)
  | @tooLong field rest hstream hmore hleft hreads =>
      cases field with
      | nil => exact absurd hleft (Nat.succ_ne_zero left).symm
      | cons byte field =>
          obtain ⟨hbyte, hfield⟩ := List.forall_mem_cons.mp hmore
          exact .more hreads.1 hstream hbyte
            (.tooLong rfl hfield (Nat.succ.inj hleft) hreads.2)
  | @interrupted field rest hstream hmore hleft hreads hstop =>
      cases field with
      | nil =>
          apply FirstTurn.stop
          rwa [hstream]
      | cons byte field =>
          obtain ⟨hbyte, hfield⟩ := List.forall_mem_cons.mp hmore
          rw [List.length_cons, ← List.drop_tail] at hstop
          exact .more hreads.1 hstream hbyte
            (.interrupted rfl hfield (Nat.lt_of_succ_lt_succ hleft) hreads.2 hstop)

/-- The loop does what the reading says, and adds the decoded length at its scale. -/
theorem iotxMcDecodePacketLoop_of_reading {left : Nat} {reads : List ReadOutcome}
    {net : Network} {decoded : Except Int Nat} {count : Nat}
    (hreading : LengthReading left reads net.incoming decoded count) (multiplier value : Nat) :
    iotxMcDecodePacketLoop left reads net multiplier value =
      (decoded.map fun length => value + length * multiplier, net.consume count) := by
  induction left generalizing reads net decoded count multiplier value with
  | zero =>
      cases hreading with
      | complete hstream hvalue hleft =>
          rw [List.length_eq_zero_iff.mp (Nat.le_zero.mp hleft)] at hvalue
          exact absurd hvalue (by simp [lengthValue])
      | tooLong hstream hmore hleft => simp [iotxMcDecodePacketLoop, Except.map, hleft]
      | interrupted hstream hmore hleft => exact absurd hleft (Nat.not_lt_zero _)
  | succ left ih =>
      cases hreading.firstTurn with
      | @last byte rest hgives hstream hlast =>
          have hsmall : byte.toNat < 128 := UInt8.lt_iff_toNat_lt.mp hlast
          rw [iotxMcDecodePacketLoop_succ hgives hstream, if_pos hlast, Nat.mod_eq_of_lt hsmall]
          rfl
      | @more byte rest decoded count hgives hstream hmore hrest =>
          have htail : (net.consume 1).incoming = rest := by simp [Network.consume, hstream]
          have hdigit : byte.toNat % 128 = byte.toNat - 128 := by
            have hsmall := UInt8.toNat_lt byte
            have hlarge : ¬ byte.toNat < 128 := fun h => hmore (UInt8.lt_iff_toNat_lt.mpr h)
            omega
          rw [← htail] at hrest
          rw [iotxMcDecodePacketLoop_succ hgives hstream, if_neg hmore, ih hrest, hdigit,
            Network.consume_consume, Nat.add_comm 1]
          cases decoded with
          | error rc => rfl
          | ok high =>
              simp only [Except.map, Prod.mk.injEq, Except.ok.injEq, and_true]
              rw [Nat.add_mul, Nat.add_assoc, Nat.mul_comm 128 high, Nat.mul_assoc,
                Nat.mul_comm 128 multiplier]
      | stop hshort =>
          rw [iotxMcDecodePacketLoop_stop (by simpa [Nat.one_le_iff_ne_zero] using hshort),
            net.consume_zero]
          rfl

/-! ## Draining a packet that is too large -/

/-- Each read of the drain loop has all the bytes that it needs. -/
def DrainGives (bufSizeRead : Nat) : List ReadOutcome → Nat → Prop
  | [], _ => False
  | outcome :: reads, remLen =>
      outcome.Gives (min remLen bufSizeRead) ∧
        (remLen ≤ bufSizeRead ∨ DrainGives bufSizeRead reads (remLen - bufSizeRead))

theorem needReadLen_eq (remLen bufSizeRead : Nat) :
    (if remLen > bufSizeRead then bufSizeRead else remLen) = min remLen bufSizeRead := by
  split <;> omega

/-- A drain whose reads have all their bytes uses up the packet. -/
theorem drainLoop_complete {bufSizeRead : Nat} {reads : List ReadOutcome} {remLen : Nat}
    {net : Network} (hgives : DrainGives bufSizeRead reads remLen)
    (hlength : remLen ≤ net.incoming.length) :
    drainLoop bufSizeRead reads remLen net = (true, net.consume remLen) := by
  induction reads generalizing remLen net with
  | nil => exact hgives.elim
  | cons outcome reads ih =>
      obtain ⟨hfirst, hrest⟩ := hgives
      have hread := Network.read_of_gives hfirst (Nat.le_trans (Nat.min_le_left _ _) hlength)
      rw [drainLoop, needReadLen_eq, hread]
      simp only [ne_eq, not_true_eq_false, if_false]
      split
      · next hdone => rw [show min remLen bufSizeRead = remLen by omega]
      · next hmore =>
          have hlater : DrainGives bufSizeRead reads (remLen - min remLen bufSizeRead) := by
            rw [Nat.min_eq_right (by omega)]
            exact hrest.resolve_left (by omega)
          rw [ih hlater (by simp [Network.consume]; omega), Network.consume_consume,
            show min remLen bufSizeRead + (remLen - min remLen bufSizeRead) = remLen by omega]

/-- A drain that misses a byte stops within the packet. -/
theorem drainLoop_cut {bufSizeRead : Nat} (hsize : 0 < bufSizeRead) {reads : List ReadOutcome}
    {remLen : Nat} (hremLen : 0 < remLen) {net : Network}
    (hcut : ¬ (DrainGives bufSizeRead reads remLen ∧ remLen ≤ net.incoming.length)) :
    ∃ count, count < remLen ∧
      drainLoop bufSizeRead reads remLen net = (false, net.consume count) := by
  induction reads generalizing remLen net with
  | nil => exact ⟨0, hremLen, by simp [drainLoop]⟩
  | cons outcome reads ih =>
      rw [drainLoop, needReadLen_eq]
      by_cases hfirst : outcome.Gives (min remLen bufSizeRead) ∧
          min remLen bufSizeRead ≤ net.incoming.length
      · rw [Network.read_of_gives hfirst.1 hfirst.2]
        simp only [ne_eq, not_true_eq_false, if_false]
        have hlater : ¬ remLen ≤ bufSizeRead := fun hlast =>
          hcut ⟨⟨hfirst.1, Or.inl hlast⟩, by omega⟩
        have hmin : min remLen bufSizeRead = bufSizeRead := by omega
        rw [hmin] at hfirst ⊢
        rw [if_neg (by omega)]
        have hrest : ¬ (DrainGives bufSizeRead reads (remLen - bufSizeRead) ∧
            remLen - bufSizeRead ≤ (net.consume bufSizeRead).incoming.length) := by
          rintro ⟨hgives, hlength⟩
          refine hcut ⟨⟨by rw [hmin]; exact hfirst.1, Or.inr hgives⟩, ?_⟩
          simp only [Network.consume, List.length_drop] at hlength
          omega
        obtain ⟨count, hcount, hdrain⟩ := ih (by omega) hrest
        exact ⟨bufSizeRead + count, by omega, by rw [hdrain, Network.consume_consume]⟩
      · rcases Network.read_of_not_gives hfirst with ⟨_, hread⟩ | ⟨count, _, hless, hread⟩
        · have hne : (-1 : Int) ≠ ((min remLen bufSizeRead : Nat) : Int) := by omega
          exact ⟨0, hremLen, by simp only [hread, if_pos hne, net.consume_zero]⟩
        · have hne : ((min count net.incoming.length : Nat) : Int) ≠
              ((min remLen bufSizeRead : Nat) : Int) := by omega
          exact ⟨min count net.incoming.length, by omega, by simp only [hread, if_pos hne]⟩

/-! ## What one call makes of the stream -/

/-- The client after its connection has handed out some more bytes. -/
def Client.consume (c : Client) (count : Nat) : Client :=
  { c with ipstack := c.ipstack.consume count }

/-- The header byte is read, and this is what the broker sends after it. -/
structure HeaderRead (c : Client) (env : ReadEnv) (header : UInt8) (rest : List UInt8) :
    Prop where
  mallocHeader : env.mallocHeader = true
  headerGives : env.headerRead.Gives 1
  stream : c.ipstack.incoming = header :: rest

/-- A whole length field is read behind the header byte. -/
structure LengthRead (c : Client) (env : ReadEnv) (header : UInt8) (field rest : List UInt8)
    (remLen : Nat) : Prop extends HeaderRead c env header (field ++ rest) where
  value : lengthValue field = some remLen
  fieldLength : field.length ≤ 4
  fieldGives : GiveBytes field.length env.lengthReads

/-- The packet is larger than the largest read buffer. -/
def Overflows (c : Client) (remLen : Nat) : Prop :=
  0 < remLen ∧ c.bufSizeReadMax < remLen + (1 + (mqttPacketEncode remLen).length)

/-- A whole packet is read into the read buffer. -/
structure PacketRead (c : Client) (env : ReadEnv) (header : UInt8)
    (field body rest : List UInt8) : Prop
    extends LengthRead c env header field (body ++ rest) body.length where
  mallocPacket : env.mallocPacket = true
  fits : ¬ Overflows c body.length
  bodyGives : 0 < body.length → (env.bodyReads.headD .fail).Gives body.length

/-- The four ways in which a call takes the start of a packet from the stream and
reports something other than a closed connection: a length field without an end,
no buffer for the body, a body read that falls short without failing, and a drain that
does not get all its bytes. -/
inductive CutsPacket (c : Client) (env : ReadEnv) : Prop
  | lengthTooLong {header : UInt8} {field rest : List UInt8}
      (hheader : HeaderRead c env header (field ++ rest))
      (hmore : ∀ byte ∈ field, ¬ byte < 128) (hfour : field.length = 4)
      (hgives : GiveBytes field.length env.lengthReads)
  | noBuffer {header : UInt8} {field rest : List UInt8} {remLen : Nat}
      (hlength : LengthRead c env header field rest remLen) (hbody : 0 < remLen)
      (hmalloc : env.mallocPacket = false)
  | bodyShort {header : UInt8} {field rest : List UInt8} {remLen count : Nat}
      (hlength : LengthRead c env header field rest remLen) (hmalloc : env.mallocPacket = true)
      (hfits : ¬ Overflows c remLen) (hread : env.bodyReads.headD .fail = .bytes count)
      (hshort : min count rest.length < remLen)
  | drainShort {header : UInt8} {field rest : List UInt8} {remLen : Nat}
      (hlength : LengthRead c env header field rest remLen) (hmalloc : env.mallocPacket = true)
      (hover : Overflows c remLen)
      (hshort : ¬ (DrainGives c.bufSizeReadMax env.bodyReads remLen ∧ remLen ≤ rest.length))

/-- What one call can make of the stream. -/
inductive Reading (c : Client) (env : ReadEnv) : ReadResult → Prop
  | idle {rc : Int} (hopen : rc ≠ stateSysDependNwkClose) : Reading c env ⟨rc, 0, [], c⟩
  | closed (count : Nat) : Reading c env ⟨stateSysDependNwkClose, 0, [], c.consume count⟩
  | cut {rc : Int} {count : Nat} (hcuts : CutsPacket c env) (hfailed : rc < stateSuccess)
      (hopen : rc ≠ stateSysDependNwkClose)
      (hincomplete : ¬ Framed WholePacket (c.ipstack.incoming.take count)) :
      Reading c env ⟨rc, 0, [], c.consume count⟩
  | skipped {rc : Int} {count : Nat} (calls : List ApiCall)
      (hwhole : WholePacket (c.ipstack.incoming.take count))
      (hopen : rc ≠ stateSysDependNwkClose) :
      Reading c env ⟨rc, 0, [], performCalls (c.consume count) calls⟩
  | packet {header : UInt8} {field body rest : List UInt8}
      (hpacket : PacketRead c env header field body rest) :
      Reading c env
        ⟨stateSuccess, mqttHeaderGetType header,
          header :: (mqttPacketEncode body.length ++ body),
          c.consume (1 + field.length + body.length)⟩

section Reading

variable {c : Client} {env : ReadEnv} {header : UInt8} {field rest : List UInt8} {remLen : Nat}

@[simp]
theorem Client.consume_zero (c : Client) : c.consume 0 = c := by
  rw [Client.consume, Network.consume_zero]

@[simp]
theorem Client.consume_consume (c : Client) (first second : Nat) :
    (c.consume first).consume second = c.consume (first + second) := by
  simp only [Client.consume, Network.consume_consume]

/-- Once the header byte is read, the decoder decides. -/
theorem iotxMcReadPacket_of_lengthReading {decoded : Except Int Nat} {count : Nat}
    (hheader : HeaderRead c env header rest) :
    LengthReading 4 env.lengthReads rest decoded count →
      iotxMcReadPacket c env =
        match decoded with
        | .error rc => ⟨rc, 0, [], c.consume (1 + count)⟩
        | .ok remLen => iotxMcReadRest (c.consume (1 + count)) header remLen env := by
  intro hreading
  have hread := Network.read_of_gives hheader.headerGives
    (by simp [hheader.stream] : 1 ≤ c.ipstack.incoming.length)
  have hincoming : (c.ipstack.consume 1).incoming = rest := by
    simp [Network.consume, hheader.stream]
  have hdecode := iotxMcDecodePacketLoop_of_reading (hincoming ▸ hreading :
    LengthReading 4 env.lengthReads (c.ipstack.consume 1).incoming decoded count) 1 0
  have hbuffer : allocRecvBuffer c 0 env.mallocHeader =
      .ok (if mqttDynbufRecvMargin + 0 > c.bufSizeReadMax then c.bufSizeReadMax
        else mqttDynbufRecvMargin + 0) := by
    rw [allocRecvBuffer, hheader.mallocHeader, if_pos rfl]
  have hone : ((1 : Nat) : Int) ≠ 0 ∧ ¬ ((1 : Nat) : Int) < stateSuccess := by decide
  rw [iotxMcReadPacket, hbuffer]
  simp only [hread, hone.1, hone.2, if_false, iotxMcDecodePacket, hdecode,
    Network.consume_consume, hheader.stream, List.take_succ_cons, List.headD_cons]
  cases decoded with
  | error rc => rfl
  | ok remLen =>
      simp only [Except.map, Nat.zero_add, Nat.mul_one]
      rfl

/-- Once the length field is read, the rest of the packet decides. -/
theorem iotxMcReadPacket_of_lengthRead (hlength : LengthRead c env header field rest remLen) :
    iotxMcReadPacket c env =
      iotxMcReadRest (c.consume (1 + field.length)) header remLen env :=
  iotxMcReadPacket_of_lengthReading hlength.toHeaderRead
    (.complete rfl hlength.value hlength.fieldLength hlength.fieldGives)

/-- What is left of the stream behind the length field. -/
theorem LengthRead.incoming (hlength : LengthRead c env header field rest remLen) :
    (c.consume (1 + field.length)).ipstack.incoming = rest := by
  simp [Client.consume, Network.consume, hlength.stream, Nat.add_comm 1]

/-- What is read up to a byte of the body. -/
theorem LengthRead.take (hlength : LengthRead c env header field rest remLen) (count : Nat) :
    c.ipstack.incoming.take (1 + field.length + count) =
      header :: (field ++ rest.take count) := by
  rw [hlength.stream, Nat.add_assoc, Nat.add_comm 1, List.take_succ_cons,
    List.take_length_add_append]

/-- The whole body behind the length field makes a whole packet. -/
theorem LengthRead.wholePacket (hlength : LengthRead c env header field rest remLen)
    (hbody : remLen ≤ rest.length) :
    WholePacket (c.ipstack.incoming.take (1 + field.length + remLen)) :=
  ⟨header, field, rest.take remLen, hlength.fieldLength,
    by rw [hlength.value, List.length_take, Nat.min_eq_left hbody], hlength.take remLen⟩

/-- A body that is not complete leaves a packet cut. -/
theorem LengthRead.not_framed (hlength : LengthRead c env header field rest remLen)
    (count : Nat) (hshort : (rest.take count).length < remLen) :
    ¬ Framed WholePacket (c.ipstack.incoming.take (1 + field.length + count)) := by
  rw [hlength.take count]
  have hmissing : List.replicate (remLen - (rest.take count).length) (0 : UInt8) ≠ [] := by
    rw [ne_eq, List.replicate_eq_nil_iff]
    omega
  refine wholePacket_selfDelimiting.not_framed_of_proper_prefix
    ⟨header, field, rest.take count ++ List.replicate (remLen - (rest.take count).length) 0,
      hlength.fieldLength, ?_, ?_⟩ (by simp) hmissing
  · rw [hlength.value, List.length_append, List.length_replicate,
      Nat.add_sub_cancel' (Nat.le_of_lt hshort)]
  · simp

/-- No length field lacks an end. -/
theorem lengthValue_eq_none (hmore : ∀ byte ∈ field, ¬ byte < 128) : lengthValue field = none := by
  induction field with
  | nil => rfl
  | cons byte field ih =>
      rw [lengthValue_cons_of_ge (hmore byte (by simp)),
        ih fun later hlater => hmore later (by simp [hlater])]
      rfl

/-- A length field that is still without its end leaves a packet cut. -/
theorem not_framed_of_more (hmore : ∀ byte ∈ field, ¬ byte < 128) :
    ¬ Framed WholePacket (header :: field) := by
  refine not_framed_of_no_head (by simp) fun piece later hpiece hsplit => ?_
  obtain ⟨_, lengthField, body, hshort, hvalue, rfl⟩ := hpiece
  rw [List.cons_append, List.cons.injEq, List.append_assoc] at hsplit
  have hnone : lengthValue lengthField = none := lengthValue_eq_none fun byte hbyte =>
    hmore byte (hsplit.2 ▸ List.mem_append_left _ hbyte)
  rw [hnone] at hvalue
  exact absurd hvalue (by simp)

/-- The size of the read buffer for a packet whose length is known. -/
theorem allocRecvBuffer_eq (hmalloc : env.mallocPacket = true) (len : Nat) :
    allocRecvBuffer c len env.mallocPacket =
      .ok (min (mqttDynbufRecvMargin + len) c.bufSizeReadMax) := by
  rw [allocRecvBuffer, hmalloc, if_pos rfl]
  congr 1
  split <;> omega

/-- A packet that overflows the read buffer is drained in pieces of its size. -/
theorem iotxMcReadRest_overflow {drained : Bool} {count : Nat} (hmalloc : env.mallocPacket = true)
    (hover : Overflows c remLen)
    (hdrain : drainLoop c.bufSizeReadMax env.bodyReads remLen c.ipstack =
      (drained, c.ipstack.consume count)) :
    iotxMcReadRest c header remLen env =
      if drained then ⟨stateSuccess, 0, [], performCalls (c.consume count) env.overflowCalls⟩
      else ⟨stateSysDependNwkReadError, 0, [], c.consume count⟩ := by
  obtain ⟨hpositive, hlarge⟩ := hover
  have hsize : min (mqttDynbufRecvMargin + (remLen + (1 + (mqttPacketEncode remLen).length)))
      c.bufSizeReadMax = c.bufSizeReadMax := by omega
  rw [iotxMcReadRest, allocRecvBuffer_eq hmalloc, hsize]
  simp only [hpositive, hlarge, decide_true, Bool.and_true, if_true, hdrain]
  rfl

/-- A packet that fits the read buffer is read in one piece. -/
theorem iotxMcReadRest_fits {rc : Int} {body : List UInt8} {count : Nat}
    (hmalloc : env.mallocPacket = true) (hfits : ¬ Overflows c remLen)
    (hread : c.ipstack.read remLen (env.bodyReads.headD .fail) =
      (rc, body, c.ipstack.consume count)) :
    iotxMcReadRest c header remLen env =
      if 0 < remLen ∧ rc < 0 then ⟨stateSysDependNwkClose, 0, [], c.consume count⟩
      else if 0 < remLen ∧ rc ≠ remLen then
        ⟨stateMqttPacketReadError, 0, [], c.consume count⟩
      else
        ⟨stateSuccess, mqttHeaderGetType header, header :: (mqttPacketEncode remLen ++ body),
          c.consume count⟩ := by
  have hroom : ¬ (0 < remLen ∧
      min (mqttDynbufRecvMargin + (remLen + (1 + (mqttPacketEncode remLen).length)))
        c.bufSizeReadMax < remLen + (1 + (mqttPacketEncode remLen).length)) := by
    rintro ⟨hpositive, hsmall⟩
    exact hfits ⟨hpositive, by omega⟩
  rw [iotxMcReadRest, allocRecvBuffer_eq hmalloc]
  dsimp only
  rw [if_neg (by simpa using hroom)]
  simp only [hread, Bool.and_eq_true, decide_eq_true_eq]
  rfl

/-- A call that cuts a packet reports an error other than a closed connection. -/
theorem CutsPacket.result (hcuts : CutsPacket c env) :
    ∃ rc count, rc < stateSuccess ∧ rc ≠ stateSysDependNwkClose ∧
      ¬ Framed WholePacket (c.ipstack.incoming.take count) ∧
      iotxMcReadPacket c env = ⟨rc, 0, [], c.consume count⟩ := by
  cases hcuts with
  | @lengthTooLong header field rest hheader hmore hfour hgives =>
      refine ⟨mqttpacketReadError, 1 + field.length, by decide, by decide, ?_, ?_⟩
      · rw [hheader.stream, Nat.add_comm 1, List.take_succ_cons, List.take_left]
        exact not_framed_of_more hmore
      · exact iotxMcReadPacket_of_lengthReading hheader (.tooLong rfl hmore hfour hgives)
  | @noBuffer header field rest remLen hlength hbody hmalloc =>
      refine ⟨stateSysDependMalloc, 1 + field.length, by decide, by decide, ?_, ?_⟩
      · exact hlength.not_framed 0 (by simpa using hbody)
      · rw [iotxMcReadPacket_of_lengthRead hlength, iotxMcReadRest, allocRecvBuffer, hmalloc]
        rfl
  | @bodyShort header field rest remLen count hlength hmalloc hfits hread hshort =>
      have hmisses : ¬ ((env.bodyReads.headD .fail).Gives remLen ∧
          remLen ≤ (c.consume (1 + field.length)).ipstack.incoming.length) := by
        rintro ⟨hgives, hall⟩
        rw [hread] at hgives
        have hcount : remLen ≤ count := hgives
        rw [hlength.incoming] at hall
        omega
      rcases Network.read_of_not_gives hmisses with ⟨hfail, _⟩ | ⟨given, _, hless, hbody⟩
      · exact absurd (hfail.symm.trans hread) (by simp)
      · rw [hlength.incoming] at hless hbody
        refine ⟨stateMqttPacketReadError, 1 + field.length + min given rest.length, by decide,
          by decide, hlength.not_framed _ (by simpa using hless), ?_⟩
        have hpositive : remLen > 0 := by omega
        have hne : ((min given rest.length : Nat) : Int) ≠ remLen := by omega
        rw [iotxMcReadPacket_of_lengthRead hlength,
          @iotxMcReadRest_fits (c.consume (1 + field.length)) _ _ _ _ _ _ hmalloc hfits hbody,
          if_neg (by simp), if_pos ⟨hpositive, hne⟩, Client.consume_consume]
  | @drainShort header field rest remLen hlength hmalloc hover hshort =>
      have hcut : ¬ (DrainGives c.bufSizeReadMax env.bodyReads remLen ∧
          remLen ≤ (c.consume (1 + field.length)).ipstack.incoming.length) := by
        rwa [hlength.incoming]
      obtain ⟨count, hcount, hdrain⟩ := drainLoop_cut c.bufSizeReadMax_pos hover.1 hcut
      have hlong : (rest.take count).length < remLen := by
        rw [List.length_take]
        omega
      refine ⟨stateSysDependNwkReadError, 1 + field.length + count, by decide, by decide,
        hlength.not_framed count hlong, ?_⟩
      rw [iotxMcReadPacket_of_lengthRead hlength,
        @iotxMcReadRest_overflow (c.consume (1 + field.length)) _ _ _ _ _ hmalloc hover hdrain,
        if_neg (by simp), Client.consume_consume]

/-- The result for a packet that is read whole. -/
theorem PacketRead.result {body : List UInt8} (hpacket : PacketRead c env header field body rest) :
    iotxMcReadPacket c env =
      ⟨stateSuccess, mqttHeaderGetType header,
        header :: (mqttPacketEncode body.length ++ body),
        c.consume (1 + field.length + body.length)⟩ := by
  have hincoming := hpacket.toLengthRead.incoming
  rw [iotxMcReadPacket_of_lengthRead hpacket.toLengthRead]
  by_cases hgives : (env.bodyReads.headD .fail).Gives body.length
  · have hall : body.length ≤ (c.consume (1 + field.length)).ipstack.incoming.length := by
      rw [hincoming]
      simp
    have hread := Network.read_of_gives hgives hall
    rw [@iotxMcReadRest_fits (c.consume (1 + field.length)) _ _ _ _ _ _ hpacket.mallocPacket
      hpacket.fits hread, if_neg (by omega), if_neg (by simp), hincoming, Client.consume_consume,
      List.take_left]
  · -- only an empty body can do without its read
    obtain rfl : body = [] := by
      by_contra hbody
      exact hgives (hpacket.bodyGives (List.length_pos_iff.mpr hbody))
    have hcut : ¬ ((env.bodyReads.headD .fail).Gives ([] : List UInt8).length ∧
        ([] : List UInt8).length ≤ (c.consume (1 + field.length)).ipstack.incoming.length) :=
      fun hboth => hgives hboth.1
    rcases Network.read_of_not_gives hcut with ⟨_, hread⟩ | ⟨count, _, hless, _⟩
    · have hfailed : (c.consume (1 + field.length)).ipstack.read ([] : List UInt8).length
          (env.bodyReads.headD .fail) =
            (-1, [], (c.consume (1 + field.length)).ipstack.consume 0) := by
        rw [hread, Network.consume_zero]
      rw [@iotxMcReadRest_fits (c.consume (1 + field.length)) _ _ _ _ _ _ hpacket.mallocPacket
        hpacket.fits hfailed, if_neg (by simp), if_neg (by simp), Client.consume_consume]
      rfl
    · exact absurd hless (Nat.not_lt_zero _)

/-- A length field of one byte tells the length of the body. -/
theorem PacketRead.length_body {body stream : List UInt8} {first byte : UInt8}
    (hpacket : PacketRead c env header field body rest)
    (hstream : c.ipstack.incoming = first :: byte :: stream) (hlast : byte < 128) :
    body.length = byte.toNat := by
  have hvalue := hpacket.value
  have hsplit := hpacket.stream
  rw [hstream, List.cons.injEq] at hsplit
  cases field with
  | nil => simp [lengthValue] at hvalue
  | cons digit field =>
      obtain rfl : byte = digit := (List.cons.inj hsplit.2).1
      rw [lengthValue_cons_of_lt hlast] at hvalue
      split at hvalue
      · exact (Option.some.inj hvalue).symm
      · exact absurd hvalue (by simp)

/-- What becomes of a packet that fits the read buffer and is not cut. -/
theorem reading_of_fits (hlength : LengthRead c env header field rest remLen)
    (hmalloc : env.mallocPacket = true) (hfits : ¬ Overflows c remLen)
    (hcuts : ¬ CutsPacket c env) : Reading c env (iotxMcReadPacket c env) := by
  have hincoming := hlength.incoming
  by_cases hcomplete : remLen ≤ rest.length ∧
      (0 < remLen → (env.bodyReads.headD .fail).Gives remLen)
  · have hbody : (rest.take remLen).length = remLen := by
      rw [List.length_take, Nat.min_eq_left hcomplete.1]
    have hpacket : PacketRead c env header field (rest.take remLen) (rest.drop remLen) := by
      constructor
      · rw [List.take_append_drop, hbody]
        exact hlength
      · exact hmalloc
      · rwa [hbody]
      · rw [hbody]
        exact hcomplete.2
    exact hpacket.result ▸ .packet hpacket
  · have hmisses : ¬ ((env.bodyReads.headD .fail).Gives remLen ∧
        remLen ≤ (c.consume (1 + field.length)).ipstack.incoming.length) := by
      rw [hincoming]
      exact fun hboth => hcomplete ⟨hboth.2, fun _ => hboth.1⟩
    have hpositive : 0 < remLen := by
      by_contra hzero
      exact hcomplete ⟨by omega, fun hpos => absurd hpos hzero⟩
    rcases Network.read_of_not_gives hmisses with ⟨_, hread⟩ | ⟨count, hbytes, hless, _⟩
    · have hfailed : (c.consume (1 + field.length)).ipstack.read remLen
          (env.bodyReads.headD .fail) =
            (-1, [], (c.consume (1 + field.length)).ipstack.consume 0) := by
        rw [hread, Network.consume_zero]
      rw [iotxMcReadPacket_of_lengthRead hlength,
        @iotxMcReadRest_fits (c.consume (1 + field.length)) _ _ _ _ _ _ hmalloc hfits hfailed,
        if_pos ⟨hpositive, by decide⟩, Client.consume_zero]
      exact .closed (1 + field.length)
    · rw [hincoming] at hless
      exact absurd (.bodyShort hlength hmalloc hfits hbytes hless) hcuts

/-- What becomes of a packet whose length field is read and that is not cut. -/
theorem reading_of_length (hlength : LengthRead c env header field rest remLen)
    (hcuts : ¬ CutsPacket c env) : Reading c env (iotxMcReadPacket c env) := by
  rw [iotxMcReadPacket_of_lengthRead hlength]
  cases hmalloc : env.mallocPacket with
  | false =>
      have hempty : remLen = 0 := by
        by_contra hbody
        exact hcuts (.noBuffer hlength (Nat.pos_of_ne_zero hbody) hmalloc)
      have hwhole := hlength.wholePacket (by simp [hempty] : remLen ≤ rest.length)
      rw [iotxMcReadRest, allocRecvBuffer, hmalloc]
      rw [hempty, Nat.add_zero] at hwhole
      exact .skipped [] hwhole (by decide)
  | true =>
      by_cases hover : Overflows c remLen
      · have hdrain : DrainGives c.bufSizeReadMax env.bodyReads remLen ∧ remLen ≤ rest.length := by
          by_contra hshort
          exact hcuts (.drainShort hlength hmalloc hover hshort)
        have hcomplete := drainLoop_complete hdrain.1
          (hlength.incoming.symm ▸ hdrain.2 :
            remLen ≤ (c.consume (1 + field.length)).ipstack.incoming.length)
        rw [@iotxMcReadRest_overflow (c.consume (1 + field.length)) _ _ _ _ _ hmalloc hover
          hcomplete, if_pos rfl, Client.consume_consume]
        exact .skipped env.overflowCalls (hlength.wholePacket hdrain.2) (by decide)
      · rw [← iotxMcReadPacket_of_lengthRead hlength]
        exact reading_of_fits hlength hmalloc hover hcuts

/-- What becomes of a packet whose header byte is read and that is not cut. -/
theorem reading_of_header (hheader : HeaderRead c env header rest)
    (hcuts : ¬ CutsPacket c env) : Reading c env (iotxMcReadPacket c env) := by
  obtain ⟨decoded, count, hreading⟩ := exists_lengthReading 4 env.lengthReads rest
  have hresult := iotxMcReadPacket_of_lengthReading hheader hreading
  cases hreading with
  | @complete field later length hsplit hvalue hshort hgives =>
      subst hsplit
      exact reading_of_length ⟨hheader, hvalue, hshort, hgives⟩ hcuts
  | @tooLong field later hsplit hmore hfour hgives =>
      subst hsplit
      exact absurd (.lengthTooLong hheader hmore hfour hgives) hcuts
  | interrupted => exact hresult ▸ .closed _

/-- Every call makes one of these things of the stream. -/
theorem iotxMcReadPacket_reading (c : Client) (env : ReadEnv) :
    Reading c env (iotxMcReadPacket c env) := by
  by_cases hcuts : CutsPacket c env
  · obtain ⟨rc, count, hfailed, hopen, hincomplete, hresult⟩ := hcuts.result
    exact hresult ▸ .cut hcuts hfailed hopen hincomplete
  cases hmalloc : env.mallocHeader with
  | false =>
      rw [iotxMcReadPacket, allocRecvBuffer, hmalloc]
      exact .idle (by decide)
  | true =>
      by_cases hgives : env.headerRead.Gives 1 ∧ 1 ≤ c.ipstack.incoming.length
      · obtain ⟨header, rest, hstream⟩ :=
          List.exists_cons_of_length_pos (Nat.lt_of_succ_le hgives.2)
        have hheader : HeaderRead c env header rest := ⟨hmalloc, hgives.1, hstream⟩
        exact reading_of_header hheader hcuts
      · rw [iotxMcReadPacket, allocRecvBuffer, hmalloc, if_pos rfl]
        rcases Network.read_of_not_gives hgives with ⟨_, hread⟩ | ⟨count, _, hless, hread⟩
        · have hclosed := @Reading.closed c env 0
          rw [Client.consume_zero] at hclosed
          rw [hread]
          exact hclosed
        · have hzero : min count c.ipstack.incoming.length = 0 := Nat.lt_one_iff.mp hless
          rw [hread, hzero, Network.consume_zero]
          exact .idle (by decide)

end Reading

end EnosDeviceSdk.Mqtt
