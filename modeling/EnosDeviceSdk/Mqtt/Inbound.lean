/-
# The incoming stream is read in whole packets

A client that is connected should have read a whole number of packets since its
connection was made; otherwise a later cycle takes the middle of a packet for a fixed
header. `iotx_mc_cycle` gives up the connection when a read fails, but not when
`iotx_mc_read_packet` reports another error, and four of its exits report one with a
packet half read. The property holds throughout a session exactly when no cycle takes
one of these exits.
-/

import EnosDeviceSdk.Mqtt.SessionSteps

namespace EnosDeviceSdk.Mqtt

open EnosDeviceSdk.Infra EnosDeviceSdk.Library

/-- What a connected client has read of its connection is whole packets. -/
def InboundFramed (c : Client) : Prop :=
  c.clientState = .connected → Framed WholePacket c.ipstack.consumed

/-- The step is not a cycle of a connected client that cuts a packet. -/
def CutsNoPacket (c : Client) : SessionAction → Prop
  | .cycle env =>
      ¬ (c.clientState = .connected ∧ c.keepaliveProbes ≤ iotxMcKeepaliveProbeMax ∧
        CutsPacket c env.read)
  | _ => True

/-- What leaves the reading side alone keeps the property. -/
theorem NetFrame.inboundFramed {c after : Client} (hframe : NetFrame c after)
    (hframed : InboundFramed c) : InboundFramed after := by
  intro hconnected
  rw [hframe.consumed]
  exact hframed (hframe.connected hconnected)

theorem Renewed.inboundFramed {c after : Client} (hrenewed : Renewed c after) :
    InboundFramed after := fun hconnected => (hrenewed.clean hconnected).consumed

/-- Reading whole packets keeps the property. -/
theorem inboundFramed_consume {c : Client} {count : Nat} (hframed : InboundFramed c)
    (hwhole : Framed WholePacket (c.ipstack.incoming.take count)) :
    InboundFramed (c.consume count) := fun hconnected => (hframed hconnected).append hwhole

/-- A cycle that cuts no packet keeps the property. -/
theorem inboundFramed_cycle {c : Client} {env : CycleEnv} (hframed : InboundFramed c)
    (hkeeps : CutsNoPacket c (.cycle env)) : InboundFramed (iotxMcCycle c env).2 := by
  have houtcome := iotxMcCycle_outcome c env
  generalize (iotxMcCycle c env).2 = after at houtcome ⊢
  cases houtcome with
  | unread hsends => exact hsends.toNetFrame.inboundFramed hframed
  | unhandled hconnected hprobes hsends hread =>
      intro hstill
      have hcuts : ¬ CutsPacket c env.read := fun hcuts => hkeeps ⟨hconnected, hprobes, hcuts⟩
      have hwhole := (hread hstill).resolve_right hcuts
      exact hsends.toNetFrame.inboundFramed (inboundFramed_consume hframed hwhole) hstill
  | handled hpacket =>
      have hwhole := framed_of_frame (hpacket.toLengthRead.wholePacket (by simp))
      have hconsumed := inboundFramed_consume hframed hwhole
      exact (netFrame_dispatch _ _ _ env).inboundFramed hconsumed

/-- A step keeps the property exactly when it cuts no packet. -/
theorem inboundFramed_sessionStep {c : Client} (hframed : InboundFramed c)
    (action : SessionAction) :
    InboundFramed (sessionStep c action) ↔ CutsNoPacket c action := by
  cases action with
  | connect attempts env =>
      refine iff_of_true ?_ trivial
      rw [sessionStep]
      split
      · next hinitialized =>
          exact (wrapperMqttConnect_renewed (by simp [hinitialized]) attempts env).inboundFramed
      · exact hframed
  | call call =>
      exact iff_of_true ((sendsWhole_performCall c call).toNetFrame.inboundFramed hframed) trivial
  | keepalive env =>
      refine iff_of_true ?_ trivial
      exact (iotxMcKeepalive_cases c env).elim
        (fun hsends => hsends.toNetFrame.inboundFramed hframed) Renewed.inboundFramed
  | cycle env =>
      refine ⟨?_, inboundFramed_cycle hframed⟩
      rintro hafter ⟨hconnected, hprobes, hcuts⟩
      obtain ⟨count, hcycle, hincomplete⟩ := iotxMcCycle_of_cutsPacket hconnected hprobes hcuts
      rw [sessionStep, hcycle] at hafter
      exact hincomplete ((wholePacket_selfDelimiting.framed_append_iff (hframed hconnected)).mp
        (hafter hconnected))
  | pubInfoProc env =>
      exact iff_of_true ((sendsWhole_pubInfoProc c env).toNetFrame.inboundFramed hframed) trivial
  | disconnect env => exact iff_of_true (fun hconnected => nomatch hconnected) trivial

/-- In every session from a client that has been set up: the client has read whole
packets whenever it is connected exactly when no cycle of a connected client cuts
a packet. -/
theorem inbound_framed_iff (params : MqttParam) (actions : List SessionAction) :
    Always sessionStep InboundFramed (iotxMcInit params) actions ↔
      StepsMeet sessionStep CutsNoPacket (iotxMcInit params) actions :=
  @always_iff_stepsMeet _ _ sessionStep (fun _ => True) InboundFramed CutsNoPacket
    (fun _ _ _ => trivial) (fun _ action _ hframed => inboundFramed_sessionStep hframed action)
    (iotxMcInit params) trivial (by simp [InboundFramed, iotxMcInit]) actions

/-- A QoS 0 PUBLISH with topic `a` and payload `x`, whose body is read in two bytes of
four, leaves the client connected in the middle of the packet. -/
theorem inbound_short_body :
    ¬ Always sessionStep InboundFramed plainClient
      [plainConnect (plainConnack ++ [0x30, 4, 0, 1, 97, 120]),
        .cycle { plainCycleEnv with read := { plainReadEnv with bodyReads := [.bytes 2] } }] := by
  intro halways
  have hconnected : (runFrom sessionStep plainClient
      [plainConnect (plainConnack ++ [0x30, 4, 0, 1, 97, 120]),
        .cycle { plainCycleEnv with
          read := { plainReadEnv with bodyReads := [.bytes 2] } }]).clientState = .connected := by
    decide
  have hconsumed : (runFrom sessionStep plainClient
      [plainConnect (plainConnack ++ [0x30, 4, 0, 1, 97, 120]),
        .cycle { plainCycleEnv with
          read := { plainReadEnv with bodyReads := [.bytes 2] } }]).ipstack.consumed =
        plainConnack ++ [0x30, 4, 0, 1] := by
    decide
  have hframed := halways.finish hconnected
  have hconnack : Framed WholePacket plainConnack :=
    framed_of_frame ⟨0x20, [2], [0, 0], by decide, by decide, rfl⟩
  rw [hconsumed, wholePacket_selfDelimiting.framed_append_iff hconnack] at hframed
  exact wholePacket_selfDelimiting.not_framed_of_proper_prefix
    ⟨0x30, [4], [0, 1, 97, 120], by decide, by decide, rfl⟩ (by simp) (by simp) hframed

end EnosDeviceSdk.Mqtt
