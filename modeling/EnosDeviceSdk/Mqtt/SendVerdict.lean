/-
# The verdict of the packet writer

`iotx_mc_send_packet` writes until everything is accepted, the timer expires or a write fails. The
model takes the timer for expired where the turns of the environment run out, so that every front
of a longer history is a run, too. At every point the transport has a front of the packet, the
verdict says whether this is the whole packet, and turns behind the end of the loop do not matter.
-/

import EnosDeviceSdk.Mqtt.Transport

namespace EnosDeviceSdk.Mqtt

open EnosDeviceSdk.Infra

/-- A turn at which the loop goes on: the timer is not expired, and the write does not fail. -/
def WriteStep.GoesOn (time : UInt32) (step : WriteStep) : Prop :=
  utilsTimeIsExpired step.now time = false ∧ step.outcome ≠ .fail

/-- The loop has ended within the turns: the packet is complete, or there is a turn at which the
loop does not go on. -/
def SendEnded (buf : List UInt8) (time : UInt32) (steps : List WriteStep) : Prop :=
  bytesAccepted time steps buf.length = buf.length ∨ ∃ step ∈ steps, ¬step.GoesOn time

/-- What the writer promises of its run through the turns. -/
structure SendVerdict (net : Network) (buf : List UInt8) (time : UInt32)
    (steps : List WriteStep) : Prop where
  front : ∃ sent ≤ buf.length,
    (iotxMcSendPacket net buf time steps).2 =
        { net with accepted := net.accepted ++ buf.take sent } ∧
      ((iotxMcSendPacket net buf time steps).1 = stateSuccess ↔ sent = buf.length) ∧
      ((iotxMcSendPacket net buf time steps).1 = stateSysDependNwkClose ↔ sent ≠ buf.length)
  ended : SendEnded buf time steps → ∀ more,
    iotxMcSendPacket net buf time (steps ++ more) = iotxMcSendPacket net buf time steps

/-- A packet that is complete has nothing to write. -/
theorem bytesAccepted_zero (time : UInt32) (steps : List WriteStep) :
    bytesAccepted time steps 0 = 0 :=
  Nat.le_zero.mp (bytesAccepted_le time steps 0)

/-- Behind the end of the loop nothing more is accepted. -/
theorem bytesAccepted_append {time : UInt32} {steps : List WriteStep} {length : Nat}
    (hended : bytesAccepted time steps length = length ∨ ∃ step ∈ steps, ¬step.GoesOn time)
    (more : List WriteStep) :
    bytesAccepted time (steps ++ more) length = bytesAccepted time steps length := by
  induction steps generalizing length with
  | nil =>
      rcases hended with hcomplete | ⟨step, hstep, -⟩
      · obtain rfl : 0 = length := hcomplete
        exact bytesAccepted_zero time more
      · exact absurd hstep List.not_mem_nil
  | cons step steps ih =>
      rw [List.cons_append, bytesAccepted, bytesAccepted]
      rw [bytesAccepted] at hended
      by_cases hstop : (length = 0 || utilsTimeIsExpired step.now time) = true
      · rw [if_pos hstop, if_pos hstop]
      · rw [if_neg hstop] at hended ⊢
        rw [if_neg hstop]
        cases houtcome : step.outcome with
        | fail => rfl
        | accept count =>
            rw [houtcome] at hended
            dsimp only at hended ⊢
            have hgoes : step.GoesOn time := by
              refine ⟨?_, by rw [houtcome]; simp⟩
              rw [Bool.or_eq_true, not_or, Bool.not_eq_true, Bool.not_eq_true] at hstop
              exact hstop.2
            have hrest : bytesAccepted time steps (length - min count length) =
                length - min count length ∨ ∃ step ∈ steps, ¬step.GoesOn time := by
              rcases hended with hcomplete | ⟨other, hother, hends⟩
              · exact Or.inl (by omega)
              · rcases List.mem_cons.mp hother with rfl | hlater
                · exact absurd hgoes hends
                · exact Or.inr ⟨other, hlater, hends⟩
            rw [ih hrest]

/-- The writer keeps its promise on every packet and in every run. -/
theorem iotxMcSendPacket_verdict (net : Network) (buf : List UInt8) (time : UInt32)
    (steps : List WriteStep) : SendVerdict net buf time steps where
  front := by
    refine ⟨bytesAccepted time steps buf.length, bytesAccepted_le time steps buf.length, ?_⟩
    rw [iotxMcSendPacket_eq]
    have hcodes : stateSuccess ≠ stateSysDependNwkClose := by decide
    by_cases hcomplete : bytesAccepted time steps buf.length = buf.length
    · simp [hcomplete, hcodes]
    · simp [hcomplete, hcodes.symm]
  ended := by
    intro hended more
    rw [iotxMcSendPacket_eq, iotxMcSendPacket_eq, bytesAccepted_append hended more]

end EnosDeviceSdk.Mqtt
