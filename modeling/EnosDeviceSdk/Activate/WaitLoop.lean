/-
# Waiting for the device secret

After its connect the dynamic activation yields until the secret has arrived or fifteen seconds have
passed. The elapsed time is subtracted the wrong way round: once the clock has moved on, the
difference of the unsigned numbers wraps, and the loop takes the wait for over.

So the loop waits as it is meant to just as long as the clock stands still, or jumps over the whole
timeout at once.
-/

import EnosDeviceSdk.Infra.State

namespace EnosDeviceSdk.Activate

open EnosDeviceSdk.Infra

/-- `STATE_MQTT_DYNAMIC_ACTIVATE_FAIL_RESP` -/
def stateMqttDynamicActivateFailResp : Int := -0x0300 - 0x002A

/-- `MQTT_DYNAMIC_ACTIVATE_TIMEOUT_MS` -/
def mqttDynamicActivateTimeoutMs : UInt64 := 15 * 1000

/-- A turn of the loop: what the clock shows, and whether the secret arrives while the turn
yields. -/
structure Turn where
  timenow : UInt64
  arrives : Bool
  deriving DecidableEq

/-- How far the loop has come: the number of its yields, and in the end whether it has the
secret. -/
inductive Waiting
  | going (yields : Nat)
  | ended (yields : Nat) (arrived : Bool)
  deriving DecidableEq

/-- The wait loop of `_mqtt_dynamic_activate`. -/
def waitLoop (timestart : UInt64) (yields : Nat) : List Turn → Waiting
  | [] => .going yields
  | turn :: turns =>
      let timestart := if turn.timenow < timestart then turn.timenow else timestart
      if timestart - turn.timenow ≥ mqttDynamicActivateTimeoutMs then .ended yields false
      else if turn.arrives then .ended (yields + 1) true
      else waitLoop timestart (yields + 1) turns

/-- What `_mqtt_dynamic_activate` returns behind the loop. -/
def Waiting.result : Waiting → Option Int
  | .going _ => none
  | .ended _ arrived => some (if arrived then stateSuccess else stateMqttDynamicActivateFailResp)

/-- The wait loop as it is meant: it yields until the secret has arrived or the timeout has
elapsed since the start, and then it stops. -/
def waitAsMeant (timestart : UInt64) (yields : Nat) : List Turn → Waiting
  | [] => .going yields
  | turn :: turns =>
      if timestart.toNat + mqttDynamicActivateTimeoutMs.toNat ≤ turn.timenow.toNat then
        .ended yields false
      else if turn.arrives then .ended (yields + 1) true
      else waitAsMeant timestart (yields + 1) turns

/-! ## What the loop is meant to do -/

/-- The timeout has not elapsed at the turn. -/
def Turn.Timely (timestart : UInt64) (turn : Turn) : Prop :=
  turn.timenow.toNat < timestart.toNat + mqttDynamicActivateTimeoutMs.toNat

/-- The secret has not arrived, and the timeout has not elapsed. -/
def Turn.Waits (timestart : UInt64) (turn : Turn) : Prop :=
  turn.Timely timestart ∧ turn.arrives = false

theorem waitAsMeant_of_waits {timestart : UInt64} {turns : List Turn}
    (hwaits : ∀ turn ∈ turns, turn.Waits timestart) (yields : Nat) (more : List Turn) :
    waitAsMeant timestart yields (turns ++ more) =
      waitAsMeant timestart (yields + turns.length) more := by
  induction turns generalizing yields with
  | nil => rfl
  | cons turn turns ih =>
      rw [List.forall_mem_cons] at hwaits
      obtain ⟨⟨htimely, harrives⟩, hrest⟩ := hwaits
      rw [List.cons_append, waitAsMeant, if_neg (Nat.not_le.mpr htimely), harrives,
        if_neg Bool.false_ne_true, ih hrest, List.length_cons, Nat.add_assoc, Nat.add_comm 1]

/-- A secret that arrives before the timeout is returned. -/
theorem waitAsMeant_arrives {timestart : UInt64} {turns more : List Turn} {turn : Turn}
    (hwaits : ∀ turn ∈ turns, turn.Waits timestart) (htimely : turn.Timely timestart)
    (harrives : turn.arrives = true) :
    waitAsMeant timestart 0 (turns ++ turn :: more) = .ended (turns.length + 1) true := by
  rw [waitAsMeant_of_waits hwaits, waitAsMeant, if_neg (Nat.not_le.mpr htimely), if_pos harrives,
    Nat.zero_add]

/-- At the timeout the loop stops without another yield. -/
theorem waitAsMeant_timeout {timestart : UInt64} {turns more : List Turn} {turn : Turn}
    (hwaits : ∀ turn ∈ turns, turn.Waits timestart) (htimeout : ¬turn.Timely timestart) :
    waitAsMeant timestart 0 (turns ++ turn :: more) = .ended turns.length false := by
  rw [waitAsMeant_of_waits hwaits, waitAsMeant, if_pos (Nat.not_lt.mp htimeout), Nat.zero_add]

/-! ## What the loop does -/

/-- The clock has not gone back. -/
def Forward (timestart : UInt64) (turns : List Turn) : Prop :=
  (timestart :: turns.map Turn.timenow).Pairwise (· ≤ ·)

/-- The turn's reading is the one of the start, or it is behind the timeout and not almost 2^64
milliseconds away. -/
def Turn.Clear (timestart : UInt64) (turn : Turn) : Prop :=
  turn.timenow = timestart ∨
    ¬turn.Timely timestart ∧
      turn.timenow.toNat - timestart.toNat ≤ 2 ^ 64 - mqttDynamicActivateTimeoutMs.toNat

/-- The loop's test on a clock that has not gone back. -/
theorem test_iff {timestart timenow : UInt64} (hforward : timestart ≤ timenow) :
    timestart - timenow ≥ mqttDynamicActivateTimeoutMs ↔
      timestart ≠ timenow ∧
        timenow.toNat - timestart.toNat ≤ 2 ^ 64 - mqttDynamicActivateTimeoutMs.toNat := by
  have htimeout : mqttDynamicActivateTimeoutMs.toNat = 15000 := by decide
  have hle := UInt64.le_iff_toNat_le.mp hforward
  have hlarge := timenow.toNat_lt
  rw [ge_iff_le, UInt64.le_iff_toNat_le, UInt64.toNat_sub, htimeout, ne_eq, ← UInt64.toNat_inj]
  omega

/-- At a turn the loop's test is the one that is meant just if the turn's reading is clear. -/
theorem test_as_meant_iff {timestart : UInt64} {turn : Turn}
    (hforward : timestart ≤ turn.timenow) :
    (timestart - turn.timenow ≥ mqttDynamicActivateTimeoutMs ↔ ¬turn.Timely timestart) ↔
      turn.Clear timestart := by
  have htimeout : mqttDynamicActivateTimeoutMs.toNat = 15000 := by decide
  have hle := UInt64.le_iff_toNat_le.mp hforward
  rw [test_iff hforward, Turn.Clear, Turn.Timely, ne_eq, ← UInt64.toNat_inj, ← UInt64.toNat_inj,
    htimeout]
  omega

/-- The number of yields does not fall. -/
theorem waitLoop_yields_ge {timestart : UInt64} {turns : List Turn} {yields count : Nat}
    {arrived : Bool} (hended : waitLoop timestart yields turns = .ended count arrived) :
    yields ≤ count := by
  induction turns generalizing timestart yields with
  | nil => exact nomatch hended
  | cons turn turns ih =>
      rw [waitLoop] at hended
      generalize (if turn.timenow < timestart then turn.timenow else timestart) = start at hended
      split at hended
      · exact Nat.le_of_eq (Waiting.ended.inj hended).1
      · split at hended
        · exact Nat.le_trans (Nat.le_succ yields) (Nat.le_of_eq (Waiting.ended.inj hended).1)
        · exact Nat.le_trans (Nat.le_succ yields) (ih hended)

theorem waitAsMeant_yields_ge {timestart : UInt64} {turns : List Turn} {yields count : Nat}
    {arrived : Bool} (hended : waitAsMeant timestart yields turns = .ended count arrived) :
    yields ≤ count := by
  induction turns generalizing yields with
  | nil => exact nomatch hended
  | cons turn turns ih =>
      rw [waitAsMeant] at hended
      split at hended
      · exact Nat.le_of_eq (Waiting.ended.inj hended).1
      · split at hended
        · exact Nat.le_trans (Nat.le_succ yields) (Nat.le_of_eq (Waiting.ended.inj hended).1)
        · exact Nat.le_trans (Nat.le_succ yields) (ih hended)

/-- Every turn that the loop is meant to come to has a clear reading. -/
def AlwaysClear (timestart : UInt64) (turns : List Turn) : Prop :=
  ∀ before turn after, turns = before ++ turn :: after →
    (∀ earlier ∈ before, earlier.Waits timestart) → turn.Clear timestart

theorem alwaysClear_cons_iff {timestart : UInt64} {turn : Turn} {turns : List Turn} :
    AlwaysClear timestart (turn :: turns) ↔
      turn.Clear timestart ∧ (turn.Waits timestart → AlwaysClear timestart turns) := by
  constructor
  · intro hclear
    refine ⟨hclear [] turn turns rfl (List.forall_mem_nil _), fun hwaits => ?_⟩
    intro before later after hturns hbefore
    refine hclear (turn :: before) later after (by rw [hturns]; rfl) ?_
    rw [List.forall_mem_cons]
    exact ⟨hwaits, hbefore⟩
  · rintro ⟨hfirst, hrest⟩ before later after hturns hbefore
    cases before with
    | nil =>
        obtain ⟨rfl, -⟩ := List.cons.inj hturns
        exact hfirst
    | cons earlier before =>
        obtain ⟨rfl, hothers⟩ := List.cons.inj hturns
        rw [List.forall_mem_cons] at hbefore
        exact hrest hbefore.1 before later after hothers hbefore.2

/-- The loop does what it is meant to do, just if every turn that it is meant to come to has a
clear reading. -/
theorem waitLoop_as_meant_iff {timestart : UInt64} {turns : List Turn}
    (hforward : Forward timestart turns) (yields : Nat) :
    waitLoop timestart yields turns = waitAsMeant timestart yields turns ↔
      AlwaysClear timestart turns := by
  induction turns generalizing yields with
  | nil =>
      refine iff_of_true rfl fun before turn after hturns _ => ?_
      exact absurd hturns (by simp)
  | cons turn turns ih =>
      rw [Forward, List.map_cons, List.pairwise_cons, List.forall_mem_cons] at hforward
      obtain ⟨⟨hfirst, hlater⟩, hothers⟩ := hforward
      have hstill : (if turn.timenow < timestart then turn.timenow else timestart) = timestart :=
        if_neg (UInt64.not_lt.mpr hfirst)
      have hrest := @ih (List.pairwise_cons.mpr ⟨hlater, (List.pairwise_cons.mp hothers).2⟩)
        (yields + 1)
      rw [alwaysClear_cons_iff, ← test_as_meant_iff hfirst, waitLoop, waitAsMeant, hstill]
      by_cases htest : timestart - turn.timenow ≥ mqttDynamicActivateTimeoutMs
      · rw [if_pos htest]
        by_cases htimely : turn.Timely timestart
        · -- the loop stops too early
          rw [if_neg (Nat.not_le.mpr htimely)]
          refine iff_of_false (fun hsame => ?_) fun hclear => hclear.1.mp htest htimely
          split at hsame
          · exact absurd (Waiting.ended.inj hsame).1 (Nat.ne_of_lt (Nat.lt_succ_self yields))
          · exact absurd (waitAsMeant_yields_ge hsame.symm) (Nat.not_succ_le_self yields)
        · rw [if_pos (Nat.not_lt.mp htimely)]
          exact iff_of_true rfl ⟨iff_of_true htest htimely, fun hwaits => absurd hwaits.1 htimely⟩
      · rw [if_neg htest]
        by_cases htimely : turn.Timely timestart
        · rw [if_neg (Nat.not_le.mpr htimely)]
          have hagrees : timestart - turn.timenow ≥ mqttDynamicActivateTimeoutMs ↔
              ¬turn.Timely timestart := iff_of_false htest fun hnot => hnot htimely
          cases harrives : turn.arrives with
          | true =>
              refine iff_of_true rfl ⟨hagrees, fun hwaits => ?_⟩
              exact absurd (harrives.symm.trans hwaits.2) (by decide)
          | false =>
              rw [if_neg Bool.false_ne_true, if_neg Bool.false_ne_true, hrest]
              exact ⟨fun hclear => ⟨hagrees, fun _ => hclear⟩,
                fun hboth => hboth.2 ⟨htimely, harrives⟩⟩
        · -- almost 2^64 milliseconds later the difference has come round again
          rw [if_pos (Nat.not_lt.mp htimely)]
          refine iff_of_false (fun hsame => ?_) fun hclear => htest (hclear.1.mpr htimely)
          split at hsame
          · exact absurd (Waiting.ended.inj hsame).1 (Nat.ne_of_gt (Nat.lt_succ_self yields))
          · exact absurd (waitLoop_yields_ge hsame) (Nat.not_succ_le_self yields)

/-- From its start the loop waits as it is meant to just if every turn that it is meant to come to
has a clear reading. -/
theorem waitLoop_waits_iff {timestart : UInt64} {turns : List Turn}
    (hforward : Forward timestart turns) :
    waitLoop timestart 0 turns = waitAsMeant timestart 0 turns ↔ AlwaysClear timestart turns :=
  waitLoop_as_meant_iff hforward 0

/-- With clear readings a secret that arrives before the timeout is returned. -/
theorem waitLoop_returns {timestart : UInt64} {before after : List Turn} {turn : Turn}
    (hforward : Forward timestart (before ++ turn :: after))
    (hclear : AlwaysClear timestart (before ++ turn :: after))
    (hwaits : ∀ earlier ∈ before, earlier.Waits timestart) (htimely : turn.Timely timestart)
    (harrives : turn.arrives = true) :
    (waitLoop timestart 0 (before ++ turn :: after)).result = some stateSuccess := by
  rw [(waitLoop_as_meant_iff hforward 0).mpr hclear, waitAsMeant_arrives hwaits htimely harrives]
  rfl

/-- With clear readings it stops at the timeout without another yield. -/
theorem waitLoop_stops {timestart : UInt64} {before after : List Turn} {turn : Turn}
    (hforward : Forward timestart (before ++ turn :: after))
    (hclear : AlwaysClear timestart (before ++ turn :: after))
    (hwaits : ∀ earlier ∈ before, earlier.Waits timestart) (htimeout : ¬turn.Timely timestart) :
    waitLoop timestart 0 (before ++ turn :: after) = .ended before.length false := by
  rw [(waitLoop_as_meant_iff hforward 0).mpr hclear, waitAsMeant_timeout hwaits htimeout]

/-- The clock stands still for a turn and then jumps over the timeout. -/
theorem waitLoop_still :
    waitLoop 1000 0 [⟨1000, false⟩, ⟨16000, false⟩] =
      waitAsMeant 1000 0 [⟨1000, false⟩, ⟨16000, false⟩] := by
  have hforward : Forward 1000 [⟨1000, false⟩, ⟨16000, false⟩] := by
    simp only [Forward, List.map_cons, List.map_nil]
    decide
  apply (waitLoop_waits_iff hforward).mpr
  rw [alwaysClear_cons_iff, alwaysClear_cons_iff]
  refine ⟨Or.inl rfl, fun _ => ⟨Or.inr ?_, fun hwaits => ?_⟩⟩
  · unfold Turn.Timely
    decide
  · exact absurd hwaits.1 (by unfold Turn.Timely; decide)

/-- A millisecond after the start the loop gives up, with the secret to arrive in that turn. -/
theorem waitLoop_gives_up :
    Forward 1000 [⟨1001, true⟩] ∧ waitLoop 1000 0 [⟨1001, true⟩] = .ended 0 false ∧
      waitAsMeant 1000 0 [⟨1001, true⟩] = .ended 1 true := by
  refine ⟨?_, by decide, by decide⟩
  simp only [Forward, List.map_cons, List.map_nil]
  decide

end EnosDeviceSdk.Activate
