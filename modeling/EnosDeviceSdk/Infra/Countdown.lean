/-
# Countdowns across the wrap

A timer is set to a deadline less than 2^31 - 1 milliseconds ahead. The true time is a natural
number, and a clock reading shows it modulo 2^32. As long as the deadline is less than 2^31 - 1
milliseconds ago, the expiry test is right wherever the clock wraps.

`iotx_time_left` reads the clock a second time behind the test. If the deadline passes between the
two readings the difference wraps, and almost 2^32 milliseconds seem to be left.
-/

import EnosDeviceSdk.Infra.Timer

namespace EnosDeviceSdk.Infra

/-- `HAL_UptimeMs` at a true time. -/
def halUptimeMs (time : Nat) : UInt32 := UInt32.ofNat time

/-- `iotx_time_left`, with the reading of its expiry test and the one behind it. -/
def iotxTimeLeft (first second time : UInt32) : UInt32 :=
  if utilsTimeIsExpired first time then 0 else time - second

/-- What a countdown promises to a call of the two functions. The call begins at the time
`called` and reads the clock then or later. -/
structure CountdownKept (start millisecond called first second : Nat) : Prop where
  expired : utilsTimeIsExpired (halUptimeMs first)
      (utilsTimeCountdownMs (halUptimeMs start) (UInt32.ofNat millisecond)) = true ↔
    start + millisecond ≤ first
  left : (iotxTimeLeft (halUptimeMs first) (halUptimeMs second)
      (utilsTimeCountdownMs (halUptimeMs start) (UInt32.ofNat millisecond))).toNat ≤
    start + millisecond - called
  reached : start + millisecond ≤ called →
    iotxTimeLeft (halUptimeMs first) (halUptimeMs second)
      (utilsTimeCountdownMs (halUptimeMs start) (UInt32.ofNat millisecond)) = 0

/-- The timer is set to what the clock will show at the deadline. -/
theorem utilsTimeCountdownMs_eq (start millisecond : Nat) :
    utilsTimeCountdownMs (halUptimeMs start) (UInt32.ofNat millisecond) =
      halUptimeMs (start + millisecond) := by
  rw [utilsTimeCountdownMs, halUptimeMs, halUptimeMs, UInt32.ofNat_add]

/-- The difference of two readings is the time between them. -/
theorem halUptimeMs_sub {earlier later : Nat} (hle : earlier ≤ later)
    (hnear : later - earlier < 2 ^ 32) :
    (halUptimeMs later - halUptimeMs earlier).toNat = later - earlier := by
  rw [UInt32.toNat_sub, halUptimeMs, halUptimeMs, UInt32.toNat_ofNat', UInt32.toNat_ofNat']
  omega

/-- The other way round it wraps. -/
theorem halUptimeMs_sub_wraps {earlier later : Nat} (hlt : earlier < later)
    (hnear : later - earlier < 2 ^ 32) :
    (halUptimeMs earlier - halUptimeMs later).toNat = 2 ^ 32 - (later - earlier) := by
  rw [UInt32.toNat_sub, halUptimeMs, halUptimeMs, UInt32.toNat_ofNat', UInt32.toNat_ofNat']
  omega

/-- Less than 2^31 - 1 milliseconds before and behind the deadline the expiry test is right. -/
theorem utilsTimeIsExpired_iff {deadline now : Nat} (hearly : deadline < now + (2 ^ 31 - 1))
    (hlate : now < deadline + (2 ^ 31 - 1)) :
    utilsTimeIsExpired (halUptimeMs now) (halUptimeMs deadline) = true ↔ deadline ≤ now := by
  rw [utilsTimeIsExpired, decide_eq_true_iff, UInt32.lt_iff_toNat_lt]
  have hhalf : (0x7FFFFFFF : UInt32).toNat = 2 ^ 31 - 1 := by decide
  rcases Nat.lt_or_ge now deadline with hbefore | hbehind
  · rw [halUptimeMs_sub_wraps hbefore (by omega), hhalf]
    omega
  · rw [halUptimeMs_sub hbehind (by omega), hhalf]
    omega

/-- A countdown keeps its promises to a call unless the deadline passes between the two readings
that the call takes. -/
theorem countdownKept_iff {start millisecond called first second : Nat}
    (hmillisecond : millisecond < 2 ^ 31 - 1) (hstart : start ≤ called) (hcalled : called ≤ first)
    (hfirst : first ≤ second) (hlate : second < start + millisecond + (2 ^ 31 - 1)) :
    CountdownKept start millisecond called first second ↔
      ¬(first < start + millisecond ∧ start + millisecond < second) := by
  have htest := @utilsTimeIsExpired_iff (start + millisecond) first (by omega) (by omega)
  rcases Nat.lt_or_ge first (start + millisecond) with hbefore | hbehind
  · have hleft : iotxTimeLeft (halUptimeMs first) (halUptimeMs second)
        (halUptimeMs (start + millisecond)) =
          halUptimeMs (start + millisecond) - halUptimeMs second :=
      if_neg fun hexpired => Nat.not_le.mpr hbefore (htest.mp hexpired)
    constructor
    · rintro hkept ⟨-, hpassed⟩
      have hlarge := hkept.left
      rw [utilsTimeCountdownMs_eq, hleft, halUptimeMs_sub_wraps hpassed (by omega)] at hlarge
      omega
    · intro hnot
      have hopen : second ≤ start + millisecond :=
        Nat.not_lt.mp fun hpassed => hnot ⟨hbefore, hpassed⟩
      refine ⟨by rwa [utilsTimeCountdownMs_eq], ?_, fun hreached => by omega⟩
      rw [utilsTimeCountdownMs_eq, hleft, halUptimeMs_sub hopen (by omega)]
      omega
  · have hnone : iotxTimeLeft (halUptimeMs first) (halUptimeMs second)
        (halUptimeMs (start + millisecond)) = 0 := if_pos (htest.mpr hbehind)
    refine iff_of_true ⟨by rwa [utilsTimeCountdownMs_eq], ?_, fun _ => ?_⟩ fun hboth => by omega
    · rw [utilsTimeCountdownMs_eq, hnone]
      exact Nat.zero_le _
    · rw [utilsTimeCountdownMs_eq, hnone]

/-- A countdown of five seconds that ends behind the wrap. -/
theorem countdownKept_wrap :
    CountdownKept (2 ^ 32 - 1000) 5000 (2 ^ 32 + 2000) (2 ^ 32 + 2000) (2 ^ 32 + 2001) :=
  (countdownKept_iff (by decide) (by decide) (by decide) (by decide) (by decide)).mpr (by decide)

/-- With one millisecond left at the test and the deadline a millisecond ago at the second
reading, 4294967295 milliseconds are left. -/
theorem not_countdownKept_passed :
    iotxTimeLeft (halUptimeMs 99) (halUptimeMs 101)
        (utilsTimeCountdownMs (halUptimeMs 0) (UInt32.ofNat 100)) = 4294967295 ∧
      ¬CountdownKept 0 100 99 99 101 := by
  have hleft : iotxTimeLeft (halUptimeMs 99) (halUptimeMs 101)
      (utilsTimeCountdownMs (halUptimeMs 0) (UInt32.ofNat 100)) = 4294967295 := by decide
  refine ⟨hleft, fun hkept => ?_⟩
  have hlarge := hkept.left
  rw [hleft] at hlarge
  exact absurd hlarge (by decide)

end EnosDeviceSdk.Infra
