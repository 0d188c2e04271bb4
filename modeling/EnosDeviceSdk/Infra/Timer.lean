/-
# Wrapping 32-bit timers

`infra_timer.c`: a timer is a point in time, and all comparisons are made by
subtraction modulo 2^32. Every function takes the clock reading that the source
obtains from `HAL_UptimeMs`.
-/

import Mathlib.Algebra.Ring.Int.Defs
import Mathlib.Algebra.Ring.Nat

namespace EnosDeviceSdk.Infra

/-- `utils_time_countdown_ms`: the point in time that the timer is set to. -/
def utilsTimeCountdownMs (now millisecond : UInt32) : UInt32 := now + millisecond

/-- `utils_time_is_expired`, where `UINT32_MAX / 2` is `0x7FFFFFFF`. -/
def utilsTimeIsExpired (now time : UInt32) : Bool := now - time < 0x7FFFFFFF

/-- `utils_time_spend` -/
def utilsTimeSpend (now start : UInt32) : UInt32 := now - start

end EnosDeviceSdk.Infra
