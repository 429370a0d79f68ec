import Mathlib.Data.Finset.Basic
import Mathlib.Data.Fintype.Defs

/-! The kernel vocabulary the library is written in: statuses, signals, handles and time. -/
namespace Mtl

/-- `mx_status_t`, with the codes the library tests by name. -/
inductive MxStatus where
  | ok | errBadHandle | errBadState | errTimedOut | errShouldWait | errCanceled | errPeerClosed
  | other (code : Int)
  deriving DecidableEq, Repr

/-- The bits of `mx_signals_t` that the library waits for or tests. -/
inductive MxSignal where
  | socketReadable | socketPeerClosed | socketReadDisabled | socketWritable
  | channelReadable | channelPeerClosed
  | other (bit : Nat)
  deriving DecidableEq, Repr

abbrev MxSignals := Finset MxSignal
abbrev MxHandle := UInt32
abbrev MxTime := UInt64

/-- `ftl::TimeDelta` and `ftl::TimePoint` count nanoseconds in a signed 64-bit integer. -/
abbrev TimeDelta := Int64
abbrev TimePoint := Int64

def mxTimeInfinite : MxTime := 0xFFFFFFFFFFFFFFFF
def TimeDelta.max : TimeDelta := Int64.maxValue
/-- The default-constructed `ftl::TimePoint()`. -/
def TimePoint.epoch : TimePoint := 0

/-- `now + delay`, saturated; the delay is read as an unsigned count. -/
def mxDeadlineAfter (now : MxTime) (delay : UInt64) : MxTime :=
  if now + delay < now then mxTimeInfinite else now + delay

/-- Ways a step of the program can go wrong. -/
inductive Fault where
  | dcheck (condition : String)
  | check (message : String)
  | useAfterFree (address : Nat)
  | doubleDelete (address : Nat)
  | overrun (index : Nat)
  | nullLoop
  deriving DecidableEq, Repr

end Mtl
