import Mtl.Foundation.SignedCounts
import Mtl.Waiter.Default

/-! The deadlines of waits against their timeouts, through `AddHandler` and through the default waiter. -/
namespace Mtl.Waiter
open Foundation Tasks

/-- A loop that takes handlers. -/
structure Accepting (s : MessageLoop) : Prop where
  attached : s.current = true
  running : s.loop.shutDown = false

/-- The deadline of the record that `AddHandler` begins. -/
def deadlineBegun (s : MessageLoop) (req : AddRequest) : Option MxTime :=
  match s.addHandler req with
  | .ok (t, _) => (t.records.lookup s.nextRecord).map HandlerRecord.deadline
  | .error _ => none

/-- The deadline of the record that `AsyncWait` begins. -/
def deadlineAwaited {γ : Type} (s : DefaultWaiter γ) (handle : MxHandle) (signals : MxSignals) (timeout now : MxTime)
    (context : γ) : Option MxTime :=
  match s.asyncWait handle signals timeout now context with
  | .ok (t, _) => (t.loop.records.lookup s.loop.nextRecord).map HandlerRecord.deadline
  | .error _ => none

section Deadlines
variable {γ : Type} {s : DefaultWaiter γ} {now timeout : MxTime}

theorem Accepting.deadlineBegun {s : MessageLoop} (h : Accepting s) (req : AddRequest) :
    Waiter.deadlineBegun s req = some req.deadline := by
  simp [Waiter.deadlineBegun, MessageLoop.addHandler, h.attached, AsyncLoop.begin, h.running, MessageLoop.note,
    AddRequest.record]

/-- The default waiter's deadline is that of `AddHandler` with the timeout that `Start` makes of its own. -/
theorem Accepting.deadlineAwaited (h : Accepting s.loop) {handle : MxHandle} (hh : handle ≠ 0) (signals : MxSignals)
    (timeout now : MxTime) (context : γ) :
    Waiter.deadlineAwaited s handle signals timeout now context =
      some (AddRequest.deadline ⟨s.nextWatcher, handle, signals, timeoutDelta timeout, now, hh⟩) := by
  simp [Waiter.deadlineAwaited, DefaultWaiter.asyncWait, MessageLoop.addHandler, h.attached, hh, AsyncLoop.begin,
    h.running, MessageLoop.note, AddRequest.record]

theorem mxDeadlineAfter_eq (now : MxTime) (delay : UInt64) : mxDeadlineAfter now delay = saturatingAdd now delay := rfl

theorem max_iff (t : TimeDelta) : t = TimeDelta.max ↔ 2^63 - 1 ≤ t.toInt := by
  have hmax : TimeDelta.max.toInt = 2^63 - 1 := rfl
  have hlt := t.toInt_lt
  rw [← Int64.toInt_inj, hmax]
  omega

/-- `TimeDelta::Max()` is waited for without end, any other timeout for its unsigned count. -/
theorem deadline_of_max {req : AddRequest} (h : req.timeout = TimeDelta.max) : req.deadline = mxTimeInfinite :=
  if_pos h

theorem deadline_of_lt {req : AddRequest} (h : req.timeout ≠ TimeDelta.max) :
    req.deadline = saturatingAdd req.now req.timeout.toUInt64 :=
  (if_neg h).trans (mxDeadlineAfter_eq _ _)

/-- A negative timeout is counted as a huge one, so it comes after a later timeout that is not negative,
unless that is infinite as well. -/
theorem deadline_le_iff {req req' : AddRequest} (hnow : req'.now = req.now) (hle : req.timeout ≤ req'.timeout) :
    req.deadline ≤ req'.deadline ↔ 0 ≤ req.timeout.toInt ∨ req'.timeout.toInt < 0 ∨ req'.timeout = TimeDelta.max ∨
      2^64 - 1 ≤ req.now.toNat + req'.timeout.toInt := by
  have hint := Int64.le_iff_toInt_le.mp hle
  by_cases hmax' : req'.timeout = TimeDelta.max
  · refine iff_of_true ?_ (.inr (.inr (.inl hmax')))
    rw [deadline_of_max hmax', UInt64.le_iff_toNat_le]
    exact Nat.le_of_lt_succ req.deadline.toNat_lt
  · have hmax : ¬ req.timeout = TimeDelta.max := by
      rw [max_iff] at hmax' ⊢
      omega
    rw [deadline_of_lt hmax, deadline_of_lt hmax', hnow, saturatingAdd_le_iff, toUInt64_le_iff hint]
    have hcount := toNat_toUInt64 req'.timeout
    by_cases hneg : req'.timeout.toInt < 0
    · simp [hneg]
    · rw [if_pos (Int.not_lt.mp hneg)] at hcount
      simp only [hneg, hmax', false_or, or_false]
      omega

/-- `Start` keeps a timeout as it is unless it looks like `TimeDelta::Max()`. -/
theorem deadline_awaited_iff {req : AddRequest} (h : req.timeout = timeoutDelta timeout) :
    req.deadline = saturatingAdd req.now timeout ↔ timeout.toNat ≠ 2^63 - 1 ∨ 2^63 ≤ req.now.toNat := by
  have hsum := toNat_saturatingAdd req.now timeout
  have htop : mxTimeInfinite.toNat = 2^64 - 1 := rfl
  by_cases hinf : timeout = mxTimeInfinite
  · have hmax : req.timeout = TimeDelta.max := h.trans (if_pos hinf)
    rw [hinf, htop] at hsum
    rw [deadline_of_max hmax, hinf, ← UInt64.toNat_inj, htop]
    omega
  · have hkept : req.timeout = timeout.toInt64 := h.trans (if_neg hinf)
    have hback : req.timeout.toUInt64 = timeout := by rw [hkept, UInt64.toUInt64_toInt64]
    by_cases hmax : req.timeout = TimeDelta.max
    · have hhalf : timeout.toNat = 2^63 - 1 := by
        rw [← hback, hmax]
        rfl
      rw [deadline_of_max hmax, ← UInt64.toNat_inj, htop]
      omega
    · refine iff_of_true ((deadline_of_lt hmax).trans (by rw [hback])) (.inl fun hhalf => hmax ?_)
      rw [hkept, (UInt64.toNat_inj.mp (hhalf.trans rfl) : timeout = 0x7FFFFFFFFFFFFFFF)]
      rfl

end Deadlines

/-- On a loop that takes handlers: of two timeouts given at one time the shorter one expires first exactly
if both are negative or neither is, or the longer one never expires; and a wait of the default waiter gets
the deadline that its timeout asks for exactly if that is not 2^63 - 1, or leads to the end of time. -/
theorem timeouts_convert_iff {γ : Type} {s : DefaultWaiter γ} (hs : Accepting s.loop) {req req' : AddRequest}
    (hnow : req'.now = req.now) (hle : req.timeout ≤ req'.timeout) {handle : MxHandle} (hh : handle ≠ 0)
    (signals : MxSignals) (timeout now : MxTime) (context : γ) :
    (∃ deadline deadline', deadlineBegun s.loop req = some deadline ∧ deadlineBegun s.loop req' = some deadline' ∧
      (deadline ≤ deadline' ↔ 0 ≤ req.timeout.toInt ∨ req'.timeout.toInt < 0 ∨ req'.timeout = TimeDelta.max ∨
        2^64 - 1 ≤ req.now.toNat + req'.timeout.toInt)) ∧
    ∃ deadline, deadlineAwaited s handle signals timeout now context = some deadline ∧
      (deadline.toNat = min (now.toNat + timeout.toNat) (2^64 - 1) ↔
        timeout.toNat ≠ 2^63 - 1 ∨ 2^63 ≤ now.toNat) := by
  refine ⟨⟨_, _, hs.deadlineBegun req, hs.deadlineBegun req', deadline_le_iff hnow hle⟩,
    _, hs.deadlineAwaited hh signals timeout now context, ?_⟩
  rw [← toNat_saturatingAdd, UInt64.toNat_inj]
  exact deadline_awaited_iff rfl

/-- `AddHandler` at some time with the given timeout. -/
def timedRequest (timeout : TimeDelta) : AddRequest := ⟨1, 9, {.channelReadable}, timeout, 1000, by decide⟩

/-- A second and two seconds, and a wait of a second. -/
theorem timeouts_convert_iff_seconds :
    (∃ deadline deadline', deadlineBegun {} (timedRequest 1000000000) = some deadline ∧
      deadlineBegun {} (timedRequest 2000000000) = some deadline' ∧ deadline ≤ deadline') ∧
    ∃ deadline, deadlineAwaited ({} : DefaultWaiter Unit) 9 {.socketReadable} 1000000000 5 () = some deadline ∧
      deadline.toNat = min (5 + 1000000000) (2^64 - 1) := by
  have hs : Accepting ({} : DefaultWaiter Unit).loop := ⟨rfl, rfl⟩
  have hnow : (timedRequest 2000000000).now = (timedRequest 1000000000).now := rfl
  have hhandle : (9 : MxHandle) ≠ 0 := by decide
  obtain ⟨⟨deadline, deadline', h, h', hle⟩, awaited, hawaited, heq⟩ :=
    timeouts_convert_iff hs hnow (by decide) hhandle {.socketReadable} 1000000000 5 ()
  exact ⟨⟨deadline, deadline', h, h', hle.mpr (.inl (by decide))⟩, awaited, hawaited, heq.mpr (.inl (by decide))⟩

/-- A timeout that elapsed a nanosecond ago never expires, although one of 0 does at once; and a wait for
2^63 - 1 nanoseconds never ends. -/
theorem elapsed_timeout_never_expires :
    (¬ ∀ req req' : AddRequest, req'.now = req.now → req.timeout ≤ req'.timeout →
      ∃ deadline deadline', deadlineBegun {} req = some deadline ∧ deadlineBegun {} req' = some deadline' ∧
        deadline ≤ deadline') ∧
    ¬ ∀ timeout now : MxTime, ∃ deadline,
      deadlineAwaited ({} : DefaultWaiter Unit) 9 {.socketReadable} timeout now () = some deadline ∧
        deadline.toNat = min (now.toNat + timeout.toNat) (2^64 - 1) := by
  have hs : Accepting {} := ⟨rfl, rfl⟩
  have hs' : Accepting ({} : DefaultWaiter Unit).loop := hs
  constructor
  · intro hmonotone
    obtain ⟨deadline, deadline', h, h', hle⟩ := hmonotone (timedRequest (-1)) (timedRequest 0) rfl (by decide)
    rw [hs.deadlineBegun, Option.some.injEq] at h h'
    rw [← h, ← h'] at hle
    exact absurd hle (by decide)
  · intro hsaturates
    obtain ⟨deadline, h, heq⟩ := hsaturates 0x7FFFFFFFFFFFFFFF 1000
    rw [hs'.deadlineAwaited (by decide), Option.some.injEq] at h
    rw [← h] at heq
    exact absurd heq (by decide)

end Mtl.Waiter
