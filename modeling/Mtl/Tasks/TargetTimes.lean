import Mtl.Foundation.SignedCounts
import Mtl.Tasks.IncomingTaskQueue

/-! The deadlines of posted tasks against the times that were asked for. -/
namespace Mtl.Tasks
open Foundation

namespace PostRequest

/-- The time that a call asks for, as an integer. -/
def requested : PostRequest → Int
  | .postTask => 0
  | .postTaskForTime targetTime => targetTime.toInt
  | .postDelayedTask now delay => if delay.toInt ≤ 0 then 0 else now.toInt + delay.toInt

/-- The deadline that `MessageLoop::PostTask` hands to the async loop. -/
def deadline (req : PostRequest) : MxTime := (TaskRecord.of () req.targetTime).deadline

/-- The clock does not stand before the epoch. -/
def ClockRuns : PostRequest → Prop
  | .postDelayedTask now _ => 0 ≤ now.toInt
  | _ => True

/-- The addition of a delay leaves the signed range. -/
def Overflows : PostRequest → Prop
  | .postDelayedTask now delay => 0 < delay.toInt ∧
      (now.toInt + delay.toInt < -2^63 ∨ 2^63 ≤ now.toInt + delay.toInt)
  | _ => False

/-- The time asked for is one that a `TimePoint` from the epoch on can have. -/
def InRange (req : PostRequest) : Prop := 0 ≤ req.requested ∧ req.requested < 2^63

variable {req : PostRequest}

theorem requested_bounds (h : req.ClockRuns) : -2^63 ≤ req.requested ∧ req.requested < 2^64 := by
  cases req with
  | postTask => exact ⟨by decide, by decide⟩
  | postTaskForTime targetTime =>
    have hlow := targetTime.le_toInt
    have hhigh := targetTime.toInt_lt
    exact ⟨hlow, by rw [requested]; omega⟩
  | postDelayedTask now delay =>
    have hnow := now.toInt_lt
    have hdelay := delay.toInt_lt
    rw [ClockRuns] at h
    rw [requested]
    split_ifs <;> omega

/-- A delay that overflows comes out right when it is read as unsigned again; a time before the
epoch does not. -/
theorem toNat_deadline (h : req.ClockRuns) :
    (req.deadline.toNat : Int) = if 0 ≤ req.requested then req.requested else req.requested + 2^64 := by
  cases req with
  | postTask => rfl
  | postTaskForTime targetTime => exact toNat_toUInt64 targetTime
  | postDelayedTask now delay =>
    have hnow := toNat_toUInt64 now
    have hdelay := toNat_toUInt64 delay
    have hlt := now.toInt_lt
    have hlt' := delay.toInt_lt
    rw [ClockRuns] at h
    rw [if_pos h] at hnow
    have hpos : delay > 0 ↔ 0 < delay.toInt := Int64.lt_iff_toInt_lt
    simp only [deadline, TaskRecord.of, targetTime]
    by_cases hd : 0 < delay.toInt
    · have hreq : requested (.postDelayedTask now delay) = now.toInt + delay.toInt := if_neg (Int.not_le.mpr hd)
      rw [if_pos hd.le] at hdelay
      rw [hreq, if_pos (hpos.mpr hd), if_pos (by omega), Int64.toUInt64_add, UInt64.toNat_add]
      omega
    · have hreq : requested (.postDelayedTask now delay) = 0 := if_pos (Int.not_lt.mp hd)
      rw [hreq, if_neg fun hgt => hd (hpos.mp hgt)]
      rfl

/-- A time before the epoch is overdue at any time, and its deadline never comes. -/
theorem overdue_iff (h : req.ClockRuns) {now : TimePoint} (hnow : 0 ≤ now.toInt) :
    (req.requested ≤ now.toInt → (req.deadline.toNat : Int) ≤ now.toInt) ↔ 0 ≤ req.requested := by
  have hdeadline := toNat_deadline h
  have hbounds := requested_bounds h
  have hlt := now.toInt_lt
  split_ifs at hdeadline <;> omega

theorem overflows_iff (h : req.ClockRuns) : req.Overflows ↔ 2^63 ≤ req.requested := by
  cases req with
  | postTask => exact iff_of_false id (by decide)
  | postTaskForTime targetTime =>
    have hlt := targetTime.toInt_lt
    exact iff_of_false id (by rw [requested]; omega)
  | postDelayedTask now delay =>
    rw [ClockRuns] at h
    rw [Overflows, requested]
    have hlt := delay.toInt_lt
    split_ifs <;> omega

/-- Deadlines are in the order of the times asked for, unless only the earlier one lies before the
epoch. -/
theorem deadline_le {req' : PostRequest} (h : req.ClockRuns) (h' : req'.ClockRuns) (hle : req.requested ≤ req'.requested)
    (hsame : 0 ≤ req.requested) : req.deadline ≤ req'.deadline := by
  have hdeadline := toNat_deadline h
  have hdeadline' := toNat_deadline h'
  rw [if_pos hsame] at hdeadline
  rw [if_pos (hsame.trans hle)] at hdeadline'
  rw [UInt64.le_iff_toNat_le]
  omega

end PostRequest

/-! ## The records that the loop accepts -/
section Accepted
variable {κ : Type} {q : IncomingTaskQueue κ} {l : TaskLoop κ}

/-- On a running loop `AddTask` makes the async loop accept a record with the deadline of the request. -/
theorem addTask_accepts (hdrop : q.dropIncomingTasks = false) (hdel : q.delegate = true) (hs : l.shutDown = false)
    (task : κ) (req : PostRequest) :
    ∃ l', q.addTask l task req.targetTime = .ok (q, l', .kept) ∧ l'.accepted = l.accepted ++ [⟨req.deadline, task⟩] :=
  ⟨_, IncomingTaskQueue.addTask_running hdrop hdel hs task req.targetTime, rfl⟩

/-- Requests made before the loop exists get theirs from `InitDelegate`. -/
theorem initDelegate_accepts (hdrop : q.dropIncomingTasks = false) (hs : l.shutDown = false)
    (requests : List (κ × PostRequest))
    (hbuffered : q.incomingQueue = requests.map fun request => (request.1, request.2.targetTime)) :
    ∃ q' l', q.initDelegate l = .ok (q', l', []) ∧
      l'.accepted = l.accepted ++ requests.map fun request => ⟨request.2.deadline, request.1⟩ := by
  refine ⟨_, _, IncomingTaskQueue.initDelegate_running hdrop hs, ?_⟩
  rw [TaskLoop.acceptAll, hbuffered, List.map_map]
  rfl

end Accepted

/-! ## What is expected of deadlines -/

/-- What is expected of the deadlines of two requests at some time. -/
structure DeadlinesFollow (a b : PostRequest) (now : TimePoint) : Prop where
  order : a.requested ≤ b.requested → a.deadline ≤ b.deadline
  overdue : ∀ req ∈ [a, b], req.requested ≤ now.toInt → (req.deadline.toNat : Int) ≤ now.toInt
  fits : ∀ req ∈ [a, b], ¬ req.Overflows

/-- Two requests get deadlines in their order, overdue ones get one that has passed, and no addition
overflows, exactly if both ask for a time in the range of a `TimePoint` from the epoch on. -/
theorem deadlines_follow_iff {a b : PostRequest} (ha : a.ClockRuns) (hb : b.ClockRuns) {now : TimePoint}
    (hnow : 0 ≤ now.toInt) : DeadlinesFollow a b now ↔ a.InRange ∧ b.InRange := by
  constructor
  · intro h
    have hrange (req : PostRequest) (hreq : req ∈ [a, b]) (hclock : req.ClockRuns) : req.InRange := by
      refine ⟨(PostRequest.overdue_iff hclock hnow).mp (h.overdue req hreq), ?_⟩
      exact Int.not_le.mp fun hover => h.fits req hreq ((PostRequest.overflows_iff hclock).mpr hover)
    exact ⟨hrange a (by simp) ha, hrange b (by simp) hb⟩
  · rintro ⟨hina, hinb⟩
    have hboth {P : PostRequest → Prop} (hpa : P a) (hpb : P b) : ∀ req ∈ [a, b], P req := by
      simp [hpa, hpb]
    refine ⟨fun hle => PostRequest.deadline_le ha hb hle hina.1, hboth ?_ ?_, hboth ?_ ?_⟩
    · exact (PostRequest.overdue_iff ha hnow).mpr hina.1
    · exact (PostRequest.overdue_iff hb hnow).mpr hinb.1
    · exact fun hover => Int.not_le.mpr hina.2 ((PostRequest.overflows_iff ha).mp hover)
    · exact fun hover => Int.not_le.mpr hinb.2 ((PostRequest.overflows_iff hb).mp hover)

/-- An immediate task and one after a second, a second after the epoch. -/
theorem deadlines_follow_iff_delay :
    DeadlinesFollow .postTask (.postDelayedTask 1000000000 1000000000) 1000000000 :=
  (deadlines_follow_iff (a := .postTask) (b := .postDelayedTask 1000000000 1000000000) trivial
    (by decide : 0 ≤ Int64.toInt 1000000000) (by decide)).mpr ⟨⟨by decide, by decide⟩, ⟨by decide, by decide⟩⟩

/-- A target time one nanosecond before the epoch becomes MX_TIME_INFINITE, and the longest delay
overflows. -/
theorem overdue_task_never_runs :
    ¬ (∀ a b now, 0 ≤ now.toInt → PostRequest.ClockRuns a → PostRequest.ClockRuns b → DeadlinesFollow a b now) ∧
      PostRequest.deadline (.postTaskForTime (-1)) = mxTimeInfinite ∧
      PostRequest.Overflows (.postDelayedTask 1 TimeDelta.max) := by
  refine ⟨fun hordered => ?_, by decide, by decide, .inr (by decide)⟩
  have hfollow := hordered (.postTaskForTime (-1)) .postTask 0 (by decide) trivial trivial
  exact absurd (hfollow.order (by decide)) (by decide)

end Mtl.Tasks
