import Mtl.Foundation.Machine
import Mtl.Magenta

/-! `IncomingTaskQueue` and its delegate, the task side of `MessageLoop`. Closures are of an
arbitrary type `κ`: what one does is left to those who run it. -/
namespace Mtl.Tasks
open Foundation
variable {κ : Type}

/-- `MessageLoop::TaskRecord`. -/
structure TaskRecord (κ : Type) where
  deadline : MxTime
  task : κ

/-- The records that the async loop accepted and has not handled, the first one first, and the
calls of `MessageLoop::PostTask` so far, the last one first. -/
structure TaskLoop (κ : Type) where
  shutDown : Bool := false
  accepted : List (TaskRecord κ) := []
  passed : List (κ × TimePoint) := []

/-- Where a call left its closure: with its new owner, destroyed with a record before the call
returned, or still in the parameter, which the caller destroys. -/
inductive Disposal where
  | kept | deleted | dropped
  deriving DecidableEq

def TaskRecord.of (task : κ) (targetTime : TimePoint) : TaskRecord κ :=
  ⟨targetTime.toUInt64, task⟩

namespace TaskLoop

/-- `async::Task::Post` refuses new tasks once shutdown has begun. -/
def post (l : TaskLoop κ) (record : TaskRecord κ) : TaskLoop κ × MxStatus :=
  if l.shutDown then (l, .errBadState) else ({ l with accepted := l.accepted ++ [record] }, .ok)

/-- `MessageLoop::PostTask`. -/
def postTask (l : TaskLoop κ) (task : κ) (targetTime : TimePoint) :
    Except Fault (TaskLoop κ × Disposal) :=
  let (l, status) := { l with passed := (task, targetTime) :: l.passed }.post (.of task targetTime)
  match status with
  -- Suppress request when shutting down.
  | .errBadState => .ok (l, .deleted)
  | .ok => .ok (l, .kept)
  | _ => .error (.check "Failed to post task")

/-- `TaskRecord::Handle` of the `i`-th accepted record: its task runs if the status is `MX_OK`,
and the record is deleted after that. -/
def handle (l : TaskLoop κ) (i : Nat) : TaskLoop κ :=
  { l with accepted := l.accepted.eraseIdx i }

def beginShutdown (l : TaskLoop κ) : TaskLoop κ := { l with shutDown := true }

end TaskLoop

/-- `delegate` says whether `delegate_` is set: the queue serves one loop. -/
structure IncomingTaskQueue (κ : Type) where
  incomingQueue : List (κ × TimePoint) := []
  delegate : Bool := false
  dropIncomingTasks : Bool := false

namespace IncomingTaskQueue

def addTask (q : IncomingTaskQueue κ) (l : TaskLoop κ) (task : κ) (targetTime : TimePoint) :
    Except Fault (IncomingTaskQueue κ × TaskLoop κ × Disposal) :=
  if q.dropIncomingTasks then .ok (q, l, .dropped)
  else if q.delegate then do
    let (l, disposal) ← l.postTask task targetTime
    return (q, l, disposal)
  else .ok ({ q with incomingQueue := q.incomingQueue ++ [(task, targetTime)] }, l, .kept)

/-- `delegate_ && delegate_->RunsTasksOnCurrentThread()`, where `current` says whether
`g_current` is the loop on the calling thread. -/
def runsTasksOnCurrentThread (q : IncomingTaskQueue κ) (current : Bool) : Bool :=
  q.delegate && current

/-- One task of the buffer goes to the delegate; the closures it deletes are collected. -/
def handOver (x : TaskLoop κ × List κ) (task : κ × TimePoint) : Except Fault (TaskLoop κ × List κ) := do
  let (l, disposal) ← x.1.postTask task.1 task.2
  return (l, if disposal = .deleted then x.2 ++ [task.1] else x.2)

def initDelegate (q : IncomingTaskQueue κ) (l : TaskLoop κ) :
    Except Fault (IncomingTaskQueue κ × TaskLoop κ × List κ) :=
  if q.dropIncomingTasks then .error (.dcheck "!drop_incoming_tasks_") else do
    let (l, deleted) ← q.incomingQueue.foldlM handOver (l, [])
    return ({ q with delegate := true, incomingQueue := [] }, l, deleted)

def clearDelegate (q : IncomingTaskQueue κ) : Except Fault (IncomingTaskQueue κ) :=
  if q.dropIncomingTasks then .error (.dcheck "!drop_incoming_tasks_")
  else .ok { q with dropIncomingTasks := true, delegate := false }

end IncomingTaskQueue

/-- The three posting calls of `ftl::TaskRunner`; a delay is added to the clock's value. -/
inductive PostRequest where
  | postTask
  | postTaskForTime (targetTime : TimePoint)
  | postDelayedTask (now : TimePoint) (delay : TimeDelta)

/-- The target time that each call hands to `AddTask`. -/
def PostRequest.targetTime : PostRequest → TimePoint
  | .postTask => TimePoint.epoch
  | .postTaskForTime targetTime => targetTime
  | .postDelayedTask now delay => if delay > 0 then now + delay else TimePoint.epoch

/-! ## What the calls do, by phase -/
section Spec
variable {q : IncomingTaskQueue κ} {l : TaskLoop κ}

namespace TaskLoop

/-- `PostTask` on a loop that still takes tasks. -/
def accept (l : TaskLoop κ) (task : κ) (targetTime : TimePoint) : TaskLoop κ :=
  { l with
    accepted := l.accepted ++ [.of task targetTime]
    passed := (task, targetTime) :: l.passed }

/-- `PostTask` on a loop that shuts down. -/
def refuse (l : TaskLoop κ) (task : κ) (targetTime : TimePoint) : TaskLoop κ :=
  { l with passed := (task, targetTime) :: l.passed }

theorem postTask_running (h : l.shutDown = false) (task : κ) (targetTime : TimePoint) :
    l.postTask task targetTime = .ok (l.accept task targetTime, .kept) := by
  simp [postTask, post, h, accept]

theorem postTask_shutDown (h : l.shutDown = true) (task : κ) (targetTime : TimePoint) :
    l.postTask task targetTime = .ok (l.refuse task targetTime, .deleted) := by
  simp [postTask, post, h, refuse]

/-- Tasks accepted one after the other. -/
def acceptAll (l : TaskLoop κ) (tasks : List (κ × TimePoint)) : TaskLoop κ :=
  { l with
    accepted := l.accepted ++ tasks.map fun task => .of task.1 task.2
    passed := tasks.reverse ++ l.passed }

theorem acceptAll_tasks (l : TaskLoop κ) (tasks : List (κ × TimePoint)) :
    (l.acceptAll tasks).accepted.map TaskRecord.task =
      l.accepted.map TaskRecord.task ++ tasks.map Prod.fst := by
  simp [acceptAll, TaskRecord.of, Function.comp_def]

end TaskLoop

namespace IncomingTaskQueue

theorem addTask_buffering (hdrop : q.dropIncomingTasks = false) (hdel : q.delegate = false) (task : κ)
    (targetTime : TimePoint) :
    q.addTask l task targetTime =
      .ok ({ q with incomingQueue := q.incomingQueue ++ [(task, targetTime)] }, l, .kept) := by
  simp [addTask, hdrop, hdel]

theorem addTask_running (hdrop : q.dropIncomingTasks = false) (hdel : q.delegate = true)
    (hs : l.shutDown = false) (task : κ) (targetTime : TimePoint) :
    q.addTask l task targetTime = .ok (q, l.accept task targetTime, .kept) := by
  simp [addTask, hdrop, hdel, TaskLoop.postTask_running hs]

theorem addTask_shuttingDown (hdrop : q.dropIncomingTasks = false) (hdel : q.delegate = true)
    (hs : l.shutDown = true) (task : κ) (targetTime : TimePoint) :
    q.addTask l task targetTime = .ok (q, l.refuse task targetTime, .deleted) := by
  simp [addTask, hdrop, hdel, TaskLoop.postTask_shutDown hs]

theorem addTask_cleared (hdrop : q.dropIncomingTasks = true) (task : κ) (targetTime : TimePoint) :
    q.addTask l task targetTime = .ok (q, l, .dropped) := by
  simp [addTask, hdrop]

/-- `AddTask` never fails. -/
theorem addTask_ok (q : IncomingTaskQueue κ) (l : TaskLoop κ) (task : κ) (targetTime : TimePoint) :
    ∃ q' l' disposal, q.addTask l task targetTime = .ok (q', l', disposal) := by
  cases hdrop : q.dropIncomingTasks with
  | true => exact ⟨_, _, _, addTask_cleared hdrop task targetTime⟩
  | false =>
    cases hdel : q.delegate with
    | false => exact ⟨_, _, _, addTask_buffering hdrop hdel task targetTime⟩
    | true =>
      cases hs : l.shutDown with
      | false => exact ⟨_, _, _, addTask_running hdrop hdel hs task targetTime⟩
      | true => exact ⟨_, _, _, addTask_shuttingDown hdrop hdel hs task targetTime⟩

/-- In any phase what `AddTask` keeps is its own closure, in the buffer or on a loop that takes tasks. -/
theorem addTask_facts {q' : IncomingTaskQueue κ} {l' : TaskLoop κ} {task : κ} {targetTime : TimePoint}
    {disposal : Disposal} (h : q.addTask l task targetTime = .ok (q', l', disposal)) :
    q'.delegate = q.delegate ∧ q'.dropIncomingTasks = q.dropIncomingTasks ∧ l'.shutDown = l.shutDown ∧
      (∀ x, x ∈ q'.incomingQueue.map Prod.fst ∨ x ∈ l'.accepted.map TaskRecord.task →
        (x ∈ q.incomingQueue.map Prod.fst ∨ x ∈ l.accepted.map TaskRecord.task) ∨ (x = task ∧ disposal = .kept)) ∧
      match disposal with
      | .kept => q.dropIncomingTasks = false ∧ (q.delegate = true → l.shutDown = false)
      | .deleted => l'.accepted = l.accepted ∧ q.delegate = true ∧ l.shutDown = true
      | .dropped => l'.accepted = l.accepted ∧ q.dropIncomingTasks = true := by
  cases hdrop : q.dropIncomingTasks with
  | true =>
    cases (addTask_cleared hdrop task targetTime).symm.trans h
    grind
  | false =>
    cases hdel : q.delegate with
    | false =>
      cases (addTask_buffering hdrop hdel task targetTime).symm.trans h
      grind
    | true =>
      cases hs : l.shutDown with
      | false =>
        cases (addTask_running hdrop hdel hs task targetTime).symm.trans h
        grind [TaskLoop.accept, TaskRecord.of]
      | true =>
        cases (addTask_shuttingDown hdrop hdel hs task targetTime).symm.trans h
        grind [TaskLoop.refuse]

theorem handOver_all (hs : l.shutDown = false) (tasks : List (κ × TimePoint)) :
    tasks.foldlM handOver (l, []) = .ok (l.acceptAll tasks, []) := by
  induction tasks generalizing l with
  | nil => simp [TaskLoop.acceptAll]
  | cons task tasks ih =>
    have hone : handOver (l, []) task = .ok (l.accept task.1 task.2, []) := by
      simp [handOver, TaskLoop.postTask_running hs]
    rw [List.foldlM_cons, hone, ok_bind, ih (l := l.accept task.1 task.2) hs]
    simp [TaskLoop.acceptAll, TaskLoop.accept]

/-- A delegate that takes tasks gets the whole buffer, in order. -/
theorem initDelegate_running (hdrop : q.dropIncomingTasks = false) (hs : l.shutDown = false) :
    q.initDelegate l =
      .ok ({ q with delegate := true, incomingQueue := [] }, l.acceptAll q.incomingQueue, []) := by
  simp [initDelegate, hdrop, handOver_all hs]

theorem clearDelegate_eq (hdrop : q.dropIncomingTasks = false) :
    q.clearDelegate = .ok { q with dropIncomingTasks := true, delegate := false } := by
  simp [clearDelegate, hdrop]

end IncomingTaskQueue
end Spec

/-- The closures in the queue and in its loop. -/
def closures (q : IncomingTaskQueue κ) (l : TaskLoop κ) : List κ :=
  q.incomingQueue.map Prod.fst ++ l.accepted.map TaskRecord.task

/-- A queue and its loop before, under and after the delegate. -/
structure InPhase (q : IncomingTaskQueue κ) (l : TaskLoop κ) : Prop where
  unstarted : q.delegate = false → q.dropIncomingTasks = false → l.accepted = [] ∧ l.shutDown = false
  serving : q.delegate = true → q.incomingQueue = [] ∧ q.dropIncomingTasks = false
  dropped : q.dropIncomingTasks = true →
    q.incomingQueue = [] ∧ l.accepted = [] ∧ q.delegate = false ∧ l.shutDown = true

namespace InPhase
variable {q : IncomingTaskQueue κ} {l : TaskLoop κ}

/-- A closure is taken until shutdown begins and never after it. -/
theorem addTask (h : InPhase q l) (task : κ) (targetTime : TimePoint) :
    ∃ q' l' disposal, q.addTask l task targetTime = .ok (q', l', disposal) ∧ InPhase q' l' ∧
      closures q' l' = (if l.shutDown then closures q l else closures q l ++ [task]) ∧
      l'.shutDown = l.shutDown ∧ q'.dropIncomingTasks = q.dropIncomingTasks := by
  cases hdrop : q.dropIncomingTasks with
  | true =>
    obtain ⟨hq, ha, hd, hs⟩ := h.dropped hdrop
    exact ⟨_, _, _, IncomingTaskQueue.addTask_cleared hdrop task targetTime, h, by simp [hs], rfl, hdrop⟩
  | false =>
    cases hdel : q.delegate with
    | false =>
      obtain ⟨ha, hs⟩ := h.unstarted hdel hdrop
      refine ⟨_, _, _, IncomingTaskQueue.addTask_buffering hdrop hdel task targetTime, ⟨?_, ?_, ?_⟩, ?_, rfl, hdrop⟩
      · exact fun _ _ => ⟨ha, hs⟩
      · simp [hdel]
      · simp [hdrop]
      · simp [closures, ha, hs]
    | true =>
      obtain ⟨hq, -⟩ := h.serving hdel
      cases hs : l.shutDown with
      | false =>
        refine ⟨_, _, _, IncomingTaskQueue.addTask_running hdrop hdel hs task targetTime, ⟨?_, ?_, ?_⟩, ?_, hs, hdrop⟩
        · simp [hdel]
        · exact h.serving
        · simp [hdrop]
        · simp [closures, hq, TaskLoop.accept, TaskRecord.of]
      | true =>
        refine ⟨_, _, _, IncomingTaskQueue.addTask_shuttingDown hdrop hdel hs task targetTime, ⟨?_, ?_, ?_⟩, ?_, hs,
          hdrop⟩
        · simp [hdel]
        · exact h.serving
        · simp [hdrop]
        · simp [closures, TaskLoop.refuse]

theorem initDelegate (h : InPhase q l) (hdel : q.delegate = false) (hdrop : q.dropIncomingTasks = false) :
    ∃ q' l' deleted, q.initDelegate l = .ok (q', l', deleted) ∧ InPhase q' l' ∧
      closures q' l' = closures q l ∧ l'.shutDown = l.shutDown ∧ q'.dropIncomingTasks = false := by
  obtain ⟨ha, hs⟩ := h.unstarted hdel hdrop
  refine ⟨_, _, _, IncomingTaskQueue.initDelegate_running hdrop hs, ⟨?_, ?_, ?_⟩, ?_, rfl, hdrop⟩
  · simp
  · exact fun _ => ⟨rfl, hdrop⟩
  · simp [hdrop]
  · simp [closures, l.acceptAll_tasks, ha]

theorem handle (h : InPhase q l) (i : Nat) : InPhase q (l.handle i) := by
  refine ⟨fun hdel hdrop => ?_, h.serving, fun hdrop => ?_⟩
  · obtain ⟨ha, hs⟩ := h.unstarted hdel hdrop
    exact ⟨by simp [TaskLoop.handle, ha], hs⟩
  · obtain ⟨hq, ha, hd, hs⟩ := h.dropped hdrop
    exact ⟨hq, by simp [TaskLoop.handle, ha], hd, hs⟩

theorem beginShutdown (h : InPhase q l) (hdel : q.delegate = true) : InPhase q l.beginShutdown :=
  ⟨by simp [hdel], h.serving, fun hdrop => by simp [(h.serving hdel).2] at hdrop⟩

theorem clearDelegate (h : InPhase q l) (hdel : q.delegate = true) (hs : l.shutDown = true) (ha : l.accepted = []) :
    ∃ q', q.clearDelegate = .ok q' ∧ InPhase q' l ∧ closures q' l = closures q l ∧
      q'.dropIncomingTasks = true := by
  obtain ⟨hq, hdrop⟩ := h.serving hdel
  exact ⟨_, IncomingTaskQueue.clearDelegate_eq hdrop, ⟨by simp, by simp, fun _ => ⟨hq, ha, rfl, hs⟩⟩, rfl, rfl⟩

end InPhase

/-- The `i`-th accepted record holds one of the closures. -/
theorem closures_handle (q : IncomingTaskQueue κ) {l : TaskLoop κ} {i : Nat} (hi : i < l.accepted.length) :
    (closures q l).Perm (l.accepted[i].task :: closures q (l.handle i)) := by
  have hperm := (List.getElem_cons_eraseIdx_perm hi).map TaskRecord.task
  simp only [closures, TaskLoop.handle]
  exact (hperm.symm.append_left _).trans List.perm_middle

end Mtl.Tasks
