import Mathlib.Data.Option.Basic
import Mtl.Foundation.Simulation
import Mtl.Tasks.TaskHandover

/-! Threads and their message loops: `g_current`, the constructor, `Run` and the destructor of `MessageLoop`, and the
threads that `CreateThread` starts. -/
namespace Mtl.Threading
open Foundation Tasks

abbrev ThreadId := Nat

/-- A queue, and the loop that is made on it. -/
abbrev QueueId := Nat

/-- Where a thread is in the life of its loop. -/
inductive Stage where
  | outside
  /-- The constructor has set `g_current`. -/
  | constructing (q : QueueId)
  | ready (q : QueueId)
  | inRun (q : QueueId)
  | inTask (q : QueueId)
  /-- `Run` returned to `RunMessageLoop`. -/
  | returned (q : QueueId)
  /-- The destructor is in `loop_.Shutdown()`. -/
  | shuttingDown (q : QueueId)
  /-- The destructor has cleared the delegate. -/
  | cleared (q : QueueId)
  | exited
  deriving DecidableEq

def Stage.loop : Stage → Option QueueId
  | .outside | .exited => none
  | .constructing q | .ready q | .inRun q | .inTask q | .returned q | .shuttingDown q | .cleared q => some q

/-- The task side of a `MessageLoop` with its queue. `quit` is the async loop's quit state, and `ranOn` has the
threads on which the tasks ran, the last one first. -/
structure QueuedLoop where
  handover : Handover := {}
  isRunning : Bool := false
  quit : Bool := false
  ranOn : List (TaskId × ThreadId) := []

/-- `taskQueue` is the argument of `RunMessageLoop` on the threads that run it, and `home` the thread on which a loop
was made on the queue. -/
structure LoopThreads where
  gCurrent : ThreadId → Option QueueId := fun _ => none
  stage : ThreadId → Stage := fun _ => .outside
  taskQueue : ThreadId → Option QueueId := fun _ => none
  loops : QueueId → QueuedLoop := fun _ => {}
  home : QueueId → Option ThreadId := fun _ => none
  nextThread : ThreadId
  nextQueue : QueueId := 0

namespace LoopThreads

/-- A number of threads without loops. -/
def start (threads : Nat) : LoopThreads := { nextThread := threads }

/-- A new thread in `RunMessageLoop`, and the queue that the caller gets as its task runner. -/
def createThread (s : LoopThreads) : LoopThreads :=
  { s with
    taskQueue := Function.update s.taskQueue s.nextThread (some s.nextQueue)
    nextThread := s.nextThread + 1
    nextQueue := s.nextQueue + 1 }

/-- The constructor of `MessageLoop` up to `InitDelegate`. -/
def construct (s : LoopThreads) (t : ThreadId) (q : QueueId) : Except Fault LoopThreads :=
  if s.gCurrent t ≠ none then .error (.dcheck "At most one message loop per thread.")
  else .ok { s with
    gCurrent := Function.update s.gCurrent t (some q)
    stage := Function.update s.stage t (.constructing q)
    home := Function.update s.home q (some t) }

/-- `MessageLoop()` makes a queue of its own. -/
def makeLoop (s : LoopThreads) (t : ThreadId) : Except Fault LoopThreads :=
  { s with nextQueue := s.nextQueue + 1 }.construct t s.nextQueue

/-- A step of thread `t` in the code of the loop on `q`. -/
def advance (s : LoopThreads) (t : ThreadId) (q : QueueId) (stage : Stage) (loop : QueuedLoop) : LoopThreads :=
  { s with stage := Function.update s.stage t stage, loops := Function.update s.loops q loop }

def initDelegate (s : LoopThreads) (t : ThreadId) (q : QueueId) : Except Fault LoopThreads := do
  let handover ← (s.loops q).handover.initDelegate
  return s.advance t q (.ready q) { s.loops q with handover := handover }

def run (s : LoopThreads) (t : ThreadId) (q : QueueId) : Except Fault LoopThreads :=
  if s.gCurrent t ≠ some q then .error (.dcheck "g_current == this")
  else if (s.loops q).isRunning then .error (.check "Cannot run a nested message loop.")
  else .ok (s.advance t q (.inRun q) { s.loops q with isRunning := true })

/-- `TaskRecord::Handle` up to the task, and from its return. -/
def beginTask (s : LoopThreads) (t : ThreadId) (q : QueueId) (i : Nat) : Except Fault LoopThreads := do
  let handover ← (s.loops q).handover.beginTask i
  let ran := handover.running.toList.map fun task => (task, t)
  return s.advance t q (.inTask q) { s.loops q with handover := handover, ranOn := ran ++ (s.loops q).ranOn }

def endTask (s : LoopThreads) (t : ThreadId) (q : QueueId) : Except Fault LoopThreads := do
  let handover ← (s.loops q).handover.endTask
  return s.advance t q (.inRun q) { s.loops q with handover := handover }

def quitNow (s : LoopThreads) (t : ThreadId) (q : QueueId) : Except Fault LoopThreads :=
  if s.gCurrent t ≠ some q then .error (.dcheck "g_current == this")
  else .ok (s.advance t q (s.stage t) { s.loops q with quit := (s.loops q).isRunning || (s.loops q).quit })

/-- `Run` from the return of `loop_.Run()`. -/
def runReturns (s : LoopThreads) (t : ThreadId) (q : QueueId) : Except Fault LoopThreads :=
  if (s.loops q).isRunning then
    .ok (s.advance t q (if (s.taskQueue t).isSome then .returned q else .ready q)
      { s.loops q with isRunning := false, quit := false })
  else .error (.dcheck "is_running_")

/-- The destructor up to the beginning of `loop_.Shutdown()`. -/
def destroy (s : LoopThreads) (t : ThreadId) (q : QueueId) : Except Fault LoopThreads :=
  if s.gCurrent t ≠ some q then .error (.dcheck "Message loops must be destroyed on their own threads.")
  else
    let handover := (s.loops q).handover
    .ok (s.advance t q (.shuttingDown q)
      { s.loops q with handover := { handover with loop := handover.loop.beginShutdown }.note .shutDown })

def cancelTask (s : LoopThreads) (t : ThreadId) (q : QueueId) (i : Nat) : Except Fault LoopThreads := do
  let handover ← (s.loops q).handover.cancelTask i
  return s.advance t q (.shuttingDown q) { s.loops q with handover := handover }

def clearDelegate (s : LoopThreads) (t : ThreadId) (q : QueueId) : Except Fault LoopThreads := do
  let handover ← (s.loops q).handover.clearDelegate
  return s.advance t q (.cleared q) { s.loops q with handover := handover }

/-- The end of the destructor. `RunMessageLoop` returns after it. -/
def leave (s : LoopThreads) (t : ThreadId) : LoopThreads :=
  { s with
    gCurrent := Function.update s.gCurrent t none
    stage := Function.update s.stage t (if (s.taskQueue t).isSome then .exited else .outside) }

def post (s : LoopThreads) (q : QueueId) (req : PostRequest) : Except Fault LoopThreads := do
  let handover ← (s.loops q).handover.post req
  return { s with loops := Function.update s.loops q { s.loops q with handover := handover } }

/-- `IncomingTaskQueue::RunsTasksOnCurrentThread`, called on thread `t`. -/
def runsTasksOnCurrentThread (s : LoopThreads) (t : ThreadId) (q : QueueId) : Bool :=
  (s.loops q).handover.queue.runsTasksOnCurrentThread (s.gCurrent t = some q)

end LoopThreads

/-- The acts of thread `t` concern the loop on `q`. Any thread may create threads and post. -/
inductive LoopThreadAct where
  | createThread
  | post (q : QueueId) (req : PostRequest)
  | makeLoop (t : ThreadId)
  | enter (t : ThreadId) (q : QueueId)
  | initDelegate (t : ThreadId) (q : QueueId)
  | run (t : ThreadId) (q : QueueId)
  | beginTask (t : ThreadId) (q : QueueId) (i : Nat)
  | endTask (t : ThreadId) (q : QueueId)
  | quitNow (t : ThreadId) (q : QueueId)
  | runReturns (t : ThreadId) (q : QueueId)
  | destroy (t : ThreadId) (q : QueueId)
  | cancelTask (t : ThreadId) (q : QueueId) (i : Nat)
  | clearDelegate (t : ThreadId) (q : QueueId)
  | leave (t : ThreadId) (q : QueueId)

/-- On the threads of `RunMessageLoop` the loop is made, run once and destroyed. Elsewhere, and in tasks, clients may do
what they like with the loops of their own thread: they may even make a second one, or run one from its own task. They
keep to the thread of a loop for `Run`, `QuitNow` and its destructor, and do not destroy a loop in one of its tasks. -/
def loopThreadsMachine : Machine LoopThreads LoopThreadAct Fault where
  Enabled s
    | .createThread => True
    | .post q _ => q < s.nextQueue
    | .makeLoop t => t < s.nextThread ∧
        (s.taskQueue t = none ∧ (s.stage t = .outside ∨ ∃ q, s.stage t = .ready q) ∨ ∃ q, s.stage t = .inTask q)
    | .enter t q => s.stage t = .outside ∧ s.taskQueue t = some q
    | .initDelegate t q => s.stage t = .constructing q
    | .run t q => s.stage t = .ready q ∨ s.stage t = .inTask q
    | .beginTask t q i => s.stage t = .inRun q ∧ (s.loops q).quit = false ∧
        i < (s.loops q).handover.loop.accepted.length
    | .endTask t q => s.stage t = .inTask q
    | .quitNow t q => (s.stage t).loop = some q
    | .runReturns t q => s.stage t = .inRun q ∧ (s.loops q).quit = true
    | .destroy t q => s.stage t = .returned q ∨ (s.stage t = .ready q ∧ s.taskQueue t = none)
    | .cancelTask t q i => s.stage t = .shuttingDown q ∧ i < (s.loops q).handover.loop.accepted.length
    | .clearDelegate t q => s.stage t = .shuttingDown q ∧ (s.loops q).handover.loop.accepted = []
    | .leave t q => s.stage t = .cleared q
  step s
    | .createThread => .ok s.createThread
    | .post q req => s.post q req
    | .makeLoop t => s.makeLoop t
    | .enter t q => s.construct t q
    | .initDelegate t q => s.initDelegate t q
    | .run t q => s.run t q
    | .beginTask t q i => s.beginTask t q i
    | .endTask t q => s.endTask t q
    | .quitNow t q => s.quitNow t q
    | .runReturns t q => s.runReturns t q
    | .destroy t q => s.destroy t q
    | .cancelTask t q i => s.cancelTask t q i
    | .clearDelegate t q => s.clearDelegate t q
    | .leave t _ => .ok (s.leave t)

/-! ## What one step of a queue and its loop does -/

def ranTask : TaskEvent → Option TaskId
  | .ran task => some task
  | _ => none

/-- The tasks that ran, the last one first. -/
def ranTasks (s : Handover) : List TaskId := s.log.filterMap ranTask

/-- A step of a loop that runs no task. -/
structure Quiet (s t : Handover) : Prop where
  handed : Handed t
  initialized : t.initialized = s.initialized
  released : t.released = s.released
  delegate : t.queue.delegate = s.queue.delegate
  dropped : t.queue.dropIncomingTasks = s.queue.dropIncomingTasks
  shutDown : t.loop.shutDown = s.loop.shutDown
  running : t.running = s.running
  ran : ranTasks t = ranTasks s

section Handover
variable {s : Handover}

theorem post_quiet (h : Handed s) (hr : s.released = false) (req : PostRequest) :
    ∃ t, s.post req = .ok t ∧ Quiet s t := by
  obtain ⟨t, ht, hH⟩ := h.post hr req
  obtain ⟨queue, loop, disposal, hadd⟩ := IncomingTaskQueue.addTask_ok s.queue s.loop s.nextTask req.targetTime
  obtain ⟨hdel, hdrop, hs, -⟩ := IncomingTaskQueue.addTask_facts hadd
  refine ⟨t, ht, ?_⟩
  simp only [Handover.post, hadd, ok_bind, pure_eq_ok] at ht
  cases disposal
  all_goals
    cases ht
    exact ⟨hH, rfl, rfl, hdel, hdrop, hs, rfl, rfl⟩

theorem initDelegate_ready (h : Handed s) (hi : s.initialized = false) (hr : s.released = false) :
    ∃ t, s.initDelegate = .ok t ∧ Handed t ∧ t.queue.delegate = true ∧ t.running = none ∧ t.loop.shutDown = false ∧
      t.released = false ∧ ranTasks t = ranTasks s ∧ t.nextTask = s.nextTask ∧
      (closures t.queue t.loop).length = (closures s.queue s.loop).length := by
  obtain ⟨t, ht, hH⟩ := h.initDelegate hi hr
  obtain ⟨ha, -, hrun, hs⟩ := h.unstarted hi
  refine ⟨t, ht, hH, ?_⟩
  simp only [Handover.initDelegate, IncomingTaskQueue.initDelegate_running (h.unmade hi).2.1 hs, ok_bind] at ht
  cases ht
  exact ⟨rfl, hrun, hs, hr, rfl, rfl, by simp [closures, TaskLoop.acceptAll, ha]⟩

theorem beginTask_runs (h : Handed s) {i : Nat} (hi : i < s.loop.accepted.length) (hc : s.running = none)
    (hs : s.loop.shutDown = false) :
    ∃ t task, s.beginTask i = .ok t ∧ Handed t ∧ t.queue = s.queue ∧ t.running = some task ∧
      t.loop = s.loop.handle i ∧ t.released = s.released ∧ ranTasks t = task :: ranTasks s ∧
      t.nextTask = s.nextTask := by
  obtain ⟨t, ht, hH⟩ := h.beginTask hi hc hs
  refine ⟨t, s.loop.accepted[i].task, ht, hH, ?_⟩
  simp only [Handover.beginTask, List.getElem?_eq_getElem hi] at ht
  cases ht
  exact ⟨rfl, rfl, rfl, rfl, rfl, rfl⟩

theorem endTask_returns (h : Handed s) (hc : s.running ≠ none) :
    ∃ t, s.endTask = .ok t ∧ Handed t ∧ t.queue = s.queue ∧ t.running = none ∧ t.loop = s.loop ∧
      t.released = s.released ∧ ranTasks t = ranTasks s ∧ t.nextTask = s.nextTask := by
  obtain ⟨t, ht, hH⟩ := h.endTask hc
  obtain ⟨task, htask⟩ := Option.ne_none_iff_exists'.mp hc
  refine ⟨t, ht, hH, ?_⟩
  simp only [Handover.endTask, htask] at ht
  cases ht
  exact ⟨rfl, rfl, rfl, rfl, rfl, rfl⟩

theorem cancelTask_quiet (h : Handed s) {i : Nat} (hi : i < s.loop.accepted.length) (hs : s.loop.shutDown = true) :
    ∃ t, s.cancelTask i = .ok t ∧ Quiet s t := by
  obtain ⟨t, ht, hH⟩ := h.cancelTask hi hs
  refine ⟨t, ht, ?_⟩
  simp only [Handover.cancelTask, List.getElem?_eq_getElem hi] at ht
  cases ht
  exact ⟨hH, rfl, rfl, rfl, rfl, rfl, rfl, rfl⟩

theorem clearDelegate_drops (h : Handed s) (hs : s.loop.shutDown = true) (ha : s.loop.accepted = [])
    (hd : s.queue.delegate = true) :
    ∃ t, s.clearDelegate = .ok t ∧ Handed t ∧ t.queue.dropIncomingTasks = true ∧ t.released = s.released ∧
      ranTasks t = ranTasks s := by
  obtain ⟨t, ht, hH⟩ := h.clearDelegate hs ha hd
  refine ⟨t, ht, hH, ?_⟩
  simp only [Handover.clearDelegate, IncomingTaskQueue.clearDelegate_eq (h.serving hd), ok_bind, pure_eq_ok] at ht
  cases ht
  exact ⟨rfl, rfl, rfl⟩

end Handover

end Mtl.Threading
