import Mtl.Foundation.History
import Mtl.Tasks.IncomingTaskQueue

/-! Every posted task is handed on once, in order: any number of threads post while the loop's
thread takes over the buffer, dispatches, shuts down and lets go of the queue. -/
namespace Mtl.Tasks
open Foundation

/-- A task is the number of the posting call that brought it. -/
abbrev TaskId := Nat

inductive TaskEvent where
  | added (task : TaskId) (targetTime : TimePoint)
  | ran (task : TaskId)
  | destroyed (task : TaskId)
  | shutDown
  | cleared
  deriving DecidableEq

/-- The queue and its loop. `running` is the task whose body the loop's thread is in. -/
structure Handover where
  queue : IncomingTaskQueue TaskId := {}
  loop : TaskLoop TaskId := {}
  running : Option TaskId := none
  initialized : Bool := false
  released : Bool := false
  nextTask : TaskId := 0
  log : List TaskEvent := []

/-- What a thread does next; each is atomic. `beginTask` and `cancelTask` dispatch the `i`-th
accepted record, the latter with an error. -/
inductive HandoverAct where
  | post (req : PostRequest)
  | initDelegate
  | beginTask (i : Nat)
  | endTask
  | beginShutdown
  | cancelTask (i : Nat)
  | clearDelegate
  | releaseQueue

namespace Handover

def note (s : Handover) (e : TaskEvent) : Handover := { s with log := e :: s.log }

def post (s : Handover) (req : PostRequest) : Except Fault Handover := do
  let task := s.nextTask
  let (queue, loop, disposal) ← s.queue.addTask s.loop task req.targetTime
  let s := { s with queue := queue, loop := loop, nextTask := task + 1 }.note (.added task req.targetTime)
  return match disposal with
    | .kept => s
    | .deleted | .dropped => s.note (.destroyed task)

def initDelegate (s : Handover) : Except Fault Handover := do
  let (queue, loop, deleted) ← s.queue.initDelegate s.loop
  let s := { s with queue := queue, loop := loop, initialized := true }
  return deleted.foldl (fun s task => s.note (.destroyed task)) s

def beginTask (s : Handover) (i : Nat) : Except Fault Handover :=
  match s.loop.accepted[i]? with
  | none => .error (.useAfterFree i)
  | some record =>
    .ok ({ s with loop := s.loop.handle i, running := some record.task }.note (.ran record.task))

/-- `TaskRecord::Handle` after the task returned. -/
def endTask (s : Handover) : Except Fault Handover :=
  match s.running with
  | none => .error (.useAfterFree 0)
  | some task => .ok ({ s with running := none }.note (.destroyed task))

def cancelTask (s : Handover) (i : Nat) : Except Fault Handover :=
  match s.loop.accepted[i]? with
  | none => .error (.useAfterFree i)
  | some record => .ok ({ s with loop := s.loop.handle i }.note (.destroyed record.task))

def clearDelegate (s : Handover) : Except Fault Handover := do
  let queue ← s.queue.clearDelegate
  return { s with queue := queue }.note .cleared

/-- The last reference to the queue is gone, and the closures in its buffer with it. -/
def releaseQueue (s : Handover) : Handover :=
  { s with
    queue.incomingQueue := []
    released := true
    log := (s.queue.incomingQueue.map fun task => .destroyed task.1) ++ s.log }

end Handover

/-- The loop's thread makes the loop, runs it and destroys it, in this order; everything else is
any thread's, at any time. -/
def handoverMachine : Machine Handover HandoverAct Fault where
  Enabled s
    | .post _ => s.released = false
    | .initDelegate => s.initialized = false ∧ s.released = false
    | .beginTask i => i < s.loop.accepted.length ∧ s.running = none ∧ s.loop.shutDown = false
    | .endTask => s.running ≠ none
    | .beginShutdown => s.initialized = true ∧ s.running = none ∧ s.loop.shutDown = false
    | .cancelTask i => i < s.loop.accepted.length ∧ s.loop.shutDown = true
    | .clearDelegate => s.loop.shutDown = true ∧ s.loop.accepted = [] ∧ s.queue.delegate = true
    | .releaseQueue => s.queue.delegate = false ∧ s.released = false
  step s
    | .post req => s.post req
    | .initDelegate => s.initDelegate
    | .beginTask i => s.beginTask i
    | .endTask => s.endTask
    | .beginShutdown => .ok ({ s with loop := s.loop.beginShutdown }.note .shutDown)
    | .cancelTask i => s.cancelTask i
    | .clearDelegate => s.clearDelegate
    | .releaseQueue => .ok s.releaseQueue

/-- The `AddTask` calls that precede `ClearDelegate`, the last one first. -/
def postedBeforeClear : List TaskEvent → List (TaskId × TimePoint)
  | [] => []
  | .added task targetTime :: log =>
    if .cleared ∈ log then postedBeforeClear log else (task, targetTime) :: postedBeforeClear log
  | _ :: log => postedBeforeClear log

namespace Handover

def buffered (s : Handover) (task : TaskId) : Nat := (s.queue.incomingQueue.map Prod.fst).count task
def accepted (s : Handover) (task : TaskId) : Nat := (s.loop.accepted.map TaskRecord.task).count task
def ran (s : Handover) (task : TaskId) : Nat := s.log.count (.ran task)
def destroyed (s : Handover) (task : TaskId) : Nat := s.log.count (.destroyed task)

end Handover

/-- The hand-over invariant: each task has one owner until it is destroyed, and the buffer goes
on where the calls passed to the delegate end. -/
structure Handed (s : Handover) : Prop where
  owned : ∀ task, s.buffered task + s.accepted task + (if s.running = some task then 1 else 0) +
    s.destroyed task = if task < s.nextTask then 1 else 0
  ran : ∀ task, s.buffered task + s.accepted task + s.ran task ≤ if task < s.nextTask then 1 else 0
  handed : s.released = false ∨ s.initialized = true →
    s.queue.incomingQueue.reverse ++ s.loop.passed = postedBeforeClear s.log
  unstarted : s.initialized = false →
    s.loop.accepted = [] ∧ s.loop.passed = [] ∧ s.running = none ∧ s.loop.shutDown = false
  started : s.initialized = true ↔ s.queue.delegate = true ∨ s.queue.dropIncomingTasks = true
  emptied : s.initialized = true ∨ s.released = true → s.queue.incomingQueue = []
  idle : s.loop.shutDown = true → s.running = none
  drained : s.queue.dropIncomingTasks = true →
    s.queue.delegate = false ∧ s.loop.shutDown = true ∧ s.loop.accepted = []
  let_go : s.released = true → s.queue.delegate = false
  cleared_iff : .cleared ∈ s.log ↔ s.queue.dropIncomingTasks = true
  shutDown_iff : .shutDown ∈ s.log ↔ s.loop.shutDown = true
  runs_first : EveryPast (fun e past => ∀ task, e = .ran task → .shutDown ∉ past) s.log

namespace Handed
variable {s t : Handover}

theorem init : Handed {} := by
  constructor <;> simp [Handover.buffered, Handover.accepted, Handover.destroyed, Handover.ran,
    postedBeforeClear, everyPast_nil]

theorem post_buffering (h : Handed s) (hr : s.released = false) (hdrop : s.queue.dropIncomingTasks = false)
    (hdel : s.queue.delegate = false) (req : PostRequest) : ∃ t, s.post req = .ok t ∧ Handed t := by
  obtain ⟨h1, h2, h3, h4, h5, h6, h7, h8, h9, h10, h11, h12⟩ := h
  simp only [Handover.buffered, Handover.accepted, Handover.destroyed, Handover.ran] at h1 h2
  refine ⟨_, by simp [Handover.post, IncomingTaskQueue.addTask_buffering hdrop hdel, Handover.note]; rfl, ?_⟩
  constructor
  all_goals simp only [Handover.buffered, Handover.accepted, Handover.destroyed, Handover.ran, everyPast_cons]
  all_goals grind [postedBeforeClear]

theorem post_running (h : Handed s) (hdrop : s.queue.dropIncomingTasks = false) (hdel : s.queue.delegate = true)
    (hs : s.loop.shutDown = false) (req : PostRequest) : ∃ t, s.post req = .ok t ∧ Handed t := by
  obtain ⟨h1, h2, h3, h4, h5, h6, h7, h8, h9, h10, h11, h12⟩ := h
  simp only [Handover.buffered, Handover.accepted, Handover.destroyed, Handover.ran] at h1 h2
  refine ⟨_, by simp [Handover.post, IncomingTaskQueue.addTask_running hdrop hdel hs, Handover.note]; rfl, ?_⟩
  constructor
  all_goals simp only [Handover.buffered, Handover.accepted, Handover.destroyed, Handover.ran,
    TaskLoop.accept, TaskRecord.of, everyPast_cons]
  all_goals grind [postedBeforeClear]

theorem post_shuttingDown (h : Handed s) (hdrop : s.queue.dropIncomingTasks = false) (hdel : s.queue.delegate = true)
    (hs : s.loop.shutDown = true) (req : PostRequest) : ∃ t, s.post req = .ok t ∧ Handed t := by
  obtain ⟨h1, h2, h3, h4, h5, h6, h7, h8, h9, h10, h11, h12⟩ := h
  simp only [Handover.buffered, Handover.accepted, Handover.destroyed, Handover.ran] at h1 h2
  refine ⟨_, by simp [Handover.post, IncomingTaskQueue.addTask_shuttingDown hdrop hdel hs, Handover.note]; rfl, ?_⟩
  constructor
  all_goals simp only [Handover.buffered, Handover.accepted, Handover.destroyed, Handover.ran,
    TaskLoop.refuse, everyPast_cons]
  all_goals grind [postedBeforeClear]

theorem post_cleared (h : Handed s) (hdrop : s.queue.dropIncomingTasks = true) (req : PostRequest) :
    ∃ t, s.post req = .ok t ∧ Handed t := by
  obtain ⟨h1, h2, h3, h4, h5, h6, h7, h8, h9, h10, h11, h12⟩ := h
  simp only [Handover.buffered, Handover.accepted, Handover.destroyed, Handover.ran] at h1 h2
  refine ⟨_, by simp [Handover.post, IncomingTaskQueue.addTask_cleared hdrop, Handover.note]; rfl, ?_⟩
  constructor
  all_goals simp only [Handover.buffered, Handover.accepted, Handover.destroyed, Handover.ran, everyPast_cons]
  all_goals grind [postedBeforeClear]

theorem post (h : Handed s) (hr : s.released = false) (req : PostRequest) :
    ∃ t, s.post req = .ok t ∧ Handed t := by
  cases hdrop : s.queue.dropIncomingTasks with
  | true => exact h.post_cleared hdrop req
  | false =>
    cases hdel : s.queue.delegate with
    | false => exact h.post_buffering hr hdrop hdel req
    | true =>
      cases hs : s.loop.shutDown with
      | false => exact h.post_running hdrop hdel hs req
      | true => exact h.post_shuttingDown hdrop hdel hs req

theorem initDelegate (h : Handed s) (hi : s.initialized = false) (hr : s.released = false) :
    ∃ t, s.initDelegate = .ok t ∧ Handed t := by
  obtain ⟨h1, h2, h3, h4, h5, h6, h7, h8, h9, h10, h11, h12⟩ := h
  simp only [Handover.buffered, Handover.accepted, Handover.destroyed, Handover.ran] at h1 h2
  have hdrop : s.queue.dropIncomingTasks = false := by grind
  have hs : s.loop.shutDown = false := (h4 hi).2.2.2
  have htasks := s.loop.acceptAll_tasks s.queue.incomingQueue
  refine ⟨_, by simp [Handover.initDelegate, IncomingTaskQueue.initDelegate_running hdrop hs]; rfl, ?_⟩
  constructor
  all_goals simp only [Handover.buffered, Handover.accepted, Handover.destroyed, Handover.ran, htasks]
  all_goals grind [TaskLoop.acceptAll]

/-- The `i`-th accepted record is one of the owners of its task. -/
theorem accepted_handle {i : Nat} (hi : i < s.loop.accepted.length) (task : TaskId) :
    (s.loop.accepted.map TaskRecord.task).count task =
      ((s.loop.handle i).accepted.map TaskRecord.task).count task +
        if s.loop.accepted[i].task = task then 1 else 0 := by
  have hperm := (List.getElem_cons_eraseIdx_perm hi).map TaskRecord.task
  rw [← hperm.count_eq, List.map_cons, List.count_cons]
  simp [TaskLoop.handle]

theorem beginTask (h : Handed s) {i : Nat} (hi : i < s.loop.accepted.length) (hc : s.running = none)
    (hs : s.loop.shutDown = false) : ∃ t, s.beginTask i = .ok t ∧ Handed t := by
  have hcount := accepted_handle hi
  obtain ⟨h1, h2, h3, h4, h5, h6, h7, h8, h9, h10, h11, h12⟩ := h
  simp only [Handover.buffered, Handover.accepted, Handover.destroyed, Handover.ran] at h1 h2
  refine ⟨_, by simp [Handover.beginTask, hi, Handover.note]; rfl, ?_⟩
  constructor
  all_goals simp only [Handover.buffered, Handover.accepted, Handover.destroyed, Handover.ran, everyPast_cons]
  all_goals grind [postedBeforeClear, TaskLoop.handle]

theorem endTask (h : Handed s) (hc : s.running ≠ none) : ∃ t, s.endTask = .ok t ∧ Handed t := by
  obtain ⟨task, htask⟩ := Option.ne_none_iff_exists'.mp hc
  obtain ⟨h1, h2, h3, h4, h5, h6, h7, h8, h9, h10, h11, h12⟩ := h
  simp only [Handover.buffered, Handover.accepted, Handover.destroyed, Handover.ran] at h1 h2
  refine ⟨_, by simp [Handover.endTask, htask, Handover.note]; rfl, ?_⟩
  constructor
  all_goals simp only [Handover.buffered, Handover.accepted, Handover.destroyed, Handover.ran, everyPast_cons]
  all_goals grind [postedBeforeClear]

theorem beginShutdown (h : Handed s) (hi : s.initialized = true) (hc : s.running = none)
    (hs : s.loop.shutDown = false) :
    Handed ({ s with loop := s.loop.beginShutdown }.note .shutDown) := by
  obtain ⟨h1, h2, h3, h4, h5, h6, h7, h8, h9, h10, h11, h12⟩ := h
  simp only [Handover.buffered, Handover.accepted, Handover.destroyed, Handover.ran] at h1 h2
  constructor
  all_goals simp only [Handover.note, TaskLoop.beginShutdown, Handover.buffered, Handover.accepted,
    Handover.destroyed, Handover.ran, everyPast_cons]
  all_goals grind [postedBeforeClear]

theorem cancelTask (h : Handed s) {i : Nat} (hi : i < s.loop.accepted.length)
    (hs : s.loop.shutDown = true) : ∃ t, s.cancelTask i = .ok t ∧ Handed t := by
  have hcount := accepted_handle hi
  obtain ⟨h1, h2, h3, h4, h5, h6, h7, h8, h9, h10, h11, h12⟩ := h
  simp only [Handover.buffered, Handover.accepted, Handover.destroyed, Handover.ran] at h1 h2
  refine ⟨_, by simp [Handover.cancelTask, hi, Handover.note]; rfl, ?_⟩
  constructor
  all_goals simp only [Handover.buffered, Handover.accepted, Handover.destroyed, Handover.ran, everyPast_cons]
  all_goals grind [postedBeforeClear, TaskLoop.handle]

theorem clearDelegate (h : Handed s) (hs : s.loop.shutDown = true) (ha : s.loop.accepted = [])
    (hd : s.queue.delegate = true) : ∃ t, s.clearDelegate = .ok t ∧ Handed t := by
  obtain ⟨h1, h2, h3, h4, h5, h6, h7, h8, h9, h10, h11, h12⟩ := h
  simp only [Handover.buffered, Handover.accepted, Handover.destroyed, Handover.ran] at h1 h2
  have hdrop : s.queue.dropIncomingTasks = false := by grind
  refine ⟨_, by simp [Handover.clearDelegate, IncomingTaskQueue.clearDelegate_eq hdrop, Handover.note]; rfl, ?_⟩
  constructor
  all_goals simp only [Handover.buffered, Handover.accepted, Handover.destroyed, Handover.ran, everyPast_cons]
  all_goals grind [postedBeforeClear]

theorem releaseQueue (h : Handed s) (hd : s.queue.delegate = false) : Handed s.releaseQueue := by
  have hcount (tasks : List (TaskId × TimePoint)) (task : TaskId) :
      ((tasks.map fun t => TaskEvent.destroyed t.1).count (.destroyed task) = (tasks.map Prod.fst).count task) ∧
      (tasks.map fun t => TaskEvent.destroyed t.1).count (.ran task) = 0 := by
    induction tasks with
    | nil => simp
    | cons t tasks ih => simpa [List.count_cons] using ih
  have hruns := h.runs_first.append (s.queue.incomingQueue.map fun t => .destroyed t.1)
    (by rintro e he past task rfl; simp at he)
  obtain ⟨h1, h2, h3, h4, h5, h6, h7, h8, h9, h10, h11, h12⟩ := h
  simp only [Handover.buffered, Handover.accepted, Handover.destroyed, Handover.ran] at h1 h2
  constructor
  case runs_first => exact hruns
  all_goals simp only [Handover.releaseQueue, Handover.buffered, Handover.accepted, Handover.destroyed,
    Handover.ran, List.count_append, hcount]
  all_goals grind

/-- Every step of every thread keeps the invariant and none faults. -/
theorem step (h : Handed s) (a : HandoverAct) (he : handoverMachine.Enabled s a) :
    ∃ t, handoverMachine.step s a = .ok t ∧ Handed t := by
  cases a with
  | post req => exact h.post he req
  | initDelegate => exact h.initDelegate he.1 he.2
  | beginTask i => exact h.beginTask he.1 he.2.1 he.2.2
  | endTask => exact h.endTask he
  | beginShutdown => exact ⟨_, rfl, h.beginShutdown he.1 he.2.1 he.2.2⟩
  | cancelTask i => exact h.cancelTask he.1 he.2
  | clearDelegate => exact h.clearDelegate he.1 he.2.1 he.2.2
  | releaseQueue => exact ⟨_, rfl, h.releaseQueue he.1⟩

/-- Before the loop is made the queue has no delegate, and the loop is fresh. -/
theorem unmade (h : Handed s) (hi : s.initialized = false) :
    s.queue.delegate = false ∧ s.queue.dropIncomingTasks = false ∧ s.loop = {} := by
  obtain ⟨ha, hp, -, hs⟩ := h.unstarted hi
  have hstarted := h.started
  rw [hi] at hstarted
  refine ⟨by simpa using fun hd => hstarted.mpr (.inl hd), by simpa using fun hd => hstarted.mpr (.inr hd), ?_⟩
  cases hl : s.loop with
  | mk shutDown accepted passed =>
    rw [hl] at ha hp hs
    cases ha
    cases hp
    cases hs
    rfl

/-- A queue with its delegate drops nothing. -/
theorem serving (h : Handed s) (hdel : s.queue.delegate = true) : s.queue.dropIncomingTasks = false := by
  have hdrained := h.drained
  rw [hdel] at hdrained
  simpa using hdrained

end Handed

theorem postedBeforeClear_cleared (later earlier : List TaskEvent) :
    postedBeforeClear (later ++ .cleared :: earlier) = postedBeforeClear earlier := by
  induction later with
  | nil => rfl
  | cons e later ih =>
    cases e with
    | added => simp [postedBeforeClear, ih]
    | ran | destroyed | shutDown | cleared => simpa [postedBeforeClear] using ih

/-- In every interleaving the delegate is passed the `AddTask` calls that precede `ClearDelegate`,
in their order, and none after it. A task runs at most once, never after shutdown has begun, and
has been destroyed exactly once when the loop and the queue are gone. -/
theorem tasks_handed_on_once {acts : List HandoverAct} {result : Except Fault Handover}
    (hrun : handoverMachine.Run {} acts result) :
    ∃ s, result = .ok s ∧
      (s.initialized = true → s.loop.passed = postedBeforeClear s.log) ∧
      (s.initialized = false → s.loop.passed = [] ∧
        (s.released = false → s.queue.incomingQueue.reverse = postedBeforeClear s.log)) ∧
      (∀ later earlier, s.log = later ++ .cleared :: earlier → s.loop.passed = postedBeforeClear earlier) ∧
      (∀ task, s.log.count (.ran task) ≤ 1 ∧ s.log.count (.destroyed task) ≤ 1) ∧
      (∀ later earlier task, s.log = later ++ .shutDown :: earlier → .ran task ∉ later) ∧
      (s.released = true → ∀ task, task < s.nextTask → s.log.count (.destroyed task) = 1) := by
  obtain ⟨s, hs, h⟩ := hrun.safe (I := Handed) (fun s a h he => h.step a he) .init
  have hinit : s.initialized = true → s.loop.passed = postedBeforeClear s.log := by
    intro hi
    have := h.handed (.inr hi)
    rwa [h.emptied (.inl hi)] at this
  refine ⟨s, hs, hinit, ?_, ?_, ?_, ?_, ?_⟩
  · intro hi
    have hpassed := (h.unstarted hi).2.1
    refine ⟨hpassed, fun hr => ?_⟩
    simpa [hpassed] using h.handed (.inl hr)
  · intro later earlier heq
    have hclear := h.cleared_iff.mp (by simp [heq])
    rw [hinit (h.started.mpr (.inr hclear)), heq, postedBeforeClear_cleared]
  · intro task
    have howned := h.owned task
    have hran := h.ran task
    simp only [Handover.destroyed, Handover.ran] at howned hran
    split at howned <;> grind
  · intro later earlier task heq
    exact (heq ▸ h.runs_first).not_mem fun past hp => hp task rfl
  · intro hr task htask
    have howned := h.owned task
    have hrun : s.loop.accepted = [] ∧ s.running = none := by
      cases hi : s.initialized with
      | false => exact ⟨(h.unstarted hi).1, (h.unstarted hi).2.2.1⟩
      | true =>
        have hdrop := (h.started.mp hi).resolve_left (by simp [h.let_go hr])
        exact ⟨(h.drained hdrop).2.2, h.idle (h.drained hdrop).2.1⟩
    simpa [Handover.buffered, Handover.accepted, Handover.destroyed, h.emptied (.inr hr), hrun, htask]
      using howned

/-- One task is buffered, one posted while that one runs, one during shutdown and one after it. -/
theorem tasks_handed_on_once_all_phases :
    ∃ s, handoverMachine.Run {} [.post .postTask, .initDelegate, .beginTask 0,
        .post (.postDelayedTask 5 10), .endTask, .beginShutdown, .post (.postTaskForTime 3), .cancelTask 0,
        .clearDelegate, .post .postTask, .releaseQueue] (.ok s) ∧
      s.loop.passed = [(2, 3), (1, 15), (0, 0)] ∧ s.nextTask = 4 ∧
      ∀ task, task < s.nextTask → s.log.count (.destroyed task) = 1 := by
  have hrun : handoverMachine.Run {} [.post .postTask, .initDelegate, .beginTask 0,
      .post (.postDelayedTask 5 10), .endTask, .beginShutdown, .post (.postTaskForTime 3), .cancelTask 0,
      .clearDelegate, .post .postTask, .releaseQueue] (.ok _) :=
    .step rfl rfl (.step ⟨rfl, rfl⟩ rfl (.step ⟨by decide, rfl, rfl⟩ rfl (.step rfl rfl
      (.step (show _ ≠ none by decide) rfl (.step ⟨rfl, rfl, rfl⟩ rfl (.step rfl rfl
        (.step ⟨by decide, rfl⟩ rfl (.step ⟨rfl, rfl, rfl⟩ rfl (.step rfl rfl
          (.step ⟨rfl, rfl⟩ rfl (.nil _)))))))))))
  obtain ⟨s, hs, -, -, -, -, -, hend⟩ := tasks_handed_on_once hrun
  cases hs
  exact ⟨_, hrun, rfl, rfl, hend rfl⟩

end Mtl.Tasks
