import Mtl.Tasks.IncomingTaskQueue

/-! `Run`, `QuitNow` and `PostQuitTask`: quits cut the stream of immediate tasks into the segments
that the calls of `Run` execute. -/
namespace Mtl.Tasks
open Foundation

/-- What a task or an after-task callback may do to its loop. -/
inductive Command where
  | postTask (task : List Command)
  | quitNow
  | postQuitTask
  | setAfterTaskCallback (callback : List Command)
  | clearAfterTaskCallback

abbrev Program := List Command

/-- One dispatch: the task, and the callback that the epilogue ran after it. -/
structure Turn where
  task : Program
  afterTask : Option Program

/-- `QuitNow` was called in the dispatch. -/
def Turn.Quits (turn : Turn) : Prop :=
  .quitNow ∈ turn.task ∨ ∃ callback, turn.afterTask = some callback ∧ .quitNow ∈ callback

/-- The members of `MessageLoop` that concern tasks. `quit` is the async loop's quit state, `onStack`
says whether the thread is in `Run`, and `posted` has the `PostTask` calls in their order. The
dispatches are those of each `Run` that returned, the first one first, and of the one in progress. -/
structure RunLoop where
  queue : IncomingTaskQueue Program := {}
  loop : TaskLoop Program := {}
  quit : Bool := false
  isRunning : Bool := false
  afterTaskCallback : Option Program := none
  onStack : Bool := false
  posted : List Program := []
  segments : List (List Turn) := []
  turns : List Turn := []

namespace RunLoop

/-- The constructor, on a queue that holds the given tasks. -/
def make (tasks : List Program) : Except Fault RunLoop := do
  let incoming : IncomingTaskQueue Program := { incomingQueue := tasks.map fun task => (task, TimePoint.epoch) }
  let (queue, loop, _) ← incoming.initDelegate {}
  return { queue := queue, loop := loop, posted := tasks }

def postTask (s : RunLoop) (task : Program) : Except Fault RunLoop := do
  let (queue, loop, _) ← s.queue.addTask s.loop task TimePoint.epoch
  return { s with queue := queue, loop := loop, posted := s.posted ++ [task] }

def quitNow (s : RunLoop) : RunLoop := if s.isRunning then { s with quit := true } else s

def postQuitTask (s : RunLoop) : Except Fault RunLoop := s.postTask [.quitNow]

def command (s : RunLoop) : Command → Except Fault RunLoop
  | .postTask task => s.postTask task
  | .quitNow => .ok s.quitNow
  | .postQuitTask => s.postQuitTask
  | .setAfterTaskCallback callback => .ok { s with afterTaskCallback := some callback }
  | .clearAfterTaskCallback => .ok { s with afterTaskCallback := none }

def program (s : RunLoop) (p : Program) : Except Fault RunLoop := p.foldlM command s

def epilogue (s : RunLoop) : Except Fault RunLoop :=
  match s.afterTaskCallback with
  | none => .ok s
  | some callback => s.program callback

/-- The async loop takes its first task, handles it and calls the epilogue. -/
def dispatch (s : RunLoop) : Except Fault RunLoop :=
  match s.loop.accepted with
  | [] => .error (.useAfterFree 0)
  | record :: _ => do
    let ran ← { s with loop := s.loop.handle 0 }.program record.task
    let s ← ran.epilogue
    return { s with turns := s.turns ++ [⟨record.task, ran.afterTaskCallback⟩] }

/-- `Run` up to the call of `loop_.Run()`, and from its return. -/
def run (s : RunLoop) : Except Fault RunLoop :=
  if s.isRunning then .error (.check "Cannot run a nested message loop.")
  else .ok { s with isRunning := true, onStack := true }

def runReturns (s : RunLoop) : Except Fault RunLoop :=
  if s.isRunning then .ok { s with
    quit := false
    isRunning := false
    onStack := false
    segments := s.segments ++ [s.turns]
    turns := [] }
  else .error (.dcheck "is_running_")

/-- The tasks executed so far, over all calls of `Run`. -/
def executed (s : RunLoop) : List Program := (s.segments.flatten ++ s.turns).map Turn.task

end RunLoop

inductive RunAct where
  | postTask (task : Program)
  | postQuitTask
  | quitNow
  | run
  | dispatch
  | runReturns

/-- The async loop's `Run` dispatches until the loop is told to quit. Other threads may post at any time. -/
def runMachine : Machine RunLoop RunAct Fault where
  Enabled s
    | .postTask _ => True
    | .postQuitTask | .quitNow | .run => s.onStack = false
    | .dispatch => s.onStack = true ∧ s.quit = false ∧ s.loop.accepted ≠ []
    | .runReturns => s.onStack = true ∧ s.quit = true
  step s
    | .postTask task => s.postTask task
    | .postQuitTask => s.postQuitTask
    | .quitNow => .ok s.quitNow
    | .run => s.run
    | .dispatch => s.dispatch
    | .runReturns => s.runReturns

/-- A segment ends with its only dispatch that quits. -/
def Cut (turns : List Turn) : Prop :=
  ∃ front last, turns = front ++ [last] ∧ last.Quits ∧ ∀ turn ∈ front, ¬ turn.Quits

/-- What a program does to the loop that runs it. -/
structure Ran (s : RunLoop) (p : Program) (t : RunLoop) : Prop where
  queue : t.queue = s.queue
  shutDown : t.loop.shutDown = s.loop.shutDown
  tasks : ∃ new, t.posted = s.posted ++ new ∧
    t.loop.accepted.map TaskRecord.task = s.loop.accepted.map TaskRecord.task ++ new
  quit : t.quit = true ↔ s.quit = true ∨ (s.isRunning = true ∧ .quitNow ∈ p)
  isRunning : t.isRunning = s.isRunning
  onStack : t.onStack = s.onStack
  segments : t.segments = s.segments
  turns : t.turns = s.turns

/-- The loop takes tasks: it has its queue and is not shutting down. -/
structure Serving (s : RunLoop) : Prop where
  delegate : s.queue.delegate = true
  kept : s.queue.dropIncomingTasks = false
  accepting : s.loop.shutDown = false

namespace Ran
variable {s t : RunLoop} {p : Program}

theorem serving (h : Ran s p t) (hs : Serving s) : Serving t :=
  ⟨h.queue ▸ hs.delegate, h.queue ▸ hs.kept, h.shutDown ▸ hs.accepting⟩

theorem postTask (hs : Serving s) (task : Program) :
    s.postTask task = .ok { s with loop := s.loop.accept task TimePoint.epoch, posted := s.posted ++ [task] } := by
  simp [RunLoop.postTask, IncomingTaskQueue.addTask_running hs.kept hs.delegate hs.accepting]

theorem nil (s : RunLoop) : Ran s [] s :=
  ⟨rfl, rfl, ⟨[], by simp, by simp⟩, by simp, rfl, rfl, rfl, rfl⟩

/-- One command before the rest of the program. -/
theorem cons {u : RunLoop} {c : Command} (hc : Ran s [c] u) (h : Ran u p t) : Ran s (c :: p) t := by
  obtain ⟨new, hposted, haccepted⟩ := hc.tasks
  obtain ⟨new', hposted', haccepted'⟩ := h.tasks
  refine ⟨h.queue.trans hc.queue, h.shutDown.trans hc.shutDown, ⟨new ++ new', ?_, ?_⟩, ?_,
    h.isRunning.trans hc.isRunning, h.onStack.trans hc.onStack, h.segments.trans hc.segments, h.turns.trans hc.turns⟩
  · rw [hposted', hposted, List.append_assoc]
  · rw [haccepted', haccepted, List.append_assoc]
  · rw [h.quit, hc.quit, hc.isRunning, List.mem_singleton, List.mem_cons]
    tauto

theorem posted (s : RunLoop) (c : Command) (hc : c ≠ .quitNow) (task : Program) :
    Ran s [c] { s with loop := s.loop.accept task TimePoint.epoch, posted := s.posted ++ [task] } :=
  ⟨rfl, rfl, ⟨[task], rfl, by simp [TaskLoop.accept, TaskRecord.of]⟩, by simp [hc.symm], rfl, rfl, rfl, rfl⟩

theorem command (hs : Serving s) (c : Command) : ∃ t, s.command c = .ok t ∧ Ran s [c] t := by
  cases c with
  | postTask task => exact ⟨_, postTask hs task, posted s _ (by simp) task⟩
  | postQuitTask => exact ⟨_, postTask hs [.quitNow], posted s _ (by simp) [.quitNow]⟩
  | quitNow =>
    refine ⟨s.quitNow, rfl, ?_⟩
    unfold RunLoop.quitNow
    split_ifs with hr
    · exact ⟨rfl, rfl, ⟨[], by simp, by simp⟩, by simp [hr], rfl, rfl, rfl, rfl⟩
    · exact ⟨rfl, rfl, ⟨[], by simp, by simp⟩, by simp [hr], rfl, rfl, rfl, rfl⟩
  | setAfterTaskCallback callback =>
    exact ⟨_, rfl, rfl, rfl, ⟨[], by simp, by simp⟩, by simp, rfl, rfl, rfl, rfl⟩
  | clearAfterTaskCallback =>
    exact ⟨_, rfl, rfl, rfl, ⟨[], by simp, by simp⟩, by simp, rfl, rfl, rfl, rfl⟩

/-- Every program of a task or a callback runs to its end. -/
theorem program (hs : Serving s) (p : Program) : ∃ t, s.program p = .ok t ∧ Ran s p t := by
  induction p generalizing s with
  | nil => exact ⟨s, rfl, nil s⟩
  | cons c p ih =>
    obtain ⟨u, hu, hc⟩ := command hs c
    obtain ⟨t, ht, hp⟩ := ih (hc.serving hs)
    refine ⟨t, ?_, cons hc hp⟩
    rw [RunLoop.program, List.foldlM_cons, hu]
    exact ht

/-- The epilogue runs the callback that the task left. -/
theorem epilogue (hs : Serving s) :
    ∃ t, s.epilogue = .ok t ∧ Ran s (s.afterTaskCallback.getD []) t := by
  unfold RunLoop.epilogue
  cases s.afterTaskCallback with
  | none => exact ⟨s, rfl, nil s⟩
  | some callback => exact program hs callback

end Ran

theorem Turn.quits_iff (turn : Turn) : turn.Quits ↔ .quitNow ∈ turn.task ∨ .quitNow ∈ turn.afterTask.getD [] := by
  cases h : turn.afterTask <;> simp [Turn.Quits, h]

/-- Executed tasks and accepted ones make up what was posted, and only the dispatch that told the
loop to quit is the last of its segment. -/
structure Segmented (s : RunLoop) : Prop where
  serving : Serving s
  stream : s.executed ++ s.loop.accepted.map TaskRecord.task = s.posted
  running : s.isRunning = s.onStack
  cut : ∀ segment ∈ s.segments, Cut segment
  idle : s.onStack = false → s.turns = [] ∧ s.quit = false
  quitting : s.quit = true → Cut s.turns
  going : s.quit = false → ∀ turn ∈ s.turns, ¬ turn.Quits

namespace Segmented
variable {s t : RunLoop}

/-- The constructor takes over what its queue holds. -/
theorem make (tasks : List Program) :
    ∃ s, RunLoop.make tasks = .ok s ∧ Segmented s ∧ s.onStack = false ∧ s.segments = [] := by
  refine ⟨{
      queue := { delegate := true }
      loop := TaskLoop.acceptAll {} (tasks.map fun task => (task, TimePoint.epoch))
      posted := tasks }, by simp [RunLoop.make, IncomingTaskQueue.initDelegate_running],
    ⟨⟨rfl, rfl, rfl⟩, ?_, rfl, by simp, fun _ => ⟨rfl, rfl⟩, by simp, by simp⟩, rfl, rfl⟩
  simp [RunLoop.executed, TaskLoop.acceptAll_tasks, Function.comp_def]

theorem postTask (h : Segmented s) (task : Program) :
    ∃ t, s.postTask task = .ok t ∧ Segmented t ∧ t.onStack = s.onStack ∧ t.segments = s.segments := by
  refine ⟨_, Ran.postTask h.serving task, ⟨⟨h.serving.delegate, h.serving.kept, h.serving.accepting⟩, ?_, h.running, h.cut,
    h.idle, h.quitting, h.going⟩, rfl, rfl⟩
  rw [← h.stream]
  simp [RunLoop.executed, TaskLoop.accept, TaskRecord.of]

/-- Outside of `Run` a quit is not even noted. -/
theorem quitNow (h : Segmented s) (hout : s.onStack = false) : s.quitNow = s := by
  rw [RunLoop.quitNow, h.running, hout]
  rfl

theorem run (h : Segmented s) (hout : s.onStack = false) :
    ∃ t, s.run = .ok t ∧ Segmented t ∧ t.onStack = true ∧ t.segments = s.segments := by
  refine ⟨{ s with isRunning := true, onStack := true }, by simp [RunLoop.run, h.running, hout],
    ⟨⟨h.serving.delegate, h.serving.kept, h.serving.accepting⟩, h.stream, rfl, h.cut, by simp, h.quitting, h.going⟩,
    rfl, rfl⟩

theorem runReturns (h : Segmented s) (hin : s.onStack = true) (hquit : s.quit = true) :
    ∃ t, s.runReturns = .ok t ∧ Segmented t ∧ t.onStack = false ∧ t.segments = s.segments ++ [s.turns] := by
  refine ⟨{ s with
      quit := false, isRunning := false, onStack := false, segments := s.segments ++ [s.turns], turns := [] },
    by simp [RunLoop.runReturns, h.running, hin], ⟨⟨h.serving.delegate, h.serving.kept, h.serving.accepting⟩, ?_, rfl,
    ?_, fun _ => ⟨rfl, rfl⟩, by simp, by simp⟩, rfl, rfl⟩
  · rw [← h.stream]
    simp [RunLoop.executed]
  · intro segment hmem
    rcases List.mem_append.mp hmem with hold | hnew
    · exact h.cut segment hold
    · rw [List.mem_singleton.mp hnew]
      exact h.quitting hquit

/-- One dispatch: the next task in posting order goes from the accepted to the executed ones. -/
theorem dispatch (h : Segmented s) (hin : s.onStack = true) (hquit : s.quit = false) (hmore : s.loop.accepted ≠ []) :
    ∃ t, s.dispatch = .ok t ∧ Segmented t ∧ t.onStack = true ∧ t.segments = s.segments := by
  obtain ⟨record, rest, haccepted⟩ := List.exists_cons_of_ne_nil hmore
  have htaken : Serving { s with loop := s.loop.handle 0 } := ⟨h.serving.delegate, h.serving.kept, h.serving.accepting⟩
  obtain ⟨u, hu, hran⟩ := Ran.program htaken record.task
  obtain ⟨t, ht, hepilogue⟩ := Ran.epilogue (hran.serving htaken)
  obtain ⟨new, hposted, haccept⟩ := hran.tasks
  obtain ⟨new', hposted', haccept'⟩ := hepilogue.tasks
  have hserving := hepilogue.serving (hran.serving htaken)
  have hsegments : t.segments = s.segments := hepilogue.segments.trans hran.segments
  have hturns : t.turns = s.turns := hepilogue.turns.trans hran.turns
  have hrunning : t.isRunning = true := (hepilogue.isRunning.trans hran.isRunning).trans (h.running.trans hin)
  have hstack : t.onStack = true := (hepilogue.onStack.trans hran.onStack).trans hin
  have hquits : t.quit = true ↔ Turn.Quits ⟨record.task, u.afterTaskCallback⟩ := by
    have hu' : u.isRunning = true := hran.isRunning.trans (h.running.trans hin)
    rw [hepilogue.quit, hran.quit, Turn.quits_iff, hu', h.running, hin, hquit]
    simp
  refine ⟨{ t with turns := t.turns ++ [⟨record.task, u.afterTaskCallback⟩] },
    by simp [RunLoop.dispatch, haccepted, hu, ht], ⟨⟨hserving.delegate, hserving.kept, hserving.accepting⟩, ?_,
    hrunning.trans hstack.symm, fun segment hmem => h.cut segment (hsegments ▸ hmem), fun hout => ?_, fun hq => ?_,
    fun hq => ?_⟩, hstack, hsegments⟩
  · simp only [RunLoop.executed, hsegments, hturns, haccept', haccept, hposted', hposted, ← h.stream, haccepted,
      TaskLoop.handle]
    simp
  · exact absurd (hstack.symm.trans hout) (by simp)
  · exact ⟨s.turns, _, by rw [hturns], hquits.mp hq, h.going hquit⟩
  · simp only [hturns, List.forall_mem_append, List.forall_mem_singleton]
    exact ⟨h.going hquit, fun hlast => by simp [hquits.mpr hlast] at hq⟩

theorem step (h : Segmented s) (a : RunAct) (he : runMachine.Enabled s a) :
    ∃ t, runMachine.step s a = .ok t ∧ Segmented t := by
  cases a with
  | postTask task =>
    obtain ⟨t, ht, hsegmented, -⟩ := h.postTask task
    exact ⟨t, ht, hsegmented⟩
  | postQuitTask =>
    obtain ⟨t, ht, hsegmented, -⟩ := h.postTask [.quitNow]
    exact ⟨t, ht, hsegmented⟩
  | quitNow => exact ⟨s, congrArg Except.ok (h.quitNow he), h⟩
  | run =>
    obtain ⟨t, ht, hsegmented, -⟩ := h.run he
    exact ⟨t, ht, hsegmented⟩
  | dispatch =>
    obtain ⟨t, ht, hsegmented, -⟩ := h.dispatch he.1 he.2.1 he.2.2
    exact ⟨t, ht, hsegmented⟩
  | runReturns =>
    obtain ⟨t, ht, hsegmented, -⟩ := h.runReturns he.1 he.2
    exact ⟨t, ht, hsegmented⟩

end Segmented

/-- The executed tasks are a prefix of the posted ones. Each `Run` that returned executed the tasks up
to and including the first that quits, and the one in progress has not got beyond it. `is_running_`
says whether the thread is in `Run`, and the loop is told to quit at no other time. -/
theorem quits_cut_the_stream {tasks : List Program} {start : RunLoop} (hmake : RunLoop.make tasks = .ok start)
    {acts : List RunAct} {result : Except Fault RunLoop} (hrun : runMachine.Run start acts result) :
    ∃ s, result = .ok s ∧ s.executed <+: s.posted ∧ (∀ segment ∈ s.segments, Cut segment) ∧
      s.isRunning = s.onStack ∧ (s.onStack = false → s.turns = [] ∧ s.quit = false) ∧
      (if s.quit then Cut s.turns else ∀ turn ∈ s.turns, ¬ turn.Quits) := by
  obtain ⟨start', hstart, hinit, -⟩ := Segmented.make tasks
  cases hmake.symm.trans hstart
  obtain ⟨s, hs, h⟩ := hrun.safe (I := Segmented) (fun s a h he => h.step a he) hinit
  refine ⟨s, hs, ⟨_, h.stream⟩, h.cut, h.running, h.idle, ?_⟩
  split_ifs with hquit
  · exact h.quitting hquit
  · exact h.going (by simpa using hquit)

/-- Of two buffered tasks the first posts one that quits. -/
private def twoTasks : RunLoop where
  queue := { delegate := true }
  loop := TaskLoop.acceptAll {} [([.postTask [.quitNow]], TimePoint.epoch), ([], TimePoint.epoch)]
  posted := [[.postTask [.quitNow]], []]

/-- `QuitNow` before `Run` is in vain, and a second `Run` is ended by a quit task. -/
theorem quits_cut_the_stream_nested :
    ∃ s, runMachine.Run twoTasks [.quitNow, .run, .dispatch, .dispatch, .dispatch, .runReturns, .postQuitTask, .run,
        .dispatch, .runReturns] (.ok s) ∧
      s.segments.map List.length = [3, 1] ∧ s.executed <+: s.posted := by
  have hrun : runMachine.Run twoTasks [.quitNow, .run, .dispatch, .dispatch, .dispatch, .runReturns, .postQuitTask, .run,
      .dispatch, .runReturns] (.ok _) :=
    .step rfl rfl (.step rfl rfl (.step ⟨rfl, rfl, List.cons_ne_nil _ _⟩ rfl
      (.step ⟨rfl, rfl, List.cons_ne_nil _ _⟩ rfl (.step ⟨rfl, rfl, List.cons_ne_nil _ _⟩ rfl
        (.step ⟨rfl, rfl⟩ rfl (.step rfl rfl (.step rfl rfl (.step ⟨rfl, rfl, List.cons_ne_nil _ _⟩ rfl
          (.step ⟨rfl, rfl⟩ rfl (.nil _))))))))))
  have hmake : RunLoop.make [[.postTask [.quitNow]], []] = .ok twoTasks := rfl
  obtain ⟨s, hs, hprefix, -⟩ := quits_cut_the_stream hmake hrun
  cases hs
  exact ⟨_, hrun, rfl, hprefix⟩

end Mtl.Tasks
