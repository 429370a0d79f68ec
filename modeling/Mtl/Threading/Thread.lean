import Mtl.Tasks.RunSegments

/-! `Thread`: one queue for its whole life, and a message loop for each body that `Run` starts. -/
namespace Mtl.Threading
open Foundation Tasks

/-- Where the thread's body is; there is none before `Run` and after `Join`. -/
inductive BodyPhase where
  | none
  | started
  | constructed
  | running
  | returned
  | shuttingDown
  | finished
  deriving DecidableEq

/-- A `Thread`. `main` has its queue and the message loop of the body, and counts as posted what was posted
until `Run` of that loop returned; `runs` is how often a body was started. -/
structure Thread where
  main : RunLoop := {}
  phase : BodyPhase := .none
  runs : Nat := 0

namespace Thread

/-- What is posted now comes before `Run` of the loop returns. -/
def Heeds (s : Thread) : Prop := s.runs = 0 ∨ s.phase = .started ∨ s.phase = .constructed ∨ s.phase = .running

instance (s : Thread) : Decidable s.Heeds := inferInstanceAs (Decidable (_ ∨ _))

/-- `TaskRunner()->PostTask`, on any thread. -/
def postTask (s : Thread) (task : Program) : Except Fault Thread := do
  let main ← s.main.postTask task
  return { s with main := if s.Heeds then main else { main with posted := s.main.posted } }

/-- `Main` up to `message_loop.Run()`: the loop is new, the queue is not. -/
def construct (s : Thread) : Except Fault Thread := do
  let (queue, loop, _) ← s.main.queue.initDelegate {}
  return { s with
    main := { queue := queue, loop := loop, posted := s.main.queue.incomingQueue.map Prod.fst }
    phase := .constructed }

def loopRun (s : Thread) : Except Fault Thread := do
  let main ← s.main.run
  return { s with main := main, phase := .running }

def dispatch (s : Thread) : Except Fault Thread := do
  let main ← s.main.dispatch
  return { s with main := main }

def loopReturns (s : Thread) : Except Fault Thread := do
  let main ← s.main.runReturns
  return { s with main := main, phase := .returned }

/-- `~MessageLoop` after `loop_.Shutdown()`, and the end of `Main`. -/
def clearDelegate (s : Thread) : Except Fault Thread := do
  let queue ← s.main.queue.clearDelegate
  return { s with main.queue := queue, phase := .finished }

end Thread

inductive ThreadAct where
  | run
  | construct
  | loopRun
  | dispatch
  | loopReturns
  | beginShutdown
  | cancelTask (i : Nat)
  | clearDelegate
  | join
  | postTask (task : Program)

/-- `ftl::Thread` starts a body when there is none, and `Join` waits for its end. The loop's tasks are immediate,
so that it takes them in order until it is told to quit; when it shuts down it deletes the rest. -/
def threadMachine : Machine Thread ThreadAct Fault where
  Enabled s
    | .run => s.phase = .none
    | .construct => s.phase = .started
    | .loopRun => s.phase = .constructed
    | .dispatch => s.phase = .running ∧ s.main.quit = false ∧ s.main.loop.accepted ≠ []
    | .loopReturns => s.phase = .running ∧ s.main.quit = true
    | .beginShutdown => s.phase = .returned
    | .cancelTask i => s.phase = .shuttingDown ∧ i < s.main.loop.accepted.length
    | .clearDelegate => s.phase = .shuttingDown ∧ s.main.loop.accepted = []
    | .join => s.phase = .finished
    | .postTask _ => True
  step s
    | .run => .ok { s with phase := .started, runs := s.runs + 1 }
    | .construct => s.construct
    | .loopRun => s.loopRun
    | .dispatch => s.dispatch
    | .loopReturns => s.loopReturns
    | .beginShutdown => .ok { s with main.loop := s.main.loop.beginShutdown, phase := .shuttingDown }
    | .cancelTask i => .ok { s with main.loop := s.main.loop.handle i }
    | .clearDelegate => s.clearDelegate
    | .join => .ok { s with phase := .none }
    | .postTask task => s.postTask task

/-- `Run` is called once. -/
def Thread.Once (s : Thread) : ThreadAct → Prop
  | .run => s.runs = 0
  | _ => True

/-! ## One body -/

/-- No loop was made yet, and the queue holds what was posted. -/
def buffering (tasks : List Program) : RunLoop :=
  { queue := { incomingQueue := tasks.map fun task => (task, TimePoint.epoch) }, posted := tasks }

/-- The one `Run` of the loop is over. -/
structure Served (main : RunLoop) : Prop where
  order : main.executed <+: main.posted
  segment : ∃ segment, main.segments = [segment] ∧ Cut segment ∧ main.turns = []

namespace Thread

/-- What the phase of the only body says of its loop. -/
def Follows (s : Thread) : BodyPhase → Prop
  | .none => s.runs = 0 ∧ s.main = buffering s.main.posted ∨ s.runs = 1 ∧ Served s.main ∧ s.main.queue.dropIncomingTasks = true
  | .started => s.runs = 1 ∧ s.main = buffering s.main.posted
  | .constructed => s.runs = 1 ∧ Segmented s.main ∧ s.main.onStack = false ∧ s.main.segments = []
  | .running => s.runs = 1 ∧ Segmented s.main ∧ s.main.onStack = true ∧ s.main.segments = []
  | .returned | .shuttingDown => s.runs = 1 ∧ Served s.main ∧ s.main.queue.dropIncomingTasks = false
  | .finished => s.runs = 1 ∧ Served s.main ∧ s.main.queue.dropIncomingTasks = true

end Thread

theorem buffering_postTask (tasks : List Program) (task : Program) :
    (buffering tasks).postTask task = .ok (buffering (tasks ++ [task])) := by
  simp [RunLoop.postTask, buffering, IncomingTaskQueue.addTask_buffering]

theorem Served.same {main main' : RunLoop} (h : Served main) (hposted : main'.posted = main.posted)
    (hsegments : main'.segments = main.segments) (hturns : main'.turns = main.turns) : Served main' := by
  obtain ⟨horder, segment, hsegment, hcut, hnone⟩ := h
  refine ⟨?_, segment, hsegments.trans hsegment, hcut, hturns.trans hnone⟩
  rwa [RunLoop.executed, hsegments, hturns, hposted]

/-- When the loop was told to quit, the dispatch that told it is the last. -/
theorem Served.of_returned {main main' : RunLoop} (h : Segmented main') (hout : main'.onStack = false)
    (hsegments : main'.segments = [main.turns]) : Served main' :=
  ⟨⟨_, h.stream⟩, main.turns, hsegments, h.cut _ (by simp [hsegments]), (h.idle hout).1⟩

namespace Thread
variable {s : Thread}

/-- A task that is posted after `Run` of the loop returned changes nothing that was done. -/
theorem postTask_unheeded (h : Served s.main) (hnot : ¬ s.Heeds) (task : Program) :
    ∃ t, s.postTask task = .ok t ∧ t.phase = s.phase ∧ t.runs = s.runs ∧ Served t.main ∧
      t.main.queue.dropIncomingTasks = s.main.queue.dropIncomingTasks := by
  obtain ⟨queue, loop, disposal, hadd⟩ := s.main.queue.addTask_ok s.main.loop task TimePoint.epoch
  refine ⟨{ s with main := { s.main with queue := queue, loop := loop } }, ?_, rfl, rfl, h.same rfl rfl rfl,
    (IncomingTaskQueue.addTask_facts hadd).2.1⟩
  simp [postTask, RunLoop.postTask, hadd, hnot]

/-- Until then it waits in the queue, or in the loop. -/
theorem postTask_heeded (hs : s.Heeds) {main : RunLoop} {task : Program} (hpost : s.main.postTask task = .ok main) :
    s.postTask task = .ok { s with main := main } := by
  simp [postTask, hpost, hs]

/-- The loop of the first body takes over what the queue holds. -/
theorem construct_eq {tasks : List Program} (hbuffer : s.main = buffering tasks) {main : RunLoop}
    (hmake : RunLoop.make tasks = .ok main) :
    s.construct = .ok { s with main := main, phase := .constructed } := by
  simp only [RunLoop.make, IncomingTaskQueue.initDelegate_running, ok_bind, pure_eq_ok] at hmake
  cases hmake
  simp [construct, hbuffer, buffering, IncomingTaskQueue.initDelegate_running, Function.comp_def]

/-- A queue whose loop is gone takes no other one. -/
theorem construct_dropped (hdrop : s.main.queue.dropIncomingTasks = true) :
    s.construct = .error (.dcheck "!drop_incoming_tasks_") := by
  simp [construct, IncomingTaskQueue.initDelegate, hdrop]

theorem step (h : s.Follows s.phase) (a : ThreadAct) (he : threadMachine.Enabled s a) (honce : s.Once a) :
    ∃ t, threadMachine.step s a = .ok t ∧ t.Follows t.phase := by
  cases a with
  | run =>
    rw [show s.phase = .none from he] at h
    have hfirst := h.resolve_right fun hserved => absurd (hserved.1.symm.trans honce) (by decide)
    exact ⟨_, rfl, by simp [hfirst.1], hfirst.2⟩
  | construct =>
    obtain ⟨hruns, hbuffer⟩ := (show s.phase = BodyPhase.started from he) ▸ h
    obtain ⟨main, hmake, hsegmented, hout, hnone⟩ := Segmented.make s.main.posted
    exact ⟨_, construct_eq hbuffer hmake, hruns, hsegmented, hout, hnone⟩
  | loopRun =>
    obtain ⟨hruns, hsegmented, hout, hnone⟩ := (show s.phase = BodyPhase.constructed from he) ▸ h
    obtain ⟨main, hrun, hsegmented', hin, hsame⟩ := hsegmented.run hout
    exact ⟨{ s with main := main, phase := .running }, by simp [threadMachine, loopRun, hrun], hruns, hsegmented', hin,
      hsame.trans hnone⟩
  | dispatch =>
    obtain ⟨hphase, hquit, hmore⟩ := he
    obtain ⟨hruns, hsegmented, hin, hnone⟩ := hphase ▸ h
    obtain ⟨main, hdispatch, hsegmented', hin', hsame⟩ := hsegmented.dispatch hin hquit hmore
    refine ⟨{ s with main := main }, by simp [threadMachine, dispatch, hdispatch], ?_⟩
    rw [hphase]
    exact ⟨hruns, hsegmented', hin', hsame.trans hnone⟩
  | loopReturns =>
    obtain ⟨hphase, hquit⟩ := he
    obtain ⟨hruns, hsegmented, hin, hnone⟩ := hphase ▸ h
    obtain ⟨main, hreturns, hsegmented', hout, hsame⟩ := hsegmented.runReturns hin hquit
    rw [hnone] at hsame
    exact ⟨{ s with main := main, phase := .returned }, by simp [threadMachine, loopReturns, hreturns], hruns,
      .of_returned hsegmented' hout hsame, hsegmented'.serving.kept⟩
  | beginShutdown =>
    obtain ⟨hruns, hserved, hkept⟩ := (show s.phase = BodyPhase.returned from he) ▸ h
    exact ⟨_, rfl, hruns, hserved.same rfl rfl rfl, hkept⟩
  | cancelTask i =>
    obtain ⟨hphase, -⟩ := he
    obtain ⟨hruns, hserved, hkept⟩ := hphase ▸ h
    refine ⟨_, rfl, ?_⟩
    rw [hphase]
    exact ⟨hruns, hserved.same rfl rfl rfl, hkept⟩
  | clearDelegate =>
    obtain ⟨hphase, -⟩ := he
    obtain ⟨hruns, hserved, hkept⟩ := hphase ▸ h
    have hclear := IncomingTaskQueue.clearDelegate_eq hkept
    exact ⟨{ s with
      main.queue := { s.main.queue with dropIncomingTasks := true, delegate := false }
      phase := .finished }, by simp [threadMachine, clearDelegate, hclear], hruns, hserved.same rfl rfl rfl, rfl⟩
  | join =>
    obtain ⟨hruns, hserved, hdrop⟩ := (show s.phase = BodyPhase.finished from he) ▸ h
    exact ⟨_, rfl, .inr ⟨hruns, hserved.same rfl rfl rfl, hdrop⟩⟩
  | postTask task =>
    -- the queue holds the task, the loop takes it, or it comes too late
    have hbuffers (hs : s.Heeds) (hbuffer : s.main = buffering s.main.posted) :
        s.postTask task = .ok { s with main := buffering (s.main.posted ++ [task]) } :=
      postTask_heeded hs (hbuffer ▸ buffering_postTask _ task)
    have hlate (hserved : Served s.main) (hruns : s.runs = 1) (hphase : s.phase = .none ∨ s.phase = .returned ∨
        s.phase = .shuttingDown ∨ s.phase = .finished) :
        ∃ t, s.postTask task = .ok t ∧ t.phase = s.phase ∧ t.runs = 1 ∧ Served t.main ∧
          t.main.queue.dropIncomingTasks = s.main.queue.dropIncomingTasks := by
      have hnot : ¬ s.Heeds := by
        rw [Heeds, hruns]
        rcases hphase with hphase | hphase | hphase | hphase <;> simp [hphase]
      obtain ⟨t, ht, hsame, hruns', hrest⟩ := postTask_unheeded hserved hnot task
      exact ⟨t, ht, hsame, hruns'.trans hruns, hrest⟩
    cases hphase : s.phase with
    | none =>
      rcases hphase ▸ h with ⟨hruns, hbuffer⟩ | ⟨hruns, hserved, hdrop⟩
      · refine ⟨_, hbuffers (.inl hruns) hbuffer, ?_⟩
        rw [hphase]
        exact .inl ⟨hruns, rfl⟩
      · obtain ⟨t, ht, hsame, hruns', hserved', hdrop'⟩ := hlate hserved hruns (.inl hphase)
        refine ⟨t, ht, ?_⟩
        rw [hsame, hphase]
        exact .inr ⟨hruns', hserved', hdrop'.trans hdrop⟩
    | started =>
      obtain ⟨hruns, hbuffer⟩ := hphase ▸ h
      refine ⟨_, hbuffers (.inr (.inl hphase)) hbuffer, ?_⟩
      rw [hphase]
      exact ⟨hruns, rfl⟩
    | constructed =>
      obtain ⟨hruns, hsegmented, hout, hnone⟩ := hphase ▸ h
      obtain ⟨main, hpost, hsegmented', hout', hsame⟩ := hsegmented.postTask task
      refine ⟨_, postTask_heeded (.inr (.inr (.inl hphase))) hpost, ?_⟩
      rw [hphase]
      exact ⟨hruns, hsegmented', hout'.trans hout, hsame.trans hnone⟩
    | running =>
      obtain ⟨hruns, hsegmented, hin, hnone⟩ := hphase ▸ h
      obtain ⟨main, hpost, hsegmented', hin', hsame⟩ := hsegmented.postTask task
      refine ⟨_, postTask_heeded (.inr (.inr (.inr hphase))) hpost, ?_⟩
      rw [hphase]
      exact ⟨hruns, hsegmented', hin'.trans hin, hsame.trans hnone⟩
    | returned | shuttingDown | finished =>
      obtain ⟨hruns, hserved, hdrop⟩ := hphase ▸ h
      obtain ⟨t, ht, hsame, hruns', hserved', hdrop'⟩ := hlate hserved hruns (by simp [hphase])
      refine ⟨t, ht, ?_⟩
      rw [hsame, hphase]
      exact ⟨hruns', hserved', hdrop'.trans hdrop⟩

/-- The tasks are executed in the order in which they were posted. -/
theorem order (h : s.Follows s.phase) : s.main.executed <+: s.main.posted := by
  have hnothing (hbuffer : s.main = buffering s.main.posted) : s.main.executed <+: s.main.posted := by
    rw [hbuffer]
    exact List.nil_prefix
  cases hphase : s.phase with
  | none =>
    rcases hphase ▸ h with ⟨-, hbuffer⟩ | ⟨-, hserved, -⟩
    · exact hnothing hbuffer
    · exact hserved.order
  | started => exact hnothing (hphase ▸ h).2
  | constructed | running => exact ⟨_, (hphase ▸ h).2.1.stream⟩
  | returned | shuttingDown | finished => exact (hphase ▸ h).2.1.order

/-- The loop's `Run` ended with the first dispatch that quits. -/
theorem served (h : s.Follows s.phase) (hstarted : 0 < s.runs) (hnot : ¬ s.Heeds) : Served s.main := by
  cases hphase : s.phase with
  | none =>
    rcases hphase ▸ h with ⟨hzero, -⟩ | ⟨-, hserved, -⟩
    · exact absurd hstarted (by simp [hzero])
    · exact hserved
  | started | constructed | running => exact absurd hnot (by simp [Heeds, hphase])
  | returned | shuttingDown | finished => exact (hphase ▸ h).2.1

end Thread

/-- In every run that starts the thread once nothing fails, and the loop executes the tasks in the order in which
they were posted: until it is made they wait in the queue, after that in the loop, which goes on with the next one
until one of them quits; and the dispatch that quits is the last. A body that is started again fails as soon as it
makes its loop. -/
theorem thread_executes_posted {acts : List ThreadAct} {result : Except Fault Thread}
    (hrun : (threadMachine.restrict Thread.Once).Run {} acts result) :
    ∃ s, result = .ok s ∧ s.main.executed <+: s.main.posted ∧
      (s.runs = 0 ∨ s.phase = .started → s.main.queue.incomingQueue.map Prod.fst = s.main.posted) ∧
      (s.phase = .constructed ∨ s.phase = .running →
        s.main.executed ++ s.main.loop.accepted.map TaskRecord.task = s.main.posted) ∧
      (s.phase = .running → (if s.main.quit then Cut s.main.turns else ∀ turn ∈ s.main.turns, ¬ turn.Quits) ∧
        (s.main.quit = false → s.main.executed ≠ s.main.posted → threadMachine.Enabled s .dispatch)) ∧
      (0 < s.runs → ¬ s.Heeds → ∃ segment, s.main.executed = segment.map Turn.task ∧ Cut segment) ∧
      (s.phase = .none → 0 < s.runs → ∃ t, threadMachine.step s .run = .ok t ∧
        threadMachine.step t .construct = .error (.dcheck "!drop_incoming_tasks_")) := by
  have hstep (s : Thread) (a : ThreadAct) (h : s.Follows s.phase) (he : (threadMachine.restrict Thread.Once).Enabled s a) :=
    Thread.step h a he.1 he.2
  obtain ⟨s, rfl, h⟩ := hrun.safe (I := fun s => s.Follows s.phase) hstep (.inl ⟨rfl, rfl⟩)
  refine ⟨s, rfl, Thread.order h, ?_, ?_, ?_, ?_, ?_⟩
  · intro hearly
    have hbuffer : s.main = buffering s.main.posted := by
      cases hphase : s.phase with
      | none =>
        have hzero : s.runs = 0 := hearly.resolve_right (by simp [hphase])
        rcases hphase ▸ h with ⟨-, hbuffer⟩ | ⟨hone, -⟩
        · exact hbuffer
        · exact absurd (hzero.symm.trans hone) (by decide)
      | started => exact (hphase ▸ h).2
      | constructed | running | returned | shuttingDown | finished =>
        have hzero : s.runs = 0 := hearly.resolve_right (by simp [hphase])
        exact absurd (hzero.symm.trans (hphase ▸ h).1) (by decide)
    rw [hbuffer]
    simp [buffering, Function.comp_def]
  · rintro (hphase | hphase)
    · exact (hphase ▸ h).2.1.stream
    · exact (hphase ▸ h).2.1.stream
  · intro hphase
    obtain ⟨-, hsegmented, -, -⟩ := hphase ▸ h
    refine ⟨?_, fun hquit hmore => ⟨hphase, hquit, fun hnone => hmore ?_⟩⟩
    · split_ifs with hquit
      · exact hsegmented.quitting hquit
      · exact hsegmented.going (by simpa using hquit)
    · rw [← hsegmented.stream, hnone, List.map_nil, List.append_nil]
  · intro hstarted hnot
    obtain ⟨-, segment, hsegment, hcut, hturns⟩ := Thread.served h hstarted hnot
    exact ⟨segment, by simp [RunLoop.executed, hsegment, hturns], hcut⟩
  · intro hphase hstarted
    rcases hphase ▸ h with ⟨hzero, -⟩ | ⟨-, -, hdrop⟩
    · exact absurd hstarted (by simp [hzero])
    · exact ⟨_, rfl, Thread.construct_dropped hdrop⟩

/-- A task is posted before `Run`, one that quits after it, and a third one behind that. -/
theorem thread_executes_posted_first :
    ∃ s, (threadMachine.restrict Thread.Once).Run {} [.postTask [], .run, .construct, .loopRun, .postTask [.quitNow],
        .postTask [], .dispatch, .dispatch, .loopReturns, .beginShutdown, .cancelTask 0, .clearDelegate, .join] (.ok s) ∧
      s.main.executed.length = 2 ∧ s.main.posted.length = 3 ∧ s.main.executed <+: s.main.posted := by
  have hrun : (threadMachine.restrict Thread.Once).Run {} [.postTask [], .run, .construct, .loopRun, .postTask [.quitNow],
      .postTask [], .dispatch, .dispatch, .loopReturns, .beginShutdown, .cancelTask 0, .clearDelegate, .join] (.ok _) :=
    .step ⟨trivial, trivial⟩ rfl (.step ⟨rfl, rfl⟩ rfl (.step ⟨rfl, trivial⟩ rfl (.step ⟨rfl, trivial⟩ rfl
      (.step ⟨trivial, trivial⟩ rfl (.step ⟨trivial, trivial⟩ rfl
        (.step ⟨⟨rfl, rfl, List.cons_ne_nil _ _⟩, trivial⟩ rfl (.step ⟨⟨rfl, rfl, List.cons_ne_nil _ _⟩, trivial⟩ rfl
          (.step ⟨⟨rfl, rfl⟩, trivial⟩ rfl (.step ⟨rfl, trivial⟩ rfl (.step ⟨⟨rfl, by decide⟩, trivial⟩ rfl
            (.step ⟨⟨rfl, rfl⟩, trivial⟩ rfl (.step ⟨rfl, trivial⟩ rfl (.nil _)))))))))))))
  obtain ⟨s, hs, hprefix, -⟩ := thread_executes_posted hrun
  cases hs
  exact ⟨_, hrun, rfl, rfl, hprefix⟩

/-- The thread runs a task that quits, is joined and is run again: the second loop finds a queue that drops what it
gets, and attaches to it in spite of that. -/
theorem second_run_fails :
    threadMachine.Run {} [.run, .construct, .loopRun, .postTask [.quitNow], .dispatch, .loopReturns, .beginShutdown,
      .clearDelegate, .join, .run, .construct] (.error (.dcheck "!drop_incoming_tasks_")) :=
  .step rfl rfl (.step rfl rfl (.step rfl rfl (.step trivial rfl (.step ⟨rfl, rfl, List.cons_ne_nil _ _⟩ rfl
    (.step ⟨rfl, rfl⟩ rfl (.step rfl rfl (.step ⟨rfl, rfl⟩ rfl (.step rfl rfl (.step rfl rfl (.fault rfl rfl))))))))))

end Mtl.Threading
