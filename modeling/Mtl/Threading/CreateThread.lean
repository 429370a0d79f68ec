import Mtl.Tasks.TaskOrder
import Mtl.Threading.ThreadAffinity

/-! Each loop of a program hands on its tasks as if it were alone, and a thread from `CreateThread` runs what is posted
to it. -/
namespace Mtl.Threading
open Foundation Tasks

section Answer
variable {s s' : LoopThreads} {q q' : QueueId}

/-- A step on one queue is none on the others. -/
theorem answered {c : QueuedLoop} (h : Threaded s') (hloops : s'.loops = Function.update s.loops q' c)
    (hrun : q' = q → ∃ bs, handoverMachine.Run (s.loops q).handover bs (.ok c.handover)) :
    ∃ bs t, handoverMachine.Run (s.loops q).handover bs (.ok t) ∧ Threaded s' ∧ t = (s'.loops q).handover := by
  by_cases hq : q' = q
  · obtain ⟨bs, hbs⟩ := hrun hq
    exact ⟨bs, _, hbs, h, by rw [hloops, hq, Function.update_self]⟩
  · exact ⟨[], _, .nil _, h, by rw [hloops, Function.update_of_ne (Ne.symm hq)]⟩

theorem unanswered (h : Threaded s') (hloops : s'.loops = s.loops) :
    ∃ bs t, handoverMachine.Run (s.loops q).handover bs (.ok t) ∧ Threaded s' ∧ t = (s'.loops q).handover :=
  ⟨[], _, .nil _, h, by rw [hloops]⟩

theorem construct_loops {t : ThreadId} (h : s.construct t q = .ok s') : s'.loops = s.loops := by
  unfold LoopThreads.construct at h
  split_ifs at h
  cases h
  rfl

end Answer

/-- Seen from one queue, the threads of a program do what the hand-over of its tasks allows. -/
theorem simulates_handover (q : QueueId) :
    loopThreadsMachine.Simulates handoverMachine fun s h => Threaded s ∧ h = (s.loops q).handover := by
  rintro s h a s' ⟨hs, rfl⟩ he hstep
  have hs' : Threaded s' := by
    rcases hs.step a he with ⟨u, hu, h⟩ | ⟨e, hu, -⟩
    · rw [hstep] at hu
      cases hu
      exact h
    · rw [hstep] at hu
      cases hu
  cases a with
  | createThread =>
    cases hstep
    exact unanswered hs' rfl
  | post q' req =>
    obtain ⟨handover, hpost, hs''⟩ := of_bind_ok hstep
    cases hs''
    refine answered hs' rfl ?_
    rintro rfl
    exact ⟨[.post req], .single (hs.tended q').held hpost⟩
  | makeLoop t => exact unanswered hs' (construct_loops (s := { s with nextQueue := s.nextQueue + 1 }) hstep)
  | enter t q' => exact unanswered hs' (construct_loops hstep)
  | initDelegate t q' =>
    obtain ⟨handover, hinit, hs''⟩ := of_bind_ok hstep
    cases hs''
    refine answered hs' rfl ?_
    rintro rfl
    obtain ⟨⟨hfresh, -⟩, -, hheld, -⟩ := hs.tended_at he rfl
    exact ⟨[.initDelegate], .single ⟨hfresh, hheld⟩ hinit⟩
  | run t q' =>
    simp only [loopThreadsMachine, LoopThreads.run] at hstep
    split_ifs at hstep
    cases hstep
    exact answered hs' rfl fun hq => ⟨[], hq ▸ .nil _⟩
  | beginTask t q' i =>
    obtain ⟨handover, hbegin, hs''⟩ := of_bind_ok hstep
    cases hs''
    refine answered hs' rfl ?_
    rintro rfl
    obtain ⟨⟨-, hnone, hsd, -⟩, -⟩ := hs.tended_at he.1 rfl
    exact ⟨[.beginTask i], .single ⟨he.2.2, hnone, hsd⟩ hbegin⟩
  | endTask t q' =>
    obtain ⟨handover, hend, hs''⟩ := of_bind_ok hstep
    cases hs''
    refine answered hs' rfl ?_
    rintro rfl
    obtain ⟨⟨-, hsome, -⟩, -⟩ := hs.tended_at he rfl
    exact ⟨[.endTask], .single hsome hend⟩
  | quitNow t q' =>
    simp only [loopThreadsMachine, LoopThreads.quitNow] at hstep
    split_ifs at hstep
    cases hstep
    exact answered hs' rfl fun hq => ⟨[], hq ▸ .nil _⟩
  | runReturns t q' =>
    simp only [loopThreadsMachine, LoopThreads.runReturns] at hstep
    split_ifs at hstep
    all_goals
      cases hstep
      exact answered hs' rfl fun hq => ⟨[], hq ▸ .nil _⟩
  | destroy t q' =>
    simp only [loopThreadsMachine, LoopThreads.destroy] at hstep
    split_ifs at hstep
    cases hstep
    refine answered hs' rfl ?_
    rintro rfl
    have hfits : (Stage.ready q').Fits (s.loops q') ∧ Handed (s.loops q').handover := by
      rcases he with hst | ⟨hst, -⟩
      · exact ⟨(hs.tended_at hst rfl).fits, (hs.tended_at hst rfl).handed⟩
      · exact ⟨(hs.tended_at hst rfl).fits, (hs.tended_at hst rfl).handed⟩
    obtain ⟨⟨hdel, hnone, hsd, -⟩, hhanded⟩ := hfits
    exact ⟨[.beginShutdown], .single ⟨hhanded.started.mpr (.inl hdel), hnone, hsd⟩ rfl⟩
  | cancelTask t q' i =>
    obtain ⟨handover, hcancel, hs''⟩ := of_bind_ok hstep
    cases hs''
    refine answered hs' rfl ?_
    rintro rfl
    obtain ⟨⟨-, -, hsd, -⟩, -⟩ := hs.tended_at he.1 rfl
    exact ⟨[.cancelTask i], .single ⟨he.2, hsd⟩ hcancel⟩
  | clearDelegate t q' =>
    obtain ⟨handover, hclear, hs''⟩ := of_bind_ok hstep
    cases hs''
    refine answered hs' rfl ?_
    rintro rfl
    obtain ⟨⟨hdel, -, hsd, -⟩, -⟩ := hs.tended_at he.1 rfl
    exact ⟨[.clearDelegate], .single ⟨hsd, he.2, hdel⟩ hclear⟩
  | leave t q' =>
    cases hstep
    exact unanswered hs' rfl

/-- The steps of thread `t` up to the return of `Run`, when its tasks do nothing to the loop. -/
def Own (t : ThreadId) (q : QueueId) (s : LoopThreads) : LoopThreadAct → Prop
  | .enter t' q' | .initDelegate t' q' | .beginTask t' q' _ | .endTask t' q' => t' = t ∧ q' = q
  | .run t' q' => t' = t ∧ q' = q ∧ s.stage t = .ready q
  | _ => False

/-- The thread is in `RunMessageLoop`, and nothing has told its loop to quit. -/
structure Heeding (t : ThreadId) (q : QueueId) (s : LoopThreads) : Prop where
  threaded : Threaded s
  pending : (s.loops q).handover.Pending
  given : s.taskQueue t = some q
  quit : (s.loops q).quit = false
  stage : s.stage t ∈ [.outside, .constructing q, .ready q, .inRun q, .inTask q]

/-- How far a thread is from dispatching tasks, or from the end of one. -/
def Stage.steps : Stage → Nat
  | .outside => 3
  | .constructing _ => 2
  | .ready _ | .inTask _ => 1
  | .inRun _ | .returned _ | .shuttingDown _ | .cleared _ | .exited => 0

/-- The tasks that wait in the queue or on its loop. -/
def LoopThreads.pending (s : LoopThreads) (q : QueueId) : List TaskId :=
  closures (s.loops q).handover.queue (s.loops q).handover.loop

def LoopThreads.toGo (s : LoopThreads) (t : ThreadId) (q : QueueId) : Nat :=
  2 * (s.pending q).length + (s.stage t).steps

section Advance
variable {s : LoopThreads} {t : ThreadId} {q : QueueId} {stage : Stage} {c : QueuedLoop}

@[simp] theorem stage_advance : (s.advance t q stage c).stage t = stage := Function.update_self _ _ _

@[simp] theorem loops_advance : (s.advance t q stage c).loops q = c := Function.update_self _ _ _

theorem toGo_advance :
    (s.advance t q stage c).toGo t q = 2 * (closures c.handover.queue c.handover.loop).length + stage.steps := by
  rw [LoopThreads.toGo, LoopThreads.pending, stage_advance, loops_advance]

end Advance

namespace Heeding
variable {s : LoopThreads} {t : ThreadId} {q : QueueId}

theorem advance (h : Heeding t q s) {stage : Stage} {c : QueuedLoop} (hs : Threaded (s.advance t q stage c))
    (hp : c.handover.Pending) (hquit : c.quit = false)
    (hstage : stage ∈ [.outside, .constructing q, .ready q, .inRun q, .inTask q]) :
    Heeding t q (s.advance t q stage c) :=
  ⟨hs, by rwa [loops_advance], h.given, by rwa [loops_advance], by rwa [stage_advance]⟩

theorem enter (h : Heeding t q s) (hout : s.stage t = .outside) :
    ∃ s', s.construct t q = .ok s' ∧ Heeding t q s' ∧ s'.loops = s.loops ∧ s'.toGo t q < s.toGo t q := by
  obtain ⟨s', hs', hthreaded⟩ := h.threaded.enter hout h.given
  refine ⟨s', hs', ?_⟩
  have hcur : s.gCurrent t = none := by rw [h.threaded.current, hout]; rfl
  rw [LoopThreads.construct, if_neg (not_not.mpr hcur)] at hs'
  cases hs'
  refine ⟨⟨hthreaded, h.pending, h.given, h.quit, by simp⟩, rfl, ?_⟩
  simp [LoopThreads.toGo, LoopThreads.pending, hout, Stage.steps]

theorem initDelegate (h : Heeding t q s) (hst : s.stage t = .constructing q) :
    ∃ s', s.initDelegate t q = .ok s' ∧ Heeding t q s' ∧
      (s'.loops q).handover.nextTask = (s.loops q).handover.nextTask ∧ s'.toGo t q < s.toGo t q := by
  obtain ⟨s', hs', hthreaded⟩ := h.threaded.initDelegate hst
  obtain ⟨⟨hinit, -⟩, hhanded, hheld, -⟩ := h.threaded.tended_at hst rfl
  obtain ⟨handover, hstep, -, -, -, -, -, -, hnext, hlen⟩ := initDelegate_ready hhanded hinit hheld
  refine ⟨s', hs', ?_⟩
  rw [LoopThreads.initDelegate, hstep] at hs'
  cases hs'
  refine ⟨h.advance hthreaded (hhanded.pending h.pending .initDelegate ⟨hinit, hheld⟩ hstep) h.quit (by simp),
    by rw [loops_advance, hnext], ?_⟩
  rw [toGo_advance, hlen, LoopThreads.toGo, LoopThreads.pending, hst, Stage.steps, Stage.steps]
  exact Nat.lt_succ_self _

theorem run (h : Heeding t q s) (hst : s.stage t = .ready q) :
    ∃ s', s.run t q = .ok s' ∧ Heeding t q s' ∧
      (s'.loops q).handover.nextTask = (s.loops q).handover.nextTask ∧ s'.toGo t q < s.toGo t q := by
  obtain ⟨s', hs', hthreaded⟩ := h.threaded.run hst
  obtain ⟨⟨-, -, -, hrun⟩, -⟩ := h.threaded.tended_at hst rfl
  refine ⟨s', hs', ?_⟩
  rw [LoopThreads.run, if_neg (not_not.mpr (h.threaded.gCurrent_eq hst rfl)), hrun] at hs'
  cases hs'
  refine ⟨h.advance hthreaded h.pending h.quit (by simp), by rw [loops_advance], ?_⟩
  rw [toGo_advance, LoopThreads.toGo, LoopThreads.pending, hst, Stage.steps, Stage.steps]
  exact Nat.lt_succ_self _

theorem beginTask (h : Heeding t q s) (hst : s.stage t = .inRun q) {i : Nat}
    (hi : i < (s.loops q).handover.loop.accepted.length) :
    ∃ s', s.beginTask t q i = .ok s' ∧ Heeding t q s' ∧
      (s'.loops q).handover.nextTask = (s.loops q).handover.nextTask ∧ s'.toGo t q < s.toGo t q := by
  obtain ⟨s', hs', hthreaded⟩ := h.threaded.beginTask hst hi
  obtain ⟨⟨-, hnone, hsd, -⟩, hhanded, -⟩ := h.threaded.tended_at hst rfl
  obtain ⟨handover, task, hstep, -, hqueue, -, hloop, -, -, hnext⟩ := beginTask_runs hhanded hi hnone hsd
  have hlen := (closures_handle (s.loops q).handover.queue hi).length_eq
  refine ⟨s', hs', ?_⟩
  rw [LoopThreads.beginTask, hstep] at hs'
  cases hs'
  refine ⟨h.advance hthreaded (hhanded.pending h.pending (.beginTask i) ⟨hi, hnone, hsd⟩ hstep) h.quit (by simp),
    by rw [loops_advance, hnext], ?_⟩
  rw [toGo_advance, hqueue, hloop, LoopThreads.toGo, LoopThreads.pending, hlen, List.length_cons, hst, Stage.steps,
    Stage.steps]
  omega

theorem endTask (h : Heeding t q s) (hst : s.stage t = .inTask q) :
    ∃ s', s.endTask t q = .ok s' ∧ Heeding t q s' ∧
      (s'.loops q).handover.nextTask = (s.loops q).handover.nextTask ∧ s'.toGo t q < s.toGo t q := by
  obtain ⟨s', hs', hthreaded⟩ := h.threaded.endTask hst
  obtain ⟨⟨-, hsome, -⟩, hhanded, -⟩ := h.threaded.tended_at hst rfl
  obtain ⟨handover, hstep, -, hqueue, -, hloop, -, -, hnext⟩ := endTask_returns hhanded hsome
  refine ⟨s', hs', ?_⟩
  rw [LoopThreads.endTask, hstep] at hs'
  cases hs'
  refine ⟨h.advance hthreaded (hhanded.pending h.pending .endTask hsome hstep) h.quit (by simp),
    by rw [loops_advance, hnext], ?_⟩
  rw [toGo_advance, hqueue, hloop, LoopThreads.toGo, LoopThreads.pending, hst, Stage.steps, Stage.steps]
  exact Nat.lt_succ_self _

/-- A step of the thread brings it nearer to having nothing to do. -/
theorem own (h : Heeding t q s) {a : LoopThreadAct} (ha : Own t q s a) (he : loopThreadsMachine.Enabled s a) :
    ∃ s', loopThreadsMachine.step s a = .ok s' ∧ Heeding t q s' ∧
      (s'.loops q).handover.nextTask = (s.loops q).handover.nextTask ∧ s'.toGo t q < s.toGo t q := by
  cases a with
  | enter t' q' =>
    obtain ⟨rfl, rfl⟩ := ha
    obtain ⟨s', hs', hheeding, hloops, hlt⟩ := h.enter he.1
    exact ⟨s', hs', hheeding, by rw [hloops], hlt⟩
  | initDelegate t' q' =>
    obtain ⟨rfl, rfl⟩ := ha
    exact h.initDelegate he
  | run t' q' =>
    obtain ⟨rfl, rfl, hst⟩ := ha
    exact h.run hst
  | beginTask t' q' i =>
    obtain ⟨rfl, rfl⟩ := ha
    exact h.beginTask he.1 he.2.2
  | endTask t' q' =>
    obtain ⟨rfl, rfl⟩ := ha
    exact h.endTask he
  | _ => exact ha.elim

theorem toGo_le (_ : Heeding t q s) : s.toGo t q ≤ 2 * (s.pending q).length + 3 := by
  have hsteps : (s.stage t).steps ≤ 3 := by
    cases s.stage t <;> simp [Stage.steps]
  rw [LoopThreads.toGo]
  omega

/-- A thread that has nothing to do has run whatever was posted to it. -/
theorem done (h : Heeding t q s) (hstuck : ∀ a, Own t q s a → ¬ loopThreadsMachine.Enabled s a) :
    s.stage t = .inRun q ∧ s.pending q = [] ∧ ∀ task < (s.loops q).handover.nextTask,
      (s.loops q).handover.log.count (.ran task) = 1 ∧ (task, t) ∈ (s.loops q).ranOn := by
  have hst : s.stage t = .inRun q := by
    have hstage := h.stage
    simp only [List.mem_cons, List.not_mem_nil, or_false] at hstage
    rcases hstage with hst | hst | hst | hst | hst
    · exact absurd ⟨hst, h.given⟩ (hstuck (.enter t q) ⟨rfl, rfl⟩)
    · exact absurd hst (hstuck (.initDelegate t q) ⟨rfl, rfl⟩)
    · exact absurd (.inl hst) (hstuck (.run t q) ⟨rfl, rfl, hst⟩)
    · exact hst
    · exact absurd hst (hstuck (.endTask t q) ⟨rfl, rfl⟩)
  obtain ⟨⟨hdel, -, hsd, -⟩, hhanded, hheld, -, hran, hthread⟩ := h.threaded.tended_at hst rfl
  have hnone : (s.loops q).handover.loop.accepted = [] := by
    by_contra hsome
    exact hstuck (.beginTask t q 0) ⟨rfl, rfl⟩ ⟨hst, h.quit, List.length_pos_iff.mpr hsome⟩
  have hempty := hhanded.emptied (.inl (hhanded.started.mpr (.inl hdel)))
  refine ⟨hst, by simp [LoopThreads.pending, closures, hnone, hempty], fun task htask => ?_⟩
  have hone := h.pending hsd hheld task
  simp only [Handover.buffered, Handover.accepted, hnone, hempty, List.map_nil, List.count_nil, Nat.zero_add,
    if_pos htask] at hone
  refine ⟨hone, ?_⟩
  have hmem : task ∈ (s.loops q).ranOn.map Prod.fst := by
    rw [← hran, ranTasks, List.mem_filterMap]
    refine ⟨.ran task, List.count_pos_iff.mp ?_, rfl⟩
    rw [show (s.loops q).handover.log.count (.ran task) = 1 from hone]
    exact Nat.one_pos
  obtain ⟨⟨task', t'⟩, he, rfl⟩ := List.mem_map.mp hmem
  rw [Option.some.inj (hthread _ he)]
  exact he

end Heeding

/-- The history of each queue, in any program with any number of threads and loops, is one that the hand-over of its
tasks allows. -/
theorem every_loop_hands_over {threads : Nat} {acts : List LoopThreadAct} {s : LoopThreads}
    (hrun : loopThreadsMachine.Run (.start threads) acts (.ok s)) (q : QueueId) :
    ∃ bs, handoverMachine.Run {} bs (.ok (s.loops q).handover) := by
  obtain ⟨bs, t, hbs, -, rfl⟩ := (simulates_handover q).run hrun ⟨.start threads, rfl⟩
  exact ⟨bs, hbs⟩

/-- A thread that has reached its loop, as seen from the queue. -/
theorem every_loop_hands_over_created :
    ∃ s, loopThreadsMachine.Run (.start 1) [.createThread, .post 0 .postTask, .enter 1 0, .initDelegate 1 0] (.ok s) ∧
      (s.loops 0).handover.loop.passed = [(0, 0)] ∧ ∃ bs, handoverMachine.Run {} bs (.ok (s.loops 0).handover) := by
  have hrun : loopThreadsMachine.Run (.start 1) [.createThread, .post 0 .postTask, .enter 1 0, .initDelegate 1 0]
      (.ok _) :=
    .step trivial rfl (.step (show 0 < 1 by decide) rfl (.step ⟨rfl, rfl⟩ rfl (.step rfl rfl (.nil _))))
  exact ⟨_, hrun, rfl, every_loop_hands_over hrun 0⟩

theorem handover_of_run {threads : Nat} {acts : List LoopThreadAct} {s : LoopThreads}
    (hrun : loopThreadsMachine.Run (.start threads) acts (.ok s)) (q : QueueId) :
    Threaded s ∧ (s.loops q).handover.Pending := by
  have hstep (h : Handover) (b : HandoverAct) (hI : Handed h ∧ h.Pending) (he : handoverMachine.Enabled h b) :
      ∃ h', handoverMachine.step h b = .ok h' ∧ Handed h' ∧ h'.Pending := by
    obtain ⟨h', hh', hhanded⟩ := hI.1.step b he
    exact ⟨h', hh', hhanded, hI.1.pending hI.2 b he hh'⟩
  obtain ⟨t, ⟨hthreaded, rfl⟩, -, hpending⟩ := (simulates_handover q).invariant hstep hrun ⟨.start threads, rfl⟩
    ⟨.init, fun _ _ _ => rfl⟩
  exact ⟨hthreaded, hpending⟩

/-- A thread from `CreateThread` whose loop has not been told to quit needs no help: at most `2 * n + 3` steps of its
own follow when `n` tasks wait, and where no more does it is in `Run` and has run each task that was posted to it, by
whomever and however early, once and itself. -/
theorem created_thread_runs_posted_tasks {threads : Nat} {acts own : List LoopThreadAct} {s : LoopThreads}
    {result : Except Fault LoopThreads} (hrun : loopThreadsMachine.Run (.start threads) acts (.ok s)) {t : ThreadId}
    {q : QueueId} (hgiven : s.taskQueue t = some q) (hquit : (s.loops q).quit = false)
    (hstage : s.stage t ∈ [.outside, .constructing q, .ready q, .inRun q, .inTask q])
    (hown : (loopThreadsMachine.restrict (Own t q)).Run s own result) :
    ∃ s', result = .ok s' ∧ own.length ≤ 2 * (s.pending q).length + 3 ∧
      ((∀ a, Own t q s' a → ¬ loopThreadsMachine.Enabled s' a) →
        s'.stage t = .inRun q ∧ s'.pending q = [] ∧ ∀ task < (s.loops q).handover.nextTask,
          (s'.loops q).handover.log.count (.ran task) = 1 ∧ (task, t) ∈ (s'.loops q).ranOn) := by
  obtain ⟨hthreaded, hpending⟩ := handover_of_run hrun q
  let I (u : LoopThreads) : Prop := Heeding t q u ∧ (u.loops q).handover.nextTask = (s.loops q).handover.nextTask
  have hI : I s := ⟨⟨hthreaded, hpending, hgiven, hquit, hstage⟩, rfl⟩
  have hstep (u : LoopThreads) (a : LoopThreadAct) (hu : I u)
      (he : (loopThreadsMachine.restrict (Own t q)).Enabled u a) :
      ∃ u', loopThreadsMachine.step u a = .ok u' ∧ I u' ∧ u'.toGo t q < u.toGo t q := by
    obtain ⟨u', hu', hheeding, hnext, hlt⟩ := hu.1.own he.2 he.1
    exact ⟨u', hu', ⟨hheeding, hnext.trans hu.2⟩, hlt⟩
  obtain ⟨s', rfl, hheeding, hnext⟩ := hown.safe (I := I)
    (fun u a hu he => (hstep u a hu he).imp fun u' h => ⟨h.1, h.2.1⟩) hI
  refine ⟨s', rfl, ?_, fun hstuck => hnext ▸ hheeding.done hstuck⟩
  have hlen := hown.length_le (I := I) (P := fun _ => True) (μ := fun u => u.toGo t q) (fun u a u' hu _ he hu' => by
    obtain ⟨v, hv, hI', hlt⟩ := hstep u a hu he
    cases hv.symm.trans hu'
    exact ⟨hI', hlt⟩) hI (fun _ _ => trivial)
  exact (Nat.le_add_right _ _).trans (hlen.trans hI.1.toGo_le)

/-- A task waits for a thread that has not reached its loop. -/
private def early : LoopThreads :=
  { LoopThreads.createThread (.start 1) with
    loops := Function.update (fun _ => {}) 0
      { handover := { queue := { incomingQueue := [(0, 0)] }, nextTask := 1, log := [.added 0 0] } } }

theorem created_thread_runs_posted_tasks_early :
    ∃ s, (loopThreadsMachine.restrict (Own 1 0)).Run early [.enter 1 0, .initDelegate 1 0, .run 1 0, .beginTask 1 0 0,
        .endTask 1 0] (.ok s) ∧
      s.stage 1 = .inRun 0 ∧ (s.loops 0).ranOn = [(0, 1)] ∧ 5 ≤ 2 * (early.pending 0).length + 3 := by
  have hrun : loopThreadsMachine.Run (.start 1) [.createThread, .post 0 .postTask] (.ok early) :=
    .step trivial rfl (.step (show 0 < 1 by decide) rfl (.nil _))
  have hown : (loopThreadsMachine.restrict (Own 1 0)).Run early [.enter 1 0, .initDelegate 1 0, .run 1 0,
      .beginTask 1 0 0, .endTask 1 0] (.ok _) :=
    .step ⟨⟨rfl, rfl⟩, rfl, rfl⟩ rfl (.step ⟨rfl, rfl, rfl⟩ rfl (.step ⟨.inl rfl, rfl, rfl, rfl⟩ rfl
      (.step ⟨⟨rfl, rfl, by decide⟩, rfl, rfl⟩ rfl (.step ⟨rfl, rfl, rfl⟩ rfl (.nil _)))))
  obtain ⟨s', hs', hlen, -⟩ := created_thread_runs_posted_tasks hrun rfl rfl (List.mem_cons_self ..) hown
  cases hs'
  exact ⟨_, hown, rfl, rfl, hlen⟩

end Mtl.Threading
