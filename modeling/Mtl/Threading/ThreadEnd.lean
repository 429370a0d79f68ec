import Mtl.Threading.CreateThread

/-! The end of a thread from `CreateThread`: `Run` returns, the destructor shuts the loop down, and nothing that was
posted is left over. -/
namespace Mtl.Threading
open Foundation Tasks

/-- The thread whose step it is. -/
def LoopThreadAct.thread : LoopThreadAct → Option ThreadId
  | .createThread | .post _ _ => none
  | .makeLoop t | .enter t _ | .initDelegate t _ | .run t _ | .beginTask t _ _ | .endTask t _ | .quitNow t _
  | .runReturns t _ | .destroy t _ | .cancelTask t _ _ | .clearDelegate t _ | .leave t _ => some t

/-- The steps of thread `t` from `QuitNow` on, when its task does nothing more to the loop. -/
def Closing (t : ThreadId) (q : QueueId) : LoopThreadAct → Prop
  | .endTask t' q' | .runReturns t' q' | .destroy t' q' | .cancelTask t' q' _ | .clearDelegate t' q' | .leave t' q' =>
    t' = t ∧ q' = q
  | _ => False

/-- `RunMessageLoop` is about to leave its loop, or has left it. -/
structure Quitting (t : ThreadId) (q : QueueId) (s : LoopThreads) : Prop where
  threaded : Threaded s
  given : s.taskQueue t = some q
  stage : s.stage t ∈ [.inRun q, .inTask q] ∧ (s.loops q).quit = true ∨
    s.stage t ∈ [.returned q, .shuttingDown q, .cleared q, .exited]

/-- The steps of a thread up to its exit, those for the tasks apart. -/
def Stage.toExit : Stage → Nat
  | .inTask _ => 5
  | .inRun _ => 4
  | .returned _ => 3
  | .shuttingDown _ => 2
  | .cleared _ => 1
  | .outside | .constructing _ | .ready _ | .exited => 0

def LoopThreads.toExit (s : LoopThreads) (t : ThreadId) (q : QueueId) : Nat :=
  (s.loops q).handover.loop.accepted.length + (s.stage t).toExit

/-- What is still to be destroyed is owned by the buffer, the loop or the task that runs: by nobody after the loop. -/
theorem destroyed_of_cleared {h : Handover} (hhanded : Handed h) (hdrop : h.queue.dropIncomingTasks = true)
    {task : TaskId} (htask : task < h.nextTask) : h.log.count (.destroyed task) = 1 := by
  obtain ⟨-, hsd, hnone⟩ := hhanded.drained hdrop
  have howned := hhanded.owned task
  rw [if_pos htask] at howned
  simpa [Handover.buffered, Handover.accepted, Handover.destroyed, hnone, hhanded.idle hsd,
    hhanded.emptied (.inl (hhanded.started.mpr (.inr hdrop)))] using howned

/-- Nothing happened to the thread. Its loop may have been given tasks. -/
structure Untouched (t : ThreadId) (q : QueueId) (s s' : LoopThreads) : Prop where
  stage : s'.stage t = s.stage t
  given : s'.taskQueue t = s.taskQueue t
  quit : (s'.loops q).quit = (s.loops q).quit
  ran : (s'.loops q).ranOn = (s.loops q).ranOn

namespace Threaded
variable {s s' : LoopThreads} {t : ThreadId} {q : QueueId}

/-- A loop whose quit state is set is in `Run`. -/
theorem quitting (h : Threaded s) (hgiven : s.taskQueue t = some q) (hquit : (s.loops q).quit = true) :
    Quitting t q s := by
  obtain ⟨hfits, -, -, hquits, -⟩ := h.tended q
  have hrun := hquits hquit
  refine ⟨h, hgiven, .inl ⟨?_, hquit⟩⟩
  rcases (h.given t q hgiven).2 with ⟨hnone, -⟩ | ⟨hhome, hex | hl⟩
  · rw [LoopThreads.stageOf, hnone] at hfits
    simp [hfits.2] at hrun
  · rw [LoopThreads.stageOf, hhome] at hfits
    simp only [hex, Stage.loop, reduceCtorEq, if_false] at hfits
    simp [hfits.2] at hrun
  · rw [h.stageOf_eq hl] at hfits
    cases hst : s.stage t with
    | outside | exited => simp [hst, Stage.loop] at hl
    | inRun | inTask =>
      rw [hst] at hl
      cases hl
      simp
    | constructing | cleared =>
      rw [hst] at hfits
      simp [hfits.2] at hrun
    | ready | returned | shuttingDown =>
      rw [hst] at hfits
      simp [hfits.2.2.2] at hrun

/-- A step of another thread, in the code of its own loop. -/
theorem advance_elsewhere {t' : ThreadId} {q' : QueueId} (h : Threaded s) (hhome : s.home q = some t)
    (ht : t' ≠ t) (hl : (s.stage t').loop = some q') (stage : Stage) (c : QueuedLoop) :
    Untouched t q s (s.advance t' q' stage c) := by
  have hq : q' ≠ q := by
    rintro rfl
    rw [h.home t' q' hl] at hhome
    exact ht (Option.some.inj hhome)
  have hloop : (s.advance t' q' stage c).loops q = s.loops q := Function.update_of_ne hq.symm _ _
  exact ⟨Function.update_of_ne ht.symm _ _, rfl, by rw [hloop], by rw [hloop]⟩

theorem construct_elsewhere {t' : ThreadId} {q' : QueueId} (ht : t' ≠ t) (hstep : s.construct t' q' = .ok s') :
    Untouched t q s s' := by
  unfold LoopThreads.construct at hstep
  split_ifs at hstep
  cases hstep
  exact ⟨Function.update_of_ne ht.symm _ _, rfl, rfl, rfl⟩

/-- What the other threads do is nothing to a thread, posting apart. -/
theorem elsewhere (h : Threaded s) (hgiven : s.taskQueue t = some q) (hhome : s.home q = some t) {a : LoopThreadAct}
    (ha : a.thread ≠ some t) (he : loopThreadsMachine.Enabled s a) (hstep : loopThreadsMachine.step s a = .ok s') :
    Untouched t q s s' := by
  have hne {t' : ThreadId} (ht' : a.thread = some t') : t' ≠ t := by
    rintro rfl
    exact ha ht'
  cases a with
  | createThread =>
    cases hstep
    refine ⟨rfl, Function.update_of_ne ?_ _ _, rfl, rfl⟩
    rintro rfl
    simp [(h.freshThread s.nextThread le_rfl).1] at hgiven
  | post q' req =>
    obtain ⟨handover, -, hs'⟩ := of_bind_ok hstep
    cases hs'
    by_cases hq : q = q'
    · subst hq
      exact ⟨rfl, rfl, by simp, by simp⟩
    · exact ⟨rfl, rfl, by simp [hq], by simp [hq]⟩
  | makeLoop t' =>
    obtain ⟨hstage, hqueue, hquit, hran⟩ :=
      construct_elsewhere (s := { s with nextQueue := s.nextQueue + 1 }) (q := q) (hne rfl) hstep
    exact ⟨hstage, hqueue, hquit, hran⟩
  | enter t' q' => exact construct_elsewhere (hne rfl) hstep
  | initDelegate t' q' =>
    obtain ⟨handover, -, hs'⟩ := of_bind_ok hstep
    cases hs'
    exact h.advance_elsewhere hhome (hne rfl) (by rw [he]; rfl) _ _
  | run t' q' =>
    have hl : (s.stage t').loop = some q' := by rcases he with hst | hst <;> rw [hst] <;> rfl
    simp only [loopThreadsMachine, LoopThreads.run] at hstep
    split_ifs at hstep
    cases hstep
    exact h.advance_elsewhere hhome (hne rfl) hl _ _
  | beginTask t' q' i =>
    obtain ⟨handover, -, hs'⟩ := of_bind_ok hstep
    cases hs'
    exact h.advance_elsewhere hhome (hne rfl) (by rw [he.1]; rfl) _ _
  | endTask t' q' =>
    obtain ⟨handover, -, hs'⟩ := of_bind_ok hstep
    cases hs'
    exact h.advance_elsewhere hhome (hne rfl) (by rw [he]; rfl) _ _
  | quitNow t' q' =>
    simp only [loopThreadsMachine, LoopThreads.quitNow] at hstep
    split_ifs at hstep
    cases hstep
    exact h.advance_elsewhere hhome (hne rfl) he _ _
  | runReturns t' q' =>
    unfold loopThreadsMachine LoopThreads.runReturns at hstep
    simp only at hstep
    split at hstep
    · cases hstep
      exact h.advance_elsewhere hhome (hne rfl) (by rw [he.1]; rfl) _ _
    · cases hstep
  | destroy t' q' =>
    have hl : (s.stage t').loop = some q' := by rcases he with hst | ⟨hst, -⟩ <;> rw [hst] <;> rfl
    simp only [loopThreadsMachine, LoopThreads.destroy] at hstep
    split_ifs at hstep
    cases hstep
    exact h.advance_elsewhere hhome (hne rfl) hl _ _
  | cancelTask t' q' i =>
    obtain ⟨handover, -, hs'⟩ := of_bind_ok hstep
    cases hs'
    exact h.advance_elsewhere hhome (hne rfl) (by rw [he.1]; rfl) _ _
  | clearDelegate t' q' =>
    obtain ⟨handover, -, hs'⟩ := of_bind_ok hstep
    cases hs'
    exact h.advance_elsewhere hhome (hne rfl) (by rw [he.1]; rfl) _ _
  | leave t' q' =>
    cases hstep
    exact ⟨Function.update_of_ne (hne rfl).symm _ _, rfl, rfl, rfl⟩

end Threaded

namespace Quitting
variable {s s' : LoopThreads} {t : ThreadId} {q : QueueId}

theorem home (h : Quitting t q s) : s.home q = some t := by
  rcases (h.threaded.given t q h.given).2 with ⟨-, hout⟩ | ⟨hhome, -⟩
  · have := h.stage
    simp [hout] at this
  · exact hhome

theorem untouched (h : Quitting t q s) (hs' : Threaded s') (hu : Untouched t q s s') : Quitting t q s' :=
  ⟨hs', hu.given.trans h.given, by rw [hu.stage, hu.quit]; exact h.stage⟩

/-- The thread that quits goes on to the next stage of its own loop. -/
theorem advance (h : Quitting t q s) {stage : Stage} {c : QueuedLoop} (hs' : Threaded (s.advance t q stage c))
    (hstage : stage ∈ [.inRun q, .inTask q] ∧ c.quit = true ∨ stage ∈ [.returned q, .shuttingDown q, .cleared q]) :
    Quitting t q (s.advance t q stage c) := by
  refine ⟨hs', h.given, ?_⟩
  rw [stage_advance, loops_advance]
  rcases hstage with hrun | hend
  · exact .inl hrun
  · refine .inr ?_
    simp only [List.mem_cons, List.not_mem_nil, or_false] at hend ⊢
    rcases hend with hend | hend | hend
    · exact .inl hend
    · exact .inr (.inl hend)
    · exact .inr (.inr (.inl hend))

theorem toExit_advance {stage : Stage} {c : QueuedLoop} :
    (s.advance t q stage c).toExit t q = c.handover.loop.accepted.length + stage.toExit := by
  rw [LoopThreads.toExit, stage_advance, loops_advance]

theorem endTask (h : Quitting t q s) (hst : s.stage t = .inTask q) :
    ∃ s', s.endTask t q = .ok s' ∧ Quitting t q s' ∧ (s'.loops q).ranOn = (s.loops q).ranOn ∧
      s'.toExit t q < s.toExit t q := by
  obtain ⟨s', hs', hthreaded⟩ := h.threaded.endTask hst
  obtain ⟨⟨-, hsome, -⟩, hhanded, -⟩ := h.threaded.tended_at hst rfl
  obtain ⟨handover, hstep, -, -, -, hloop, -⟩ := endTask_returns hhanded hsome
  refine ⟨s', hs', ?_⟩
  rw [LoopThreads.endTask, hstep] at hs'
  cases hs'
  have hquit : (s.loops q).quit = true := by
    rcases h.stage with ⟨-, hquit⟩ | hend
    · exact hquit
    · simp [hst] at hend
  refine ⟨h.advance hthreaded (.inl ⟨by simp, hquit⟩), by rw [loops_advance], ?_⟩
  rw [toExit_advance, hloop, LoopThreads.toExit, hst, Stage.toExit, Stage.toExit]
  exact Nat.lt_succ_self _

theorem runReturns (h : Quitting t q s) (hst : s.stage t = .inRun q) :
    ∃ s', s.runReturns t q = .ok s' ∧ Quitting t q s' ∧ (s'.loops q).ranOn = (s.loops q).ranOn ∧
      s'.toExit t q < s.toExit t q := by
  obtain ⟨s', hs', hthreaded⟩ := h.threaded.runReturns hst
  obtain ⟨⟨-, -, -, hrun⟩, -⟩ := h.threaded.tended_at hst rfl
  refine ⟨s', hs', ?_⟩
  rw [LoopThreads.runReturns, if_pos hrun, h.given, Option.isSome_some, if_pos rfl] at hs'
  cases hs'
  refine ⟨h.advance hthreaded (.inr (by simp)), by rw [loops_advance], ?_⟩
  rw [toExit_advance, LoopThreads.toExit, hst, Stage.toExit, Stage.toExit]
  exact Nat.lt_succ_self _

theorem destroy (h : Quitting t q s) (hst : s.stage t = .returned q) :
    ∃ s', s.destroy t q = .ok s' ∧ Quitting t q s' ∧ (s'.loops q).ranOn = (s.loops q).ranOn ∧
      s'.toExit t q < s.toExit t q := by
  obtain ⟨s', hs', hthreaded⟩ := h.threaded.destroy (.inr hst)
  refine ⟨s', hs', ?_⟩
  rw [LoopThreads.destroy, if_neg (not_not.mpr (h.threaded.gCurrent_eq hst rfl))] at hs'
  cases hs'
  refine ⟨h.advance hthreaded (.inr (by simp)), by rw [loops_advance], ?_⟩
  rw [toExit_advance, LoopThreads.toExit, hst, Stage.toExit, Stage.toExit]
  exact Nat.lt_succ_self _

/-- `loop_.Shutdown()` hands a record its error, and the record deletes itself. -/
theorem cancelTask (h : Quitting t q s) (hst : s.stage t = .shuttingDown q) {i : Nat}
    (hi : i < (s.loops q).handover.loop.accepted.length) :
    ∃ s', s.cancelTask t q i = .ok s' ∧ Quitting t q s' ∧ (s'.loops q).ranOn = (s.loops q).ranOn ∧
      s'.toExit t q < s.toExit t q := by
  obtain ⟨s', hs', hthreaded⟩ := h.threaded.cancelTask hst hi
  refine ⟨s', hs', ?_⟩
  simp only [LoopThreads.cancelTask, Handover.cancelTask, List.getElem?_eq_getElem hi] at hs'
  cases hs'
  refine ⟨h.advance hthreaded (.inr (by simp)), by rw [loops_advance], ?_⟩
  rw [toExit_advance, LoopThreads.toExit, hst]
  simp only [Handover.note, TaskLoop.handle, List.length_eraseIdx, if_pos hi]
  omega

theorem clearDelegate (h : Quitting t q s) (hst : s.stage t = .shuttingDown q)
    (hnone : (s.loops q).handover.loop.accepted = []) :
    ∃ s', s.clearDelegate t q = .ok s' ∧ Quitting t q s' ∧ (s'.loops q).ranOn = (s.loops q).ranOn ∧
      s'.toExit t q < s.toExit t q := by
  obtain ⟨s', hs', hthreaded⟩ := h.threaded.clearDelegate hst hnone
  refine ⟨s', hs', ?_⟩
  obtain ⟨handover, hclear, hs''⟩ := of_bind_ok hs'
  obtain ⟨queue, -, hhandover⟩ := of_bind_ok hclear
  cases hhandover
  cases hs''
  refine ⟨h.advance hthreaded (.inr (by simp)), by rw [loops_advance], ?_⟩
  rw [toExit_advance, LoopThreads.toExit, hst, Stage.toExit, Stage.toExit]
  exact Nat.lt_succ_self _

theorem leave (h : Quitting t q s) (hst : s.stage t = .cleared q) :
    Quitting t q (s.leave t) ∧ (s.leave t).toExit t q < s.toExit t q := by
  have hexit : (s.leave t).stage t = .exited := by simp [LoopThreads.leave, h.given]
  refine ⟨⟨h.threaded.leave hst, h.given, .inr (by simp [hexit])⟩, ?_⟩
  rw [LoopThreads.toExit, LoopThreads.toExit, hexit, hst, Stage.toExit, Stage.toExit]
  exact Nat.lt_succ_self _

/-- A step towards the exit. -/
theorem closing (h : Quitting t q s) {a : LoopThreadAct} (ha : Closing t q a) (he : loopThreadsMachine.Enabled s a) :
    ∃ s', loopThreadsMachine.step s a = .ok s' ∧ Quitting t q s' ∧ (s'.loops q).ranOn = (s.loops q).ranOn ∧
      s'.toExit t q < s.toExit t q := by
  cases a with
  | endTask t' q' =>
    obtain ⟨rfl, rfl⟩ := ha
    exact h.endTask he
  | runReturns t' q' =>
    obtain ⟨rfl, rfl⟩ := ha
    exact h.runReturns he.1
  | destroy t' q' =>
    obtain ⟨rfl, rfl⟩ := ha
    rcases he with hst | ⟨-, hnone⟩
    · exact h.destroy hst
    · simp [h.given] at hnone
  | cancelTask t' q' i =>
    obtain ⟨rfl, rfl⟩ := ha
    exact h.cancelTask he.1 he.2
  | clearDelegate t' q' =>
    obtain ⟨rfl, rfl⟩ := ha
    exact h.clearDelegate he.1 he.2
  | leave t' q' =>
    obtain ⟨rfl, rfl⟩ := ha
    obtain ⟨hquitting, hlt⟩ := h.leave he
    exact ⟨_, rfl, hquitting, rfl, hlt⟩
  | _ => exact ha.elim

theorem queue_eq (h : Quitting t q s) {q' : QueueId} (hl : (s.stage t).loop = some q') : q' = q := by
  have hstage := h.stage
  simp only [List.mem_cons, List.not_mem_nil, or_false] at hstage
  rcases hstage with ⟨hst | hst, -⟩ | hst | hst | hst | hst
  all_goals simp_all [Stage.loop]

/-- No step of any thread, the tasks of this loop included, takes the order to quit back or makes another task run. -/
theorem step (h : Quitting t q s) {a : LoopThreadAct} (he : loopThreadsMachine.Enabled s a)
    (hstep : loopThreadsMachine.step s a = .ok s') : Quitting t q s' ∧ (s'.loops q).ranOn = (s.loops q).ranOn := by
  have hs' : Threaded s' := by
    rcases h.threaded.step a he with ⟨u, hu, hthreaded⟩ | ⟨e, hu, -⟩
    · cases hu.symm.trans hstep
      exact hthreaded
    · cases hu.symm.trans hstep
  by_cases ha : a.thread = some t
  case neg =>
    have hu := h.threaded.elsewhere h.given h.home ha he hstep
    exact ⟨h.untouched hs' hu, hu.ran⟩
  have hclosing (hc : Closing t q a) : Quitting t q s' ∧ (s'.loops q).ranOn = (s.loops q).ranOn := by
    obtain ⟨u, hu, hquitting, hran, -⟩ := h.closing hc he
    cases hu.symm.trans hstep
    exact ⟨hquitting, hran⟩
  cases a with
  | createThread | post => cases ha
  | makeLoop t' =>
    cases ha
    rcases he.2 with ⟨hnone, -⟩ | ⟨q', hst⟩
    · simp [h.given] at hnone
    · have hcur : s.gCurrent t ≠ none := by
        rw [h.threaded.gCurrent_eq hst rfl]
        simp
      cases hstep.symm.trans (if_pos hcur)
  | enter t' q' =>
    cases ha
    have hstage := h.stage
    simp [he.1] at hstage
  | initDelegate t' q' =>
    cases ha
    have hstage := h.stage
    simp [show s.stage t = .constructing q' from he] at hstage
  | run t' q' =>
    cases ha
    rcases he with hst | hst
    · have hstage := h.stage
      simp [hst] at hstage
    · cases hstep.symm.trans (h.threaded.run_nested hst)
  | beginTask t' q' i =>
    cases ha
    cases h.queue_eq (by rw [he.1]; rfl)
    rcases h.stage with ⟨-, hquit⟩ | hend
    · simp [he.2.1] at hquit
    · simp [he.1] at hend
  | endTask t' q' =>
    cases ha
    exact hclosing ⟨rfl, h.queue_eq (by rw [he]; rfl)⟩
  | quitNow t' q' =>
    cases ha
    cases h.queue_eq he
    simp only [loopThreadsMachine, LoopThreads.quitNow] at hstep
    split_ifs at hstep
    cases hstep
    refine ⟨⟨hs', h.given, ?_⟩, by rw [loops_advance]⟩
    rw [stage_advance, loops_advance]
    exact h.stage.imp_left fun hrun => ⟨hrun.1, by simp [hrun.2]⟩
  | runReturns t' q' =>
    cases ha
    exact hclosing ⟨rfl, h.queue_eq (by rw [he.1]; rfl)⟩
  | destroy t' q' =>
    cases ha
    exact hclosing ⟨rfl, h.queue_eq (by rcases he with hst | ⟨hst, -⟩ <;> rw [hst] <;> rfl)⟩
  | cancelTask t' q' i =>
    cases ha
    exact hclosing ⟨rfl, h.queue_eq (by rw [he.1]; rfl)⟩
  | clearDelegate t' q' =>
    cases ha
    exact hclosing ⟨rfl, h.queue_eq (by rw [he.1]; rfl)⟩
  | leave t' q' =>
    cases ha
    exact hclosing ⟨rfl, h.queue_eq (by rw [he]; rfl)⟩

/-- A thread that can go no further has left, and so have all the tasks. -/
theorem done (h : Quitting t q s) (hstuck : ∀ a, Closing t q a → ¬ loopThreadsMachine.Enabled s a) :
    s.stage t = .exited ∧ s.gCurrent t = none ∧
      ∀ task < (s.loops q).handover.nextTask, (s.loops q).handover.log.count (.destroyed task) = 1 := by
  have hst : s.stage t = .exited := by
    have hstage := h.stage
    simp only [List.mem_cons, List.not_mem_nil, or_false] at hstage
    rcases hstage with ⟨hst | hst, hquit⟩ | hst | hst | hst | hst
    · exact absurd ⟨hst, hquit⟩ (hstuck (.runReturns t q) ⟨rfl, rfl⟩)
    · exact absurd hst (hstuck (.endTask t q) ⟨rfl, rfl⟩)
    · exact absurd (.inl hst) (hstuck (.destroy t q) ⟨rfl, rfl⟩)
    · cases haccepted : (s.loops q).handover.loop.accepted with
      | nil => exact absurd ⟨hst, haccepted⟩ (hstuck (.clearDelegate t q) ⟨rfl, rfl⟩)
      | cons record records =>
        exact absurd ⟨hst, by simp [haccepted]⟩ (hstuck (.cancelTask t q 0) ⟨rfl, rfl⟩)
    · exact absurd hst (hstuck (.leave t q) ⟨rfl, rfl⟩)
    · exact hst
  have htended := h.threaded.tended q
  rw [LoopThreads.stageOf, h.home] at htended
  simp only [hst, Stage.loop, reduceCtorEq, if_false] at htended
  exact ⟨hst, by rw [h.threaded.current, hst, Stage.loop],
    fun task => destroyed_of_cleared htended.handed htended.fits.1⟩

theorem run (h : Quitting t q s) {acts : List LoopThreadAct} (hrun : loopThreadsMachine.Run s acts (.ok s')) :
    Quitting t q s' ∧ (s'.loops q).ranOn = (s.loops q).ranOn := by
  induction acts generalizing s with
  | nil =>
    cases hrun
    exact ⟨h, rfl⟩
  | cons a acts ih =>
    cases hrun with
    | step he hs hrest =>
      obtain ⟨hquitting, hran⟩ := h.step he hs
      obtain ⟨hend, hsame⟩ := ih hquitting hrest
      exact ⟨hend, hsame.trans hran⟩

end Quitting

/-- Once the loop of a thread from `CreateThread` was told to quit, no task of it begins any more, whatever the threads
do. Whenever they leave it alone it exits: in five steps and one for each task that its loop has still got, and with it
everything that was posted is destroyed, once. -/
theorem quit_thread_exits {threads : Nat} {acts more closing : List LoopThreadAct} {s u : LoopThreads}
    {result : Except Fault LoopThreads} (hrun : loopThreadsMachine.Run (.start threads) acts (.ok s)) {t : ThreadId}
    {q : QueueId} (hgiven : s.taskQueue t = some q) (hquit : (s.loops q).quit = true)
    (hmore : loopThreadsMachine.Run s more (.ok u))
    (hclosing : (loopThreadsMachine.restrict fun _ a => Closing t q a).Run u closing result) :
    ∃ s', result = .ok s' ∧ closing.length ≤ (u.loops q).handover.loop.accepted.length + 5 ∧
      (s'.loops q).ranOn = (s.loops q).ranOn ∧
      ((∀ a, Closing t q a → ¬ loopThreadsMachine.Enabled s' a) →
        s'.stage t = .exited ∧ s'.gCurrent t = none ∧
          ∀ task < (s'.loops q).handover.nextTask, (s'.loops q).handover.log.count (.destroyed task) = 1) := by
  obtain ⟨hu, hran⟩ := ((handover_of_run hrun q).1.quitting hgiven hquit).run hmore
  let I (v : LoopThreads) : Prop := Quitting t q v ∧ (v.loops q).ranOn = (u.loops q).ranOn
  have hstep (v : LoopThreads) (a : LoopThreadAct) (hv : I v)
      (he : (loopThreadsMachine.restrict fun _ a => Closing t q a).Enabled v a) :
      ∃ v', loopThreadsMachine.step v a = .ok v' ∧ I v' ∧ v'.toExit t q < v.toExit t q := by
    obtain ⟨v', hv', hquitting, hsame, hlt⟩ := hv.1.closing he.2 he.1
    exact ⟨v', hv', ⟨hquitting, hsame.trans hv.2⟩, hlt⟩
  obtain ⟨s', rfl, hs', hsame⟩ := hclosing.safe (I := I)
    (fun v a hv he => (hstep v a hv he).imp fun v' h => ⟨h.1, h.2.1⟩) ⟨hu, rfl⟩
  refine ⟨s', rfl, ?_, hsame.trans hran, hs'.done⟩
  have hlen := hclosing.length_le (I := I) (P := fun _ => True) (μ := fun v => v.toExit t q)
    (fun v a v' hv _ he hv' => by
      obtain ⟨w, hw, hI, hlt⟩ := hstep v a hv he
      cases hw.symm.trans hv'
      exact ⟨hI, hlt⟩) ⟨hu, rfl⟩ (fun _ _ => trivial)
  have hstage : (u.stage t).toExit ≤ 5 := by
    cases u.stage t <;> simp [Stage.toExit]
  have htoExit : u.toExit t q = (u.loops q).handover.loop.accepted.length + (u.stage t).toExit := rfl
  omega

/-- The state after some steps that do not fail. -/
private def after (s : LoopThreads) (acts : List LoopThreadAct) : LoopThreads :=
  acts.foldl (fun s a => (loopThreadsMachine.step s a).toOption.getD s) s

private def told : LoopThreads :=
  after (.start 1) [.createThread, .enter 1 0, .initDelegate 1 0, .run 1 0, .quitNow 1 0]

/-- A task comes when the loop has been told to quit. -/
theorem quit_thread_exits_posted :
    ∃ s', loopThreadsMachine.Run told [.post 0 .postTask] (.ok (after told [.post 0 .postTask])) ∧
      (loopThreadsMachine.restrict fun _ a => Closing 1 0 a).Run (after told [.post 0 .postTask]) [.runReturns 1 0,
        .destroy 1 0, .cancelTask 1 0 0, .clearDelegate 1 0, .leave 1 0] (.ok s') ∧
      s'.stage 1 = .exited ∧ (s'.loops 0).ranOn = [] ∧
      5 ≤ ((after told [.post 0 .postTask]).loops 0).handover.loop.accepted.length + 5 := by
  have hrun : loopThreadsMachine.Run (.start 1) [.createThread, .enter 1 0, .initDelegate 1 0, .run 1 0, .quitNow 1 0]
      (.ok told) :=
    .step trivial rfl (.step ⟨rfl, rfl⟩ rfl (.step rfl rfl (.step (.inl rfl) rfl (.step rfl rfl (.nil _)))))
  have hmore : loopThreadsMachine.Run told [.post 0 .postTask] (.ok (after told [.post 0 .postTask])) :=
    .step (show 0 < 1 by decide) rfl (.nil _)
  have hclosing : (loopThreadsMachine.restrict fun _ a => Closing 1 0 a).Run (after told [.post 0 .postTask])
      [.runReturns 1 0, .destroy 1 0, .cancelTask 1 0 0, .clearDelegate 1 0, .leave 1 0] (.ok _) :=
    .step ⟨⟨rfl, rfl⟩, rfl, rfl⟩ rfl (.step ⟨.inl rfl, rfl, rfl⟩ rfl (.step ⟨⟨rfl, Nat.one_pos⟩, rfl, rfl⟩ rfl
      (.step ⟨⟨rfl, rfl⟩, rfl, rfl⟩ rfl (.step ⟨rfl, rfl, rfl⟩ rfl (.nil _)))))
  obtain ⟨s', hs', hlen, hran, -⟩ := quit_thread_exits hrun rfl rfl hmore hclosing
  cases hs'
  exact ⟨_, hmore, hclosing, rfl, hran, hlen⟩

end Mtl.Threading
