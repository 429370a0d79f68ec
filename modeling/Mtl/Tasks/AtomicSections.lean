import Mtl.Tasks.QueueSections

/-! The sections of `IncomingTaskQueue` are atomic: what each of their statements does, and what whole runs do. -/
namespace Mtl.Tasks
open Foundation

/-! ## What one statement does -/

/-- The statements that are left of a call, when `n` tasks are in the buffer. -/
def Station.left (n : Nat) : Station → Nat
  | .locking => n + 7
  | .checkingDrop => n + 6
  | .readingDelegate | .settingDelegate | .settingDrop => n + 5
  | .forwarding i => n - i + 3
  | .buffering | .asking | .clearingQueue | .clearingDelegate => 2
  | .unlocking _ => 1

def QueueSections.left (s : QueueSections) (t : ThreadId) : Nat :=
  match s.call t with
  | none => 0
  | some (_, station) => station.left s.handover.queue.incomingQueue.length

/-- A statement of thread `t` was executed. -/
structure Advanced (s : QueueSections) (t : ThreadId) (s' : QueueSections) : Prop where
  sectioned : Sectioned s'
  order : ∀ past, InOrder past s → InOrder (past ++ [.advance t]) s'
  others : ∀ t', t' ≠ t → s'.call t' = s.call t'
  left : s'.left t < s.left t

def Advances (s : QueueSections) (t : ThreadId) : Prop := ∃ s', s.advance t = .ok s' ∧ Advanced s t s'

section Statements
variable {s : QueueSections} {t : ThreadId} {call : LockedCall} {station : Station}

theorem Advances.of_move {station' : Station} {handover : Handover} {new : List HandoverAct}
    (hcall : s.call t = some (call, station)) (hadvance : s.advance t = .ok (s.move t call station' handover new))
    (hinv : Sectioned (s.move t call station' handover new))
    (hpending : pending (some (call, station)) = new ++ pending (some (call, station')))
    (hleft : station'.left handover.queue.incomingQueue.length < station.left s.handover.queue.incomingQueue.length) :
    Advances s t := by
  refine ⟨_, hadvance, hinv, fun past h => ?_, fun t' ht => ?_, ?_⟩
  · refine h.update t [] new (some (call, station')) (fun t' => by simp [startedBy]) rfl rfl ?_
    rw [hcall, List.append_nil, hpending]
  · simp [QueueSections.move, ht]
  · simpa [QueueSections.left, QueueSections.move, hcall] using hleft

/-- `AddTask` as a call of the hand-over protocol. -/
theorem post_noteAdded {s : Handover} (req : PostRequest) {queue : IncomingTaskQueue TaskId} {loop : TaskLoop TaskId}
    {disposal : Disposal} (hadd : s.queue.addTask s.loop s.nextTask req.targetTime = .ok (queue, loop, disposal)) :
    s.post req = .ok ({ s with queue := queue, loop := loop }.noteAdded req.targetTime disposal) := by
  simp only [Handover.post, hadd, ok_bind, pure_eq_ok]
  cases disposal <;> rfl

theorem keeps_noteAdded {s : Handover} {targetTime : TimePoint} {queue : IncomingTaskQueue TaskId}
    {loop : TaskLoop TaskId} {disposal : Disposal}
    (hadd : s.queue.addTask s.loop s.nextTask targetTime = .ok (queue, loop, disposal)) :
    Keeps s ({ s with queue := queue, loop := loop }.noteAdded targetTime disposal) := by
  obtain ⟨hdel, -, hs, -, hdisposal⟩ := IncomingTaskQueue.addTask_facts hadd
  cases disposal with
  | kept =>
    refine ⟨rfl, hdel, hs, fun hshut ha => ?_⟩
    cases hd : s.queue.delegate with
    | true => rw [hdisposal.2 hd] at hshut; cases hshut
    | false =>
      cases (IncomingTaskQueue.addTask_buffering hdisposal.1 hd _ _).symm.trans hadd
      exact ha
  | deleted => exact ⟨rfl, hdel, hs, fun _ ha => hdisposal.1.trans ha⟩
  | dropped => exact ⟨rfl, hdel, hs, fun _ ha => hdisposal.1.trans ha⟩

namespace Sectioned

/-- The statement of `AddTask` that finds the place of the closure. -/
theorem added (h : Sectioned s) {targetTime : TimePoint} (hcall : s.call t = some (.addTask targetTime, station))
    (hst : station ≠ .locking) {queue : IncomingTaskQueue TaskId} {loop : TaskLoop TaskId} {disposal : Disposal}
    (hadd : s.handover.queue.addTask s.handover.loop s.handover.nextTask targetTime = .ok (queue, loop, disposal)) :
    Sectioned (s.move t (.addTask targetTime) (.unlocking none)
      ({ s.handover with queue := queue, loop := loop }.noteAdded targetTime disposal)
      [.post (.postTaskForTime targetTime)]) := by
  have hkeep := keeps_noteAdded hadd
  have halive : ({ s.handover with queue := queue, loop := loop }.noteAdded targetTime disposal).released = false := by
    cases disposal <;> exact h.alive
  refine h.moved hcall hst (.unlocking none) nofun trivial (fun _ => hkeep) (fun hd => ?_) halive ?_
  · exact ⟨hkeep.initialized.trans (h.destroyed hd).1, hkeep.delegate.trans (h.destroyed hd).2⟩
  · obtain ⟨hview, hview'⟩ := h.view_plain hcall hst ⟨nofun, nofun⟩ (.unlocking none)
      ({ s.handover with queue := queue, loop := loop }.noteAdded targetTime disposal)
      [.post (.postTaskForTime targetTime)]
    rw [hview, hview']
    exact .single h.alive (post_noteAdded (.postTaskForTime targetTime) hadd)

/-- A statement that reads. -/
theorem read (h : Sectioned s) (hcall : s.call t = some (call, station)) (hst : station ≠ .locking)
    (hplain : call ≠ .initDelegate ∧ call ≠ .clearDelegate) (station' : Station) (hst' : station' ≠ .locking)
    (hknows : Knows s.handover t call station') : Sectioned (s.move t call station' s.handover []) := by
  refine h.moved hcall hst station' hst' hknows (fun _ => .refl _) h.destroyed h.alive ?_
  obtain ⟨hview, hview'⟩ := h.view_plain hcall hst hplain station' s.handover []
  rw [hview, hview']
  exact .nil _

/-- A loop that the queue knows as its delegate exists. -/
theorem not_destroyed (h : Sectioned s) (hd : s.handover.queue.delegate = true) : s.loopDestroyed = false := by
  by_contra hne
  rw [(h.destroyed (by simpa using hne)).2] at hd
  cases hd

/-- The lock, which only one thread gets. -/
theorem lock (h : Sectioned s) (hcall : s.call t = some (call, .locking)) (hm : s.mutex = none) : Advances s t := by
  have hfree (t' : ThreadId) (call' : LockedCall) (station' : Station)
      (hc : s.call t' = some (call', station')) : station' = .locking := by
    by_contra hst
    rw [h.owner hc hst] at hm
    cases hm
  have hknows := h.knows _ _ _ hcall
  have hfirst : call.first ≠ .locking ∧ Knows s.handover t call call.first ∧
      pending (some (call, call.first)) = pending (some (call, .locking)) ∧
      viewAt (some (call, call.first)) s.handover = s.handover := by
    cases call with
    | addTask | runsTasksOnCurrentThread => exact ⟨nofun, trivial, rfl, rfl⟩
    | initDelegate | clearDelegate => exact ⟨nofun, hknows, rfl, rfl⟩
  obtain ⟨hne, hfirst, hpending, hview⟩ := hfirst
  have hcall' (t' : ThreadId) (call' : LockedCall) (station' : Station)
      (hc : Function.update s.call t (some (call, call.first)) t' = some (call', station')) :
      (t' = t ∧ (call, call.first) = (call', station')) ∨ (t' ≠ t ∧ s.call t' = some (call', station')) := by
    by_cases ht : t' = t
    · subst ht
      exact .inl ⟨rfl, by simpa using hc⟩
    · exact .inr ⟨ht, by simpa [ht] using hc⟩
  refine ⟨{ s with mutex := some t }.move t call call.first s.handover [], ?_,
    ⟨?_, ?_, h.destroyed, h.alive, ?_⟩, ?_, fun t' ht => by simp [QueueSections.move, ht], ?_⟩
  · simp [QueueSections.advance, hcall]
  · intro t'
    by_cases ht : t' = t
    · subst ht
      simp [QueueSections.move, hne]
    · simp only [QueueSections.move, Function.update_of_ne ht, Option.some.injEq]
      refine ⟨fun h' => (ht h'.symm).elim, ?_⟩
      rintro ⟨call', station', hc, hst⟩
      exact (hst (hfree _ _ _ hc)).elim
  · intro t' call' station' hc
    rcases hcall' t' call' station' hc with ⟨rfl, heq⟩ | ⟨-, hc⟩
    · cases heq
      exact hfirst
    · exact h.knows _ _ _ hc
  · have hsame : ({ s with mutex := some t }.move t call call.first s.handover []).view = s.view := by
      rw [view_outside fun call station hc => hfree 0 call station hc]
      by_cases ht : t = 0
      · subst ht
        simpa [QueueSections.view, QueueSections.move] using hview
      · refine view_outside (s := { s with mutex := some t }.move t call call.first s.handover []) ?_
        intro call' station' hc
        simp only [QueueSections.move, Function.update_of_ne (Ne.symm ht)] at hc
        exact hfree 0 _ _ hc
    rw [hsame]
    simpa [QueueSections.move] using h.atomic
  · intro past hpast
    refine hpast.update t [] [] (some (call, call.first)) (fun t' => by simp [startedBy]) rfl rfl ?_
    rw [hcall, List.append_nil, List.nil_append, hpending]
  · cases call <;> simp [QueueSections.left, QueueSections.move, hcall, LockedCall.first, Station.left]

/-- The return, with the unlock before it. -/
theorem unlock (h : Sectioned s) {answer : Option Bool} (hcall : s.call t = some (call, .unlocking answer)) :
    Advances s t := by
  have howner := h.owner hcall nofun
  refine ⟨{ s with mutex := none, call := Function.update s.call t none }, ?_,
    ⟨?_, ?_, h.destroyed, h.alive, ?_⟩, ?_, fun t' ht => by simp [ht], ?_⟩
  · simp [QueueSections.advance, hcall]
  · intro t'
    by_cases ht : t' = t
    · subst ht
      simp
    · simp only [Function.update_of_ne ht]
      refine ⟨nofun, ?_⟩
      rintro ⟨call', station', hc, hst⟩
      exact (hst (h.others_lock hcall nofun ht hc)).elim
  · intro t' call' station' hc
    by_cases ht : t' = t
    · subst ht
      simp at hc
    · exact h.knows _ _ _ (by simpa [ht] using hc)
  · have hsame : QueueSections.view { s with mutex := none, call := Function.update s.call t none } = s.view := by
      by_cases ht : t = 0
      · subst ht
        simp only [QueueSections.view, Function.update_self, hcall]
        cases call <;> rfl
      · simp only [QueueSections.view, Function.update_of_ne (Ne.symm ht)]
    rw [hsame]
    exact h.atomic
  · intro past hpast
    refine hpast.update t [] [] none (fun t' => by simp [startedBy]) rfl (by simp) ?_
    rw [hcall]
    rfl
  · simp [QueueSections.left, hcall, Station.left]

theorem addTask (h : Sectioned s) {targetTime : TimePoint} (hcall : s.call t = some (.addTask targetTime, station))
    (hst : station ≠ .locking) : Advances s t := by
  have hknows := h.knows _ _ _ hcall
  have hplain : LockedCall.addTask targetTime ≠ .initDelegate ∧ LockedCall.addTask targetTime ≠ .clearDelegate :=
    ⟨nofun, nofun⟩
  cases station with
  | locking => exact (hst rfl).elim
  | checkingDrop =>
    cases hdrop : s.handover.queue.dropIncomingTasks with
    | true =>
      refine .of_move hcall ?_
        (h.added hcall hst (IncomingTaskQueue.addTask_cleared hdrop _ _)) rfl (by simp [Station.left])
      simp [QueueSections.advance, hcall, QueueSections.addTask, hdrop]
    | false =>
      refine .of_move hcall ?_ (h.read hcall hst hplain .readingDelegate nofun hdrop) rfl (by simp [Station.left])
      simp [QueueSections.advance, hcall, QueueSections.addTask, hdrop]
  | readingDelegate =>
    cases hdel : s.handover.queue.delegate with
    | true =>
      refine .of_move hcall ?_
        (h.read hcall hst hplain (.forwarding 0) nofun ⟨hknows, hdel⟩) rfl (by simp [Station.left])
      simp [QueueSections.advance, hcall, QueueSections.addTask, hdel]
    | false =>
      refine .of_move hcall ?_ (h.read hcall hst hplain .buffering nofun ⟨hknows, hdel⟩) rfl (by simp [Station.left])
      simp [QueueSections.advance, hcall, QueueSections.addTask, hdel]
  | forwarding i =>
    obtain ⟨hdrop, hdel⟩ := hknows
    have hloop := h.not_destroyed hdel
    cases hs : s.handover.loop.shutDown with
    | false =>
      refine .of_move hcall ?_
        (h.added hcall hst (IncomingTaskQueue.addTask_running hdrop hdel hs _ _)) rfl (by simp [Station.left])
      simp [QueueSections.advance, hcall, QueueSections.addTask, QueueSections.delegatePostTask, hloop,
        TaskLoop.postTask_running hs]
    | true =>
      refine .of_move hcall ?_
        (h.added hcall hst (IncomingTaskQueue.addTask_shuttingDown hdrop hdel hs _ _)) rfl (by simp [Station.left])
      simp [QueueSections.advance, hcall, QueueSections.addTask, QueueSections.delegatePostTask, hloop,
        TaskLoop.postTask_shutDown hs]
  | buffering =>
    refine .of_move hcall ?_
      (h.added hcall hst (IncomingTaskQueue.addTask_buffering hknows.1 hknows.2 _ _)) rfl (by simp [Station.left])
    simp [QueueSections.advance, hcall, QueueSections.addTask]
  | unlocking => exact h.unlock hcall
  | asking | settingDelegate | clearingQueue | settingDrop | clearingDelegate => exact hknows.elim

theorem runsTasksOnCurrentThread (h : Sectioned s) (hcall : s.call t = some (.runsTasksOnCurrentThread, station))
    (hst : station ≠ .locking) : Advances s t := by
  have hknows := h.knows _ _ _ hcall
  have hplain : LockedCall.runsTasksOnCurrentThread ≠ .initDelegate ∧
      LockedCall.runsTasksOnCurrentThread ≠ .clearDelegate := ⟨nofun, nofun⟩
  cases station with
  | locking => exact (hst rfl).elim
  | readingDelegate =>
    cases hdel : s.handover.queue.delegate with
    | true =>
      refine .of_move hcall ?_ (h.read hcall hst hplain .asking nofun hdel) rfl (by simp [Station.left])
      simp [QueueSections.advance, hcall, QueueSections.runsTasksOnCurrentThread, hdel]
    | false =>
      refine .of_move hcall ?_ (h.read hcall hst hplain (.unlocking (some false)) nofun ?_) rfl (by simp [Station.left])
      · simp [QueueSections.advance, hcall, QueueSections.runsTasksOnCurrentThread, hdel]
      · change some _ = some (s.handover.queue.runsTasksOnCurrentThread (t = 0))
        simp [IncomingTaskQueue.runsTasksOnCurrentThread, hdel]
  | asking =>
    have hloop := h.not_destroyed hknows
    refine .of_move hcall ?_ (h.read hcall hst hplain (.unlocking (some (t = 0))) nofun ?_) rfl (by simp [Station.left])
    · simp [QueueSections.advance, hcall, QueueSections.runsTasksOnCurrentThread, QueueSections.delegateRunsTasks,
        hloop]
    · have hdel : s.handover.queue.delegate = true := hknows
      change some _ = some (s.handover.queue.runsTasksOnCurrentThread (t = 0))
      simp [IncomingTaskQueue.runsTasksOnCurrentThread, hdel]
  | unlocking => exact h.unlock hcall
  | checkingDrop | forwarding | buffering | settingDelegate | clearingQueue | settingDrop | clearingDelegate =>
    exact hknows.elim

/-- A statement of `InitDelegate` or `ClearDelegate`, on the loop's thread. -/
theorem moved_own (h : Sectioned s) (hcall : s.call 0 = some (call, station)) (hst : station ≠ .locking)
    (station' : Station) (hst' : station' ≠ .locking) {handover : Handover} {new : List HandoverAct}
    (hknows : Knows handover 0 call station')
    (hdestroyed : s.loopDestroyed = true → handover.initialized = true ∧ handover.queue.delegate = false)
    (halive : handover.released = false)
    (hrun : handoverMachine.Run (viewAt (some (call, station)) s.handover) new
      (.ok (viewAt (some (call, station')) handover))) :
    Sectioned (s.move 0 call station' handover new) := by
  refine h.moved hcall hst station' hst' hknows (fun h0 => (h0 rfl).elim) hdestroyed halive ?_
  simpa [QueueSections.view, QueueSections.move, hcall] using hrun

theorem viewAt_delegate {s : Handover} (hdel : s.queue.delegate = false) (hloop : s.loop = {}) :
    viewAt (some (.initDelegate, .forwarding 0)) { s with queue.delegate := true } = s := by
  obtain ⟨⟨incomingQueue, delegate, dropIncomingTasks⟩, loop, running, initialized, released, nextTask, log⟩ := s
  cases hdel
  cases hloop
  rfl

theorem viewAt_drop {s : Handover} (hdrop : s.queue.dropIncomingTasks = false) :
    viewAt (some (.clearDelegate, .clearingDelegate)) { s with queue.dropIncomingTasks := true } = s := by
  obtain ⟨⟨incomingQueue, delegate, dropIncomingTasks⟩, loop, running, initialized, released, nextTask, log⟩ := s
  cases hdrop
  rfl

theorem initDelegate (h : Sectioned s) (hcall : s.call t = some (.initDelegate, station))
    (hst : station ≠ .locking) : Advances s t := by
  have hknows := h.knows _ _ _ hcall
  have hview := h.handed
  have hdestroyed (hi : s.handover.initialized = false) : s.loopDestroyed = false := by
    by_contra hne
    rw [(h.destroyed (by simpa using hne)).1] at hi
    cases hi
  cases station with
  | locking => exact (hst rfl).elim
  | checkingDrop =>
    obtain ⟨rfl, hi⟩ := hknows
    simp only [QueueSections.view, hcall, viewAt] at hview
    obtain ⟨hdel, hdrop, hloop⟩ := hview.unmade hi
    refine .of_move hcall ?_
      (h.moved_own hcall hst .settingDelegate (by simp) ⟨rfl, hi⟩ h.destroyed h.alive (.nil _)) rfl
      (by simp [Station.left])
    simp [QueueSections.advance, hcall, QueueSections.initDelegate, hdrop]
  | settingDelegate =>
    obtain ⟨rfl, hi⟩ := hknows
    simp only [QueueSections.view, hcall, viewAt] at hview
    obtain ⟨hdel, hdrop, hloop⟩ := hview.unmade hi
    have hadvance : s.advance 0 =
        .ok (s.move 0 .initDelegate (.forwarding 0) { s.handover with queue.delegate := true } []) := by
      simp [QueueSections.advance, hcall, QueueSections.initDelegate]
    refine .of_move hcall hadvance ?_ rfl (by simp [Station.left])
    refine h.moved_own hcall hst (.forwarding 0) (by simp) ⟨rfl, hi, hdrop, rfl, ?_⟩ (fun hd => ?_) h.alive ?_
    · simp [hloop, TaskLoop.acceptAll]
    · rw [hdestroyed hi] at hd
      cases hd
    · rw [viewAt_delegate hdel hloop]
      exact .nil _
  | forwarding i =>
    obtain ⟨rfl, hi, hdrop, hdel, hloop⟩ := hknows
    cases htask : s.handover.queue.incomingQueue[i]? with
    | none =>
      have hadvance : s.advance 0 = .ok (s.move 0 .initDelegate .clearingQueue s.handover []) := by
        simp [QueueSections.advance, hcall, QueueSections.initDelegate, htask]
      refine .of_move hcall hadvance ?_ rfl (by simp [Station.left])
      refine h.moved_own hcall hst .clearingQueue (by simp) ⟨rfl, hi, hdrop, hdel, ?_⟩ h.destroyed h.alive (.nil _)
      rw [hloop, List.take_of_length_le (List.getElem?_eq_none_iff.mp htask)]
    | some task =>
      have hs : s.handover.loop.shutDown = false := by rw [hloop]; rfl
      have hadvance : s.advance 0 = .ok (s.move 0 .initDelegate (.forwarding (i + 1))
          { s.handover with loop := s.handover.loop.accept task.1 task.2 } []) := by
        simp [QueueSections.advance, hcall, QueueSections.initDelegate, htask, QueueSections.delegatePostTask,
          hdestroyed hi, TaskLoop.postTask_running hs]
      have hi' : i < s.handover.queue.incomingQueue.length := (List.getElem?_eq_some_iff.mp htask).1
      refine .of_move hcall hadvance ?_ rfl (by simp [Station.left]; omega)
      refine h.moved_own hcall hst (.forwarding (i + 1)) (by simp) ⟨rfl, hi, hdrop, hdel, ?_⟩ h.destroyed h.alive
        (.nil _)
      simp [hloop, TaskLoop.accept, TaskLoop.acceptAll, List.take_add_one, htask]
  | clearingQueue =>
    obtain ⟨rfl, hi, hdrop, hdel, hloop⟩ := hknows
    have hadvance : s.advance 0 = .ok (s.move 0 .initDelegate (.unlocking none)
        { s.handover with queue.incomingQueue := [], initialized := true } [.initDelegate]) := by
      simp [QueueSections.advance, hcall, QueueSections.initDelegate]
    refine .of_move hcall hadvance ?_ rfl (by simp [Station.left])
    refine h.moved_own hcall hst (.unlocking none) (by simp) rfl (fun hd => ?_) h.alive ?_
    · rw [hdestroyed hi] at hd
      cases hd
    · refine .single ⟨hi, h.alive⟩ ?_
      have hinit := IncomingTaskQueue.initDelegate_running (q := { s.handover.queue with delegate := false }) (l := {})
        hdrop rfl
      simp only [handoverMachine, viewAt, Handover.initDelegate, hinit]
      simp [hloop, hdel]
  | unlocking => exact h.unlock hcall
  | readingDelegate | buffering | asking | settingDrop | clearingDelegate => exact hknows.elim

theorem clearDelegate (h : Sectioned s) (hcall : s.call t = some (.clearDelegate, station))
    (hst : station ≠ .locking) : Advances s t := by
  have hknows := h.knows _ _ _ hcall
  have hview := h.handed
  cases station with
  | locking => exact (hst rfl).elim
  | checkingDrop =>
    obtain ⟨rfl, hs, ha, hdel⟩ := hknows
    simp only [QueueSections.view, hcall, viewAt] at hview
    have hdrop := hview.serving hdel
    refine .of_move hcall ?_
      (h.moved_own hcall hst .settingDrop (by simp) ⟨rfl, hs, ha, hdel⟩ h.destroyed h.alive (.nil _))
      rfl (by simp [Station.left])
    simp [QueueSections.advance, hcall, QueueSections.clearDelegate, hdrop]
  | settingDrop =>
    obtain ⟨rfl, hs, ha, hdel⟩ := hknows
    simp only [QueueSections.view, hcall, viewAt] at hview
    have hadvance : s.advance 0 = .ok (s.move 0 .clearDelegate .clearingDelegate
        { s.handover with queue.dropIncomingTasks := true } []) := by
      simp [QueueSections.advance, hcall, QueueSections.clearDelegate]
    refine .of_move hcall hadvance ?_ rfl (by simp [Station.left])
    refine h.moved_own hcall hst .clearingDelegate (by simp) ⟨rfl, hs, ha, hdel, rfl⟩ h.destroyed h.alive ?_
    rw [viewAt_drop (hview.serving hdel)]
    exact .nil _
  | clearingDelegate =>
    obtain ⟨rfl, hs, ha, hdel, hdrop⟩ := hknows
    have hadvance : s.advance 0 = .ok (s.move 0 .clearDelegate (.unlocking none)
        ({ s.handover with queue.delegate := false }.note .cleared) [.clearDelegate]) := by
      simp [QueueSections.advance, hcall, QueueSections.clearDelegate]
    refine .of_move hcall hadvance ?_ rfl (by simp [Station.left])
    refine h.moved_own hcall hst (.unlocking none) (by simp) rfl (fun hd => ?_) h.alive ?_
    · rw [h.not_destroyed hdel] at hd
      cases hd
    · refine .single ⟨hs, ha, hdel⟩ ?_
      have hclear := IncomingTaskQueue.clearDelegate_eq (q := { s.handover.queue with dropIncomingTasks := false }) rfl
      simp only [handoverMachine, viewAt, Handover.clearDelegate, hclear]
      simp [Handover.note, hdrop]
  | unlocking => exact h.unlock hcall
  | readingDelegate | forwarding | buffering | asking | settingDelegate | clearingQueue => exact hknows.elim

/-- Whatever statement thread `t` has reached, it can be executed when the lock is free or its own. -/
theorem advance (h : Sectioned s) (hcall : s.call t = some (call, station))
    (hm : station = .locking → s.mutex = none) : Advances s t := by
  by_cases hst : station = .locking
  · subst hst
    exact h.lock hcall (hm rfl)
  · cases call with
    | addTask => exact h.addTask hcall hst
    | runsTasksOnCurrentThread => exact h.runsTasksOnCurrentThread hcall hst
    | initDelegate => exact h.initDelegate hcall hst
    | clearDelegate => exact h.clearDelegate hcall hst

end Sectioned
end Statements

/-! ## Whole runs -/
section Runs
variable {s : QueueSections} {t : ThreadId} {past : List SectionAct}

/-- What the loop's thread does without the mutex leaves the queue alone. -/
theorem unguarded_keeps {s s' : Handover} {a : HandoverAct} (ha : a.isUnguarded = true)
    (hstep : handoverMachine.step s a = .ok s') :
    s'.queue = s.queue ∧ s'.initialized = s.initialized ∧ s'.released = s.released := by
  cases a with
  | post | initDelegate | clearDelegate | releaseQueue => cases ha
  | beginShutdown =>
    cases hstep
    exact ⟨rfl, rfl, rfl⟩
  | beginTask i | cancelTask i =>
    simp only [handoverMachine, Handover.beginTask, Handover.cancelTask] at hstep
    split at hstep
    · cases hstep
    · cases hstep
      exact ⟨rfl, rfl, rfl⟩
  | endTask =>
    simp only [handoverMachine, Handover.endTask] at hstep
    split at hstep
    · cases hstep
    · cases hstep
      exact ⟨rfl, rfl, rfl⟩

/-- In a section of another thread only the queue counts. -/
theorem Knows.same_queue {s s' : Handover} (ht : t ≠ 0) (hqueue : s'.queue = s.queue) {call : LockedCall}
    {station : Station} (h : Knows s t call station) : Knows s' t call station := by
  obtain ⟨queue, loop, running, initialized, released, nextTask, log⟩ := s
  obtain ⟨queue', loop', running', initialized', released', nextTask', log'⟩ := s'
  cases hqueue
  cases call with
  | addTask | runsTasksOnCurrentThread => cases station <;> exact h
  | initDelegate | clearDelegate =>
    cases station <;> first | exact h.elim | exact (ht h).elim | exact (ht h.1).elim

namespace Sectioned

/-- A call begins where nothing is asked of its thread yet. -/
theorem call (h : Sectioned s) (hpast : InOrder past s) {call : LockedCall} (hcall : s.call t = none)
    (hknows : Knows s.handover t call .locking) :
    Sectioned (s.move t call .locking s.handover []) ∧
      InOrder (past ++ [.call t call]) (s.move t call .locking s.handover []) := by
  refine ⟨⟨fun t' => ?_, fun t' call' station' hc => ?_, h.destroyed, h.alive, ?_⟩, ?_⟩
  · by_cases ht : t' = t
    · subst ht
      have := h.inside t'
      rw [hcall] at this
      simpa [QueueSections.move] using this
    · simpa [QueueSections.move, ht] using h.inside t'
  · by_cases ht : t' = t
    · subst ht
      simp only [QueueSections.move, Function.update_self] at hc
      cases hc
      exact hknows
    · exact h.knows _ _ _ (by simpa [QueueSections.move, ht] using hc)
  · have hsame : (s.move t call .locking s.handover []).view = s.view := by
      by_cases ht : t = 0
      · subst ht
        simp only [QueueSections.view, QueueSections.move, Function.update_self, hcall]
        cases call <;> rfl
      · simp only [QueueSections.view, QueueSections.move, Function.update_of_ne (Ne.symm ht)]
    rw [hsame]
    simpa [QueueSections.move] using h.atomic
  · refine hpast.update t call.act.toList [] (some (call, .locking)) (fun t' => ?_) rfl rfl ?_
    · simp only [startedBy]
      split <;> rfl
    · rw [hcall]
      rfl

/-- The loop's thread works on, whoever is in a section. -/
theorem loop (h : Sectioned s) (hpast : InOrder past s) {a : HandoverAct} (h0 : s.call 0 = none)
    (ha : a.isUnguarded = true) (he : handoverMachine.Enabled s.handover a) :
    ∃ s', sectionsMachine.step s (.loop a) = .ok s' ∧ Sectioned s' ∧ InOrder (past ++ [.loop a]) s' := by
  have hview : s.view = s.handover := by simp [QueueSections.view, h0, viewAt]
  obtain ⟨handover, hstep, -⟩ := Handed.step (hview ▸ h.handed) a he
  obtain ⟨hqueue, hi, hr⟩ := unguarded_keeps ha hstep
  refine ⟨{ s with handover := handover, effects := s.effects ++ [(0, a)] }, by simp [sectionsMachine, hstep],
    ⟨h.inside, fun t call station hc => ?_, fun hd => ?_, hr.trans h.alive, ?_⟩, ?_⟩
  · have ht : t ≠ 0 := by
      rintro rfl
      rw [h0] at hc
      cases hc
    exact (h.knows _ _ _ hc).same_queue ht hqueue
  · exact ⟨hi.trans (h.destroyed hd).1, by rw [hqueue, (h.destroyed hd).2]⟩
  · have hview' : QueueSections.view { s with handover := handover, effects := s.effects ++ [(0, a)] } = handover := by
      simp [QueueSections.view, h0, viewAt]
    have hatomic := h.atomic
    rw [hview] at hatomic
    rw [hview', List.map_append]
    exact hatomic.append (.single he hstep)
  · refine hpast.update 0 [a] [a] none (fun t' => ?_) ?_ rfl ?_
    · simp only [startedBy]
      split <;> rfl
    · rw [← h0, Function.update_eq_self]
    · rw [h0]
      rfl

/-- The destructor has returned. -/
theorem destroyLoop (h : Sectioned s) (hpast : InOrder past s) (h0 : s.call 0 = none)
    (hdrop : s.handover.queue.dropIncomingTasks = true) :
    Sectioned { s with loopDestroyed := true } ∧ InOrder (past ++ [.destroyLoop]) { s with loopDestroyed := true } := by
  have hview : s.view = s.handover := by simp [QueueSections.view, h0, viewAt]
  have hH : Handed s.handover := hview ▸ h.handed
  refine ⟨⟨h.inside, h.knows, fun _ => ⟨hH.started.mpr (.inr hdrop), (hH.drained hdrop).1⟩, h.alive, h.atomic⟩, ?_⟩
  refine hpast.update 0 [] [] (s.call 0) (fun t' => by simp [startedBy]) ?_ (by simp) (by simp)
  exact (Function.update_eq_self 0 s.call).symm

/-- Every step of every thread, in any order. -/
theorem step (h : Sectioned s) (hpast : InOrder past s) (a : SectionAct) (he : sectionsMachine.Enabled s a) :
    ∃ s', sectionsMachine.step s a = .ok s' ∧ Sectioned s' ∧ InOrder (past ++ [a]) s' := by
  cases a with
  | call t call =>
    cases call with
    | addTask | runsTasksOnCurrentThread => exact ⟨_, rfl, h.call hpast he trivial⟩
    | initDelegate =>
      obtain ⟨rfl, h0, hi⟩ := he
      exact ⟨_, rfl, h.call hpast h0 ⟨rfl, hi⟩⟩
    | clearDelegate =>
      obtain ⟨rfl, h0, hs, ha, hdel⟩ := he
      exact ⟨_, rfl, h.call hpast h0 ⟨rfl, hs, ha, hdel⟩⟩
  | advance t =>
    obtain ⟨call, station, hcall, hm⟩ := he
    obtain ⟨s', hs', hadv⟩ := h.advance hcall hm
    exact ⟨s', hs', hadv.sectioned, hadv.order past hpast⟩
  | loop a => exact h.loop hpast he.1 he.2.1 he.2.2
  | destroyLoop => exact ⟨_, rfl, h.destroyLoop hpast he.1 he.2.1⟩

/-- A thread with the lock, or before a free one, returns from its call if no other thread takes a step. -/
theorem returns_alone (h : Sectioned s) {call : LockedCall} {station : Station}
    (hcall : s.call t = some (call, station)) (hm : station = .locking → s.mutex = none) :
    ∃ k s', k ≤ s.left t ∧ sectionsMachine.Run s (List.replicate k (.advance t)) (.ok s') ∧ s'.call t = none ∧
      s'.mutex = none ∧ ∀ t', t' ≠ t → s'.call t' = s.call t' := by
  induction hn : s.left t using Nat.strongRecOn generalizing s call station with
  | _ n ih =>
    obtain ⟨s', hs', hadv⟩ := h.advance hcall hm
    have hone : sectionsMachine.Enabled s (.advance t) := ⟨call, station, hcall, hm⟩
    have hlt := hadv.left
    have hothers (t' : ThreadId) (ht : t' ≠ t) : s'.mutex ≠ some t' := by
      intro ho
      obtain ⟨call', station', hc, hst'⟩ := (hadv.sectioned.inside t').mp ho
      rw [hadv.others t' ht] at hc
      by_cases hst : station = .locking
      · cases (h.owner hc hst').symm.trans (hm hst)
      · exact ht (Option.some.inj ((h.owner hc hst').symm.trans (h.owner hcall hst)))
    have hfree (hcall' : ∀ call station, s'.call t = some (call, station) → station = .locking) : s'.mutex = none := by
      cases hm' : s'.mutex with
      | none => rfl
      | some t' =>
        obtain ⟨call', station', hc, hst'⟩ := (hadv.sectioned.inside t').mp hm'
        by_cases ht : t' = t
        · exact (hst' (hcall' call' station' (ht ▸ hc))).elim
        · exact (hothers t' ht hm').elim
    cases hcall' : s'.call t with
    | none => exact ⟨1, s', by omega, .single hone hs', hcall', hfree (by simp [hcall']), hadv.others⟩
    | some c =>
      obtain ⟨call', station'⟩ := c
      obtain ⟨k, u, hk, hrun, hdone, hmu, hu⟩ := ih (s'.left t) (by omega) hadv.sectioned hcall'
        (fun hst' => hfree (by rintro _ _ hc; rw [hcall'] at hc; cases hc; exact hst')) rfl
      exact ⟨k + 1, u, by omega, .step hone hs' hrun, hdone, hmu, fun t' ht => (hu t' ht).trans (hadv.others t' ht)⟩

/-- Of the calls under way one can return, and with it the lock is free for the others. -/
theorem some_returns (h : Sectioned s) (ht : s.call t ≠ none) :
    ∃ t' k s', k ≤ s.handover.queue.incomingQueue.length + 7 ∧ s.call t' ≠ none ∧
      sectionsMachine.Run s (List.replicate k (.advance t')) (.ok s') ∧ s'.call t' = none ∧ s'.mutex = none ∧
      ∀ t'', t'' ≠ t' → s'.call t'' = s.call t'' := by
  have hnext : ∃ t' call station, s.call t' = some (call, station) ∧ (station = .locking → s.mutex = none) := by
    cases hm : s.mutex with
    | some t' =>
      obtain ⟨call, station, hcall, hst⟩ := (h.inside t').mp hm
      exact ⟨t', call, station, hcall, fun hlock => (hst hlock).elim⟩
    | none =>
      obtain ⟨⟨call, station⟩, hcall⟩ := Option.ne_none_iff_exists'.mp ht
      exact ⟨t, call, station, hcall, fun _ => rfl⟩
  obtain ⟨t', call, station, hcall, hm⟩ := hnext
  obtain ⟨k, s', hk, hrun, hdone⟩ := h.returns_alone hcall hm
  refine ⟨t', k, s', hk.trans ?_, by simp [hcall], hrun, hdone⟩
  simp only [QueueSections.left, hcall]
  cases station <;> simp [Station.left]
  omega

end Sectioned
end Runs

/-- However the statements of the calls interleave with each other and with the loop, no call finds a loop that is gone
or fails a check, only one thread is past the lock, and the queue and its loop are what the effects so far, each one at
once, make of them: a thread's own in its order, all that it has begun but the one it is in. An answer says what holds
when it is given, and of the calls under way one always returns, needing no other thread. -/
theorem sections_are_atomic {acts : List SectionAct} {result : Except Fault QueueSections}
    (hrun : sectionsMachine.Run {} acts result) :
    ∃ s, result = .ok s ∧
      (∀ t t' call call' station station', s.call t = some (call, station) → s.call t' = some (call', station') →
        station ≠ .locking → station' ≠ .locking → t = t') ∧
      handoverMachine.Run {} (s.effects.map Prod.snd) (.ok s.view) ∧
      (s.mutex = none → s.view = s.handover) ∧
      (∀ t, acts.filterMap (startedBy t) = s.effects.filterMap (ofThread t) ++ pending (s.call t)) ∧
      (∀ t answer, s.call t = some (.runsTasksOnCurrentThread, .unlocking answer) →
        answer = some (s.view.queue.runsTasksOnCurrentThread (t = 0))) ∧
      (∀ t, s.call t ≠ none → ∃ t' k s', k ≤ s.handover.queue.incomingQueue.length + 7 ∧ s.call t' ≠ none ∧
        sectionsMachine.Run s (List.replicate k (.advance t')) (.ok s') ∧ s'.call t' = none ∧ s'.mutex = none ∧
        ∀ t'', t'' ≠ t' → s'.call t'' = s.call t'') := by
  obtain ⟨s, hs, h, horder⟩ := hrun.safe_along (I := fun past s => Sectioned s ∧ InOrder past s)
    (fun past s a h he => h.1.step h.2 a he) ⟨.init, fun t => rfl⟩
  refine ⟨s, hs, ?_, h.atomic, ?_, horder, ?_, fun t ht => h.some_returns ht⟩
  · intro t t' call call' station station' hcall hcall' hst hst'
    exact Option.some.inj ((h.owner hcall hst).symm.trans (h.owner hcall' hst'))
  · intro hm
    refine Sectioned.view_outside fun call station hcall => ?_
    by_contra hst
    rw [h.owner hcall hst] at hm
    cases hm
  · intro t answer hcall
    rw [(h.view_plain hcall nofun ⟨nofun, nofun⟩ .locking s.handover []).1]
    exact h.knows _ _ _ hcall

/-- A thread posts while the loop takes over the buffer: its call waits for the lock and finds the delegate. -/
theorem sections_are_atomic_posting :
    ∃ s, sectionsMachine.Run {} [.call 1 (.addTask 5), .advance 1, .call 0 .initDelegate, .advance 1, .advance 1,
        .advance 1, .advance 1, .advance 0, .call 2 (.addTask 7), .advance 0, .advance 0, .advance 0, .advance 0,
        .advance 0, .advance 0, .advance 2, .advance 2, .advance 2, .advance 2] (.ok s) ∧
      s.effects.map Prod.fst = [1, 0, 2] ∧ s.view.loop.passed = [(1, 7), (0, 5)] ∧
      handoverMachine.Run {} [.post (.postTaskForTime 5), .initDelegate, .post (.postTaskForTime 7)] (.ok s.view) := by
  have hrun : sectionsMachine.Run {} [.call 1 (.addTask 5), .advance 1, .call 0 .initDelegate, .advance 1, .advance 1,
      .advance 1, .advance 1, .advance 0, .call 2 (.addTask 7), .advance 0, .advance 0, .advance 0, .advance 0,
      .advance 0, .advance 0, .advance 2, .advance 2, .advance 2, .advance 2] (.ok _) :=
    .step rfl rfl (.step ⟨_, _, rfl, fun _ => rfl⟩ rfl (.step ⟨rfl, rfl, rfl⟩ rfl (.step ⟨_, _, rfl, nofun⟩ rfl
      (.step ⟨_, _, rfl, nofun⟩ rfl (.step ⟨_, _, rfl, nofun⟩ rfl (.step ⟨_, _, rfl, nofun⟩ rfl
        (.step ⟨_, _, rfl, fun _ => rfl⟩ rfl (.step rfl rfl (.step ⟨_, _, rfl, nofun⟩ rfl
          (.step ⟨_, _, rfl, nofun⟩ rfl (.step ⟨_, _, rfl, nofun⟩ rfl (.step ⟨_, _, rfl, nofun⟩ rfl
            (.step ⟨_, _, rfl, nofun⟩ rfl (.step ⟨_, _, rfl, nofun⟩ rfl (.step ⟨_, _, rfl, fun _ => rfl⟩ rfl
              (.step ⟨_, _, rfl, nofun⟩ rfl (.step ⟨_, _, rfl, nofun⟩ rfl (.step ⟨_, _, rfl, nofun⟩ rfl
                (.nil _)))))))))))))))))))
  obtain ⟨s, hs, -, hatomic, -⟩ := sections_are_atomic hrun
  cases hs
  exact ⟨_, hrun, rfl, rfl, hatomic⟩

end Mtl.Tasks
