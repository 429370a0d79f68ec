import Mtl.Tasks.RunSegments

/-! `PostQuitTask` ends `Run`, whatever else is posted. -/
namespace Mtl.Tasks
open Foundation

def RunAct.isDispatch : RunAct → Bool
  | .dispatch => true
  | _ => false

/-- The tasks that the async loop has accepted, in the order in which it will dispatch them. -/
def RunLoop.waiting (s : RunLoop) : List Program := s.loop.accepted.map TaskRecord.task

/-- A task that calls `QuitNow` is among the next ones, or the loop has already been told to quit: `left` bounds the
dispatches that may still follow. -/
def RunLoop.QuitsWithin (s : RunLoop) (left : Nat) : Prop :=
  s.quit = true ∨ ∃ i task, i < left ∧ s.waiting[i]? = some task ∧ .quitNow ∈ task

namespace Segmented
variable {s t : RunLoop}

theorem postTask_waiting (h : Segmented s) {task : Program} (ht : s.postTask task = .ok t) :
    t.waiting = s.waiting ++ [task] ∧ t.quit = s.quit := by
  rw [Ran.postTask h.serving] at ht
  cases ht
  exact ⟨by simp [RunLoop.waiting, TaskLoop.accept, TaskRecord.of], rfl⟩

/-- A dispatch takes the first task. What the task and the callback post comes after the others, and `QuitNow` in the
task tells the loop to quit. -/
theorem dispatch_waiting (h : Segmented s) (hin : s.onStack = true) {task : Program} {rest : List Program}
    (hwaiting : s.waiting = task :: rest) (ht : s.dispatch = .ok t) :
    ∃ new, t.waiting = rest ++ new ∧ (.quitNow ∈ task → t.quit = true) := by
  obtain ⟨record, records, haccepted, rfl, hrest⟩ := List.map_eq_cons_iff.mp hwaiting
  have htaken : Serving { s with loop := s.loop.handle 0 } := ⟨h.serving.delegate, h.serving.kept, h.serving.accepting⟩
  obtain ⟨u, hu, hran⟩ := Ran.program htaken record.task
  obtain ⟨v, hv, hepilogue⟩ := Ran.epilogue (hran.serving htaken)
  obtain ⟨new, -, hnew⟩ := hran.tasks
  obtain ⟨new', -, hnew'⟩ := hepilogue.tasks
  simp only [RunLoop.dispatch, haccepted, hu, hv, ok_bind, pure_eq_ok] at ht
  cases ht
  refine ⟨new ++ new', ?_, fun hquits => ?_⟩
  · rw [RunLoop.waiting, hnew', hnew, ← hrest, ← List.append_assoc]
    simp [haccepted, TaskLoop.handle]
  · exact hepilogue.quit.mpr (.inl (hran.quit.mpr (.inr ⟨h.running.trans hin, hquits⟩)))

/-- A step before `Run` returns: each dispatch uses up one of those that are left. -/
theorem quitsWithin (h : Segmented s) (hin : s.onStack = true) {left : Nat} (hq : s.QuitsWithin left) {a : RunAct}
    (he : runMachine.Enabled s a) (ha : a ≠ .runReturns) :
    ∃ t, runMachine.step s a = .ok t ∧ Segmented t ∧ t.onStack = true ∧
      ∃ left', t.QuitsWithin left' ∧ left' + (if a.isDispatch then 1 else 0) = left := by
  cases a with
  | postTask task =>
    obtain ⟨t, ht, hsegmented, hstack, -⟩ := h.postTask task
    obtain ⟨hwaiting, hquit⟩ := h.postTask_waiting ht
    refine ⟨t, ht, hsegmented, hstack.trans hin, left, ?_, rfl⟩
    rcases hq with hq | ⟨i, quits, hi, hget, hmem⟩
    · exact .inl (hquit.trans hq)
    · refine .inr ⟨i, quits, hi, ?_, hmem⟩
      rw [hwaiting, List.getElem?_append_left (List.getElem?_eq_some_iff.mp hget).1, hget]
  | dispatch =>
    obtain ⟨t, ht, hsegmented, hstack, -⟩ := h.dispatch hin he.2.1 he.2.2
    refine ⟨t, ht, hsegmented, hstack, left - 1, ?_⟩
    rcases hq with hq | ⟨i, quits, hi, hget, hmem⟩
    · exact absurd (he.2.1.symm.trans hq) (by simp)
    · obtain ⟨task, rest, hwaiting⟩ := List.exists_cons_of_ne_nil fun hnil : s.waiting = [] => by simp [hnil] at hget
      obtain ⟨new, hnew, hquits⟩ := h.dispatch_waiting hin hwaiting ht
      refine ⟨?_, Nat.sub_add_cancel (Nat.one_le_of_lt hi)⟩
      rw [hwaiting] at hget
      cases i with
      | zero =>
        cases hget
        exact .inl (hquits hmem)
      | succ i =>
        rw [List.getElem?_cons_succ] at hget
        refine .inr ⟨i, quits, by omega, ?_, hmem⟩
        rw [hnew, List.getElem?_append_left (List.getElem?_eq_some_iff.mp hget).1, hget]
  | runReturns => exact absurd rfl ha
  | postQuitTask | quitNow | run => exact absurd (hin.symm.trans he) (by simp)

end Segmented

/-- With a task that calls `QuitNow` at place `i` of those that wait, `Run` has at most `i + 1` dispatches before it,
whatever its tasks, its callback and other threads post meanwhile; and as long as it has not returned there is a next
dispatch, or the return. -/
theorem quit_task_ends_run {tasks : List Program} {start : RunLoop} (hmake : RunLoop.make tasks = .ok start)
    {acts more : List RunAct} {s : RunLoop} {result : Except Fault RunLoop}
    (hrun : runMachine.Run start acts (.ok s)) (hin : s.onStack = true) {i : Nat} {task : Program}
    (hget : s.waiting[i]? = some task) (hquits : .quitNow ∈ task)
    (hmore : (runMachine.restrict fun _ a => a ≠ .runReturns).Run s more result) :
    ∃ t, result = .ok t ∧ more.countP RunAct.isDispatch ≤ i + 1 ∧
      (runMachine.Enabled t .dispatch ∨ runMachine.Enabled t .runReturns) ∧
      (more.countP RunAct.isDispatch = i + 1 → runMachine.Enabled t .runReturns) := by
  obtain ⟨start', hstart, hinit, -⟩ := Segmented.make tasks
  cases hmake.symm.trans hstart
  obtain ⟨s', hs', hsegmented⟩ := hrun.safe (I := Segmented) (fun s a h he => h.step a he) hinit
  cases hs'
  obtain ⟨t, ht, -, hstack, left, hwithin, hleft⟩ := hmore.safe_along
    (I := fun past u => Segmented u ∧ u.onStack = true ∧
      ∃ left, u.QuitsWithin left ∧ left + past.countP RunAct.isDispatch = i + 1)
    (fun past u a ⟨hu, hstack, left, hwithin, hleft⟩ he => by
      obtain ⟨v, hv, hsegmented', hstack', left', hwithin', hleft'⟩ := hu.quitsWithin hstack hwithin he.1 he.2
      refine ⟨v, hv, hsegmented', hstack', left', hwithin', ?_⟩
      rw [List.countP_append, List.countP_singleton]
      omega)
    ⟨hsegmented, hin, i + 1, .inr ⟨i, task, Nat.lt_succ_self i, hget, hquits⟩, rfl⟩
  refine ⟨t, ht, by omega, ?_, fun hall => ?_⟩
  · rcases hwithin with hquit | ⟨j, last, -, hlast, -⟩
    · exact .inr ⟨hstack, hquit⟩
    · cases hquit : t.quit with
      | true => exact .inr ⟨hstack, hquit⟩
      | false =>
        refine .inl ⟨hstack, hquit, fun hnil => ?_⟩
        simp [RunLoop.waiting, hnil] at hlast
  · rcases hwithin with hquit | ⟨j, last, hj, -, -⟩
    · exact ⟨hstack, hquit⟩
    · omega

/-- In `Run`, with a quit task behind one that posts. -/
private def inRun : RunLoop where
  queue := { delegate := true }
  loop := TaskLoop.acceptAll {} [([.postTask []], TimePoint.epoch), ([.quitNow], TimePoint.epoch)]
  isRunning := true
  onStack := true
  posted := [[.postTask []], [.quitNow]]

/-- Another thread posts, and so does the first task. -/
theorem quit_task_ends_run_posting :
    ∃ t, (runMachine.restrict fun _ a => a ≠ .runReturns).Run inRun [.postTask [], .dispatch, .dispatch] (.ok t) ∧
      runMachine.Enabled t .runReturns ∧ t.waiting = [[], []] := by
  have hmake : RunLoop.make [[.postTask []], [.quitNow]] = .ok { inRun with isRunning := false, onStack := false } :=
    rfl
  have hrun : runMachine.Run { inRun with isRunning := false, onStack := false } [.run] (.ok inRun) := .single rfl rfl
  have hmore : (runMachine.restrict fun _ a => a ≠ .runReturns).Run inRun [.postTask [], .dispatch, .dispatch]
      (.ok _) :=
    .step ⟨trivial, nofun⟩ rfl (.step ⟨⟨rfl, rfl, List.cons_ne_nil _ _⟩, nofun⟩ rfl
      (.step ⟨⟨rfl, rfl, List.cons_ne_nil _ _⟩, nofun⟩ rfl (.nil _)))
  obtain ⟨t, ht, -, -, hreturns⟩ := quit_task_ends_run hmake hrun (i := 1) rfl rfl (List.mem_singleton_self _) hmore
  cases ht
  exact ⟨_, hmore, hreturns rfl, rfl⟩

end Mtl.Tasks
