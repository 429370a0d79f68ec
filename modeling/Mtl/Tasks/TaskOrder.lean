import Mtl.Tasks.TargetTimes
import Mtl.Tasks.TaskHandover

/-! Tasks run in the order of the times that were asked for. The async loop is taken to dispatch its records by
deadline, and records with the same one in the order in which it got them. -/
namespace Mtl.Tasks
open Foundation

namespace Handover

/-- Until shutdown a posted task waits for the loop or has run. -/
def Pending (s : Handover) : Prop :=
  s.loop.shutDown = false → s.released = false →
    ∀ task, s.buffered task + s.accepted task + s.ran task = if task < s.nextTask then 1 else 0

/-- The tasks that wait, in posting order. -/
def waiting (s : Handover) : List (TaskId × MxTime) :=
  (s.loop.accepted.map fun record => (record.task, record.deadline)) ++
    s.queue.incomingQueue.map fun task => (task.1, task.2.toUInt64)

end Handover

namespace Handed
variable {s t : Handover}

/-- A task that is posted before shutdown waits in the buffer or on the loop. -/
theorem pending_post (h : Handed s) (hp : s.Pending) {req : PostRequest} (hstep : s.post req = .ok t) : t.Pending := by
  intro hs hr task
  have hlt := h.owned s.nextTask
  rw [if_neg (Nat.lt_irrefl _)] at hlt
  cases hdrop : s.queue.dropIncomingTasks with
  | true =>
    simp only [Handover.post, IncomingTaskQueue.addTask_cleared hdrop, ok_bind, pure_eq_ok] at hstep
    cases hstep
    exact absurd (h.drained hdrop).2.1 (by simpa [Handover.note] using hs)
  | false =>
    cases hdel : s.queue.delegate with
    | false =>
      simp only [Handover.post, IncomingTaskQueue.addTask_buffering hdrop hdel, ok_bind, pure_eq_ok] at hstep
      cases hstep
      have := hp hs hr task
      simp only [Handover.buffered, Handover.accepted, Handover.ran, Handover.note] at this ⊢
      grind
    | true =>
      cases hsd : s.loop.shutDown with
      | false =>
        simp only [Handover.post, IncomingTaskQueue.addTask_running hdrop hdel hsd, ok_bind, pure_eq_ok] at hstep
        cases hstep
        have := hp hsd hr task
        simp only [Handover.buffered, Handover.accepted, Handover.ran, Handover.note, TaskLoop.accept,
          TaskRecord.of] at this ⊢
        grind
      | true =>
        simp only [Handover.post, IncomingTaskQueue.addTask_shuttingDown hdrop hdel hsd, ok_bind, pure_eq_ok] at hstep
        cases hstep
        simp [Handover.note, TaskLoop.refuse, hsd] at hs

/-- A step of any thread leaves the posted tasks pending. -/
theorem pending (h : Handed s) (hp : s.Pending) (a : HandoverAct) (he : handoverMachine.Enabled s a)
    (hstep : handoverMachine.step s a = .ok t) : t.Pending := by
  cases a with
  | post req => exact h.pending_post hp hstep
  | initDelegate =>
    obtain ⟨ha, -, -, hs⟩ := h.unstarted he.1
    simp only [handoverMachine, Handover.initDelegate,
      IncomingTaskQueue.initDelegate_running (h.unmade he.1).2.1 hs, ok_bind] at hstep
    cases hstep
    intro _ hr task
    have := hp hs hr task
    have htasks := s.loop.acceptAll_tasks s.queue.incomingQueue
    simp only [Handover.buffered, Handover.accepted, Handover.ran, ha, List.map_nil, List.count_nil, List.nil_append,
      List.foldl_nil] at this htasks ⊢
    grind
  | beginTask i =>
    obtain ⟨hi, -, hs⟩ := he
    simp only [handoverMachine, Handover.beginTask, List.getElem?_eq_getElem hi] at hstep
    cases hstep
    intro _ hr task
    have := hp hs hr task
    have hcount := accepted_handle hi task
    simp only [Handover.buffered, Handover.accepted, Handover.ran, Handover.note] at this hcount ⊢
    rw [List.count_cons]
    grind
  | endTask =>
    obtain ⟨task, htask⟩ := Option.ne_none_iff_exists'.mp he
    simp only [handoverMachine, Handover.endTask, htask] at hstep
    cases hstep
    intro hs hr task'
    have := hp hs hr task'
    simp only [Handover.buffered, Handover.accepted, Handover.ran, Handover.note] at this ⊢
    grind
  | beginShutdown =>
    cases hstep
    intro hs
    simp [Handover.note, TaskLoop.beginShutdown] at hs
  | cancelTask i =>
    simp only [handoverMachine, Handover.cancelTask, List.getElem?_eq_getElem he.1] at hstep
    cases hstep
    intro hs
    simp [Handover.note, TaskLoop.handle, he.2] at hs
  | clearDelegate =>
    simp only [handoverMachine, Handover.clearDelegate, IncomingTaskQueue.clearDelegate_eq (h.serving he.2.2), ok_bind,
      pure_eq_ok] at hstep
    cases hstep
    intro hs
    simp [Handover.note, he.1] at hs
  | releaseQueue =>
    cases hstep
    intro _ hr
    simp [Handover.releaseQueue] at hr

end Handed

/-- The calls that posted the tasks 0, 1, and so on. -/
def requests : List HandoverAct → List PostRequest :=
  List.filterMap fun
    | .post req => some req
    | _ => none

/-- Of the records that the loop has, one is not dispatched before an older one that is due no later. -/
def ByDeadline (s : Handover) : HandoverAct → Prop
  | .beginTask i => ∀ j record older, j < i → s.loop.accepted[i]? = some record → s.loop.accepted[j]? = some older →
      record.deadline < older.deadline
  | _ => True

/-- A task that runs has been preceded by the older ones that were due no later. -/
def InTurn (reqs : List PostRequest) (e : TaskEvent) (past : List TaskEvent) : Prop :=
  ∀ b rb, e = .ran b → reqs[b]? = some rb →
    ∀ a ra, a < b → reqs[a]? = some ra → ra.deadline ≤ rb.deadline → .ran a ∈ past

/-- What waits is in posting order with the deadlines of the calls, and what ran came in its turn. -/
structure Queued (reqs : List PostRequest) (s : Handover) : Prop where
  handed : Handed s
  pending : s.Pending
  next : s.nextTask = reqs.length
  waiting : ∀ w ∈ s.waiting, (reqs[w.1]?).map PostRequest.deadline = some w.2
  sorted : s.waiting.Pairwise fun v w => v.1 < w.1
  order : EveryPast (InTurn reqs) s.log

namespace Queued
variable {reqs : List PostRequest} {s t : Handover}

theorem ran_lt (h : Queued reqs s) {task : TaskId} (hran : .ran task ∈ s.log) : task < s.nextTask := by
  have hcount := h.handed.ran task
  have hpos : 0 < s.ran task := List.count_pos_iff.mpr hran
  by_contra hge
  rw [if_neg hge] at hcount
  omega

/-- A step that brings nothing new to the loop and runs nothing. -/
theorem quiet (h : Queued reqs s) (ht : Handed t) (hp : t.Pending) (hnext : t.nextTask = s.nextTask)
    (hwait : t.waiting.Sublist s.waiting) (hlog : ∃ new, t.log = new ++ s.log ∧ ∀ task, .ran task ∉ new) :
    Queued reqs t := by
  obtain ⟨new, hnew, hnone⟩ := hlog
  refine ⟨ht, hp, hnext.trans h.next, fun w hw => h.waiting w (hwait.subset hw), h.sorted.sublist hwait, ?_⟩
  rw [hnew]
  refine h.order.append new fun e he past b rb heq => ?_
  rw [heq] at he
  exact absurd he (hnone b)

theorem init : Queued [] {} :=
  ⟨.init, fun _ _ task => rfl, rfl, by simp [Handover.waiting], by simp [Handover.waiting], everyPast_nil⟩

/-- A new task waits behind the others, or is gone at once. -/
theorem waiting_post (h : Handed s) {req : PostRequest} (hstep : s.post req = .ok t) :
    t.nextTask = s.nextTask + 1 ∧
      (t.waiting = s.waiting ∨ t.waiting = s.waiting ++ [(s.nextTask, req.deadline)]) ∧
      ∃ new, t.log = new ++ s.log ∧ ∀ task, .ran task ∉ new := by
  have hkept : ∃ new, [TaskEvent.added s.nextTask req.targetTime] ++ s.log = new ++ s.log ∧ ∀ task, .ran task ∉ new :=
    ⟨_, rfl, by simp⟩
  have hgone : ∃ new, [.destroyed s.nextTask, TaskEvent.added s.nextTask req.targetTime] ++ s.log = new ++ s.log ∧
      ∀ task, .ran task ∉ new := ⟨_, rfl, by simp⟩
  cases hdrop : s.queue.dropIncomingTasks with
  | true =>
    simp only [Handover.post, IncomingTaskQueue.addTask_cleared hdrop, ok_bind, pure_eq_ok] at hstep
    cases hstep
    exact ⟨rfl, .inl rfl, hgone⟩
  | false =>
    cases hdel : s.queue.delegate with
    | false =>
      simp only [Handover.post, IncomingTaskQueue.addTask_buffering hdrop hdel, ok_bind, pure_eq_ok] at hstep
      cases hstep
      refine ⟨rfl, .inr ?_, hkept⟩
      simp [Handover.waiting, Handover.note, PostRequest.deadline, TaskRecord.of]
    | true =>
      have hempty := h.emptied (.inl (h.started.mpr (.inl hdel)))
      cases hsd : s.loop.shutDown with
      | false =>
        simp only [Handover.post, IncomingTaskQueue.addTask_running hdrop hdel hsd, ok_bind, pure_eq_ok] at hstep
        cases hstep
        refine ⟨rfl, .inr ?_, hkept⟩
        simp [Handover.waiting, Handover.note, TaskLoop.accept, PostRequest.deadline, TaskRecord.of, hempty]
      | true =>
        simp only [Handover.post, IncomingTaskQueue.addTask_shuttingDown hdrop hdel hsd, ok_bind, pure_eq_ok] at hstep
        cases hstep
        exact ⟨rfl, .inl rfl, hgone⟩

theorem post (h : Queued reqs s) (hr : s.released = false) (req : PostRequest) :
    ∃ t, s.post req = .ok t ∧ Queued (reqs ++ [req]) t := by
  obtain ⟨t, hstep, ht⟩ := h.handed.post hr req
  have hp := h.handed.pending_post h.pending hstep
  obtain ⟨hnext, hwait, new, hnew, hnone⟩ := waiting_post h.handed hstep
  have hold (a : TaskId) (ha : a < s.nextTask) : (reqs ++ [req])[a]? = reqs[a]? :=
    List.getElem?_append_left (h.next ▸ ha)
  have hlt (w : TaskId × MxTime) (hw : w ∈ s.waiting) : w.1 < s.nextTask := by
    have := h.waiting w hw
    rw [h.next]
    by_contra hge
    rw [List.getElem?_eq_none (Nat.le_of_not_lt hge)] at this
    cases this
  have hwaiting : ∀ w ∈ s.waiting, ((reqs ++ [req])[w.1]?).map PostRequest.deadline = some w.2 :=
    fun w hw => by rw [hold _ (hlt w hw), h.waiting w hw]
  refine ⟨t, hstep, ht, hp, by simp [hnext, h.next], ?_, ?_, ?_⟩
  · rcases hwait with hsame | hmore
    · rwa [hsame]
    · rw [hmore, List.forall_mem_append, List.forall_mem_singleton]
      exact ⟨hwaiting, by simp [h.next]⟩
  · rcases hwait with hsame | hmore
    · rw [hsame]
      exact h.sorted
    · rw [hmore, List.pairwise_append]
      exact ⟨h.sorted, List.pairwise_singleton _ _, fun v hv w hw => by
        rw [List.mem_singleton.mp hw]
        exact hlt v hv⟩
  · rw [hnew]
    refine EveryPast.append ?_ new fun e he past b rb heq => absurd (heq ▸ he) (hnone b)
    -- A task that ran is an old one, and so are those before it.
    intro later e earlier heq b rb he hb a ra hab ha
    have hran : b < s.nextTask := h.ran_lt (by rw [heq, he]; simp)
    rw [hold b hran] at hb
    rw [hold a (hab.trans hran)] at ha
    exact h.order later e earlier heq b rb he hb a ra hab ha

/-- The loop takes over what waits in the buffer. -/
theorem initDelegate (h : Queued reqs s) (hi : s.initialized = false) (hr : s.released = false) :
    ∃ t, s.initDelegate = .ok t ∧ Queued reqs t := by
  obtain ⟨t, hstep, ht⟩ := h.handed.initDelegate hi hr
  have hp := h.handed.pending h.pending .initDelegate ⟨hi, hr⟩ hstep
  obtain ⟨ha, -, -, hs⟩ := h.handed.unstarted hi
  refine ⟨t, hstep, ?_⟩
  simp only [Handover.initDelegate, IncomingTaskQueue.initDelegate_running (h.handed.unmade hi).2.1 hs,
    ok_bind] at hstep
  cases hstep
  refine h.quiet ht hp rfl ?_ ⟨[], rfl, by simp⟩
  simp [Handover.waiting, TaskLoop.acceptAll, ha, TaskRecord.of, Function.comp_def]

/-- A waiting record of the loop has the deadline of its call. -/
theorem deadline_eq (h : Queued reqs s) {i : Nat} (hi : i < s.loop.accepted.length) {req : PostRequest}
    (hreq : reqs[s.loop.accepted[i].task]? = some req) : s.loop.accepted[i].deadline = req.deadline := by
  have hmem : (s.loop.accepted[i].task, s.loop.accepted[i].deadline) ∈ s.waiting :=
    List.mem_append_left _ (List.mem_map_of_mem (List.getElem_mem hi))
  have := h.waiting _ hmem
  rw [hreq] at this
  exact (Option.some.inj this).symm

/-- An older task than the `i`-th record's has run, or is a record before it. -/
theorem older (h : Queued reqs s) {i : Nat} (hi : i < s.loop.accepted.length) (hs : s.loop.shutDown = false)
    {a : TaskId} (ha : a < s.loop.accepted[i].task) :
    .ran a ∈ s.log ∨ ∃ j, ∃ hj : j < s.loop.accepted.length, j < i ∧ s.loop.accepted[j].task = a := by
  have hinit : s.initialized = true := by
    by_contra hi'
    have := (h.handed.unstarted (by simpa using hi')).1
    simp [this] at hi
  have hempty := h.handed.emptied (.inl hinit)
  have hheld : s.released = false := by
    by_contra hr
    rcases h.handed.started.mp hinit with hdel | hdrop
    · simp [h.handed.let_go (by simpa using hr)] at hdel
    · simp [(h.handed.drained hdrop).2.1] at hs
  have hlt : s.loop.accepted[i].task < s.nextTask := by
    have hmem : (s.loop.accepted[i].task, s.loop.accepted[i].deadline) ∈ s.waiting :=
      List.mem_append_left _ (List.mem_map_of_mem (List.getElem_mem hi))
    have := h.waiting _ hmem
    rw [h.next]
    by_contra hge
    rw [List.getElem?_eq_none (Nat.le_of_not_lt hge)] at this
    cases this
  have hone := h.pending hs hheld a
  rw [if_pos (ha.trans hlt)] at hone
  by_cases hran : s.ran a = 0
  · right
    have hacc : a ∈ s.loop.accepted.map TaskRecord.task := by
      rw [← List.count_pos_iff]
      simp only [Handover.buffered, hempty, List.map_nil, List.count_nil, hran, Handover.accepted] at hone
      omega
    obtain ⟨j, hj, hja⟩ := List.getElem_of_mem hacc
    rw [List.length_map] at hj
    rw [List.getElem_map] at hja
    refine ⟨j, hj, ?_, hja⟩
    have hsorted := h.sorted
    simp only [Handover.waiting, hempty, List.map_nil, List.append_nil, List.pairwise_map] at hsorted
    by_contra hge
    rcases Nat.lt_or_eq_of_le (Nat.le_of_not_lt hge) with hij | rfl
    · have hback := List.pairwise_iff_getElem.mp hsorted i j hi hj hij
      rw [hja] at hback
      exact absurd (hback.trans ha) (Nat.lt_irrefl _)
    · rw [hja] at ha
      exact absurd ha (Nat.lt_irrefl _)
  · exact .inl (List.count_pos_iff.mp (Nat.pos_of_ne_zero hran))

/-- The task that runs has been preceded by the older ones that were due no later. -/
theorem beginTask (h : Queued reqs s) {i : Nat} (hi : i < s.loop.accepted.length) (hc : s.running = none)
    (hs : s.loop.shutDown = false) (hturn : ByDeadline s (.beginTask i)) :
    ∃ t, s.beginTask i = .ok t ∧ Queued reqs t := by
  obtain ⟨t, hstep, ht⟩ := h.handed.beginTask hi hc hs
  have hp := h.handed.pending h.pending (.beginTask i) ⟨hi, hc, hs⟩ hstep
  refine ⟨t, hstep, ?_⟩
  simp only [Handover.beginTask, List.getElem?_eq_getElem hi] at hstep
  cases hstep
  have hwait : (s.loop.handle i).accepted.Sublist s.loop.accepted := List.eraseIdx_sublist _ _
  have hsub := (hwait.map fun record => (record.task, record.deadline)).append_right
    (s.queue.incomingQueue.map fun task => (task.1, task.2.toUInt64))
  refine ⟨ht, hp, h.next, fun w hw => h.waiting w (hsub.subset hw), h.sorted.sublist hsub, ?_⟩
  rw [Handover.note, everyPast_cons]
  refine ⟨fun b rb heq hb a ra hab ha hle => ?_, h.order⟩
  cases heq
  rcases h.older hi hs hab with hran | ⟨j, hj, hji, hja⟩
  · exact hran
  · have hlate := hturn j _ _ hji (List.getElem?_eq_getElem hi) (List.getElem?_eq_getElem hj)
    rw [h.deadline_eq hi hb, h.deadline_eq hj (hja ▸ ha)] at hlate
    exact absurd hle (UInt64.not_le.mpr hlate)

theorem step (h : Queued reqs s) (a : HandoverAct) (he : handoverMachine.Enabled s a) (hturn : ByDeadline s a) :
    ∃ t, handoverMachine.step s a = .ok t ∧ Queued (reqs ++ requests [a]) t := by
  have hpend {t : Handover} (hstep : handoverMachine.step s a = .ok t) : t.Pending :=
    h.handed.pending h.pending a he hstep
  obtain ⟨t, hstep, ht⟩ := h.handed.step a he
  cases a with
  | post req => exact h.post he req
  | initDelegate =>
    rw [show requests [.initDelegate] = [] from rfl, List.append_nil]
    exact h.initDelegate he.1 he.2
  | beginTask i =>
    rw [show requests [.beginTask i] = [] from rfl, List.append_nil]
    exact h.beginTask he.1 he.2.1 he.2.2 hturn
  | endTask =>
    refine ⟨t, hstep, ?_⟩
    have hp := hpend hstep
    obtain ⟨task, htask⟩ := Option.ne_none_iff_exists'.mp he
    simp only [handoverMachine, Handover.endTask, htask] at hstep
    cases hstep
    simpa [requests] using h.quiet ht hp rfl (List.Sublist.refl _) ⟨[.destroyed task], rfl, by simp⟩
  | beginShutdown =>
    refine ⟨t, hstep, ?_⟩
    have hp := hpend hstep
    cases hstep
    simpa [requests] using h.quiet ht hp rfl (List.Sublist.refl _) ⟨[.shutDown], rfl, by simp⟩
  | cancelTask i =>
    refine ⟨t, hstep, ?_⟩
    have hp := hpend hstep
    have hi : i < s.loop.accepted.length := he.1
    simp only [handoverMachine, Handover.cancelTask, List.getElem?_eq_getElem hi] at hstep
    cases hstep
    have hwait : (s.loop.handle i).accepted.Sublist s.loop.accepted := List.eraseIdx_sublist _ _
    have hsub := (hwait.map fun record => (record.task, record.deadline)).append_right
      (s.queue.incomingQueue.map fun task => (task.1, task.2.toUInt64))
    simpa [requests] using h.quiet ht hp rfl hsub ⟨[.destroyed s.loop.accepted[i].task], rfl, by simp⟩
  | clearDelegate =>
    refine ⟨t, hstep, ?_⟩
    have hp := hpend hstep
    simp only [handoverMachine, Handover.clearDelegate,
      IncomingTaskQueue.clearDelegate_eq (h.handed.serving he.2.2), ok_bind, pure_eq_ok] at hstep
    cases hstep
    simpa [requests] using h.quiet ht hp rfl (List.Sublist.refl _) ⟨[.cleared], rfl, by simp⟩
  | releaseQueue =>
    refine ⟨t, hstep, ?_⟩
    have hp := hpend hstep
    cases hstep
    have hsub : s.releaseQueue.waiting.Sublist s.waiting := by
      simp [Handover.waiting, Handover.releaseQueue]
    simpa [requests] using h.quiet ht hp rfl hsub ⟨_, rfl, by simp⟩

end Queued

/-- Tasks run in the order of the times that were asked for, and of their posting where these are the same, whichever
threads posted them and whether before or after the loop was made: an older task that was wanted no later has run by
the time the other begins. Only times before the epoch are excepted. -/
theorem tasks_run_in_time_order {acts : List HandoverAct} {result : Except Fault Handover}
    (hrun : (handoverMachine.restrict ByDeadline).Run {} acts result) :
    ∃ s, result = .ok s ∧ ∀ a b ra rb, a < b → (requests acts)[a]? = some ra → (requests acts)[b]? = some rb →
      ra.ClockRuns → rb.ClockRuns → 0 ≤ ra.requested → ra.requested ≤ rb.requested →
      ∀ later earlier, s.log = later ++ .ran b :: earlier → .ran a ∈ earlier := by
  have hstep (past : List HandoverAct) (s : Handover) (a : HandoverAct) (h : Queued (requests past) s)
      (he : (handoverMachine.restrict ByDeadline).Enabled s a) :
      ∃ t, handoverMachine.step s a = .ok t ∧ Queued (requests (past ++ [a])) t := by
    rw [requests, List.filterMap_append]
    exact h.step a he.1 he.2
  obtain ⟨s, hs, h⟩ := hrun.safe_along (I := fun past s => Queued (requests past) s) hstep .init
  refine ⟨s, hs, fun a b ra rb hab ha hb hca hcb hpos hle later earlier heq => ?_⟩
  exact h.order later _ earlier heq b rb rfl hb a ra hab ha (PostRequest.deadline_le hca hcb hle hpos)

/-- Two delayed tasks that are wanted at the same time, and an immediate one that overtakes them. -/
theorem tasks_run_in_time_order_delays :
    ∃ s, (handoverMachine.restrict ByDeadline).Run {} [.post (.postDelayedTask 5 10), .post .postTask, .initDelegate,
        .beginTask 1, .endTask, .post (.postDelayedTask 6 9), .beginTask 0, .endTask, .beginTask 0] (.ok s) ∧
      s.log.head? = some (.ran 2) ∧ ∀ later earlier, s.log = later ++ .ran 2 :: earlier → .ran 0 ∈ earlier := by
  have hfirst (s : Handover) : ByDeadline s (.beginTask 0) := fun j _ _ hj => absurd hj (Nat.not_lt_zero j)
  have hovertakes (j : Nat) (record older : TaskRecord TaskId) (hj : j < 1)
      (hrecord : [TaskRecord.of 0 15, TaskRecord.of 1 0][1]? = some record)
      (holder : [TaskRecord.of 0 15, TaskRecord.of 1 0][j]? = some older) : record.deadline < older.deadline := by
    obtain rfl := Nat.lt_one_iff.mp hj
    cases hrecord
    cases holder
    decide
  have hrun : (handoverMachine.restrict ByDeadline).Run {} [.post (.postDelayedTask 5 10), .post .postTask,
      .initDelegate, .beginTask 1, .endTask, .post (.postDelayedTask 6 9), .beginTask 0, .endTask, .beginTask 0]
      (.ok _) :=
    .step ⟨rfl, trivial⟩ rfl (.step ⟨rfl, trivial⟩ rfl (.step ⟨⟨rfl, rfl⟩, trivial⟩ rfl
      (.step ⟨⟨by decide, rfl, rfl⟩, hovertakes⟩ rfl (.step ⟨show _ ≠ none by decide, trivial⟩ rfl
        (.step ⟨rfl, trivial⟩ rfl (.step ⟨⟨by decide, rfl, rfl⟩, hfirst _⟩ rfl
          (.step ⟨show _ ≠ none by decide, trivial⟩ rfl (.step ⟨⟨by decide, rfl, rfl⟩, hfirst _⟩ rfl (.nil _)))))))))
  obtain ⟨s, hs, horder⟩ := tasks_run_in_time_order hrun
  cases hs
  have hclock : ∀ now delay, 0 ≤ now.toInt → (PostRequest.postDelayedTask now delay).ClockRuns := fun _ _ h => h
  exact ⟨_, hrun, rfl, horder 0 2 (.postDelayedTask 5 10) (.postDelayedTask 6 9) (by decide) rfl rfl
    (hclock _ _ (by decide)) (hclock _ _ (by decide)) (by decide) (by decide)⟩

end Mtl.Tasks
