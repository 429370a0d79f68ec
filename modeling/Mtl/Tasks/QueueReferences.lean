import Mtl.Foundation.Simulation
import Mtl.Tasks.TaskHandover

/-! The references to an `IncomingTaskQueue`: those of clients, and the one that goes with the loop on the queue. -/
namespace Mtl.Tasks
open Foundation

/-- `loop` stands for `task_runner_` of the loop, and before for the reference that the loop will be made with. -/
structure QueueRefs where
  handover : Handover := {}
  clients : Nat
  loop : Bool := true

/-- The loop's thread makes the loop or gives its reference up; `task_runner()` hands out references while there is a
loop, and `loopGone` destroys its member after the body of the destructor. -/
inductive QueueRefsAct where
  | copy
  | drop
  | taskRunner
  | abandon
  | post (req : PostRequest)
  | initDelegate
  | beginTask (i : Nat)
  | endTask
  | beginShutdown
  | cancelTask (i : Nat)
  | clearDelegate
  | loopGone

namespace QueueRefs

/-- A call of the queue, or of the loop that works for it. -/
def onQueue (s : QueueRefs) (call : Handover → Except Fault Handover) : Except Fault QueueRefs :=
  if s.handover.released then .error (.useAfterFree 0)
  else do
    let handover ← call s.handover
    return { s with handover := handover }

/-- The queue goes with its last reference. -/
def release (s : QueueRefs) : QueueRefs :=
  if s.clients = 0 ∧ s.loop = false then { s with handover := s.handover.releaseQueue } else s

end QueueRefs

def queueRefsMachine : Machine QueueRefs QueueRefsAct Fault where
  Enabled s
    | .copy | .drop => 0 < s.clients
    | .taskRunner => s.loop = true ∧ s.handover.initialized = true
    | .abandon | .initDelegate => s.loop = true ∧ s.handover.initialized = false
    | .post _ => 0 < s.clients ∨ (s.loop = true ∧ s.handover.initialized = true)
    | .beginTask i => i < s.handover.loop.accepted.length ∧ s.handover.running = none ∧
        s.handover.loop.shutDown = false
    | .endTask => s.handover.running ≠ none
    | .beginShutdown => s.loop = true ∧ s.handover.initialized = true ∧ s.handover.running = none ∧
        s.handover.loop.shutDown = false
    | .cancelTask i => i < s.handover.loop.accepted.length ∧ s.handover.loop.shutDown = true
    | .clearDelegate => s.handover.loop.shutDown = true ∧ s.handover.loop.accepted = [] ∧
        s.handover.queue.delegate = true
    | .loopGone => s.loop = true ∧ s.handover.queue.dropIncomingTasks = true
  step s
    | .copy | .taskRunner => .ok { s with clients := s.clients + 1 }
    | .drop => .ok { s with clients := s.clients - 1 }.release
    | .abandon | .loopGone => .ok { s with loop := false }.release
    | .post req => s.onQueue fun h => h.post req
    | .initDelegate => s.onQueue Handover.initDelegate
    | .beginTask i => s.onQueue fun h => h.beginTask i
    | .endTask => s.onQueue Handover.endTask
    | .beginShutdown => s.onQueue fun h => .ok ({ h with loop := h.loop.beginShutdown }.note .shutDown)
    | .cancelTask i => s.onQueue fun h => h.cancelTask i
    | .clearDelegate => s.onQueue Handover.clearDelegate

/-- The queue is there exactly as long as a reference is, and a loop that serves it has one. -/
structure Referenced (s : QueueRefs) : Prop where
  handed : Handed s.handover
  released : s.handover.released = true ↔ s.clients = 0 ∧ s.loop = false
  serves : s.handover.queue.delegate = true → s.loop = true

/-- A queue that is gone has no loop, and so no task that could run. -/
theorem Handed.released_idle {s : Handover} (h : Handed s) (hr : s.released = true) :
    s.loop.accepted = [] ∧ s.running = none := by
  have hdel := h.let_go hr
  cases hi : s.initialized with
  | false =>
    obtain ⟨haccepted, -, hrunning, -⟩ := h.unstarted hi
    exact ⟨haccepted, hrunning⟩
  | true =>
    rcases h.started.mp hi with hd | hdrop
    · simp [hdel] at hd
    · obtain ⟨-, hsd, haccepted⟩ := h.drained hdrop
      exact ⟨haccepted, h.idle hsd⟩

/-- Only the release of the queue takes it away, and only `InitDelegate` gives it a delegate. -/
theorem Handed.step_kept {s t : Handover} (h : Handed s) {a : HandoverAct} (he : handoverMachine.Enabled s a)
    (hstep : handoverMachine.step s a = .ok t) (ha : a ≠ .releaseQueue) :
    t.released = s.released ∧ (t.queue.delegate = true → s.queue.delegate = true ∨ a = .initDelegate) := by
  cases a with
  | post req =>
    obtain ⟨⟨queue, loop, disposal⟩, hadd, ht⟩ := of_bind_ok hstep
    obtain ⟨hdel, -⟩ := IncomingTaskQueue.addTask_facts hadd
    cases disposal
    all_goals
      cases ht
      exact ⟨rfl, fun hd => .inl (hdel ▸ hd)⟩
  | initDelegate =>
    simp only [handoverMachine, Handover.initDelegate,
      IncomingTaskQueue.initDelegate_running (h.unmade he.1).2.1 (h.unstarted he.1).2.2.2, ok_bind] at hstep
    cases hstep
    exact ⟨rfl, fun _ => .inr rfl⟩
  | beginTask i =>
    simp only [handoverMachine, Handover.beginTask] at hstep
    split at hstep
    · cases hstep
    · cases hstep
      exact ⟨rfl, .inl⟩
  | endTask =>
    simp only [handoverMachine, Handover.endTask] at hstep
    split at hstep
    · cases hstep
    · cases hstep
      exact ⟨rfl, .inl⟩
  | beginShutdown =>
    cases hstep
    exact ⟨rfl, .inl⟩
  | cancelTask i =>
    simp only [handoverMachine, Handover.cancelTask] at hstep
    split at hstep
    · cases hstep
    · cases hstep
      exact ⟨rfl, .inl⟩
  | clearDelegate =>
    obtain ⟨queue, -, ht⟩ := of_bind_ok hstep
    cases ht
    exact ⟨rfl, fun _ => .inl he.2.2⟩
  | releaseQueue => exact absurd rfl ha

namespace Referenced
variable {s t : QueueRefs}

theorem init (clients : Nat) : Referenced { clients := clients } :=
  ⟨.init, by simp, by simp⟩

/-- A step of the hand-over leaves the references alone. -/
theorem onQueue (h : Referenced s) {a : HandoverAct} (he : handoverMachine.Enabled s.handover a)
    (ha : a ≠ .releaseQueue) (hheld : s.handover.released = false) (hloop : a = .initDelegate → s.loop = true) :
    ∃ t, s.onQueue (handoverMachine.step · a) = .ok t ∧ Referenced t ∧
      ∃ bs, handoverMachine.Run s.handover bs (.ok t.handover) := by
  obtain ⟨handover, hstep, hhanded⟩ := h.handed.step a he
  obtain ⟨hreleased, hdelegate⟩ := h.handed.step_kept he hstep ha
  refine ⟨{ s with handover := handover }, by simp [QueueRefs.onQueue, hheld, hstep],
    ⟨hhanded, by rw [hreleased]; exact h.released, fun hd => ?_⟩, [a], .single he hstep⟩
  rcases hdelegate hd with hold | hinit
  · exact h.serves hold
  · exact hloop hinit

/-- A reference is gone. -/
theorem release (hhanded : Handed s.handover) (hheld : s.handover.released = false)
    (hserves : s.handover.queue.delegate = true → s.loop = true) :
    Referenced s.release ∧ ∃ bs, handoverMachine.Run s.handover bs (.ok s.release.handover) := by
  unfold QueueRefs.release
  split_ifs with hnone
  · have hdel : s.handover.queue.delegate = false := by
      cases hd : s.handover.queue.delegate with
      | false => rfl
      | true => exact absurd ((hserves hd).symm.trans hnone.2) (by simp)
    refine ⟨⟨hhanded.releaseQueue hdel, by simp [Handover.releaseQueue, hnone], ?_⟩, [.releaseQueue],
      .single ⟨hdel, hheld⟩ rfl⟩
    simp [Handover.releaseQueue, hdel]
  · exact ⟨⟨hhanded, by simpa [hheld] using hnone, hserves⟩, [], .nil _⟩

theorem held_of_clients (h : Referenced s) (hc : 0 < s.clients) : s.handover.released = false := by
  cases hr : s.handover.released with
  | false => rfl
  | true =>
    have := (h.released.mp hr).1
    omega

theorem held_of_loop (h : Referenced s) (hl : s.loop = true) : s.handover.released = false := by
  cases hr : s.handover.released with
  | false => rfl
  | true => exact absurd (hl.symm.trans (h.released.mp hr).2) (by simp)

/-- Work of the loop needs the queue, and finds it. -/
theorem held_of_work (h : Referenced s)
    (hwork : s.handover.loop.accepted ≠ [] ∨ s.handover.running ≠ none ∨ s.handover.queue.delegate = true) :
    s.handover.released = false := by
  cases hr : s.handover.released with
  | false => rfl
  | true =>
    obtain ⟨haccepted, hrunning⟩ := h.handed.released_idle hr
    rcases hwork with hw | hw | hw
    · exact absurd haccepted hw
    · exact absurd hrunning hw
    · exact absurd (hw.symm.trans (h.handed.let_go hr)) (by simp)

theorem step (h : Referenced s) (a : QueueRefsAct) (he : queueRefsMachine.Enabled s a) :
    ∃ t, queueRefsMachine.step s a = .ok t ∧ Referenced t ∧
      ∃ bs, handoverMachine.Run s.handover bs (.ok t.handover) := by
  cases a with
  | copy =>
    have hheld := h.held_of_clients he
    exact ⟨_, rfl, ⟨h.handed, by simp [hheld], h.serves⟩, [], .nil _⟩
  | taskRunner =>
    have hheld := h.held_of_loop he.1
    exact ⟨_, rfl, ⟨h.handed, by simp [hheld], h.serves⟩, [], .nil _⟩
  | drop => exact ⟨_, rfl, release h.handed (h.held_of_clients he) h.serves⟩
  | abandon =>
    refine ⟨_, rfl, release h.handed (h.held_of_loop he.1) fun hd => ?_⟩
    exact absurd ((h.handed.started.mpr (.inl hd)).symm.trans he.2) (by simp)
  | post req =>
    have hheld : s.handover.released = false := by
      rcases he with hc | ⟨hl, -⟩
      · exact h.held_of_clients hc
      · exact h.held_of_loop hl
    exact h.onQueue (a := .post req) hheld nofun hheld nofun
  | initDelegate =>
    have hheld := h.held_of_loop he.1
    exact h.onQueue (a := .initDelegate) ⟨he.2, hheld⟩ nofun hheld fun _ => he.1
  | beginTask i =>
    have hheld := h.held_of_work (.inl (List.ne_nil_of_length_pos (Nat.zero_lt_of_lt he.1)))
    exact h.onQueue (a := .beginTask i) he nofun hheld nofun
  | endTask => exact h.onQueue (a := .endTask) he nofun (h.held_of_work (.inr (.inl he))) nofun
  | beginShutdown => exact h.onQueue (a := .beginShutdown) he.2 nofun (h.held_of_loop he.1) nofun
  | cancelTask i =>
    have hheld := h.held_of_work (.inl (List.ne_nil_of_length_pos (Nat.zero_lt_of_lt he.1)))
    exact h.onQueue (a := .cancelTask i) he nofun hheld nofun
  | clearDelegate => exact h.onQueue (a := .clearDelegate) he nofun (h.held_of_work (.inr (.inr he.2.2))) nofun
  | loopGone =>
    refine ⟨_, rfl, release h.handed (h.held_of_loop he.1) fun hd => ?_⟩
    exact absurd (hd.symm.trans (h.handed.drained he.2).1) (by simp)

/-- Without references there is nobody left to do anything. -/
theorem stuck_of_released (h : Referenced s) (hr : s.handover.released = true) (a : QueueRefsAct) :
    ¬ queueRefsMachine.Enabled s a := by
  obtain ⟨hnone, hloop⟩ := h.released.mp hr
  obtain ⟨haccepted, hrunning⟩ := h.handed.released_idle hr
  have hdel := h.handed.let_go hr
  intro he
  cases a <;> simp_all [queueRefsMachine]

theorem destroyed (h : Referenced s) (hr : s.handover.released = true) {task : TaskId}
    (htask : task < s.handover.nextTask) : s.handover.log.count (.destroyed task) = 1 := by
  obtain ⟨haccepted, hrunning⟩ := h.handed.released_idle hr
  have howned := h.handed.owned task
  rw [if_pos htask] at howned
  simpa [Handover.buffered, Handover.accepted, Handover.destroyed, haccepted, hrunning, h.handed.emptied (.inr hr)]
    using howned

end Referenced

/-- Whoever copies and drops references, posts, makes, runs and destroys the loop: the queue is there as long as a
reference is and no longer, nobody uses it after that, its loop has let go of it before, and what was posted has been
destroyed with it, once. The hand-over of its tasks is that of a queue without owners. -/
theorem queue_goes_with_last_reference {clients : Nat} {acts : List QueueRefsAct} {result : Except Fault QueueRefs}
    (hrun : queueRefsMachine.Run { clients := clients } acts result) :
    ∃ s, result = .ok s ∧ (∃ bs, handoverMachine.Run {} bs (.ok s.handover)) ∧
      (s.handover.released = true ↔ s.clients = 0 ∧ s.loop = false) ∧
      (s.handover.queue.delegate = true → s.handover.released = false ∧ s.loop = true) ∧
      (s.handover.released = true → (∀ a, ¬ queueRefsMachine.Enabled s a) ∧
        ∀ task < s.handover.nextTask, s.handover.log.count (.destroyed task) = 1) := by
  obtain ⟨s, rfl, h, hbs⟩ := hrun.safe
    (I := fun s => Referenced s ∧ ∃ bs, handoverMachine.Run {} bs (.ok s.handover)) (fun s a ⟨h, bs, hbs⟩ he => by
      obtain ⟨t, ht, hreferenced, bs', hbs'⟩ := h.step a he
      exact ⟨t, ht, hreferenced, bs ++ bs', hbs.append hbs'⟩) ⟨.init clients, [], .nil _⟩
  refine ⟨s, rfl, hbs, h.released, fun hd => ⟨h.held_of_loop (h.serves hd), h.serves hd⟩, fun hr => ?_⟩
  exact ⟨h.stuck_of_released hr, fun task => h.destroyed hr⟩

/-- A client keeps its reference for longer than the loop, and posts to nobody. -/
theorem queue_goes_with_last_reference_client :
    ∃ s, queueRefsMachine.Run { clients := 1 } [.post .postTask, .initDelegate, .beginTask 0, .endTask, .beginShutdown,
        .clearDelegate, .loopGone, .post .postTask, .drop] (.ok s) ∧
      s.handover.released = true ∧ ∀ task < 2, s.handover.log.count (.destroyed task) = 1 := by
  have hrun : queueRefsMachine.Run { clients := 1 } [.post .postTask, .initDelegate, .beginTask 0, .endTask,
      .beginShutdown, .clearDelegate, .loopGone, .post .postTask, .drop] (.ok _) :=
    .step (.inl Nat.one_pos) rfl (.step ⟨rfl, rfl⟩ rfl (.step ⟨Nat.one_pos, rfl, rfl⟩ rfl
      (.step (Option.some_ne_none 0) rfl (.step ⟨rfl, rfl, rfl, rfl⟩ rfl (.step ⟨rfl, rfl, rfl⟩ rfl
        (.step ⟨rfl, rfl⟩ rfl (.step (.inl Nat.one_pos) rfl (.step Nat.one_pos rfl (.nil _)))))))))
  obtain ⟨s, hs, -, -, -, hend⟩ := queue_goes_with_last_reference hrun
  cases hs
  exact ⟨_, hrun, rfl, (hend rfl).2⟩

end Mtl.Tasks
