import Mtl.Tasks.QueueLock
import Mtl.Tasks.TaskHandover

/-! The sections of `IncomingTaskQueue` under `mutex_`, one statement at a time. The loop's thread makes, uses and
destroys the loop beside them. -/
namespace Mtl.Tasks
open Foundation

/-- The statement that a call executes next. `forwarding` has the place that `InitDelegate` has reached in the buffer,
and `unlocking` the answer of `RunsTasksOnCurrentThread`. -/
inductive Station where
  | locking
  | checkingDrop
  | readingDelegate
  | forwarding (i : Nat)
  | buffering
  | asking
  | settingDelegate
  | clearingQueue
  | settingDrop
  | clearingDelegate
  | unlocking (answer : Option Bool)
  deriving DecidableEq

/-- `effects` has what was done to the queue and its loop, by whom and in which order: a call is in it from the
statement on that gives it its effect. -/
structure QueueSections where
  handover : Handover := {}
  mutex : Option ThreadId := none
  call : ThreadId → Option (LockedCall × Station) := fun _ => none
  loopDestroyed : Bool := false
  effects : List (ThreadId × HandoverAct) := []

/-- `call` begins a call, and `advance` executes a statement of it. `loop` is what the loop's thread does with the loop
outside the sections. -/
inductive SectionAct where
  | call (t : ThreadId) (call : LockedCall)
  | advance (t : ThreadId)
  | loop (a : HandoverAct)
  | destroyLoop

/-- A call of `AddTask` has found the place for its closure. -/
def Handover.noteAdded (s : Handover) (targetTime : TimePoint) (disposal : Disposal) : Handover :=
  let task := s.nextTask
  let s := { s with nextTask := task + 1 }.note (.added task targetTime)
  match disposal with
  | .kept => s
  | .deleted | .dropped => s.note (.destroyed task)

/-- The first statement after the lock. -/
def LockedCall.first : LockedCall → Station
  | .addTask _ | .initDelegate | .clearDelegate => .checkingDrop
  | .runsTasksOnCurrentThread => .readingDelegate

/-- The effect of a call on the queue and its loop. -/
def LockedCall.act : LockedCall → Option HandoverAct
  | .addTask targetTime => some (.post (.postTaskForTime targetTime))
  | .runsTasksOnCurrentThread => none
  | .initDelegate => some .initDelegate
  | .clearDelegate => some .clearDelegate

namespace QueueSections

/-- A statement of thread `t`, with the effects that it has. -/
def move (s : QueueSections) (t : ThreadId) (call : LockedCall) (station : Station) (handover : Handover)
    (new : List HandoverAct) : QueueSections :=
  { s with
    handover := handover
    call := Function.update s.call t (some (call, station))
    effects := s.effects ++ new.map fun a => (t, a) }

/-- `delegate_->PostTask`, a call of the loop. -/
def delegatePostTask (s : QueueSections) (task : TaskId) (targetTime : TimePoint) :
    Except Fault (TaskLoop TaskId × Disposal) :=
  if s.loopDestroyed then .error (.useAfterFree 0) else s.handover.loop.postTask task targetTime

/-- `delegate_->RunsTasksOnCurrentThread`. -/
def delegateRunsTasks (s : QueueSections) (t : ThreadId) : Except Fault Bool :=
  if s.loopDestroyed then .error (.useAfterFree 0) else .ok (t = 0)

def addTask (s : QueueSections) (t : ThreadId) (targetTime : TimePoint) : Station → Except Fault QueueSections
  | .checkingDrop =>
    if s.handover.queue.dropIncomingTasks then
      .ok (s.move t (.addTask targetTime) (.unlocking none) (s.handover.noteAdded targetTime .dropped)
        [.post (.postTaskForTime targetTime)])
    else .ok (s.move t (.addTask targetTime) .readingDelegate s.handover [])
  | .readingDelegate =>
    .ok (s.move t (.addTask targetTime) (if s.handover.queue.delegate then .forwarding 0 else .buffering) s.handover [])
  | .forwarding _ => do
    let (loop, disposal) ← s.delegatePostTask s.handover.nextTask targetTime
    return s.move t (.addTask targetTime) (.unlocking none)
      ({ s.handover with loop := loop }.noteAdded targetTime disposal) [.post (.postTaskForTime targetTime)]
  | .buffering =>
    let queue := s.handover.queue.incomingQueue ++ [(s.handover.nextTask, targetTime)]
    .ok (s.move t (.addTask targetTime) (.unlocking none)
      ({ s.handover with queue.incomingQueue := queue }.noteAdded targetTime .kept)
      [.post (.postTaskForTime targetTime)])
  | _ => .ok s

def runsTasksOnCurrentThread (s : QueueSections) (t : ThreadId) : Station → Except Fault QueueSections
  | .readingDelegate =>
    .ok (s.move t .runsTasksOnCurrentThread
      (if s.handover.queue.delegate then .asking else .unlocking (some false)) s.handover [])
  | .asking => do
    let answer ← s.delegateRunsTasks t
    return s.move t .runsTasksOnCurrentThread (.unlocking (some answer)) s.handover []
  | _ => .ok s

def initDelegate (s : QueueSections) (t : ThreadId) : Station → Except Fault QueueSections
  | .checkingDrop =>
    if s.handover.queue.dropIncomingTasks then .error (.dcheck "!drop_incoming_tasks_")
    else .ok (s.move t .initDelegate .settingDelegate s.handover [])
  | .settingDelegate =>
    .ok (s.move t .initDelegate (.forwarding 0) { s.handover with queue.delegate := true } [])
  | .forwarding i =>
    match s.handover.queue.incomingQueue[i]? with
    | none => .ok (s.move t .initDelegate .clearingQueue s.handover [])
    | some task => do
      let (loop, disposal) ← s.delegatePostTask task.1 task.2
      let handover := { s.handover with loop := loop }
      return s.move t .initDelegate (.forwarding (i + 1))
        (if disposal = .deleted then handover.note (.destroyed task.1) else handover) []
  | .clearingQueue =>
    .ok (s.move t .initDelegate (.unlocking none)
      { s.handover with queue.incomingQueue := [], initialized := true } [.initDelegate])
  | _ => .ok s

def clearDelegate (s : QueueSections) (t : ThreadId) : Station → Except Fault QueueSections
  | .checkingDrop =>
    if s.handover.queue.dropIncomingTasks then .error (.dcheck "!drop_incoming_tasks_")
    else .ok (s.move t .clearDelegate .settingDrop s.handover [])
  | .settingDrop =>
    .ok (s.move t .clearDelegate .clearingDelegate { s.handover with queue.dropIncomingTasks := true } [])
  | .clearingDelegate =>
    .ok (s.move t .clearDelegate (.unlocking none)
      ({ s.handover with queue.delegate := false }.note .cleared) [.clearDelegate])
  | _ => .ok s

/-- The next statement of thread `t`. `locker` takes the mutex before the first one and gives it back after the last. -/
def advance (s : QueueSections) (t : ThreadId) : Except Fault QueueSections :=
  match s.call t with
  | none => .ok s
  | some (call, .locking) => .ok ({ s with mutex := some t }.move t call call.first s.handover [])
  | some (_, .unlocking _) => .ok { s with mutex := none, call := Function.update s.call t none }
  | some (.addTask targetTime, station) => s.addTask t targetTime station
  | some (.runsTasksOnCurrentThread, station) => s.runsTasksOnCurrentThread t station
  | some (.initDelegate, station) => s.initDelegate t station
  | some (.clearDelegate, station) => s.clearDelegate t station

end QueueSections

/-- The acts of the loop's thread that the mutex does not guard. -/
def HandoverAct.isUnguarded : HandoverAct → Bool
  | .beginTask _ | .endTask | .beginShutdown | .cancelTask _ => true
  | .post _ | .initDelegate | .clearDelegate | .releaseQueue => false

/-- Any thread may post and ask. The loop's thread is 0: the constructor calls `InitDelegate`, and the destructor, when
its loop has shut down, calls `ClearDelegate` and returns. -/
def sectionsMachine : Machine QueueSections SectionAct Fault where
  Enabled s
    | .call t (.addTask _) | .call t .runsTasksOnCurrentThread => s.call t = none
    | .call t .initDelegate => t = 0 ∧ s.call 0 = none ∧ s.handover.initialized = false
    | .call t .clearDelegate => t = 0 ∧ s.call 0 = none ∧ s.handover.loop.shutDown = true ∧
        s.handover.loop.accepted = [] ∧ s.handover.queue.delegate = true
    | .advance t => ∃ call station, s.call t = some (call, station) ∧ (station = .locking → s.mutex = none)
    | .loop a => s.call 0 = none ∧ a.isUnguarded = true ∧ handoverMachine.Enabled s.handover a
    | .destroyLoop => s.call 0 = none ∧ s.handover.queue.dropIncomingTasks = true ∧ s.loopDestroyed = false
  step s
    | .call t call => .ok (s.move t call .locking s.handover [])
    | .advance t => s.advance t
    | .loop a => do
      let handover ← handoverMachine.step s.handover a
      return { s with handover := handover, effects := s.effects ++ [(0, a)] }
    | .destroyLoop => .ok { s with loopDestroyed := true }

/-! ## What a section in progress hides -/

/-- The queue and its loop as they are without the call of thread 0, as long as that call has no effect yet. -/
def viewAt : Option (LockedCall × Station) → Handover → Handover
  | some (.initDelegate, .forwarding _), s | some (.initDelegate, .clearingQueue), s =>
    { s with queue.delegate := false, loop := {} }
  | some (.clearDelegate, .clearingDelegate), s => { s with queue.dropIncomingTasks := false }
  | _, s => s

def QueueSections.view (s : QueueSections) : Handover := viewAt (s.call 0) s.handover

/-- The effect that a call has still to have. -/
def pending : Option (LockedCall × Station) → List HandoverAct
  | none | some (_, .unlocking _) => []
  | some (call, _) => call.act.toList

/-- What the act makes thread `t` do. -/
def startedBy (t : ThreadId) : SectionAct → Option HandoverAct
  | .call t' call => if t' = t then call.act else none
  | .loop a => if 0 = t then some a else none
  | .advance _ | .destroyLoop => none

def ofThread (t : ThreadId) (e : ThreadId × HandoverAct) : Option HandoverAct :=
  if e.1 = t then some e.2 else none

/-- What a thread knows at a statement from the ones before it, while no other thread can change it. -/
def Knows (s : Handover) (t : ThreadId) : LockedCall → Station → Prop
  | .addTask _, .locking | .addTask _, .checkingDrop | .addTask _, .unlocking _ => True
  | .addTask _, .readingDelegate => s.queue.dropIncomingTasks = false
  | .addTask _, .forwarding _ => s.queue.dropIncomingTasks = false ∧ s.queue.delegate = true
  | .addTask _, .buffering => s.queue.dropIncomingTasks = false ∧ s.queue.delegate = false
  | .runsTasksOnCurrentThread, .locking | .runsTasksOnCurrentThread, .readingDelegate => True
  | .runsTasksOnCurrentThread, .asking => s.queue.delegate = true
  | .runsTasksOnCurrentThread, .unlocking answer => answer = some (s.queue.runsTasksOnCurrentThread (t = 0))
  | .initDelegate, .locking | .initDelegate, .checkingDrop | .initDelegate, .settingDelegate =>
    t = 0 ∧ s.initialized = false
  | .initDelegate, .forwarding i => t = 0 ∧ s.initialized = false ∧ s.queue.dropIncomingTasks = false ∧
    s.queue.delegate = true ∧ s.loop = ({} : TaskLoop TaskId).acceptAll (s.queue.incomingQueue.take i)
  | .initDelegate, .clearingQueue => t = 0 ∧ s.initialized = false ∧ s.queue.dropIncomingTasks = false ∧
    s.queue.delegate = true ∧ s.loop = ({} : TaskLoop TaskId).acceptAll s.queue.incomingQueue
  | .initDelegate, .unlocking _ | .clearDelegate, .unlocking _ => t = 0
  | .clearDelegate, .locking | .clearDelegate, .checkingDrop | .clearDelegate, .settingDrop =>
    t = 0 ∧ s.loop.shutDown = true ∧ s.loop.accepted = [] ∧ s.queue.delegate = true
  | .clearDelegate, .clearingDelegate => t = 0 ∧ s.loop.shutDown = true ∧ s.loop.accepted = [] ∧
    s.queue.delegate = true ∧ s.queue.dropIncomingTasks = true
  | _, _ => False

structure Sectioned (s : QueueSections) : Prop where
  inside : ∀ t, s.mutex = some t ↔ ∃ call station, s.call t = some (call, station) ∧ station ≠ .locking
  knows : ∀ t call station, s.call t = some (call, station) → Knows s.handover t call station
  destroyed : s.loopDestroyed = true → s.handover.initialized = true ∧ s.handover.queue.delegate = false
  alive : s.handover.released = false
  atomic : handoverMachine.Run {} (s.effects.map Prod.snd) (.ok s.view)

/-- Each thread's calls have had their effects in the order in which it made them, but for the one it is in. -/
def InOrder (past : List SectionAct) (s : QueueSections) : Prop :=
  ∀ t, past.filterMap (startedBy t) = s.effects.filterMap (ofThread t) ++ pending (s.call t)

/-- What the calls of other threads leave as it is for those that wait for the mutex. -/
structure Keeps (s s' : Handover) : Prop where
  initialized : s'.initialized = s.initialized
  delegate : s'.queue.delegate = s.queue.delegate
  shutDown : s'.loop.shutDown = s.loop.shutDown
  accepted : s.loop.shutDown = true → s.loop.accepted = [] → s'.loop.accepted = []

theorem Keeps.refl (s : Handover) : Keeps s s := ⟨rfl, rfl, rfl, fun _ h => h⟩

theorem Knows.keep {s s' : Handover} (hkeep : Keeps s s') {t : ThreadId} {call : LockedCall}
    (h : Knows s t call .locking) : Knows s' t call .locking := by
  obtain ⟨hi, hd, hs, ha⟩ := hkeep
  cases call with
  | addTask | runsTasksOnCurrentThread => trivial
  | initDelegate => exact ⟨h.1, hi.trans h.2⟩
  | clearDelegate => exact ⟨h.1, hs.trans h.2.1, ha h.2.1 h.2.2.1, hd.trans h.2.2.2⟩

/-- The loop's own calls wait on its thread. -/
theorem Knows.other {s s' : Handover} {t : ThreadId} (ht : t ≠ 0) {call : LockedCall}
    (h : Knows s t call .locking) : Knows s' t call .locking := by
  cases call with
  | addTask | runsTasksOnCurrentThread => trivial
  | initDelegate | clearDelegate => exact (ht h.1).elim

theorem ofThread_map (t t' : ThreadId) (new : List HandoverAct) :
    (new.map fun a => (t, a)).filterMap (ofThread t') = if t = t' then new else [] := by
  induction new with
  | nil => simp
  | cons a new ih =>
    by_cases h : t = t'
    · simpa [ofThread, h] using ih
    · simp [ofThread, h] at ih ⊢

theorem InOrder.update {past : List SectionAct} {s s' : QueueSections} (h : InOrder past s) {a : SectionAct}
    (t : ThreadId) (started new : List HandoverAct) (at' : Option (LockedCall × Station))
    (ha : ∀ t', (startedBy t' a).toList = if t = t' then started else [])
    (hcall : s'.call = Function.update s.call t at') (heff : s'.effects = s.effects ++ new.map fun a => (t, a))
    (hpending : pending (s.call t) ++ started = new ++ pending at') : InOrder (past ++ [a]) s' := by
  intro t'
  have hlast : [a].filterMap (startedBy t') = if t = t' then started else [] := by
    rw [← ha t']
    cases hb : startedBy t' a <;> simp [hb]
  rw [List.filterMap_append, h t', hlast, hcall, heff, List.filterMap_append, ofThread_map]
  by_cases ht : t = t'
  · subst ht
    simp [hpending]
  · simp [ht, Function.update_of_ne (Ne.symm ht)]

namespace Sectioned
variable {s : QueueSections} {t : ThreadId} {call : LockedCall} {station : Station}

theorem init : Sectioned {} := by
  refine ⟨by simp, by simp, by simp, rfl, .nil _⟩

theorem handed (h : Sectioned s) : Handed s.view := by
  obtain ⟨u, hu, hI⟩ := h.atomic.safe (I := Handed) (fun s a h he => h.step a he) .init
  cases hu
  exact hI

/-- At most one thread is past the lock. -/
theorem owner (h : Sectioned s) (hcall : s.call t = some (call, station)) (hst : station ≠ .locking) :
    s.mutex = some t := (h.inside t).mpr ⟨call, station, hcall, hst⟩

theorem others_lock (h : Sectioned s) (hcall : s.call t = some (call, station)) (hst : station ≠ .locking)
    {t' : ThreadId} (ht : t' ≠ t) {call' : LockedCall} {station' : Station}
    (hcall' : s.call t' = some (call', station')) : station' = .locking := by
  by_contra hst'
  have := (h.owner hcall hst).symm.trans (h.owner hcall' hst')
  exact ht (Option.some.inj this).symm

/-- While another thread is in a section, or none is, thread 0 hides nothing. -/
theorem view_outside (h0 : ∀ call station, s.call 0 = some (call, station) → station = .locking) :
    s.view = s.handover := by
  unfold QueueSections.view
  cases hc : s.call 0 with
  | none => rfl
  | some c =>
    obtain ⟨call, station⟩ := c
    rw [h0 call station hc]
    cases call <;> rfl

/-- A statement within a section: the rest of the invariant follows from what it does to the view. -/
theorem moved (h : Sectioned s) (hcall : s.call t = some (call, station)) (hst : station ≠ .locking)
    (station' : Station) (hst' : station' ≠ .locking) {handover : Handover} {new : List HandoverAct}
    (hknows : Knows handover t call station') (hkeep : t ≠ 0 → Keeps s.handover handover)
    (hdestroyed : s.loopDestroyed = true → handover.initialized = true ∧ handover.queue.delegate = false)
    (halive : handover.released = false)
    (hrun : handoverMachine.Run s.view new (.ok (s.move t call station' handover new).view)) :
    Sectioned (s.move t call station' handover new) := by
  have howner := h.owner hcall hst
  refine ⟨fun t' => ?_, fun t' call' st' hc' => ?_, hdestroyed, halive, ?_⟩
  · by_cases ht : t' = t
    · subst ht
      simp [QueueSections.move, howner, hst']
    · simpa [QueueSections.move, ht] using h.inside t'
  · by_cases ht : t' = t
    · subst ht
      simp only [QueueSections.move, Function.update_self] at hc'
      cases hc'
      exact hknows
    · simp only [QueueSections.move, Function.update_of_ne ht] at hc'
      have hlock := h.others_lock hcall hst ht hc'
      subst hlock
      have hold := h.knows _ _ _ hc'
      by_cases ht0 : t = 0
      · exact hold.other (ht0 ▸ ht)
      · exact hold.keep (hkeep ht0)
  · have heff : (s.move t call station' handover new).effects.map Prod.snd = s.effects.map Prod.snd ++ new := by
      simp [QueueSections.move, Function.comp_def]
    rw [heff]
    exact h.atomic.append hrun

/-- Inside a section of `AddTask` or `RunsTasksOnCurrentThread` nothing is hidden, and its statements hide nothing. -/
theorem view_plain (h : Sectioned s) (hcall : s.call t = some (call, station)) (hst : station ≠ .locking)
    (hplain : call ≠ .initDelegate ∧ call ≠ .clearDelegate) (station' : Station) (handover : Handover)
    (new : List HandoverAct) :
    s.view = s.handover ∧ (s.move t call station' handover new).view = handover := by
  have hview (station : Station) (handover : Handover) : viewAt (some (call, station)) handover = handover := by
    cases call with
    | addTask | runsTasksOnCurrentThread => rfl
    | initDelegate => exact (hplain.1 rfl).elim
    | clearDelegate => exact (hplain.2 rfl).elim
  by_cases ht : t = 0
  · subst ht
    simp [QueueSections.view, QueueSections.move, hcall, hview]
  · have hlock : ∀ call station, s.call 0 = some (call, station) → station = .locking :=
      fun _ _ hc => h.others_lock hcall hst (Ne.symm ht) hc
    refine ⟨view_outside hlock, view_outside fun call station hc => ?_⟩
    simp only [QueueSections.move, Function.update_of_ne (Ne.symm ht)] at hc
    exact hlock _ _ hc

end Sectioned

end Mtl.Tasks
