import Mtl.Tasks.IncomingTaskQueue

/-! The queue's mutex under user code that calls the task runner from anywhere: from task bodies,
handlers and destructors, on any thread, to any depth. -/
namespace Mtl.Tasks
open Foundation

/-- A thread; the loop belongs to thread 0. -/
abbrev ThreadId := Nat
/-- A closure is the number of the `AddTask` call that took it. -/
abbrev ClosureId := Nat

/-- A call under the mutex. -/
inductive LockedCall where
  | addTask (targetTime : TimePoint)
  | runsTasksOnCurrentThread
  | initDelegate
  | clearDelegate
  deriving DecidableEq

/-- Frames of a thread's stack: user code (the thread's own, a callback of the loop, a task's body,
a closure's destructor) and the stations of a locked call. -/
inductive Frame where
  | code
  | callback
  | body (closure : ClosureId)
  | dtor (closure : ClosureId)
  | lock (call : LockedCall)
  | locked (call : LockedCall)
  | unlock
  deriving DecidableEq

def Frame.isUser : Frame → Prop
  | .code | .callback | .body _ | .dtor _ => True
  | _ => False

/-- `added` records whether the loop was shutting down and whether the queue had its delegate. -/
inductive LockEvent where
  | added (closure : ClosureId) (shutDown delegate : Bool)
  | ran (closure : ClosureId)
  | destroyed (closure : ClosureId)
  | answered (thread : ThreadId) (answer : Bool)
  deriving DecidableEq

structure QueueLock where
  queue : IncomingTaskQueue ClosureId := {}
  loop : TaskLoop ClosureId := {}
  constructed : Bool := false
  owner : Option ThreadId := none
  stack : ThreadId → List Frame := fun _ => [.code]
  nextClosure : ClosureId := 0
  log : List LockEvent := []

/-- `post`, `query` and `ret` are user code's; the next three are the stations of a locked call;
the rest is what the loop's thread does between callbacks. -/
inductive LockAct where
  | post (thread : ThreadId) (req : PostRequest)
  | query (thread : ThreadId)
  | ret (thread : ThreadId)
  | acquire (thread : ThreadId)
  | execute (thread : ThreadId)
  | release (thread : ThreadId)
  | construct
  | callback
  | beginTask (i : Nat)
  | beginShutdown
  | cancelTask (i : Nat)
  | clear

namespace QueueLock

def setStack (s : QueueLock) (thread : ThreadId) (stack : List Frame) : QueueLock :=
  { s with stack := fun t => if t = thread then stack else s.stack t }

def push (s : QueueLock) (thread : ThreadId) (frame : Frame) : QueueLock :=
  s.setStack thread (frame :: s.stack thread)

def note (s : QueueLock) (e : LockEvent) : QueueLock := { s with log := e :: s.log }

/-- The end of a user frame. A task's record, and the closure in it, dies when its body returned. -/
def ret (s : QueueLock) (thread : ThreadId) : QueueLock :=
  match s.stack thread with
  | .body closure :: rest => s.setStack thread (.dtor closure :: rest)
  | .dtor closure :: rest => (s.setStack thread rest).note (.destroyed closure)
  | .callback :: rest => s.setStack thread rest
  | _ => s

def acquire (s : QueueLock) (thread : ThreadId) : QueueLock :=
  match s.stack thread with
  | .lock call :: rest => { s with owner := some thread }.setStack thread (.locked call :: rest)
  | _ => s

/-- The critical section. A closure deleted with its record dies before `unlock`, one that
is dropped dies with the caller's parameter after it. -/
def runLocked (s : QueueLock) (thread : ThreadId) (rest : List Frame) :
    LockedCall → Except Fault QueueLock
  | .addTask targetTime => do
    let closure := s.nextClosure
    let (queue, loop, disposal) ← s.queue.addTask s.loop closure targetTime
    let s := { s with queue := queue, loop := loop, nextClosure := closure + 1 }.note
      (.added closure s.loop.shutDown s.queue.delegate)
    return s.setStack thread <| match disposal with
      | .kept => .unlock :: rest
      | .deleted => .dtor closure :: .unlock :: rest
      | .dropped => .unlock :: .dtor closure :: rest
  | .runsTasksOnCurrentThread =>
    let answer := s.queue.runsTasksOnCurrentThread (thread = 0 && s.constructed)
    .ok ((s.setStack thread (.unlock :: rest)).note (.answered thread answer))
  | .initDelegate => do
    let (queue, loop, deleted) ← s.queue.initDelegate s.loop
    return { s with queue := queue, loop := loop }.setStack thread
      (deleted.map Frame.dtor ++ Frame.unlock :: rest)
  | .clearDelegate => do
    let queue ← s.queue.clearDelegate
    return { s with queue := queue }.setStack thread (.unlock :: rest)

def execute (s : QueueLock) (thread : ThreadId) : Except Fault QueueLock :=
  match s.stack thread with
  | .locked call :: rest => s.runLocked thread rest call
  | _ => .ok s

def release (s : QueueLock) (thread : ThreadId) : QueueLock :=
  match s.stack thread with
  | .unlock :: rest => { s with owner := none }.setStack thread rest
  | _ => s

/-- The loop's thread handles the `i`-th accepted record, with `MX_OK` or with an error. -/
def handle (s : QueueLock) (i : Nat) (ok : Bool) : Except Fault QueueLock :=
  match s.loop.accepted[i]? with
  | none => .error (.useAfterFree i)
  | some record =>
    let s := { s with loop := s.loop.handle i }
    .ok (if ok then (s.push 0 (.body record.task)).note (.ran record.task) else s.push 0 (.dtor record.task))

end QueueLock

/-- A lock is granted only while it is free. -/
def lockMachine : Machine QueueLock LockAct Fault where
  Enabled s
    | .post t _ | .query t => ∃ frame rest, s.stack t = frame :: rest ∧ frame.isUser
    | .ret t => ∃ frame rest, s.stack t = frame :: rest ∧ frame.isUser ∧ frame ≠ .code
    | .acquire t => s.owner = none ∧ ∃ call rest, s.stack t = .lock call :: rest
    | .execute t => ∃ call rest, s.stack t = .locked call :: rest
    | .release t => ∃ rest, s.stack t = .unlock :: rest
    | .construct => s.stack 0 = [.code] ∧ s.constructed = false
    | .callback => s.stack 0 = [.code] ∧ s.queue.delegate = true
    | .beginTask i => s.stack 0 = [.code] ∧ s.loop.shutDown = false ∧ i < s.loop.accepted.length
    | .beginShutdown => s.stack 0 = [.code] ∧ s.queue.delegate = true ∧ s.loop.shutDown = false
    | .cancelTask i => s.stack 0 = [.code] ∧ s.loop.shutDown = true ∧ i < s.loop.accepted.length
    | .clear => s.stack 0 = [.code] ∧ s.loop.shutDown = true ∧ s.loop.accepted = [] ∧ s.queue.delegate = true
  step s
    | .post t req => .ok (s.push t (.lock (.addTask req.targetTime)))
    | .query t => .ok (s.push t (.lock .runsTasksOnCurrentThread))
    | .ret t => .ok (s.ret t)
    | .acquire t => .ok (s.acquire t)
    | .execute t => s.execute t
    | .release t => .ok (s.release t)
    | .construct => .ok ({ s with constructed := true }.push 0 (.lock .initDelegate))
    | .callback => .ok (s.push 0 .callback)
    | .beginTask i => s.handle i true
    | .beginShutdown => .ok { s with loop := s.loop.beginShutdown }
    | .cancelTask i => s.handle i false
    | .clear => .ok (s.push 0 (.lock .clearDelegate))

/-- The thread is about to lock the mutex that it holds. -/
def SelfLock (s : QueueLock) (thread : ThreadId) : Prop :=
  s.owner = some thread ∧ ∃ call rest, s.stack thread = .lock call :: rest

/-- No call on the task runner by the destructor of a closure that was posted while the loop was
shutting down and the queue still had its delegate. -/
def Considerate (s : QueueLock) : LockAct → Prop
  | .post t _ | .query t => ∀ closure rest, s.stack t = .dtor closure :: rest →
    .added closure true true ∉ s.log
  | _ => True

/-- User code above which the mutex is free: its closure was not refused under the mutex. -/
@[grind] def Calm (log : List LockEvent) : Frame → Prop
  | .code | .callback => True
  | .body closure | .dtor closure => .added closure true true ∉ log
  | .lock _ | .locked _ | .unlock => False

/-- The stack of a thread without the mutex. -/
inductive Outside (log : List LockEvent) : List Frame → Prop
  | user {stack : List Frame} : (∀ f ∈ stack, Calm log f) → Outside log stack
  | lock {call : LockedCall} {rest : List Frame} :
      (∀ f ∈ rest, Calm log f) → Outside log (.lock call :: rest)

/-- The stack of the thread with the mutex: only a refused closure's destructor is above `unlock`. -/
inductive Inside (log : List LockEvent) : List Frame → Prop
  | locked {call : LockedCall} {rest : List Frame} :
      (∀ f ∈ rest, Calm log f) → Inside log (.locked call :: rest)
  | dtor {closure : ClosureId} {rest : List Frame} : .added closure true true ∈ log →
      (∀ f ∈ rest, Calm log f) → Inside log (.dtor closure :: .unlock :: rest)
  | unlock {rest : List Frame} : (∀ f ∈ rest, Calm log f) → Inside log (.unlock :: rest)

/-- The new entry refuses none of the stack's closures. -/
def Spares (e : LockEvent) (stack : List Frame) : Prop :=
  ∀ c, .body c ∈ stack ∨ .dtor c ∈ stack → e ≠ .added c true true

theorem Calm.cons {e : LockEvent} {log : List LockEvent} {stack : List Frame}
    (h : ∀ f ∈ stack, Calm log f) (he : Spares e stack) : ∀ f ∈ stack, Calm (e :: log) f := by
  intro f hf
  have := h f hf
  cases f with
  | code | callback => trivial
  | body c => exact List.not_mem_cons_of_ne_of_not_mem (he c (.inl hf)).symm this
  | dtor c => exact List.not_mem_cons_of_ne_of_not_mem (he c (.inr hf)).symm this
  | lock | locked | unlock => exact this

theorem Outside.cons {e : LockEvent} {log : List LockEvent} {stack : List Frame} (h : Outside log stack)
    (he : Spares e stack) : Outside (e :: log) stack := by
  cases h with
  | user h => exact .user (Calm.cons h he)
  | lock h => exact .lock (Calm.cons h fun c hc => he c (by simpa using hc))

theorem Inside.cons {e : LockEvent} {log : List LockEvent} {stack : List Frame} (h : Inside log stack)
    (he : Spares e stack) : Inside (e :: log) stack := by
  cases h with
  | locked h => exact .locked (Calm.cons h fun c hc => he c (by simpa using hc))
  | dtor hc h =>
    exact .dtor (List.mem_cons_of_mem _ hc) (Calm.cons h fun c hc => he c (by simp; tauto))
  | unlock h => exact .unlock (Calm.cons h fun c hc => he c (by simpa using hc))

/-- What the pending calls of the loop's constructor and destructor rely on. -/
@[grind] def Pending (queue : IncomingTaskQueue ClosureId) (loop : TaskLoop ClosureId) (constructed : Bool)
    (thread : ThreadId) (call : LockedCall) : Prop :=
  (call = .initDelegate → thread = 0 ∧ queue.delegate = false ∧ queue.dropIncomingTasks = false ∧
    loop.shutDown = false ∧ constructed = true) ∧
  (call = .clearDelegate → thread = 0 ∧ queue.delegate = true ∧ loop.shutDown = true ∧ loop.accepted = [])

/-- The lock discipline of a run in which every step was considerate. -/
structure Locking (s : QueueLock) : Prop where
  inside : ∀ t, s.owner = some t → Inside s.log (s.stack t)
  outside : ∀ t, s.owner ≠ some t → Outside s.log (s.stack t)
  pending : ∀ t call, .lock call ∈ s.stack t ∨ .locked call ∈ s.stack t → Pending s.queue s.loop s.constructed t call
  frames : ∀ t c, .body c ∈ s.stack t ∨ .dtor c ∈ s.stack t → c < s.nextClosure
  added : ∀ c a d, .added c a d ∈ s.log → c < s.nextClosure
  ran : ∀ c, .ran c ∈ s.log → c < s.nextClosure ∧ ∀ d, .added c true d ∉ s.log
  queued : ∀ c, c ∈ s.queue.incomingQueue.map Prod.fst ∨ c ∈ s.loop.accepted.map TaskRecord.task →
    c < s.nextClosure ∧ ∀ d, .added c true d ∉ s.log
  late : ∀ c d, .added c true d ∈ s.log → .destroyed c ∈ s.log ∨ ∃ t, .dtor c ∈ s.stack t
  unconstructed : s.constructed = false →
    s.queue.delegate = false ∧ s.queue.dropIncomingTasks = false ∧ s.loop.shutDown = false
  dropping : s.queue.dropIncomingTasks = true → s.queue.delegate = false ∧ s.loop.shutDown = true
  shut : s.loop.shutDown = true → s.queue.delegate = true ∨ s.queue.dropIncomingTasks = true

namespace Locking
variable {s : QueueLock}

theorem init : Locking {} := by
  refine ⟨by simp, fun t _ => .user (by simp [Calm]), ?_, ?_, ?_, ?_, ?_, ?_, ?_, ?_, ?_⟩ <;> simp

/-- A call by user code that may make it. -/
theorem push_lock (h : Locking s) {t : ThreadId} (hcalm : s.owner ≠ some t)
    (hu : ∀ f ∈ s.stack t, Calm s.log f) {call : LockedCall}
    (hp : Pending s.queue s.loop s.constructed t call) : Locking (s.push t (.lock call)) := by
  cases h
  constructor
  all_goals simp only [QueueLock.push, QueueLock.setStack]
  all_goals grind [Outside.lock]

/-- The loop's thread between callbacks. -/
theorem code_free (h : Locking s) (hst : s.stack 0 = [.code]) : s.owner ≠ some 0 := by
  intro ho
  have := h.inside 0 ho
  rw [hst] at this
  cases this

/-- A callback of the loop starts. -/
theorem callback (h : Locking s) (hst : s.stack 0 = [.code]) : Locking (s.push 0 .callback) := by
  have hfree := h.code_free hst
  cases h
  constructor
  all_goals simp only [QueueLock.push, QueueLock.setStack]
  all_goals grind [Outside.user]

theorem ret (h : Locking s) {t : ThreadId} {f : Frame} {rest : List Frame} (hst : s.stack t = f :: rest)
    (hf : f.isUser) : Locking (s.ret t) := by
  cases f with
  | code => simpa [QueueLock.ret, hst] using h
  | lock | locked | unlock => exact hf.elim
  | callback =>
    simp only [QueueLock.ret, hst]
    have hin := h.inside t
    have hout := h.outside t
    rw [hst] at hin hout
    obtain ⟨h1, h2, h3, h4, h5, h6, h7, h8, h9, h10, h11⟩ := h
    constructor
    all_goals simp only [QueueLock.setStack]
    all_goals grind [Outside, Inside]
  | body c =>
    simp only [QueueLock.ret, hst]
    have hin := h.inside t
    have hout := h.outside t
    rw [hst] at hin hout
    obtain ⟨h1, h2, h3, h4, h5, h6, h7, h8, h9, h10, h11⟩ := h
    constructor
    all_goals simp only [QueueLock.setStack]
    all_goals grind [Outside, Inside]
  | dtor c =>
    simp only [QueueLock.ret, hst]
    have hin := h.inside t
    have hout := h.outside t
    rw [hst] at hin hout
    have hspares (stack : List Frame) : Spares (.destroyed c) stack := by simp [Spares]
    cases h
    constructor
    all_goals simp only [QueueLock.setStack, QueueLock.note]
    all_goals grind [Outside, Inside, Outside.cons, Inside.cons, Calm.cons]

theorem acquire (h : Locking s) {t : ThreadId} (ho : s.owner = none) {call : LockedCall} {rest : List Frame}
    (hst : s.stack t = .lock call :: rest) : Locking (s.acquire t) := by
  simp only [QueueLock.acquire, hst]
  have hout := h.outside t
  rw [hst] at hout
  cases h
  constructor
  all_goals simp only [QueueLock.setStack]
  all_goals grind [Outside, Inside]

theorem owner_of_locked (h : Locking s) {t : ThreadId} {call : LockedCall} {rest : List Frame}
    (hst : s.stack t = .locked call :: rest) :
    s.owner = some t ∧ Pending s.queue s.loop s.constructed t call ∧ ∀ f ∈ rest, Calm s.log f := by
  have hpend := h.pending t call (.inr (by simp [hst]))
  by_cases ho : s.owner = some t
  · have := h.inside t ho
    rw [hst] at this
    cases this with
    | locked hcalm => exact ⟨ho, hpend, hcalm⟩
  · have := h.outside t ho
    rw [hst] at this
    cases this with
    | user hcalm => exact (hcalm _ List.mem_cons_self).elim

/-- Where a critical section leaves the thread: a late closure is on its way to be destroyed. -/
structure Executed (s u : QueueLock) (t : ThreadId) (call : LockedCall) (rest : List Frame) : Prop where
  owner : u.owner = s.owner
  others : ∀ t', t' ≠ t → u.stack t' = s.stack t'
  shutDown : u.loop.shutDown = s.loop.shutDown
  next : s.nextClosure ≤ u.nextClosure
  log : ∀ e ∈ s.log, e ∈ u.log
  stack : u.stack t = .unlock :: rest ∨ u.stack t = .dtor s.nextClosure :: .unlock :: rest ∨
    u.stack t = .unlock :: .dtor s.nextClosure :: rest
  late : ∀ targetTime, call = .addTask targetTime → s.loop.shutDown = true →
    (∃ d, .added s.nextClosure true d ∈ u.log) ∧
      (u.stack t = .dtor s.nextClosure :: .unlock :: rest ∨ u.stack t = .unlock :: .dtor s.nextClosure :: rest)

theorem new_spares (h : Locking s) (a d : Bool) (t : ThreadId) : Spares (.added s.nextClosure a d) (s.stack t) := by
  rintro c hc heq
  cases heq
  exact Nat.lt_irrefl _ (h.frames t _ hc)

theorem new_calm (h : Locking s) {t : ThreadId} {call : LockedCall} {rest : List Frame}
    (hst : s.stack t = .locked call :: rest) (a d : Bool) : ∀ f ∈ rest, Calm (.added s.nextClosure a d :: s.log) f :=
  Calm.cons (h.owner_of_locked hst).2.2 fun c hc => h.new_spares a d t c (by rw [hst]; simpa using hc)

/-- An `AddTask` that leaves `stack` to its thread, with a late closure's destructor in it. -/
theorem take_closure (h : Locking s) {t : ThreadId} {targetTime : TimePoint} {rest stack : List Frame}
    (hst : s.stack t = .locked (.addTask targetTime) :: rest) {q : IncomingTaskQueue ClosureId}
    {l : TaskLoop ClosureId} {disposal : Disposal}
    (heq : s.queue.addTask s.loop s.nextClosure targetTime = .ok (q, l, disposal))
    (hin : Inside (.added s.nextClosure s.loop.shutDown s.queue.delegate :: s.log) stack)
    (hold : ∀ f ∈ rest, f ∈ stack) (hnew : ∀ f ∈ stack, f = .unlock ∨ f = .dtor s.nextClosure ∨ f ∈ rest)
    (hlate : s.loop.shutDown = true → .dtor s.nextClosure ∈ stack ∧ disposal ≠ .kept) :
    Locking (({ s with queue := q, loop := l, nextClosure := s.nextClosure + 1 }.note
      (.added s.nextClosure s.loop.shutDown s.queue.delegate)).setStack t stack) := by
  have ho := (h.owner_of_locked hst).1
  have hspare := h.new_spares
  obtain ⟨hdel, hdrop, hshut, hmem, hfate⟩ := IncomingTaskQueue.addTask_facts heq
  have hsame : disposal ≠ .kept → l.accepted = s.loop.accepted := by
    rintro hne
    cases disposal with
    | kept => exact absurd rfl hne
    | deleted | dropped => exact hfate.1
  cases h
  constructor
  all_goals simp only [QueueLock.setStack, QueueLock.note]
  all_goals grind [Outside.cons, Inside.cons]

/-- The stack that an `AddTask` leaves to its thread. -/
theorem execute_station (h : Locking s) {t : ThreadId} {targetTime : TimePoint} {rest : List Frame}
    (hst : s.stack t = .locked (.addTask targetTime) :: rest) {q : IncomingTaskQueue ClosureId}
    {l : TaskLoop ClosureId} {disposal : Disposal}
    (heq : s.queue.addTask s.loop s.nextClosure targetTime = .ok (q, l, disposal)) :
    ∃ stack, s.execute t = .ok (({ s with queue := q, loop := l, nextClosure := s.nextClosure + 1 }.note
        (.added s.nextClosure s.loop.shutDown s.queue.delegate)).setStack t stack) ∧
      Inside (.added s.nextClosure s.loop.shutDown s.queue.delegate :: s.log) stack ∧
      (stack = .unlock :: rest ∧ s.loop.shutDown = false ∨
        (stack = .dtor s.nextClosure :: .unlock :: rest ∨ stack = .unlock :: .dtor s.nextClosure :: rest) ∧
          disposal ≠ .kept) := by
  obtain ⟨-, -, -, -, hfate⟩ := IncomingTaskQueue.addTask_facts heq
  have hcalm := h.new_calm hst s.loop.shutDown s.queue.delegate
  cases disposal with
  | kept =>
    have hopen : s.loop.shutDown = false := by
      by_contra hs
      rw [Bool.not_eq_false] at hs
      rcases h.shut hs with hd | hd
      · exact absurd (hfate.2 hd) (by simp [hs])
      · exact absurd hd (by simp [hfate.1])
    exact ⟨_, by simp [QueueLock.execute, hst, QueueLock.runLocked, heq], .unlock hcalm, .inl ⟨rfl, hopen⟩⟩
  | deleted =>
    exact ⟨_, by simp [QueueLock.execute, hst, QueueLock.runLocked, heq], .dtor (by simp [hfate.2]) hcalm, .inr ⟨.inl rfl, nofun⟩⟩
  | dropped =>
    refine ⟨_, by simp [QueueLock.execute, hst, QueueLock.runLocked, heq], .unlock (List.forall_mem_cons.mpr ⟨?_, hcalm⟩), .inr ⟨.inr rfl, nofun⟩⟩
    have hnone := (h.dropping hfate.2).1
    have hadded := h.added s.nextClosure true true
    simp only [Calm, hnone, List.mem_cons]
    grind

theorem execute_addTask (h : Locking s) {t : ThreadId} {targetTime : TimePoint} {rest : List Frame}
    (hst : s.stack t = .locked (.addTask targetTime) :: rest) :
    ∃ u, s.execute t = .ok u ∧ Locking u ∧ Executed s u t (.addTask targetTime) rest := by
  obtain ⟨q, l, disposal, heq⟩ := s.queue.addTask_ok s.loop s.nextClosure targetTime
  obtain ⟨-, -, hshut, -⟩ := IncomingTaskQueue.addTask_facts heq
  obtain ⟨stack, hexec, hin, hstack⟩ := h.execute_station hst heq
  refine ⟨_, hexec, h.take_closure hst heq hin ?_ ?_ ?_, ?_⟩
  · grind
  · grind
  · grind
  · constructor
    all_goals simp only [QueueLock.setStack, QueueLock.note]
    all_goals grind

theorem execute_query (h : Locking s) {t : ThreadId} {rest : List Frame}
    (hst : s.stack t = .locked .runsTasksOnCurrentThread :: rest) :
    ∃ u, s.execute t = .ok u ∧ Locking u ∧ Executed s u t .runsTasksOnCurrentThread rest := by
  obtain ⟨ho, -, hrest⟩ := h.owner_of_locked hst
  cases h
  simp only [QueueLock.execute, hst]
  refine ⟨_, rfl, ?_, ?_⟩
  · constructor
    all_goals simp only [QueueLock.setStack, QueueLock.note]
    all_goals grind [Outside, Inside, Outside.cons, Inside.cons, Spares, Calm.cons]
  · constructor
    all_goals simp only [QueueLock.setStack, QueueLock.note]
    all_goals grind

theorem execute_initDelegate (h : Locking s) {t : ThreadId} {rest : List Frame}
    (hst : s.stack t = .locked .initDelegate :: rest) :
    ∃ u, s.execute t = .ok u ∧ Locking u ∧ Executed s u t .initDelegate rest := by
  obtain ⟨ho, hpend, hrest⟩ := h.owner_of_locked hst
  obtain ⟨-, -, hdrop, hs, -⟩ := hpend.1 rfl
  have htasks := s.loop.acceptAll_tasks s.queue.incomingQueue
  cases h
  refine ⟨_, by simp [QueueLock.execute, hst, QueueLock.runLocked, IncomingTaskQueue.initDelegate_running hdrop hs]; rfl,
    ?_, ?_⟩
  · constructor
    all_goals simp only [QueueLock.setStack, htasks]
    all_goals grind [Outside, Inside, TaskLoop.acceptAll]
  · constructor
    all_goals simp only [QueueLock.setStack]
    all_goals grind [TaskLoop.acceptAll]

theorem execute_clearDelegate (h : Locking s) {t : ThreadId} {rest : List Frame}
    (hst : s.stack t = .locked .clearDelegate :: rest) :
    ∃ u, s.execute t = .ok u ∧ Locking u ∧ Executed s u t .clearDelegate rest := by
  obtain ⟨ho, hpend, hrest⟩ := h.owner_of_locked hst
  obtain ⟨-, hdel, hs, hacc⟩ := hpend.2 rfl
  cases h
  have hdrop : s.queue.dropIncomingTasks = false := by grind
  refine ⟨_, by simp [QueueLock.execute, hst, QueueLock.runLocked, IncomingTaskQueue.clearDelegate_eq hdrop]; rfl,
    ?_, ?_⟩
  · constructor
    all_goals simp only [QueueLock.setStack]
    all_goals grind [Outside, Inside]
  · constructor
    all_goals simp only [QueueLock.setStack]
    all_goals grind

theorem execute (h : Locking s) {t : ThreadId} {call : LockedCall} {rest : List Frame}
    (hst : s.stack t = .locked call :: rest) :
    ∃ u, s.execute t = .ok u ∧ Locking u ∧ Executed s u t call rest := by
  cases call with
  | addTask targetTime => exact h.execute_addTask hst
  | runsTasksOnCurrentThread => exact h.execute_query hst
  | initDelegate => exact h.execute_initDelegate hst
  | clearDelegate => exact h.execute_clearDelegate hst

theorem release (h : Locking s) {t : ThreadId} {rest : List Frame} (hst : s.stack t = .unlock :: rest) :
    s.owner = some t ∧ Locking (s.release t) := by
  have hin := h.inside t
  have hout := h.outside t
  rw [hst] at hin hout
  have ho : s.owner = some t := by
    by_contra hne
    cases hout hne with
    | user hcalm => exact hcalm _ List.mem_cons_self
  simp only [QueueLock.release, hst]
  cases h
  refine ⟨ho, ?_⟩
  constructor
  all_goals simp only [QueueLock.setStack]
  all_goals grind [Outside, Inside]

/-- User code on top of a stack holds the mutex only in a refused closure's destructor. -/
theorem user_calm (h : Locking s) {t : ThreadId} {f : Frame} {rest : List Frame}
    (hst : s.stack t = f :: rest) (hf : f.isUser)
    (hc : ∀ closure rest, s.stack t = .dtor closure :: rest → .added closure true true ∉ s.log) :
    s.owner ≠ some t ∧ ∀ f ∈ s.stack t, Calm s.log f := by
  have hin := h.inside t
  have hout := h.outside t
  rw [hst] at hin hout
  have ho : s.owner ≠ some t := by
    intro ho
    cases hin ho with
    | locked | unlock => exact hf
    | dtor hmem => exact hc _ _ hst hmem
  refine ⟨ho, ?_⟩
  rw [hst]
  cases hout ho with
  | user hcalm => exact hcalm
  | lock => exact hf.elim

theorem refused_dtor_owns (h : Locking s) {t : ThreadId} {c : ClosureId} {rest : List Frame}
    (hst : s.stack t = .dtor c :: rest) (hc : .added c true true ∈ s.log) : s.owner = some t := by
  by_contra ho
  have := h.outside t ho
  rw [hst] at this
  cases this with
  | user hcalm => exact hcalm _ List.mem_cons_self hc

theorem construct (h : Locking s) (hst : s.stack 0 = [.code]) (hc : s.constructed = false) :
    Locking ({ s with constructed := true }.push 0 (.lock .initDelegate)) := by
  have hfree := h.code_free hst
  cases h
  constructor
  all_goals simp only [QueueLock.push, QueueLock.setStack]
  all_goals grind [Outside]

theorem beginShutdown (h : Locking s) (hd : s.queue.delegate = true) (hs : s.loop.shutDown = false) :
    Locking { s with loop := s.loop.beginShutdown } := by
  cases h
  constructor
  all_goals simp only [TaskLoop.beginShutdown]
  all_goals grind

theorem handle (h : Locking s) (hst : s.stack 0 = [.code]) {i : Nat} (hi : i < s.loop.accepted.length)
    (ok : Bool) : ∃ u, s.handle i ok = .ok u ∧ Locking u := by
  have hfree := h.code_free hst
  have hmem : s.loop.accepted[i].task ∈ s.loop.accepted.map TaskRecord.task :=
    List.mem_map_of_mem (List.getElem_mem hi)
  have hsub : ∀ c, c ∈ (s.loop.accepted.eraseIdx i).map TaskRecord.task →
      c ∈ s.loop.accepted.map TaskRecord.task :=
    fun c hc => ((List.eraseIdx_sublist _ _).map _).subset hc
  obtain ⟨hlt, hearly⟩ := h.queued _ (.inr hmem)
  cases h
  cases ok with
  | true =>
    have hspare (stack : List Frame) : Spares (.ran s.loop.accepted[i].task) stack := by simp [Spares]
    refine ⟨_, by simp [QueueLock.handle, hi]; rfl, ?_⟩
    constructor
    all_goals simp only [QueueLock.push, QueueLock.setStack, QueueLock.note, TaskLoop.handle]
    all_goals grind [Outside, Outside.cons, Inside.cons]
  | false =>
    refine ⟨_, by simp [QueueLock.handle, hi]; rfl, ?_⟩
    constructor
    all_goals simp only [QueueLock.push, QueueLock.setStack, TaskLoop.handle]
    all_goals grind [Outside]

theorem clear (h : Locking s) (hst : s.stack 0 = [.code]) (hs : s.loop.shutDown = true)
    (ha : s.loop.accepted = []) (hd : s.queue.delegate = true) : Locking (s.push 0 (.lock .clearDelegate)) := by
  refine h.push_lock (h.code_free hst) ?_ ⟨nofun, fun _ => ⟨rfl, hd, hs, ha⟩⟩
  simp [hst, Calm]

/-- Every considerate step keeps the discipline and none faults. -/
theorem step (h : Locking s) (a : LockAct) (he : (lockMachine.restrict Considerate).Enabled s a) :
    ∃ u, lockMachine.step s a = .ok u ∧ Locking u := by
  obtain ⟨he, hc⟩ := he
  cases a with
  | post t req =>
    obtain ⟨f, rest, hst, hf⟩ := he
    obtain ⟨ho, hcalm⟩ := h.user_calm hst hf hc
    exact ⟨_, rfl, h.push_lock ho hcalm ⟨nofun, nofun⟩⟩
  | query t =>
    obtain ⟨f, rest, hst, hf⟩ := he
    obtain ⟨ho, hcalm⟩ := h.user_calm hst hf hc
    exact ⟨_, rfl, h.push_lock ho hcalm ⟨nofun, nofun⟩⟩
  | ret t =>
    obtain ⟨f, rest, hst, hf, -⟩ := he
    exact ⟨_, rfl, h.ret hst hf⟩
  | acquire t =>
    obtain ⟨ho, call, rest, hst⟩ := he
    exact ⟨_, rfl, h.acquire ho hst⟩
  | execute t =>
    obtain ⟨call, rest, hst⟩ := he
    obtain ⟨u, hu, hl, -⟩ := h.execute hst
    exact ⟨u, hu, hl⟩
  | release t =>
    obtain ⟨rest, hst⟩ := he
    exact ⟨_, rfl, (h.release hst).2⟩
  | construct => exact ⟨_, rfl, h.construct he.1 he.2⟩
  | callback => exact ⟨_, rfl, h.callback he.1⟩
  | beginTask i => exact h.handle he.1 he.2.2 true
  | beginShutdown => exact ⟨_, rfl, h.beginShutdown he.2.1 he.2.2⟩
  | cancelTask i => exact h.handle he.1 he.2.2 false
  | clear => exact ⟨_, rfl, h.clear he.1 he.2.1 he.2.2.1 he.2.2.2⟩

/-- The thread's own way from its critical section back to the frames below the call. -/
structure Finished (s u : QueueLock) (t : ThreadId) (rest : List Frame) : Prop where
  owner : u.owner = none
  stack : u.stack t = rest
  others : ∀ t', t' ≠ t → u.stack t' = s.stack t'
  shutDown : u.loop.shutDown = s.loop.shutDown
  next : s.nextClosure ≤ u.nextClosure
  log : ∀ e ∈ s.log, e ∈ u.log

theorem finish_kept {t : ThreadId} {rest : List Frame} (hst : s.stack t = .unlock :: rest) :
    (lockMachine.restrict Considerate).Run s [.release t] (.ok (s.release t)) ∧
      Finished s (s.release t) t rest := by
  refine ⟨.single ⟨⟨rest, hst⟩, trivial⟩ rfl, ?_⟩
  simp only [QueueLock.release, hst, QueueLock.setStack]
  constructor <;> grind

theorem finish_destroyed {t : ThreadId} {c : ClosureId} {rest : List Frame}
    (hst : s.stack t = .dtor c :: .unlock :: rest ∨ s.stack t = .unlock :: .dtor c :: rest) :
    ∃ acts u, (lockMachine.restrict Considerate).Run s acts (.ok u) ∧ acts.length = 2 ∧
      Finished s u t rest ∧ .destroyed c ∈ u.log := by
  rcases hst with hst | hst
  · have hret : s.ret t = (s.setStack t (.unlock :: rest)).note (.destroyed c) := by
      simp [QueueLock.ret, hst]
    have hst' : (s.ret t).stack t = .unlock :: rest := by
      simp [hret, QueueLock.note, QueueLock.setStack]
    obtain ⟨hrun, h1, h2, h3, h4, h5, h6⟩ := finish_kept hst'
    refine ⟨[.ret t, .release t], _, .step ⟨⟨_, _, hst, trivial, nofun⟩, trivial⟩ rfl hrun, rfl, ?_, ?_⟩
    · rw [hret] at h1 h2 h3 h4 h5 h6 ⊢
      refine ⟨h1, h2, fun t' ht' => ?_, h4, h5, fun e he => h6 e (List.mem_cons_of_mem _ he)⟩
      rw [h3 t' ht']
      simp [QueueLock.note, QueueLock.setStack, ht']
    · exact h6 _ (by simp [hret, QueueLock.note])
  · obtain ⟨hrun, h1, h2, h3, h4, h5, h6⟩ := finish_kept hst
    have hret : (s.release t).ret t = ((s.release t).setStack t rest).note (.destroyed c) := by
      simp [QueueLock.ret, h2]
    have hret' : (lockMachine.restrict Considerate).Run (s.release t) [.ret t] (.ok ((s.release t).ret t)) :=
      .single ⟨⟨_, _, h2, trivial, nofun⟩, trivial⟩ rfl
    refine ⟨_, _, hrun.append hret', rfl, ?_, by simp [hret, QueueLock.note]⟩
    rw [hret]
    refine ⟨h1, by simp [QueueLock.note, QueueLock.setStack], fun t' ht' => ?_, h4, h5,
      fun e he => List.mem_cons_of_mem _ (h6 e he)⟩
    simp [QueueLock.note, QueueLock.setStack, ht', h3]

/-- A critical section and what is left of the call after it. -/
theorem execute_finish (h : Locking s) {t : ThreadId} {call : LockedCall} {rest : List Frame}
    (hst : s.stack t = .locked call :: rest) :
    ∃ acts u, (lockMachine.restrict Considerate).Run s acts (.ok u) ∧ acts.length ≤ 3 ∧ Finished s u t rest ∧
      (∀ targetTime, call = .addTask targetTime → s.loop.shutDown = true →
        ∃ d, .added s.nextClosure true d ∈ u.log ∧ .destroyed s.nextClosure ∈ u.log) := by
  obtain ⟨u, hu, -, hex⟩ := h.execute hst
  have hone : (lockMachine.restrict Considerate).Enabled s (.execute t) := ⟨⟨_, _, hst⟩, trivial⟩
  have hback {v : QueueLock} (hf : Finished u v t rest) : Finished s v t rest :=
    ⟨hf.owner, hf.stack, fun t' ht' => (hf.others t' ht').trans (hex.others t' ht'),
      hf.shutDown.trans hex.shutDown, hex.next.trans hf.next, fun e he => hf.log e (hex.log e he)⟩
  by_cases hlate : ∃ targetTime, call = .addTask targetTime ∧ s.loop.shutDown = true
  · obtain ⟨targetTime, hcall, hs⟩ := hlate
    obtain ⟨⟨d, hadded⟩, hst'⟩ := hex.late targetTime hcall hs
    obtain ⟨acts, v, hrun, hlen, hf, hdead⟩ := finish_destroyed hst'
    exact ⟨.execute t :: acts, v, .step hone hu hrun, by simp [hlen], hback hf,
      fun _ _ _ => ⟨d, hf.log _ hadded, hdead⟩⟩
  · have hnot (targetTime : TimePoint) (hcall : call = .addTask targetTime) (hs : s.loop.shutDown = true) :
        False := hlate ⟨targetTime, hcall, hs⟩
    rcases hex.stack with hst' | hst'
    · obtain ⟨hrun, hf⟩ := finish_kept hst'
      exact ⟨[.execute t, .release t], _, .step hone hu hrun, by simp, hback hf,
        fun targetTime hcall hs => (hnot targetTime hcall hs).elim⟩
    · obtain ⟨acts, v, hrun, hlen, hf, -⟩ := finish_destroyed hst'
      exact ⟨.execute t :: acts, v, .step hone hu hrun, by simp [hlen], hback hf,
        fun targetTime hcall hs => (hnot targetTime hcall hs).elim⟩

/-- The thread that holds the mutex is never more than three of its own steps from letting it go. -/
theorem holder_finishes (h : Locking s) {t : ThreadId} (ho : s.owner = some t) :
    ∃ acts u rest, (lockMachine.restrict Considerate).Run s acts (.ok u) ∧ acts.length ≤ 3 ∧
      Finished s u t rest := by
  have hin := h.inside t ho
  cases hst : s.stack t with
  | nil => rw [hst] at hin; cases hin
  | cons f rest =>
    rw [hst] at hin
    cases hin with
    | locked =>
      obtain ⟨acts, u, hrun, hlen, hf, -⟩ := h.execute_finish hst
      exact ⟨acts, u, _, hrun, hlen, hf⟩
    | dtor =>
      obtain ⟨acts, u, hrun, hlen, hf, -⟩ := finish_destroyed (.inl hst)
      exact ⟨acts, u, _, hrun, by omega, hf⟩
    | unlock =>
      obtain ⟨hrun, hf⟩ := finish_kept hst
      exact ⟨_, _, _, hrun, by simp, hf⟩

/-- A posting call can always run to its end; one made during shutdown destroys its closure. -/
theorem post_returns (h : Locking s) {t : ThreadId} {targetTime : TimePoint} {rest : List Frame}
    (hst : s.stack t = .lock (.addTask targetTime) :: rest) :
    ∃ acts u, (lockMachine.restrict Considerate).Run s acts (.ok u) ∧ acts.length ≤ 7 ∧ u.stack t = rest ∧
      (s.loop.shutDown = true → ∃ c d, s.nextClosure ≤ c ∧ .added c true d ∈ u.log ∧ .destroyed c ∈ u.log) := by
  have hfree (s : QueueLock) (h : Locking s) (ho : s.owner = none)
      (hst : s.stack t = .lock (.addTask targetTime) :: rest) :
      ∃ acts u, (lockMachine.restrict Considerate).Run s acts (.ok u) ∧ acts.length ≤ 4 ∧ u.stack t = rest ∧
        (s.loop.shutDown = true →
          ∃ d, .added s.nextClosure true d ∈ u.log ∧ .destroyed s.nextClosure ∈ u.log) := by
    have hacq : (lockMachine.restrict Considerate).Enabled s (.acquire t) := ⟨⟨ho, _, _, hst⟩, trivial⟩
    have heq : s.acquire t = { s with owner := some t }.setStack t (.locked (.addTask targetTime) :: rest) := by
      simp [QueueLock.acquire, hst]
    have hlocked : (s.acquire t).stack t = .locked (.addTask targetTime) :: rest := by
      simp [heq, QueueLock.setStack]
    obtain ⟨acts, u, hrun, hlen, hf, hlate⟩ := (h.acquire ho hst).execute_finish hlocked
    refine ⟨.acquire t :: acts, u, .step hacq rfl hrun, by simp; omega, hf.stack, fun hs => ?_⟩
    rw [heq] at hlate
    exact hlate targetTime rfl hs
  cases ho : s.owner with
  | none =>
    obtain ⟨acts, u, hrun, hlen, hst', hlate⟩ := hfree s h ho hst
    exact ⟨acts, u, hrun, by omega, hst', fun hs => ⟨_, (hlate hs).choose, Nat.le_refl _, (hlate hs).choose_spec⟩⟩
  | some t' =>
    have hne : t ≠ t' := by
      rintro rfl
      have := h.inside t ho
      rw [hst] at this
      cases this
    obtain ⟨acts, u, rest', hrun, hlen, hf⟩ := h.holder_finishes ho
    obtain ⟨u', hu', hl⟩ := hrun.safe (m := lockMachine.restrict Considerate) (I := Locking)
      (fun s a h he => h.step a he) h
    cases hu'
    obtain ⟨acts', v, hrun', hlen', hst', hlate⟩ := hfree u hl hf.owner ((hf.others t hne).trans hst)
    refine ⟨acts ++ acts', v, hrun.append hrun', by simp; omega, hst', fun hs => ?_⟩
    obtain ⟨d, hd⟩ := hlate (hf.shutDown.trans hs)
    exact ⟨_, d, hf.next, hd⟩

end Locking

/-- No step of the run lets a refused closure's destructor call the task runner: then no thread
locks the mutex it holds, a closure posted during shutdown never runs and dies by the time its
call is over, and every posting call can return. A step that does is a self-lock. -/
theorem no_self_lock_iff_considerate {acts : List LockAct} {result : Except Fault QueueLock}
    (hrun : (lockMachine.restrict Considerate).Run {} acts result) :
    ∃ s, result = .ok s ∧ (∀ t, ¬ SelfLock s t) ∧
      (∀ c d, .added c true d ∈ s.log → .ran c ∉ s.log ∧ (.destroyed c ∈ s.log ∨ ∃ t, .dtor c ∈ s.stack t)) ∧
      (∀ t targetTime rest, s.stack t = .lock (.addTask targetTime) :: rest →
        ∃ acts' u, (lockMachine.restrict Considerate).Run s acts' (.ok u) ∧ acts'.length ≤ 7 ∧ u.stack t = rest ∧
          (s.loop.shutDown = true →
            ∃ c d, s.nextClosure ≤ c ∧ .added c true d ∈ u.log ∧ .destroyed c ∈ u.log)) ∧
      (∀ a, lockMachine.Enabled s a → ¬ Considerate s a →
        ∃ t u, lockMachine.step s a = .ok u ∧ SelfLock u t) := by
  obtain ⟨s, hs, h⟩ := hrun.safe (m := lockMachine.restrict Considerate) (I := Locking)
    (fun s a h he => h.step a he) .init
  refine ⟨s, hs, ?_, ?_, fun t targetTime rest hst => h.post_returns hst, ?_⟩
  · rintro t ⟨ho, call, rest, hst⟩
    have := h.inside t ho
    rw [hst] at this
    cases this
  · exact fun c d hc => ⟨fun hran => (h.ran c hran).2 d hc, h.late c d hc⟩
  · intro a _ hnot
    cases a with
    | post t req =>
      simp only [Considerate, not_forall, not_not] at hnot
      obtain ⟨c, rest, hst, hc⟩ := hnot
      exact ⟨t, _, rfl, h.refused_dtor_owns hst hc, _, _, if_pos rfl⟩
    | query t =>
      simp only [Considerate, not_forall, not_not] at hnot
      obtain ⟨c, rest, hst, hc⟩ := hnot
      exact ⟨t, _, rfl, h.refused_dtor_owns hst hc, _, _, if_pos rfl⟩
    | ret | acquire | execute | release | construct | callback | beginTask | beginShutdown | cancelTask | clear =>
      exact (hnot trivial).elim

/-- A handler posts during shutdown, and the closure dies under the mutex without a call. -/
theorem no_self_lock_iff_considerate_shutdown :
    ∃ s, (lockMachine.restrict Considerate).Run {} [.construct, .acquire 0, .execute 0, .release 0,
        .beginShutdown, .callback, .post 0 .postTask, .acquire 0, .execute 0, .ret 0, .release 0] (.ok s) ∧
      s.stack 0 = [.callback, .code] ∧ .destroyed 0 ∈ s.log ∧ ∀ t, ¬ SelfLock s t := by
  have hrun : (lockMachine.restrict Considerate).Run {} [.construct, .acquire 0, .execute 0, .release 0,
      .beginShutdown, .callback, .post 0 .postTask, .acquire 0, .execute 0, .ret 0, .release 0] (.ok _) :=
    .step ⟨⟨rfl, rfl⟩, trivial⟩ rfl (.step ⟨⟨rfl, _, _, rfl⟩, trivial⟩ rfl
      (.step ⟨⟨_, _, rfl⟩, trivial⟩ rfl (.step ⟨⟨_, rfl⟩, trivial⟩ rfl
        (.step ⟨⟨rfl, rfl, rfl⟩, trivial⟩ rfl (.step ⟨⟨rfl, rfl⟩, trivial⟩ rfl
          (.step ⟨⟨.callback, _, rfl, trivial⟩, nofun⟩ rfl (.step ⟨⟨rfl, _, _, rfl⟩, trivial⟩ rfl
            (.step ⟨⟨_, _, rfl⟩, trivial⟩ rfl (.step ⟨⟨.dtor 0, _, rfl, trivial, nofun⟩, trivial⟩ rfl
              (.step ⟨⟨_, rfl⟩, trivial⟩ rfl (.nil _)))))))))))
  obtain ⟨s, hs, hself, -⟩ := no_self_lock_iff_considerate hrun
  cases hs
  exact ⟨_, hrun, rfl, by decide, hself⟩

/-- A handler posts during shutdown; the closure dies under the lock and its destructor posts. -/
theorem destructor_self_locks :
    ¬ ∀ acts s, lockMachine.Run {} acts (.ok s) → ∀ thread, ¬ SelfLock s thread := by
  intro hnoLock
  have hrun : lockMachine.Run {} [.construct, .acquire 0, .execute 0, .release 0, .beginShutdown,
      .callback, .post 0 .postTask, .acquire 0, .execute 0, .post 0 .postTask] (.ok _) :=
    .step ⟨rfl, rfl⟩ rfl (.step ⟨rfl, _, _, rfl⟩ rfl (.step ⟨_, _, rfl⟩ rfl (.step ⟨_, rfl⟩ rfl
      (.step ⟨rfl, rfl, rfl⟩ rfl (.step ⟨rfl, rfl⟩ rfl (.step ⟨.callback, _, rfl, trivial⟩ rfl
        (.step ⟨rfl, _, _, rfl⟩ rfl (.step ⟨_, _, rfl⟩ rfl (.step ⟨.dtor 0, _, rfl, trivial⟩ rfl (.nil _))))))))))
  exact hnoLock _ _ hrun 0 ⟨rfl, _, _, rfl⟩

end Mtl.Tasks
