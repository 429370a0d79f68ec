import Mtl.Foundation.FiniteMap
import Mtl.Socket.Files
import Mtl.Tasks.IncomingTaskQueue

/-! The life of the copy handlers. Between two steps a handler is reachable from a posted task or
from a registered wait only; both are followed through the destruction of the loop. -/
namespace Mtl.Socket
open Foundation Tasks

/-- A `CopyToFileHandler*` or `CopyFromFileHandler*`, identified with the number of its allocation. -/
abbrev CopyId := Nat

inductive CopyHandler where
  | toFile (h : CopyToFileHandler)
  | fromFile (h : CopyFromFileHandler)

/-- A closure on the task runner: a step of a copy, which holds the raw `this`, or anything else. -/
inductive CopyTask where
  | onHandleReady (copy : CopyId)
  | fillBuffer (copy : CopyId)
  | other

def CopyTask.copy : CopyTask → Option CopyId
  | .onHandleReady copy | .fillBuffer copy => some copy
  | .other => none

/-- The results of the system calls that one step may make. -/
structure IoResults where
  socketRead : ReadResult
  taken : Nat
  fileRead : Option (List UInt8)
  socketWrite : WriteResult

inductive CopyKind where
  | toFile | fromFile

namespace CopyHandler

def kind : CopyHandler → CopyKind
  | .toFile _ => .toFile
  | .fromFile _ => .fromFile

def waiting : CopyHandler → Bool
  | .toFile h => h.waiting
  | .fromFile h => h.waiting

def onHandleReady (result : MxStatus) (io : IoResults) : CopyHandler → Except Fault (CopyHandler × CopyStep)
  | .toFile h => do
    let (h, step) ← h.onHandleReady result io.socketRead io.taken
    return (.toFile h, step)
  | .fromFile h => do
    let (h, step) ← h.onHandleReady result io.socketWrite
    return (.fromFile h, step)

/-- `FillBuffer` is a member of `CopyFromFileHandler` only: the pointer `copy` is one to such. -/
def fillBuffer (copy : CopyId) (io : IoResults) : CopyHandler → Except Fault (CopyHandler × CopyStep)
  | .toFile _ => .error (.useAfterFree copy)
  | .fromFile h => do
    let (h, step) ← h.fillBuffer io.fileRead io.socketWrite
    return (.fromFile h, step)

def waitComplete (result : MxStatus) (io : IoResults) : CopyHandler → Except Fault (CopyHandler × CopyStep)
  | .toFile h => do
    let (h, step) ← h.waitComplete result io.socketRead io.taken
    return (.toFile h, step)
  | .fromFile h => do
    let (h, step) ← h.waitComplete result io.socketWrite
    return (.fromFile h, step)

end CopyHandler

/-- Any number of copies on one loop. `registered` has the copies whose wait the loop completes;
what was deleted and called back is listed with the last one first. -/
structure Copies where
  queue : IncomingTaskQueue CopyTask := {}
  loop : TaskLoop CopyTask := {}
  handlers : Finmap (fun _ : CopyId => CopyHandler) := ∅
  registered : Finset CopyId := ∅
  nextCopy : CopyId := 0
  deleted : List CopyId := []
  callbacks : List (CopyId × Bool) := []

namespace Copies

/-- A closure that is destroyed without running leaves the handler it points to alone. -/
def post (s : Copies) (task : CopyTask) (targetTime : TimePoint) : Except Fault Copies := do
  let (queue, loop, _) ← s.queue.addTask s.loop task targetTime
  return { s with queue := queue, loop := loop }

/-- `AddHandler` registers nothing once shutdown has begun, and says nothing. -/
def asyncWait (s : Copies) (copy : CopyId) : Copies :=
  if s.loop.shutDown then s else { s with registered := insert copy s.registered }

def proceed (s : Copies) (copy : CopyId) : CopyStep → Except Fault Copies
  | .postReady => s.post (.onHandleReady copy) TimePoint.epoch
  | .postFill => s.post (.fillBuffer copy) TimePoint.epoch
  | .asyncWait _ => .ok (s.asyncWait copy)
  | .sendCallback value => .ok { s with
      handlers := s.handlers.erase copy
      deleted := copy :: s.deleted
      callbacks := (copy, value) :: s.callbacks }

/-- A step of the handler at `copy`. -/
def resume (s : Copies) (copy : CopyId) (step : CopyHandler → Except Fault (CopyHandler × CopyStep)) :
    Except Fault Copies :=
  match s.handlers.lookup copy with
  | none => .error (.useAfterFree copy)
  | some h => do
    let (h, next) ← step h
    { s with handlers := s.handlers.insert copy h }.proceed copy next

/-- `CopyToFileDescriptor` and `CopyFromFileDescriptor`, with the handlers' constructors. -/
def start (s : Copies) (kind : CopyKind) : Except Fault Copies :=
  let copy := s.nextCopy
  let s := { s with nextCopy := copy + 1 }
  match kind with
  | .toFile =>
    { s with handlers := s.handlers.insert copy (.toFile {}) }.post (.onHandleReady copy) TimePoint.epoch
  | .fromFile =>
    { s with handlers := s.handlers.insert copy (.fromFile {}) }.post (.fillBuffer copy) TimePoint.epoch

def initDelegate (s : Copies) : Except Fault Copies := do
  let (queue, loop, _) ← s.queue.initDelegate s.loop
  return { s with queue := queue, loop := loop }

def runTask (s : Copies) (i : Nat) (io : IoResults) : Except Fault Copies :=
  match s.loop.accepted[i]? with
  | none => .error (.useAfterFree i)
  | some record =>
    let s := { s with loop := s.loop.handle i }
    match record.task with
    | .onHandleReady copy => s.resume copy (CopyHandler.onHandleReady .ok io)
    | .fillBuffer copy => s.resume copy (CopyHandler.fillBuffer copy io)
    | .other => .ok s

def completeWait (s : Copies) (copy : CopyId) (result : MxStatus) (io : IoResults) : Except Fault Copies :=
  { s with registered := s.registered.erase copy }.resume copy (CopyHandler.waitComplete result io)

def clearDelegate (s : Copies) : Except Fault Copies := do
  let queue ← s.queue.clearDelegate
  return { s with queue := queue }

end Copies

/-- What happens next; each is atomic. `runTask` and `cancelTask` dispatch the `i`-th accepted
record, the latter with an error. -/
inductive CopyAct where
  | start (kind : CopyKind)
  | postOther (targetTime : TimePoint)
  | initDelegate
  | runTask (i : Nat) (io : IoResults)
  | completeWait (copy : CopyId) (result : MxStatus) (io : IoResults)
  | beginShutdown
  | cancelTask (i : Nat)
  | clearDelegate

/-- The loop is made, runs and is destroyed; copies start at any time. A handler holds a reference
to the queue, so a buffer with its task in it is never destroyed. A wait in `registered` is one
registration of the default waiter, whose key lasts: it is completed once. -/
def copyMachine : Machine Copies CopyAct Fault where
  Enabled s
    | .start _ | .postOther _ => True
    | .initDelegate => s.queue.delegate = false ∧ s.queue.dropIncomingTasks = false
    | .runTask i _ => i < s.loop.accepted.length ∧ s.loop.shutDown = false
    | .completeWait copy result _ => copy ∈ s.registered ∧ (s.loop.shutDown = true → result = .errCanceled)
    | .beginShutdown => s.queue.delegate = true ∧ s.loop.shutDown = false
    | .cancelTask i => i < s.loop.accepted.length ∧ s.loop.shutDown = true
    | .clearDelegate => s.queue.delegate = true ∧ s.loop.shutDown = true ∧ s.loop.accepted = [] ∧
        s.registered = ∅
  step s
    | .start kind => s.start kind
    | .postOther targetTime => s.post .other targetTime
    | .initDelegate => s.initDelegate
    | .runTask i io => s.runTask i io
    | .completeWait copy result io => s.completeWait copy result io
    | .beginShutdown => .ok { s with loop := s.loop.beginShutdown }
    | .cancelTask i => .ok { s with loop := s.loop.handle i }
    | .clearDelegate => s.clearDelegate

namespace Copies

/-- The closures of one copy in the queue and in the loop. -/
def pending (s : Copies) (copy : CopyId) : Nat :=
  (closures s.queue s.loop).countP fun task => task.copy = some copy

def deletions (s : Copies) (copy : CopyId) : Nat := s.deleted.count copy
def reports (s : Copies) (copy : CopyId) : Nat := (s.callbacks.map Prod.fst).count copy

end Copies

/-- The steps after which the copy is still sure to report: it is not started once shutdown has
begun, and shutdown does not begin while its next step is a queued task. -/
def KeepsCopy (copy : CopyId) (s : Copies) : CopyAct → Prop
  | .start _ => copy = s.nextCopy → s.loop.shutDown = false
  | .beginShutdown => s.pending copy = 0
  | _ => True

/-! ## One step of a handler -/

def CopyStep.waits : CopyStep → Bool
  | .asyncWait _ => true
  | _ => false

theorem CopyToFileHandler.onHandleReady_ends {h : CopyToFileHandler} (hw : h.waiting = false)
    (result : MxStatus) (read : ReadResult) (taken : Nat) :
    ∃ h' step, h.onHandleReady result read taken = .ok (h', step) ∧ h'.waiting = step.waits ∧
      step ≠ .postFill ∧ (result = .errCanceled → step = .sendCallback false) := by
  by_cases hr : result = .ok ∧ read.status = .ok
  · by_cases ht : taken < read.bytes.length
    all_goals
      simp only [onHandleReady, hr, ht, hw, sendCallback, and_self, if_true, if_false]
      exact ⟨_, _, rfl, rfl, by simp, by simp⟩
  · simp only [onHandleReady, hr, if_false, afterRead, hw, sendCallback]
    cases hs : (if result = .ok then read.status else result) with
    | errPeerClosed => exact ⟨_, _, rfl, hw, by simp, by rintro rfl; simp at hs⟩
    | errShouldWait => exact ⟨_, _, rfl, rfl, by simp, by rintro rfl; simp at hs⟩
    | ok | errBadHandle | errBadState | errTimedOut | errCanceled | other =>
      exact ⟨_, _, rfl, hw, by simp, fun _ => rfl⟩

theorem CopyFromFileHandler.onHandleReady_ends {h : CopyFromFileHandler} (hw : h.waiting = false)
    (result : MxStatus) (write : WriteResult) :
    ∃ h' step, h.onHandleReady result write = .ok (h', step) ∧ h'.waiting = step.waits ∧
      (result = .errCanceled → step = .sendCallback false) := by
  by_cases hr : result = .ok ∧ write.status = .ok
  · simp only [onHandleReady, hr, and_self, if_true]
    refine ⟨_, _, rfl, ?_, by simp⟩
    split_ifs <;> exact hw
  · simp only [onHandleReady, hr, if_false, hw, sendCallback]
    cases hs : (if result = .ok then write.status else result) with
    | errShouldWait => exact ⟨_, _, rfl, rfl, by rintro rfl; simp at hs⟩
    | ok | errBadHandle | errBadState | errTimedOut | errCanceled | errPeerClosed | other =>
      exact ⟨_, _, rfl, hw, fun _ => rfl⟩

theorem CopyFromFileHandler.fillBuffer_ends {h : CopyFromFileHandler} (hw : h.waiting = false)
    (read : Option (List UInt8)) (write : WriteResult) :
    ∃ h' step, h.fillBuffer read write = .ok (h', step) ∧ h'.waiting = step.waits := by
  simp only [fillBuffer, hw, sendCallback]
  split
  · exact ⟨_, _, rfl, hw⟩
  · exact ⟨_, _, rfl, hw⟩
  case h_3 bytes _ =>
    obtain ⟨h', step, heq, hwait, -⟩ := onHandleReady_ends (h := { h with
      buffer := bytes, bufferOffset := 0, bufferEnd := bytes.length }) hw .ok write
    exact ⟨h', step, by rw [← heq, hw], hwait⟩

/-- A step that did not fault. Only a `CopyFromFileHandler` goes on with `FillBuffer`. -/
structure CopyKind.Steps (kind : CopyKind) (out : Except Fault (CopyHandler × CopyStep))
    (h : CopyHandler) (step : CopyStep) : Prop where
  eq : out = .ok (h, step)
  waiting : h.waiting = step.waits
  same : h.kind = kind
  fills : step = .postFill → kind = .fromFile

namespace CopyHandler

theorem onHandleReady_steps {h : CopyHandler} (hw : h.waiting = false) (result : MxStatus) (io : IoResults) :
    ∃ h' step, h.kind.Steps (h.onHandleReady result io) h' step ∧
      (result = .errCanceled → step = .sendCallback false) := by
  cases h with
  | toFile h =>
    obtain ⟨h', step, heq, hwait, hfill, hcancel⟩ := h.onHandleReady_ends hw result io.socketRead io.taken
    exact ⟨.toFile h', step, ⟨by simp [onHandleReady, heq], hwait, rfl, fun hs => absurd hs hfill⟩, hcancel⟩
  | fromFile h =>
    obtain ⟨h', step, heq, hwait, hcancel⟩ := h.onHandleReady_ends hw result io.socketWrite
    exact ⟨.fromFile h', step, ⟨by simp [onHandleReady, heq], hwait, rfl, fun _ => rfl⟩, hcancel⟩

theorem fillBuffer_steps {h : CopyHandler} (hw : h.waiting = false) (hk : h.kind = .fromFile) (copy : CopyId)
    (io : IoResults) : ∃ h' step, h.kind.Steps (h.fillBuffer copy io) h' step := by
  cases h with
  | toFile h => cases hk
  | fromFile h =>
    obtain ⟨h', step, heq, hwait⟩ := h.fillBuffer_ends hw io.fileRead io.socketWrite
    exact ⟨.fromFile h', step, by simp [fillBuffer, heq], hwait, rfl, fun _ => rfl⟩

/-- A completed wait is one more `OnHandleReady`, whatever `wait_id_` was. -/
theorem waitComplete_steps (h : CopyHandler) (result : MxStatus) (io : IoResults) :
    ∃ h' step, h.kind.Steps (h.waitComplete result io) h' step ∧
      (result = .errCanceled → step = .sendCallback false) := by
  cases h with
  | toFile h => exact onHandleReady_steps (h := .toFile { h with waiting := false }) rfl result io
  | fromFile h => exact onHandleReady_steps (h := .fromFile { h with waiting := false }) rfl result io

end CopyHandler

/-! ## Who goes on with a copy -/

namespace Copies

/-- The ways a copy goes on, and its end; `hand` is the copy that is in the middle of a step. -/
def owners (s : Copies) (hand : Option CopyId) (copy : CopyId) : Nat :=
  s.pending copy + (if copy ∈ s.registered then 1 else 0) + (if hand = some copy then 1 else 0) + s.deletions copy

end Copies

/-- Each copy goes on in at most one way until its handler is deleted, when it has reported. -/
structure Owned (hand : Option CopyId) (s : Copies) : Prop where
  phase : InPhase s.queue s.loop
  owners : ∀ copy, s.owners hand copy ≤ if copy < s.nextCopy then 1 else 0
  reported : ∀ copy, s.reports copy = s.deletions copy
  live : ∀ copy, copy < s.nextCopy → s.deletions copy = 0 → ∃ h, s.handlers.lookup copy = some h
  waiting : ∀ copy h, s.handlers.lookup copy = some h → hand ≠ some copy →
    h.waiting = decide (copy ∈ s.registered)
  fills : ∀ copy h, .fillBuffer copy ∈ closures s.queue s.loop → s.handlers.lookup copy = some h →
    h.kind = .fromFile
  drained : s.queue.dropIncomingTasks = true → s.registered = ∅

/-- The copy still goes on, or has ended. -/
def Kept (copy : CopyId) (hand : Option CopyId) (s : Copies) : Prop :=
  (copy < s.nextCopy → s.owners hand copy = 1) ∧ (s.loop.shutDown = true → s.pending copy = 0)

/-- The copy never goes on: the tasks of a loop that shuts down are not run. -/
def Lost (copy : CopyId) (hand : Option CopyId) (s : Copies) : Prop :=
  copy < s.nextCopy ∧ s.deletions copy = 0 ∧ copy ∉ s.registered ∧ hand ≠ some copy ∧
    (s.pending copy = 0 ∨ s.loop.shutDown = true)

/-- What a part of a step, from `hand` to `hand'`, leaves of both. -/
def Follows (hand : Option CopyId) (s : Copies) (hand' : Option CopyId) (t : Copies) : Prop :=
  ∀ copy, (Kept copy hand s → Kept copy hand' t) ∧ (Lost copy hand s → Lost copy hand' t)

theorem Follows.trans {hand hand' hand'' : Option CopyId} {s t u : Copies} (h : Follows hand s hand' t)
    (h' : Follows hand' t hand'' u) : Follows hand s hand'' u :=
  fun copy => ⟨fun hk => (h' copy).1 ((h copy).1 hk), fun hl => (h' copy).2 ((h copy).2 hl)⟩

namespace Owned
variable {s t : Copies} {copy : CopyId}

theorem init : Owned none {} := by
  constructor <;> simp [Copies.owners, Copies.pending, Copies.deletions, Copies.reports, closures]
  constructor <;> simp

/-- A step that ends in a task, which a loop takes that is not shutting down. -/
theorem postNext (ho : Owned (some copy) s) {h : CopyHandler} (hl : s.handlers.lookup copy = some h)
    (hw : h.waiting = false) (hs : s.loop.shutDown = false) {task : CopyTask} (htask : task.copy = some copy)
    (hf : task = .fillBuffer copy → h.kind = .fromFile) :
    ∃ t, s.post task TimePoint.epoch = .ok t ∧ Owned none t ∧ Follows (some copy) s none t := by
  obtain ⟨h1, h2, h3, h4, h5, h6, h7⟩ := ho
  obtain ⟨q, l, d, heq, hphase, htasks, hshut, hdrop⟩ := h1.addTask task TimePoint.epoch
  rw [hs] at htasks
  refine ⟨{ s with queue := q, loop := l }, by simp [Copies.post, heq], ⟨hphase, ?_, h3, h4, ?_, ?_, ?_⟩,
    fun c => ⟨?_, ?_⟩⟩
  all_goals try simp only [Copies.owners, Copies.pending, Copies.deletions, htasks, Kept, Lost] at *
  all_goals grind [CopyTask.copy]

/-- A step that ends in a wait. -/
theorem waitNext (ho : Owned (some copy) s) {h : CopyHandler} (hl : s.handlers.lookup copy = some h)
    (hw : h.waiting = true) (hs : s.loop.shutDown = false) :
    Owned none (s.asyncWait copy) ∧ Follows (some copy) s none (s.asyncWait copy) := by
  obtain ⟨h1, h2, h3, h4, h5, h6, h7⟩ := ho
  have hdrop := h1.dropped
  simp only [Copies.asyncWait, hs]
  refine ⟨⟨h1, ?_, h3, h4, ?_, h6, ?_⟩, fun c => ⟨?_, ?_⟩⟩
  all_goals try simp only [Copies.owners, Copies.pending, Copies.deletions, Kept, Lost] at *
  all_goals grind

/-- The last step deletes the handler and calls back. -/
theorem report (ho : Owned (some copy) s) (value : Bool) :
    ∃ t, s.proceed copy (.sendCallback value) = .ok t ∧ Owned none t ∧ Follows (some copy) s none t := by
  obtain ⟨h1, h2, h3, h4, h5, h6, h7⟩ := ho
  refine ⟨_, rfl, ⟨h1, ?_, ?_, ?_, ?_, ?_, h7⟩, fun c => ⟨?_, ?_⟩⟩
  all_goals try simp only [Copies.owners, Copies.pending, Copies.deletions, Copies.reports, Kept, Lost] at *
  all_goals grind

/-- A step of a handler, which only its last one takes in a loop that is shutting down. -/
theorem proceed (ho : Owned (some copy) s) {h : CopyHandler} (hl : s.handlers.lookup copy = some h)
    {step : CopyStep} (hw : h.waiting = step.waits) (hf : step = .postFill → h.kind = .fromFile)
    (hs : s.loop.shutDown = false ∨ ∃ value, step = .sendCallback value) :
    ∃ t, s.proceed copy step = .ok t ∧ Owned none t ∧ Follows (some copy) s none t := by
  cases step with
  | postReady => exact ho.postNext hl hw (hs.resolve_right (by simp)) rfl nofun
  | postFill => exact ho.postNext hl hw (hs.resolve_right (by simp)) rfl fun _ => hf rfl
  | asyncWait signals => exact ⟨_, rfl, ho.waitNext hl hw (hs.resolve_right (by simp))⟩
  | sendCallback value => exact ho.report value

theorem resume (ho : Owned (some copy) s) {f : CopyHandler → Except Fault (CopyHandler × CopyStep)}
    (hf : ∀ h, s.handlers.lookup copy = some h → ∃ h' step, h.kind.Steps (f h) h' step ∧
      (s.loop.shutDown = false ∨ ∃ value, step = .sendCallback value)) :
    ∃ t, s.resume copy f = .ok t ∧ Owned none t ∧ Follows (some copy) s none t := by
  obtain ⟨h, hl⟩ : ∃ h, s.handlers.lookup copy = some h := by
    have howners := ho.owners copy
    simp only [Copies.owners] at howners
    exact ho.live copy (by grind) (by grind)
  obtain ⟨h', step, hsteps, hs⟩ := hf h hl
  have ho' : Owned (some copy) { s with handlers := s.handlers.insert copy h' } := by
    obtain ⟨h1, h2, h3, h4, h5, h6, h7⟩ := ho
    refine ⟨h1, h2, h3, ?_, ?_, ?_, h7⟩
    all_goals have := hsteps.same
    all_goals grind [Copies.deletions]
  obtain ⟨t, ht, hown, hfollow⟩ := ho'.proceed (by simp) hsteps.waiting
    (fun hfill => hsteps.same.trans (hsteps.fills hfill)) hs
  exact ⟨t, by simp [Copies.resume, hl, hsteps.eq, ht], hown, hfollow⟩

/-- A dispatched task takes its copy in hand. -/
theorem takeTask (ho : Owned none s) {i : Nat} (hi : i < s.loop.accepted.length) (hs : s.loop.shutDown = false) :
    Owned s.loop.accepted[i].task.copy { s with loop := s.loop.handle i } ∧
      Follows none s s.loop.accepted[i].task.copy { s with loop := s.loop.handle i } := by
  have hperm := closures_handle s.queue hi
  have hcount (c : CopyId) := hperm.countP_eq fun task => task.copy = some c
  have hmem (task : CopyTask) := hperm.mem_iff (a := task)
  obtain ⟨h1, h2, h3, h4, h5, h6, h7⟩ := ho
  simp only [Copies.owners, Copies.pending, hcount, List.countP_cons, hmem] at h2 h6
  refine ⟨⟨h1.handle i, ?_, h3, h4, ?_, ?_, h7⟩, fun c => ⟨?_, ?_⟩⟩
  all_goals try simp only [Copies.owners, Copies.pending, Copies.deletions, Kept, Lost, TaskLoop.handle, hcount,
    List.countP_cons] at *
  all_goals grind

/-- A task that shutdown destroys is not the way its copy goes on. -/
theorem cancelTask (ho : Owned none s) {i : Nat} (hi : i < s.loop.accepted.length) (hs : s.loop.shutDown = true) :
    Owned none { s with loop := s.loop.handle i } ∧ Follows none s none { s with loop := s.loop.handle i } := by
  have hperm := closures_handle s.queue hi
  have hcount (c : CopyId) := hperm.countP_eq fun task => task.copy = some c
  have hmem (task : CopyTask) := hperm.mem_iff (a := task)
  obtain ⟨h1, h2, h3, h4, h5, h6, h7⟩ := ho
  simp only [Copies.owners, Copies.pending, hcount, List.countP_cons, hmem] at h2 h6
  refine ⟨⟨h1.handle i, ?_, h3, h4, h5, ?_, h7⟩, fun c => ⟨?_, ?_⟩⟩
  all_goals try simp only [Copies.owners, Copies.pending, Copies.deletions, Kept, Lost, TaskLoop.handle, hcount,
    List.countP_cons] at *
  all_goals grind

/-- A completed wait takes its copy in hand. -/
theorem takeWait (ho : Owned none s) (hc : copy ∈ s.registered) :
    Owned (some copy) { s with registered := s.registered.erase copy } ∧
      Follows none s (some copy) { s with registered := s.registered.erase copy } := by
  obtain ⟨h1, h2, h3, h4, h5, h6, h7⟩ := ho
  refine ⟨⟨h1, ?_, h3, h4, ?_, h6, ?_⟩, fun c => ⟨?_, ?_⟩⟩
  all_goals try simp only [Copies.owners, Copies.pending, Copies.deletions, Kept, Lost] at *
  all_goals grind

/-- A copy with a task does not wait. -/
theorem waits_not (ho : Owned none s) {task : CopyTask} (hmem : task ∈ closures s.queue s.loop)
    (hc : task.copy = some copy) {h : CopyHandler} (hl : s.handlers.lookup copy = some h) :
    h.waiting = false := by
  have hpending : 0 < s.pending copy := List.countP_pos_iff.mpr ⟨task, hmem, by simpa using hc⟩
  have howners := ho.owners copy
  have hwaiting := ho.waiting copy h hl
  simp only [Copies.owners] at howners
  grind

theorem runTask (ho : Owned none s) {i : Nat} (hi : i < s.loop.accepted.length) (hs : s.loop.shutDown = false)
    (io : IoResults) : ∃ t, s.runTask i io = .ok t ∧ Owned none t ∧ Follows none s none t := by
  obtain ⟨hown, hfollow⟩ := ho.takeTask hi hs
  have hmem : s.loop.accepted[i].task ∈ closures s.queue s.loop :=
    (closures_handle s.queue hi).mem_iff.mpr List.mem_cons_self
  have hidle {c : CopyId} (hc : s.loop.accepted[i].task.copy = some c) {h : CopyHandler}
      (hl : s.handlers.lookup c = some h) := ho.waits_not hmem hc hl
  cases htask : s.loop.accepted[i].task with
  | other =>
    rw [htask] at hown hfollow
    exact ⟨_, by simp [Copies.runTask, hi, htask], hown, hfollow⟩
  | onHandleReady c =>
    rw [htask] at hown hfollow hidle
    obtain ⟨t, ht, hown', hfollow'⟩ := hown.resume (f := CopyHandler.onHandleReady .ok io) fun h hl => by
      obtain ⟨h', step, hsteps, -⟩ := CopyHandler.onHandleReady_steps (hidle rfl hl) .ok io
      exact ⟨h', step, hsteps, .inl hs⟩
    exact ⟨t, by simpa [Copies.runTask, hi, htask] using ht, hown', hfollow.trans hfollow'⟩
  | fillBuffer c =>
    rw [htask] at hown hfollow hidle hmem
    obtain ⟨t, ht, hown', hfollow'⟩ := hown.resume (f := CopyHandler.fillBuffer c io) fun h hl => by
      obtain ⟨h', step, hsteps⟩ := CopyHandler.fillBuffer_steps (hidle rfl hl) (ho.fills c h hmem hl) c io
      exact ⟨h', step, hsteps, .inl hs⟩
    exact ⟨t, by simpa [Copies.runTask, hi, htask] using ht, hown', hfollow.trans hfollow'⟩

theorem completeWait (ho : Owned none s) (hc : copy ∈ s.registered) {result : MxStatus}
    (hs : s.loop.shutDown = true → result = .errCanceled) (io : IoResults) :
    ∃ t, s.completeWait copy result io = .ok t ∧ Owned none t ∧ Follows none s none t := by
  obtain ⟨hown, hfollow⟩ := ho.takeWait hc
  obtain ⟨t, ht, hown', hfollow'⟩ := hown.resume (f := CopyHandler.waitComplete result io) fun h hl => by
    obtain ⟨h', step, hsteps, hcancel⟩ := h.waitComplete_steps result io
    refine ⟨h', step, hsteps, ?_⟩
    by_cases hshut : s.loop.shutDown = true
    · exact .inr ⟨false, hcancel (hs hshut)⟩
    · exact .inl (by simpa using hshut)
  exact ⟨t, ht, hown', hfollow.trans hfollow'⟩

/-- A new copy whose first task was refused is lost; any other goes on. -/
theorem start (ho : Owned none s) (kind : CopyKind) :
    ∃ t, s.start kind = .ok t ∧ Owned none t ∧
      (∀ copy, Kept copy none s → (copy = s.nextCopy → s.loop.shutDown = false) → Kept copy none t) ∧
      (∀ copy, Lost copy none s → Lost copy none t) ∧
      (s.loop.shutDown = true → Lost s.nextCopy none t) := by
  have hnew : .fillBuffer s.nextCopy ∉ closures s.queue s.loop := fun hmem => by
    have hpending : 0 < s.pending s.nextCopy :=
      List.countP_pos_iff.mpr ⟨.fillBuffer s.nextCopy, hmem, by simp [CopyTask.copy]⟩
    have howners := ho.owners s.nextCopy
    simp only [Copies.owners, Nat.lt_irrefl, if_false] at howners
    omega
  obtain ⟨h1, h2, h3, h4, h5, h6, h7⟩ := ho
  have hstart (task : CopyTask) (htask : task.copy = some s.nextCopy) (h : CopyHandler) (hw : h.waiting = false)
      (hfill : task = .fillBuffer s.nextCopy → h.kind = .fromFile) :
      ∃ t, Copies.post { s with nextCopy := s.nextCopy + 1, handlers := s.handlers.insert s.nextCopy h }
          task TimePoint.epoch = .ok t ∧ Owned none t ∧
        (∀ copy, Kept copy none s → (copy = s.nextCopy → s.loop.shutDown = false) → Kept copy none t) ∧
        (∀ copy, Lost copy none s → Lost copy none t) ∧
        (s.loop.shutDown = true → Lost s.nextCopy none t) := by
    obtain ⟨q, l, d, heq, hphase, htasks, hshut, hdrop⟩ := h1.addTask task TimePoint.epoch
    refine ⟨{ s with queue := q, loop := l, nextCopy := s.nextCopy + 1, handlers := s.handlers.insert s.nextCopy h },
      by simp [Copies.post, heq], ⟨hphase, ?_, h3, ?_, ?_, ?_, ?_⟩, ?_, ?_, ?_⟩
    all_goals try simp only [Copies.owners, Copies.pending, Copies.deletions, htasks, Kept, Lost] at *
    all_goals grind [CopyTask.copy]
  cases kind with
  | toFile => exact hstart _ rfl (.toFile {}) rfl nofun
  | fromFile => exact hstart _ rfl (.fromFile {}) rfl fun _ => rfl

theorem postOther (ho : Owned none s) (targetTime : TimePoint) :
    ∃ t, s.post .other targetTime = .ok t ∧ Owned none t ∧ Follows none s none t := by
  obtain ⟨h1, h2, h3, h4, h5, h6, h7⟩ := ho
  obtain ⟨q, l, d, heq, hphase, htasks, hshut, hdrop⟩ := h1.addTask .other targetTime
  refine ⟨{ s with queue := q, loop := l }, by simp [Copies.post, heq], ⟨hphase, ?_, h3, h4, h5, ?_, ?_⟩,
    fun c => ⟨?_, ?_⟩⟩
  all_goals try simp only [Copies.owners, Copies.pending, Copies.deletions, htasks, Kept, Lost] at *
  all_goals grind [CopyTask.copy]

theorem initDelegate (ho : Owned none s) (hdel : s.queue.delegate = false)
    (hdrop : s.queue.dropIncomingTasks = false) :
    ∃ t, s.initDelegate = .ok t ∧ Owned none t ∧ Follows none s none t := by
  obtain ⟨h1, h2, h3, h4, h5, h6, h7⟩ := ho
  obtain ⟨q, l, d, heq, hphase, htasks, hshut, hdrop'⟩ := h1.initDelegate hdel hdrop
  refine ⟨{ s with queue := q, loop := l }, by simp [Copies.initDelegate, heq], ⟨hphase, ?_, h3, h4, h5, ?_, ?_⟩,
    fun c => ⟨?_, ?_⟩⟩
  all_goals try simp only [Copies.owners, Copies.pending, Copies.deletions, htasks, Kept, Lost] at *
  all_goals grind

theorem clearDelegate (ho : Owned none s) (hdel : s.queue.delegate = true) (hs : s.loop.shutDown = true)
    (ha : s.loop.accepted = []) (hr : s.registered = ∅) :
    ∃ t, s.clearDelegate = .ok t ∧ Owned none t ∧ Follows none s none t := by
  obtain ⟨h1, h2, h3, h4, h5, h6, h7⟩ := ho
  obtain ⟨q, heq, hphase, htasks, hdrop⟩ := h1.clearDelegate hdel hs ha
  refine ⟨{ s with queue := q }, by simp [Copies.clearDelegate, heq], ⟨hphase, ?_, h3, h4, h5, ?_, fun _ => hr⟩,
    fun c => ⟨?_, ?_⟩⟩
  all_goals try simp only [Copies.owners, Copies.pending, Copies.deletions, htasks, Kept, Lost] at *
  all_goals grind

theorem beginShutdown (ho : Owned none s) (hdel : s.queue.delegate = true) :
    Owned none { s with loop := s.loop.beginShutdown } ∧
      (∀ copy, Kept copy none s → s.pending copy = 0 → Kept copy none { s with loop := s.loop.beginShutdown }) ∧
      (∀ copy, Lost copy none s ∨ s.pending copy ≠ 0 → Lost copy none { s with loop := s.loop.beginShutdown }) := by
  obtain ⟨h1, h2, h3, h4, h5, h6, h7⟩ := ho
  have hsame : closures s.queue s.loop.beginShutdown = closures s.queue s.loop := rfl
  refine ⟨⟨h1.beginShutdown hdel, h2, h3, h4, h5, h6, h7⟩, fun c hk hp => ⟨hk.1, fun _ => hp⟩, fun c => ?_⟩
  have howners := h2 c
  simp only [Copies.owners, Copies.pending, Copies.deletions, Lost, hsame, TaskLoop.beginShutdown] at *
  grind

/-- Every step keeps the invariant without a fault. It keeps the copy unless it breaks the condition,
and then, as from there on, the copy is lost. -/
theorem step (ho : Owned none s) (a : CopyAct) (he : copyMachine.Enabled s a) :
    ∃ t, copyMachine.step s a = .ok t ∧ Owned none t ∧ ∀ copy,
      (Kept copy none s → KeepsCopy copy s a → Kept copy none t) ∧
      (Lost copy none s ∨ ¬ KeepsCopy copy s a → Lost copy none t) := by
  have hfollows {t : Copies} (h : Follows none s none t) (copy : CopyId) :
      (Kept copy none s → True → Kept copy none t) ∧ (Lost copy none s ∨ ¬ True → Lost copy none t) :=
    ⟨fun hk _ => (h copy).1 hk, fun hl => (h copy).2 (hl.resolve_right (by simp))⟩
  cases a with
  | start kind =>
    obtain ⟨t, ht, hown, hkept, hlost, hnew⟩ := ho.start kind
    refine ⟨t, ht, hown, fun copy => ⟨hkept copy, ?_⟩⟩
    rintro (hl | hn)
    · exact hlost copy hl
    · obtain ⟨rfl, hs⟩ := Classical.not_imp.mp hn
      exact hnew (by simpa using hs)
  | postOther targetTime =>
    obtain ⟨t, ht, hown, hfollow⟩ := ho.postOther targetTime
    exact ⟨t, ht, hown, hfollows hfollow⟩
  | initDelegate =>
    obtain ⟨t, ht, hown, hfollow⟩ := ho.initDelegate he.1 he.2
    exact ⟨t, ht, hown, hfollows hfollow⟩
  | runTask i io =>
    obtain ⟨t, ht, hown, hfollow⟩ := ho.runTask he.1 he.2 io
    exact ⟨t, ht, hown, hfollows hfollow⟩
  | completeWait copy result io =>
    obtain ⟨t, ht, hown, hfollow⟩ := ho.completeWait he.1 he.2 io
    exact ⟨t, ht, hown, hfollows hfollow⟩
  | beginShutdown =>
    obtain ⟨hown, hkept, hlost⟩ := ho.beginShutdown he.1
    exact ⟨_, rfl, hown, fun copy => ⟨hkept copy, hlost copy⟩⟩
  | cancelTask i =>
    obtain ⟨hown, hfollow⟩ := ho.cancelTask he.1 he.2
    exact ⟨_, rfl, hown, hfollows hfollow⟩
  | clearDelegate =>
    obtain ⟨t, ht, hown, hfollow⟩ := ho.clearDelegate he.1 he.2.1 he.2.2.1 he.2.2.2
    exact ⟨t, ht, hown, hfollows hfollow⟩

end Owned

/-- The copies that keep to the condition, as long as they do. -/
theorem Kept.of_run {copy : CopyId} {acts : List CopyAct} {result : Except Fault Copies}
    (hrun : (copyMachine.restrict (KeepsCopy copy)).Run {} acts result) :
    ∃ t, result = .ok t ∧ Owned none t ∧ Kept copy none t := by
  refine hrun.safe (I := fun s => Owned none s ∧ Kept copy none s) (fun s a hs he => ?_) ⟨.init, ?_⟩
  · obtain ⟨t, ht, hown, hfate⟩ := hs.1.step a he.1
    exact ⟨t, ht, hown, (hfate copy).1 hs.2 he.2⟩
  · exact ⟨fun h => absurd h (Nat.not_lt_zero copy), nofun⟩

/-- When the loop is gone, a copy has deleted its handler once and called back once exactly if it was
started before shutdown began and none of its tasks was queued at that point. Never is there a
second deletion or callback. -/
theorem copy_ends_once_iff_kept {acts : List CopyAct} {result : Except Fault Copies}
    (hrun : copyMachine.Run {} acts result) :
    ∃ t, result = .ok t ∧ ∀ copy, t.deletions copy ≤ 1 ∧ t.reports copy = t.deletions copy ∧
      (copy < t.nextCopy → t.queue.dropIncomingTasks = true →
        ((t.deletions copy = 1 ∧ t.reports copy = 1) ↔
          (copyMachine.restrict (KeepsCopy copy)).Run {} acts (.ok t))) := by
  obtain ⟨t, rfl, hown⟩ := hrun.safe (I := Owned none) (fun s a h he => by
    obtain ⟨t, ht, hown, -⟩ := h.step a he
    exact ⟨t, ht, hown⟩) .init
  refine ⟨t, rfl, fun copy => ?_⟩
  have howners := hown.owners copy
  simp only [Copies.owners] at howners
  refine ⟨by grind, hown.reported copy, fun hstarted hdrop => ⟨?_, ?_⟩⟩
  · rintro ⟨hdel, -⟩
    refine (hrun.restrict_or (I := Owned none) (D := Lost copy none) ?_ .init).resolve_right ?_
    · intro s a u hs he hu
      obtain ⟨u', hu', hown', hfate⟩ := hs.step a he
      rw [hu] at hu'
      cases hu'
      exact ⟨hown', (hfate copy).2⟩
    · rintro ⟨-, halive, -⟩
      omega
  · intro hkept
    obtain ⟨u, hu, -, hkept⟩ := Kept.of_run hkept
    cases hu
    obtain ⟨-, -, -, hs⟩ := hown.phase.dropped hdrop
    have hone := hkept.1 hstarted
    simp only [Copies.owners, hkept.2 hs, hown.drained hdrop] at hone
    have hdel : t.deletions copy = 1 := by simpa using hone
    exact ⟨hdel, (hown.reported copy).trans hdel⟩

private def noData : IoResults := ⟨⟨.errShouldWait, []⟩, 0, none, ⟨.errShouldWait, 0⟩⟩

/-- A copy waits for data when its loop is destroyed: the wait is canceled and the copy reports. -/
theorem copy_ends_once_iff_kept_waiting :
    ∃ t, copyMachine.Run {} [.initDelegate, .start .toFile, .runTask 0 noData, .beginShutdown,
        .completeWait 0 .errCanceled noData, .clearDelegate] (.ok t) ∧
      t.deletions 0 = 1 ∧ t.reports 0 = 1 := by
  have hrun : (copyMachine.restrict (KeepsCopy 0)).Run {} [.initDelegate, .start .toFile, .runTask 0 noData,
      .beginShutdown, .completeWait 0 .errCanceled noData, .clearDelegate] (.ok _) :=
    .step ⟨⟨rfl, rfl⟩, trivial⟩ rfl (.step ⟨trivial, fun _ => rfl⟩ rfl (.step ⟨⟨by decide, rfl⟩, trivial⟩ rfl
      (.step ⟨⟨rfl, rfl⟩, rfl⟩ rfl (.step ⟨⟨by decide, fun _ => rfl⟩, trivial⟩ rfl
        (.step ⟨⟨rfl, rfl, rfl, by decide⟩, trivial⟩ rfl (.nil _))))))
  have hrun' : copyMachine.Run {} [.initDelegate, .start .toFile, .runTask 0 noData, .beginShutdown,
      .completeWait 0 .errCanceled noData, .clearDelegate] (.ok _) :=
    .step ⟨rfl, rfl⟩ rfl (.step trivial rfl (.step ⟨by decide, rfl⟩ rfl (.step ⟨rfl, rfl⟩ rfl
      (.step ⟨by decide, fun _ => rfl⟩ rfl (.step ⟨rfl, rfl, rfl, by decide⟩ rfl (.nil _))))))
  obtain ⟨t, ht, hends⟩ := copy_ends_once_iff_kept hrun'
  cases ht
  exact ⟨_, hrun', ((hends 0).2.2 Nat.one_pos rfl).mpr hrun⟩

/-- The loop is destroyed before the first task of a copy has run: the copy never reports. -/
theorem queued_copy_never_reports :
    ¬ ∀ acts result, copyMachine.Run {} acts result → ∃ t, result = .ok t ∧ ∀ copy, copy < t.nextCopy →
      t.queue.dropIncomingTasks = true → t.deletions copy = 1 ∧ t.reports copy = 1 := by
  intro hreported
  have hrun : copyMachine.Run {} [.initDelegate, .start .toFile, .beginShutdown, .cancelTask 0, .clearDelegate]
      (.ok _) :=
    .step ⟨rfl, rfl⟩ rfl (.step trivial rfl (.step ⟨rfl, rfl⟩ rfl (.step ⟨by decide, rfl⟩ rfl
      (.step ⟨rfl, rfl, rfl, rfl⟩ rfl (.nil _)))))
  obtain ⟨t, ht, hends⟩ := hreported _ _ hrun
  cases ht
  exact absurd (hends 0 Nat.one_pos rfl).1 (by decide)

end Mtl.Socket
