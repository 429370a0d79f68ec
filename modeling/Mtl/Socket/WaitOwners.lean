import Mtl.Socket.CopyLifetime
import Mtl.Socket.SocketDrainer
import Mtl.Waiter.HandleWatchers

/-! All that waits for sockets on one loop: `SocketDrainer`s and both kinds of copies, over the default
waiter. User code runs in client calls, in the callbacks of copies and in those of other users of the
loop; what it does are steps of their own. -/
namespace Mtl.Socket
open Foundation Tasks Waiter

/-- The `context` of a wait. -/
inductive Owner where
  | drainer (d : DrainerPtr)
  | copy (c : CopyId)
  deriving DecidableEq

/-- A copy with its socket and its `wait_id_`, of which `handler` says whether it is 0. -/
structure Copy where
  handler : CopyHandler
  socket : MxHandle
  waitId : WaitId := 0

/-- A call of user code in progress; `onDataAvailable` has the `is_destroyed` of its caller. -/
inductive UserCall where
  | onDataAvailable (d : DrainerPtr) (isDestroyed : Bool)
  | onDataComplete
  | callback
  | other
  deriving DecidableEq

/-- `*destruction_sentinel_ = true`. -/
def UserCall.destroyed (d : DrainerPtr) : UserCall → UserCall
  | .onDataAvailable d' isDestroyed => .onDataAvailable d' (isDestroyed || d' = d)
  | call => call

/-- A call of `Start`, identified with its number. -/
abbrev StartNo := Nat

/-- What a drainer reads and tells its client in one `Start`, and its destruction. -/
inductive ClientEvent where
  | started (d : DrainerPtr) (n : StartNo)
  | read (d : DrainerPtr) (n : StartNo) (bytes : List UInt8)
  | onDataAvailable (d : DrainerPtr) (n : StartNo) (bytes : List UInt8)
  | readEnd (d : DrainerPtr) (n : StartNo)
  | onDataComplete (d : DrainerPtr) (n : StartNo)
  | destroyed (d : DrainerPtr)
  deriving DecidableEq

deriving instance DecidableEq for CopyTask

/-- `posted` has the steps of copies that the loop has yet to run, `calls` the user code in progress
with the innermost first, `startOf` the last `Start` of each drainer. -/
structure Owners where
  waiter : DefaultWaiter Owner := {}
  drainers : Finmap (fun _ : DrainerPtr => SocketDrainer) := ∅
  nextDrainer : DrainerPtr := 0
  copies : Finmap (fun _ : CopyId => Copy) := ∅
  nextCopy : CopyId := 0
  posted : List CopyTask := []
  calls : List UserCall := []
  dispatching : Option (RecordPtr × MxStatus) := none
  startOf : DrainerPtr → StartNo := fun _ => 0
  nextStart : StartNo := 1
  waits : List WaitEvent := []
  clients : List ClientEvent := []

namespace Owners

/-- The calls through `waiter_`. The clock is not read for `MX_TIME_INFINITE`. -/
def asyncWait (s : Owners) (owner : Owner) (handle : MxHandle) (signals : MxSignals) :
    Except Fault (Owners × WaitId) := do
  let (waiter, id) ← s.waiter.asyncWait handle signals mxTimeInfinite 0 owner
  return ({ s with waiter := waiter, waits := .begun id :: s.waits }, id)

def cancelWait (s : Owners) (id : WaitId) : Except Fault Owners := do
  let waiter ← s.waiter.cancelWait id
  return { s with waiter := waiter, waits := .cancelled id :: s.waits }

/-! ## Drainers -/

/-- A part of a member function of the drainer at `d`. -/
def updateDrainer (s : Owners) (d : DrainerPtr) (f : SocketDrainer → SocketDrainer) : Except Fault Owners :=
  match s.drainers.lookup d with
  | none => .error (.useAfterFree d)
  | some drainer => .ok { s with drainers := s.drainers.insert d (f drainer) }

def waitForData (s : Owners) (d : DrainerPtr) : Except Fault Owners :=
  match s.drainers.lookup d with
  | none => .error (.useAfterFree d)
  | some drainer =>
    if drainer.waitId ≠ 0 then .error (.dcheck "!wait_id_") else do
      let (s, id) ← s.asyncWait (.drainer d) drainer.source SocketDrainer.waitSignals
      s.updateDrainer d fun drainer => { drainer with waitId := id }

/-- `ReadData` up to the client call. -/
def readData (s : Owners) (d : DrainerPtr) (read : ReadResult) : Except Fault Owners :=
  match s.drainers.lookup d with
  | none => .error (.useAfterFree d)
  | some _ => do
    let n := s.startOf d
    match ← SocketDrainer.readData read with
    | .dataAvailable bytes =>
      let s ← s.updateDrainer d fun drainer => { drainer with destructionSentinel := true }
      return { s with
        calls := .onDataAvailable d false :: s.calls
        clients := .onDataAvailable d n bytes :: .read d n bytes :: s.clients }
    | .waitForData => s.waitForData d
    | .dataComplete =>
      return { s with
        calls := .onDataComplete :: s.calls
        clients := .onDataComplete d n :: .readEnd d n :: s.clients }

def start (s : Owners) (d : DrainerPtr) (source : MxHandle) (read : ReadResult) : Except Fault Owners := do
  let s ← s.updateDrainer d fun drainer => { drainer with source := source }
  { s with
    startOf := Function.update s.startOf d s.nextStart
    nextStart := s.nextStart + 1
    clients := .started d s.nextStart :: s.clients }.readData d read

/-- `SocketDrainer::WaitComplete`. -/
def waitComplete (s : Owners) (d : DrainerPtr) (read : ReadResult) : Except Fault Owners := do
  let s ← s.updateDrainer d fun drainer => { drainer with waitId := 0 }
  s.readData d read

/-- `~SocketDrainer`. -/
def destroy (s : Owners) (d : DrainerPtr) : Except Fault Owners :=
  match s.drainers.lookup d with
  | none => .error (.doubleDelete d)
  | some drainer => do
    let s ← if drainer.waitId ≠ 0 then s.cancelWait drainer.waitId else .ok s
    return { s with
      drainers := s.drainers.erase d
      calls := if drainer.destructionSentinel then s.calls.map (.destroyed d) else s.calls
      clients := .destroyed d :: s.clients }

def createDrainer (s : Owners) : Owners :=
  { s with drainers := s.drainers.insert s.nextDrainer {}, nextDrainer := s.nextDrainer + 1 }

/-! ## Copies -/

/-- The end of a step of the copy `c`. -/
def proceed (s : Owners) (c : CopyId) : CopyStep → Except Fault Owners
  | .postReady => .ok { s with posted := .onHandleReady c :: s.posted }
  | .postFill => .ok { s with posted := .fillBuffer c :: s.posted }
  | .asyncWait signals =>
    match s.copies.lookup c with
    | none => .error (.useAfterFree c)
    | some copy => do
      let (s, id) ← s.asyncWait (.copy c) copy.socket signals
      return { s with copies := s.copies.insert c { copy with waitId := id } }
  | .sendCallback _ => .ok { s with copies := s.copies.erase c, calls := .callback :: s.calls }

def resume (s : Owners) (c : CopyId) (step : CopyHandler → Except Fault (CopyHandler × CopyStep)) :
    Except Fault Owners :=
  match s.copies.lookup c with
  | none => .error (.useAfterFree c)
  | some copy => do
    let (handler, next) ← step copy.handler
    { s with copies := s.copies.insert c { copy with handler := handler } }.proceed c next

/-- `WaitComplete` of both handlers. -/
def copyWaitComplete (s : Owners) (c : CopyId) (result : MxStatus) (io : IoResults) : Except Fault Owners :=
  match s.copies.lookup c with
  | none => .error (.useAfterFree c)
  | some copy =>
    { s with copies := s.copies.insert c { copy with waitId := 0 } }.resume c (CopyHandler.waitComplete result io)

/-- `CopyToFileDescriptor` and `CopyFromFileDescriptor`, with the handlers' constructors. -/
def startCopy (s : Owners) (kind : CopyKind) (socket : MxHandle) : Owners :=
  let c := s.nextCopy
  let s := { s with nextCopy := c + 1 }
  match kind with
  | .toFile => { s with copies := s.copies.insert c ⟨.toFile {}, socket, 0⟩, posted := .onHandleReady c :: s.posted }
  | .fromFile => { s with copies := s.copies.insert c ⟨.fromFile {}, socket, 0⟩, posted := .fillBuffer c :: s.posted }

def runTask (s : Owners) (task : CopyTask) (io : IoResults) : Except Fault Owners :=
  let s := { s with posted := s.posted.erase task }
  match task with
  | .onHandleReady c => s.resume c (CopyHandler.onHandleReady .ok io)
  | .fillBuffer c => s.resume c (CopyHandler.fillBuffer c io)
  | .other => .ok s

/-! ## The loop -/

/-- A dispatch up to the call of `WaitComplete` for the owner it is for, if it is for one. -/
def dispatchEnter (s : Owners) (record : RecordPtr) (status : MxStatus) : Except Fault (Owners × Option Owner) := do
  let (loop, rec) ← s.waiter.loop.dispatchEnter record status
  let s := { s with waiter.loop := loop, dispatching := some (record, status) }
  if rec.handler = 0 then return ({ s with calls := .other :: s.calls }, none) else do
    let (waiter, owner) ← s.waiter.callCallback rec.handler rec.object
    return ({ s with waiter := waiter, waits := .called rec.handler :: s.waits }, some owner)

/-- Once no user code is in progress, the dispatch that it was in ends. -/
def unwind (s : Owners) : Except Fault Owners :=
  match s.calls, s.dispatching with
  | [], some (record, status) => do
    let waiter ← s.waiter.dispatchExit record status
    return { s with waiter := waiter, dispatching := none }
  | _, _ => .ok s

def dispatch (s : Owners) (record : RecordPtr) (status : MxStatus) (read : ReadResult) (io : IoResults) :
    Except Fault Owners := do
  let (s, owner) ← s.dispatchEnter record status
  match owner with
  | none => return s
  | some (.drainer d) => do
    let s ← s.waitComplete d read
    s.unwind
  | some (.copy c) => do
    let s ← s.copyWaitComplete c status io
    s.unwind

/-- The innermost user code returns. -/
def callReturns (s : Owners) : Except Fault Owners :=
  match s.calls with
  | [] => .ok s
  | .onDataAvailable d isDestroyed :: calls => do
    let s := { s with calls := calls }
    let s ← if isDestroyed then .ok s else do
      let s ← s.updateDrainer d fun drainer => { drainer with destructionSentinel := false }
      s.waitForData d
    s.unwind
  | _ :: calls => { s with calls := calls }.unwind

/-- Other users of the loop, each with handlers of its own. -/
def addOther (s : Owners) (req : AddRequest) : Except Fault Owners := do
  let (loop, _) ← s.waiter.loop.addHandler { req with handler := 0 }
  return { s with waiter.loop := loop }

def removeOther (s : Owners) (key : HandlerKey) : Except Fault Owners := do
  let loop ← s.waiter.loop.removeHandler key
  return { s with waiter.loop := loop }

end Owners

/-- What the kernel answers on the invalid handle. -/
def IoResults.Refused (io : IoResults) : Prop :=
  io.socketRead.status = .errBadHandle ∧ io.socketWrite.status = .errBadHandle

/-- What user code and the loop do next, with the results of the system calls. -/
inductive OwnerAct where
  | createDrainer
  | start (d : DrainerPtr) (source : MxHandle) (read : ReadResult)
  | destroy (d : DrainerPtr)
  | startCopy (kind : CopyKind) (socket : MxHandle)
  | runTask (task : CopyTask) (io : IoResults)
  | dispatch (record : RecordPtr) (status : MxStatus) (read : ReadResult) (io : IoResults)
  | callReturns
  | addOther (req : AddRequest)
  | removeOther (key : HandlerKey)
  | beginShutdown

/-- How many keys an action may spend. -/
def OwnerAct.adds : OwnerAct → Nat
  | .start .. | .runTask .. | .dispatch .. | .callReturns | .addOther _ => 1
  | _ => 0

/-- The loop exists all the time, and shuts down at the end. A drainer is started once, or again after
it is done. Tasks and handlers run outside of user code in any order, and tasks only until shutdown. -/
def ownersMachine : Machine Owners OwnerAct Fault where
  Enabled s
    | .createDrainer | .startCopy .. | .addOther _ => True
    | .start d source read => (source = 0 → read.status = .errBadHandle) ∧
        ∃ drainer, s.drainers.lookup d = some drainer ∧ drainer.waitId = 0 ∧ drainer.destructionSentinel = false
    | .destroy d => ∃ drainer, s.drainers.lookup d = some drainer
    | .runTask task io => s.calls = [] ∧ s.waiter.loop.loop.shutDown = false ∧ task ∈ s.posted ∧
        ∀ c copy, task.copy = some c → s.copies.lookup c = some copy → copy.socket = 0 → io.Refused
    | .dispatch record status _ _ => s.calls = [] ∧ record ∈ s.waiter.loop.loop.registered ∧
        (s.waiter.loop.loop.shutDown = true → status = .errCanceled)
    | .callReturns => s.calls ≠ []
    | .removeOther key => ∀ id watcher, s.waiter.watchers.lookup id = some watcher → watcher.key ≠ key
    | .beginShutdown => s.calls = [] ∧ s.waiter.loop.loop.shutDown = false
  step s
    | .createDrainer => .ok s.createDrainer
    | .start d source read => s.start d source read
    | .destroy d => s.destroy d
    | .startCopy kind socket => .ok (s.startCopy kind socket)
    | .runTask task io => s.runTask task io
    | .dispatch record status read io => s.dispatch record status read io
    | .callReturns => s.callReturns
    | .addOther req => s.addOther req
    | .removeOther key => s.removeOther key
    | .beginShutdown => .ok { s with waiter.loop := s.waiter.loop.beginShutdown }

end Mtl.Socket
