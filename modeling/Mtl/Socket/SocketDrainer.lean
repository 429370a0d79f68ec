import Mtl.Socket.Files
import Mtl.Waiter.Default

/-! `SocketDrainer` on the default waiter. The client's calls may start and destroy drainers, their
own among them, so they are steps of their own between the parts of `ReadData`. -/
namespace Mtl.Socket
open Foundation Tasks Waiter

/-- What `ReadData` does next: call `OnDataAvailable`, after which it waits unless the client
destroyed the drainer; wait; or call `OnDataComplete`. -/
inductive DrainerReaction where
  | dataAvailable (bytes : List UInt8)
  | waitForData
  | dataComplete

/-- A `SocketDrainer*`, identified with the number of its allocation. -/
abbrev DrainerPtr := Nat

/-- `destructionSentinel` says whether `destruction_sentinel_` points to an `is_destroyed`. -/
structure SocketDrainer where
  source : MxHandle := 0
  waitId : WaitId := 0
  destructionSentinel : Bool := false

namespace SocketDrainer

def readData (read : ReadResult) : Except Fault DrainerReaction :=
  match read.status with
  | .ok => .ok (.dataAvailable read.bytes)
  | .errShouldWait => .ok .waitForData
  | .errPeerClosed | .errBadState => .ok .dataComplete
  | _ => .error (.dcheck "Unhandled mx_status_t")

/-- The signals that `WaitForData` waits for. -/
def waitSignals : MxSignals := {.socketReadable, .socketReadDisabled, .socketPeerClosed}

end SocketDrainer

/-- A client call in progress: `OnDataAvailable`, with the `is_destroyed` of its caller, or
`OnDataComplete`. -/
inductive ClientCall where
  | onDataAvailable (drainer : DrainerPtr) (isDestroyed : Bool)
  | onDataComplete
  deriving DecidableEq

/-- `*destruction_sentinel_ = true`. -/
def ClientCall.destroyed (drainer : DrainerPtr) : ClientCall → ClientCall
  | .onDataAvailable d isDestroyed => .onDataAvailable d (isDestroyed || d = drainer)
  | .onDataComplete => .onDataComplete

/-- Any number of drainers on one loop, the client calls in progress with the innermost first, and
the dispatch that the outermost is in. -/
structure Drainers where
  waiter : DefaultWaiter DrainerPtr := {}
  drainers : Finmap (fun _ : DrainerPtr => SocketDrainer) := ∅
  nextDrainer : DrainerPtr := 0
  calls : List ClientCall := []
  dispatching : Option (RecordPtr × MxStatus) := none

namespace Drainers

/-- A part of a member function of the drainer at `d`. -/
def update (s : Drainers) (d : DrainerPtr) (f : SocketDrainer → SocketDrainer) : Except Fault Drainers :=
  match s.drainers.lookup d with
  | none => .error (.useAfterFree d)
  | some drainer => .ok { s with drainers := s.drainers.insert d (f drainer) }

/-- The clock is not read for `MX_TIME_INFINITE`. -/
def waitForData (s : Drainers) (d : DrainerPtr) : Except Fault Drainers :=
  match s.drainers.lookup d with
  | none => .error (.useAfterFree d)
  | some drainer =>
    if drainer.waitId ≠ 0 then .error (.dcheck "!wait_id_") else do
      let (waiter, id) ← s.waiter.asyncWait drainer.source SocketDrainer.waitSignals mxTimeInfinite 0 d
      { s with waiter := waiter }.update d fun drainer => { drainer with waitId := id }

def readData (s : Drainers) (d : DrainerPtr) (read : ReadResult) : Except Fault Drainers := do
  match ← SocketDrainer.readData read with
  | .dataAvailable _ =>
    let s ← s.update d fun drainer => { drainer with destructionSentinel := true }
    return { s with calls := .onDataAvailable d false :: s.calls }
  | .waitForData => s.waitForData d
  | .dataComplete => return { s with calls := .onDataComplete :: s.calls }

def start (s : Drainers) (d : DrainerPtr) (source : MxHandle) (read : ReadResult) : Except Fault Drainers := do
  let s ← s.update d fun drainer => { drainer with source := source }
  s.readData d read

def waitComplete (s : Drainers) (d : DrainerPtr) (read : ReadResult) : Except Fault Drainers := do
  let s ← s.update d fun drainer => { drainer with waitId := 0 }
  s.readData d read

/-- Once no client call is in progress, the dispatch that they were in ends. -/
def unwind (s : Drainers) : Except Fault Drainers :=
  match s.calls, s.dispatching with
  | [], some (record, status) => do
    let waiter ← s.waiter.dispatchExit record status
    return { s with waiter := waiter, dispatching := none }
  | _, _ => .ok s

def dispatch (s : Drainers) (record : RecordPtr) (status : MxStatus) (read : ReadResult) : Except Fault Drainers := do
  let (waiter, d) ← s.waiter.dispatchEnter record status
  let s ← { s with waiter := waiter, dispatching := some (record, status) }.waitComplete d read
  s.unwind

/-- The innermost client call returns. -/
def clientReturns (s : Drainers) : Except Fault Drainers :=
  match s.calls with
  | [] => .ok s
  | .onDataAvailable d isDestroyed :: calls => do
    let s := { s with calls := calls }
    let s ← if isDestroyed then .ok s else do
      let s ← s.update d fun drainer => { drainer with destructionSentinel := false }
      s.waitForData d
    s.unwind
  | .onDataComplete :: calls => { s with calls := calls }.unwind

/-- `~SocketDrainer`. -/
def destroy (s : Drainers) (d : DrainerPtr) : Except Fault Drainers :=
  match s.drainers.lookup d with
  | none => .error (.doubleDelete d)
  | some drainer => do
    let waiter ← if drainer.waitId ≠ 0 then s.waiter.cancelWait drainer.waitId else .ok s.waiter
    return { s with
      waiter := waiter
      drainers := s.drainers.erase d
      calls := if drainer.destructionSentinel then s.calls.map (.destroyed d) else s.calls }

def create (s : Drainers) : Drainers :=
  { s with drainers := s.drainers.insert s.nextDrainer {}, nextDrainer := s.nextDrainer + 1 }

def finishDestruction (s : Drainers) : Except Fault Drainers := do
  let loop ← s.waiter.loop.finishDestruction
  return { s with waiter.loop := loop }

end Drainers

/-- What clients and the loop do next, with the result of the read if there is one. -/
inductive DrainerAct where
  | create
  | start (d : DrainerPtr) (source : MxHandle) (read : ReadResult)
  | destroy (d : DrainerPtr)
  | clientReturns
  | dispatch (record : RecordPtr) (status : MxStatus) (read : ReadResult)
  | beginShutdown
  | finishDestruction

/-- A drainer is started on a socket while there is a loop, once or again after it is done. The loop
dispatches, and is destroyed, outside of the client's calls. -/
def drainersMachine : Machine Drainers DrainerAct Fault where
  Enabled s
    | .create => True
    | .start d source _ => s.waiter.loop.current = true ∧ source ≠ 0 ∧
        ∃ drainer, s.drainers.lookup d = some drainer ∧ drainer.waitId = 0 ∧ drainer.destructionSentinel = false
    | .destroy d => ∃ drainer, s.drainers.lookup d = some drainer
    | .clientReturns => s.calls ≠ []
    | .dispatch record status _ => s.calls = [] ∧ s.waiter.loop.current = true ∧
        record ∈ s.waiter.loop.loop.registered ∧ (s.waiter.loop.loop.shutDown = true → status = .errCanceled)
    | .beginShutdown => s.calls = [] ∧ s.waiter.loop.current = true ∧ s.waiter.loop.loop.shutDown = false
    | .finishDestruction => s.calls = [] ∧ s.waiter.loop.current = true ∧ s.waiter.loop.loop.shutDown = true ∧
        s.waiter.loop.loop.registered = ∅
  step s
    | .create => .ok s.create
    | .start d source read => s.start d source read
    | .destroy d => s.destroy d
    | .clientReturns => s.clientReturns
    | .dispatch record status read => s.dispatch record status read
    | .beginShutdown => .ok { s with waiter.loop := s.waiter.loop.beginShutdown }
    | .finishDestruction => s.finishDestruction

end Mtl.Socket
