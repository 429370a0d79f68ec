import Mathlib.Data.Finset.Defs
import Mtl.Tasks.KeyHolders

/-! `VFSDispatcher` and its `VFSHandler`s: one handler for each connection, which ends in one of five
ways. -/
namespace Mtl.Vfs
open Foundation Tasks

/-- The members that a handler uses. Its `iostate_` is identified with the call of `AddVFSHandler` that
it came with, hence with the handler. -/
structure VFSHandler where
  key : HandlerKey := 0
  channel : MxHandle

/-- What happens to a connection: `served` and `closed` are uses of its iostate by `mxrio_handler`. -/
inductive VFSEvent where
  | added (handler : HandlerPtr)
  | served (handler : HandlerPtr)
  | closed (handler : HandlerPtr)
  | removed (handler : HandlerPtr)
  | deleted (handler : HandlerPtr)
  deriving DecidableEq

/-- The loop of the thread, the live handlers, and the `handlers_` of the dispatcher while that lives.
No handler is at 0. -/
structure VFS where
  loop : MessageLoop := {}
  heap : Finmap (fun _ : HandlerPtr => VFSHandler) := ∅
  nextHandler : HandlerPtr := 1
  handlers : Option (Finset HandlerPtr) := some ∅
  log : List VFSEvent := []

/-- What `mxrio_handler` returns for a readable channel, and the channels of the connections that the
message made it add. -/
structure ServeResult where
  status : Int
  adds : List MxHandle := []

namespace VFS

def note (s : VFS) (e : VFSEvent) : VFS := { s with log := e :: s.log }

/-- `GetCurrent()->RemoveHandler(key_)` by the handler at `c`. -/
def removeHandler (s : VFS) (c : HandlerPtr) (key : HandlerKey) : Except Fault VFS :=
  if s.loop.current = false then .error .nullLoop else do
    let loop ← s.loop.removeHandler key
    return { s with loop := loop }.note (.removed c)

/-- `delete`, with `~VFSHandler`. -/
def deleteHandler (s : VFS) (c : HandlerPtr) : Except Fault VFS :=
  match s.heap.lookup c with
  | none => .error (.doubleDelete c)
  | some handler => do
    let s ← if handler.key ≠ 0 then do
        let s ← s.removeHandler c handler.key
        pure (s.note (.closed c))
      else .ok s
    return { s with heap := s.heap.erase c }.note (.deleted c)

/-- `VFSDispatcher::AddVFSHandler`, with `VFSHandler::Start`. -/
def addVFSHandler (s : VFS) (channel : MxHandle) : Except Fault VFS :=
  match s.handlers with
  | none => .error (.useAfterFree 0)
  | some handlers =>
    if s.loop.current = false then .error .nullLoop
    else if valid : channel ≠ 0 then do
      let c := s.nextHandler
      let (loop, key) ← s.loop.addHandler
        { handler := c, handle := channel, trigger := {.channelReadable, .channelPeerClosed}, valid := valid }
      return { s with
        loop := loop
        heap := s.heap.insert c ⟨key, channel⟩
        nextHandler := c + 1
        handlers := some (insert c handlers) }.note (.added c)
    else .error (.dcheck "handle != MX_HANDLE_INVALID")

/-- `VFSDispatcher::Stop`. -/
def dispatcherStop (s : VFS) (c : HandlerPtr) : Except Fault VFS :=
  match s.handlers with
  | none => .error (.useAfterFree 0)
  | some handlers => { s with handlers := some (handlers.erase c) }.deleteHandler c

/-- `VFSHandler::Stop`. -/
def stop (s : VFS) (c : HandlerPtr) (needsClose : Bool) : Except Fault VFS :=
  match s.heap.lookup c with
  | none => .error (.useAfterFree c)
  | some handler =>
    if handler.key = 0 then .error (.dcheck "key_") else do
      let s ← s.removeHandler c handler.key
      let s := { s with heap := s.heap.insert c { handler with key := 0 } }
      let s := if needsClose then s.note (.closed c) else s
      s.dispatcherStop c

/-- A positive status says that `mxrio_handler` has closed the connection. -/
def onHandleReady (s : VFS) (c : HandlerPtr) (pending : MxSignals) (serve : ServeResult) : Except Fault VFS :=
  match s.heap.lookup c with
  | none => .error (.useAfterFree c)
  | some _ =>
    if .channelReadable ∈ pending then do
      let s ← serve.adds.foldlM addVFSHandler (s.note (.served c))
      if serve.status = 0 then return s
      else if serve.status < 0 then s.stop c true
      else (s.note (.closed c)).stop c false
    else if .channelPeerClosed ∈ pending then s.stop c true
    else .error (.dcheck "pending & MX_CHANNEL_PEER_CLOSED")

def onHandleError (s : VFS) (c : HandlerPtr) : Except Fault VFS := s.stop c true

/-- The dispatch of a record. A handler of someone else may add connections too. -/
def dispatch (s : VFS) (record : RecordPtr) (status : MxStatus) (pending : MxSignals) (serve : ServeResult) :
    Except Fault VFS := do
  let (loop, rec) ← s.loop.dispatchEnter record status
  let s := { s with loop := loop }
  let s ← if rec.handler = 0 then serve.adds.foldlM addVFSHandler s
    else if status = .ok then s.onHandleReady rec.handler pending serve
    else s.onHandleError rec.handler
  let loop ← s.loop.dispatchExit record status
  return { s with loop := loop }

/-- `~VFSDispatcher`, which meets the handlers in the order of their addresses. -/
def destroyDispatcher (s : VFS) (order : List HandlerPtr) : Except Fault VFS := do
  let s ← order.foldlM deleteHandler s
  return { s with handlers := none }

/-- Other users of the loop, each with handlers of its own. -/
def addOther (s : VFS) (req : AddRequest) : Except Fault VFS := do
  let (loop, _) ← s.loop.addHandler { req with handler := 0 }
  return { s with loop := loop }

def removeOther (s : VFS) (key : HandlerKey) : Except Fault VFS := do
  let loop ← s.loop.removeHandler key
  return { s with loop := loop }

def finishDestruction (s : VFS) : Except Fault VFS := do
  let loop ← s.loop.finishDestruction
  return { s with loop := loop }

end VFS

inductive VFSAct where
  | addVFSHandler (channel : MxHandle)
  | dispatch (record : RecordPtr) (status : MxStatus) (pending : MxSignals) (serve : ServeResult)
  | destroyDispatcher (order : List HandlerPtr)
  | addOther (req : AddRequest)
  | removeOther (key : HandlerKey)
  | beginShutdown
  | finishDestruction

/-- How many keys an action may spend. -/
def VFSAct.adds : VFSAct → Nat
  | .addVFSHandler _ | .addOther _ => 1
  | .dispatch _ _ _ serve => serve.adds.length
  | _ => 0

/-- Connections are added while there is a loop that is not shutting down, and a dispatcher. A wait
that is over finds one of its signals. The dispatcher is destroyed between dispatches, before or after
its loop. -/
def vfsMachine : Machine VFS VFSAct Fault where
  Enabled s
    | .addVFSHandler channel => channel ≠ 0 ∧ s.loop.current = true ∧ s.loop.loop.shutDown = false ∧ s.handlers ≠ none
    | .dispatch record status pending serve => s.loop.current = true ∧ record ∈ s.loop.loop.registered ∧
        (s.loop.loop.shutDown = true → status = .errCanceled) ∧
        (status = .ok → .channelReadable ∈ pending ∨ .channelPeerClosed ∈ pending) ∧
        (serve.adds ≠ [] → s.loop.loop.shutDown = false ∧ s.handlers ≠ none) ∧ ∀ channel ∈ serve.adds, channel ≠ 0
    | .addOther _ => s.loop.current = true
    | .removeOther key => s.loop.current = true ∧ ∀ c handler, s.heap.lookup c = some handler → handler.key ≠ key
    | .destroyDispatcher order => ∃ handlers, s.handlers = some handlers ∧ order.Nodup ∧ ∀ c, c ∈ order ↔ c ∈ handlers
    | .beginShutdown => s.loop.current = true ∧ s.loop.loop.shutDown = false
    | .finishDestruction => s.loop.current = true ∧ s.loop.loop.shutDown = true ∧ s.loop.loop.registered = ∅
  step s
    | .addVFSHandler channel => s.addVFSHandler channel
    | .dispatch record status pending serve => s.dispatch record status pending serve
    | .destroyDispatcher order => s.destroyDispatcher order
    | .addOther req => s.addOther req
    | .removeOther key => s.removeOther key
    | .beginShutdown => .ok { s with loop := s.loop.beginShutdown }
    | .finishDestruction => s.finishDestruction

end Mtl.Vfs
