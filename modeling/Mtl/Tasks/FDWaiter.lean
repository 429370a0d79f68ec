import Mtl.Tasks.KeyHolders

/-! `FDWaiter`, a one-shot wait on a file descriptor. Its callbacks may use any waiter, their own among
them, so they are steps of their own between the two halves of a dispatch. -/
namespace Mtl.Tasks
open Foundation

/-- An `mxio_t*`. -/
abbrev Mxio := Nat

/-- A callback, identified with the number of the `Wait` that it was passed to. -/
abbrev WaitNo := Nat

structure FDWaiter where
  io : Option Mxio := none
  key : HandlerKey := 0
  callback : Option WaitNo := none

/-- What a `Wait` finds: the result of `__mxio_fd_to_io`, what `__mxio_wait_begin` stores if there is
one, and the timeout and the clock. -/
structure WaitRequest where
  io : Option Mxio
  handle : MxHandle
  signals : MxSignals
  timeout : TimeDelta := TimeDelta.max
  now : MxTime := 0

/-- The calls of `__mxio_fd_to_io` and `__mxio_release`, what `Wait` returned, and the end of a wait. -/
inductive FDEvent where
  | acquired (waiter : HandlerPtr)
  | released (waiter : HandlerPtr)
  | returned (wait : WaitNo) (value : Bool)
  | called (wait : WaitNo)
  | cancelled (wait : WaitNo)
  deriving DecidableEq

/-- Any number of waiters on one loop, none of them at 0, and the dispatch whose callback is running;
the callback gets its status. -/
structure FDWaiters where
  loop : MessageLoop := {}
  waiters : Finmap (fun _ : HandlerPtr => FDWaiter) := ∅
  nextWaiter : HandlerPtr := 1
  nextWait : WaitNo := 0
  dispatching : Option (RecordPtr × MxStatus) := none
  log : List FDEvent := []

namespace FDWaiters

def note (s : FDWaiters) (e : FDEvent) : FDWaiters := { s with log := e :: s.log }

/-- The destruction of a callback. -/
def dropCallback (s : FDWaiters) : Option WaitNo → FDWaiters
  | none => s
  | some wait => s.note (.cancelled wait)

def cancel (s : FDWaiters) (p : HandlerPtr) : Except Fault FDWaiters :=
  match s.waiters.lookup p with
  | none => .error (.useAfterFree p)
  | some waiter =>
    match waiter.io with
    | none => .error (.dcheck "io_")
    | some _ => do
      let loop ← if waiter.key = 0 then .ok s.loop
        else if s.loop.current = false then .error .nullLoop
        else s.loop.removeHandler waiter.key
      return ({ s with loop := loop, waiters := s.waiters.insert p {} }.note (.released p)).dropCallback waiter.callback

/-- `Wait`, and what it returned. -/
def wait (s : FDWaiters) (p : HandlerPtr) (req : WaitRequest) : Except Fault (FDWaiters × Bool) :=
  match s.waiters.lookup p with
  | none => .error (.useAfterFree p)
  | some waiter =>
    if waiter.io ≠ none then .error (.dcheck "!io_")
    else if waiter.key ≠ 0 then .error (.dcheck "!key_")
    else
      let wait := s.nextWait
      let s := { s with nextWait := wait + 1 }
      match req.io with
      | none => .ok (s.note (.returned wait false), false)
      | some io =>
        let s := { s with waiters := s.waiters.insert p { waiter with io := some io } }.note (.acquired p)
        if valid : req.handle ≠ 0 then
          if s.loop.current = false then .error .nullLoop else do
            let (loop, key) ← s.loop.addHandler ⟨p, req.handle, req.signals, req.timeout, req.now, valid⟩
            return ({ s with
              loop := loop
              waiters := s.waiters.insert p ⟨some io, key, some wait⟩ }.note (.returned wait true), true)
        else do
          let s ← s.cancel p
          return (s.note (.returned wait false), false)

/-- `~FDWaiter`. -/
def destroy (s : FDWaiters) (p : HandlerPtr) : Except Fault FDWaiters :=
  match s.waiters.lookup p with
  | none => .error (.doubleDelete p)
  | some waiter => do
    let s ← if waiter.io ≠ none then s.cancel p else .ok s
    match s.waiters.lookup p with
    | none => .error (.useAfterFree p)
    | some waiter =>
      if waiter.io ≠ none then .error (.dcheck "!io_")
      else if waiter.key ≠ 0 then .error (.dcheck "!key_")
      else .ok { s with waiters := s.waiters.erase p }

/-- `OnHandleError` up to the call of the callback, and the rest of `OnHandleReady`. The callback is
moved out before `Cancel`; to call an empty one is an error. -/
def onHandleError (s : FDWaiters) (p : HandlerPtr) : Except Fault FDWaiters :=
  match s.waiters.lookup p with
  | none => .error (.useAfterFree p)
  | some waiter => do
    let s ← { s with waiters := s.waiters.insert p { waiter with callback := none } }.cancel p
    match waiter.callback with
    | none => .error (.check "bad_function_call")
    | some wait => return s.note (.called wait)

def onHandleReady (s : FDWaiters) (p : HandlerPtr) : Except Fault FDWaiters :=
  match s.waiters.lookup p with
  | none => .error (.useAfterFree p)
  | some waiter =>
    if waiter.io = none then .error (.dcheck "io_")
    else if waiter.key = 0 then .error (.dcheck "key_")
    else s.onHandleError p

/-- The dispatch of a record up to the callback, which may be one of another user of the loop. -/
def dispatch (s : FDWaiters) (record : RecordPtr) (status : MxStatus) : Except Fault FDWaiters := do
  let (loop, rec) ← s.loop.dispatchEnter record status
  let s := { s with loop := loop, dispatching := some (record, status) }
  if rec.handler = 0 then return s
  else if status = .ok then s.onHandleReady rec.handler
  else s.onHandleError rec.handler

/-- The rest of the dispatch. -/
def callbackReturns (s : FDWaiters) : Except Fault FDWaiters :=
  match s.dispatching with
  | none => .ok s
  | some (record, status) => do
    let loop ← s.loop.dispatchExit record status
    return { s with loop := loop, dispatching := none }

def create (s : FDWaiters) : FDWaiters :=
  { s with waiters := s.waiters.insert s.nextWaiter {}, nextWaiter := s.nextWaiter + 1 }

/-- Other users of the loop, each with handlers of its own. -/
def addOther (s : FDWaiters) (req : AddRequest) : Except Fault FDWaiters := do
  let (loop, _) ← s.loop.addHandler { req with handler := 0 }
  return { s with loop := loop }

def removeOther (s : FDWaiters) (key : HandlerKey) : Except Fault FDWaiters := do
  let loop ← s.loop.removeHandler key
  return { s with loop := loop }

def finishDestruction (s : FDWaiters) : Except Fault FDWaiters := do
  let loop ← s.loop.finishDestruction
  return { s with loop := loop }

end FDWaiters

inductive FDAct where
  | create
  | wait (p : HandlerPtr) (req : WaitRequest)
  | cancel (p : HandlerPtr)
  | destroy (p : HandlerPtr)
  | dispatch (record : RecordPtr) (status : MxStatus)
  | callbackReturns
  | addOther (req : AddRequest)
  | removeOther (key : HandlerKey)
  | beginShutdown
  | finishDestruction

/-- How many keys an action may spend. -/
def FDAct.adds : FDAct → Nat
  | .wait _ _ | .addOther _ => 1
  | _ => 0

/-- `Wait` is called on an idle waiter and `Cancel` on a waiting one, in a callback or not. The loop
dispatches, and is destroyed, outside of callbacks; waiters are destroyed at any time. -/
def fdMachine : Machine FDWaiters FDAct Fault where
  Enabled s
    | .create => True
    | .wait p _ => s.loop.current = true ∧ ∃ waiter, s.waiters.lookup p = some waiter ∧ waiter.io = none
    | .cancel p => ∃ waiter, s.waiters.lookup p = some waiter ∧ waiter.io ≠ none
    | .destroy p => s.waiters.lookup p ≠ none
    | .dispatch record status => s.dispatching = none ∧ s.loop.current = true ∧ record ∈ s.loop.loop.registered ∧
        (s.loop.loop.shutDown = true → status = .errCanceled)
    | .callbackReturns => s.dispatching ≠ none
    | .addOther _ => s.loop.current = true
    | .removeOther key => s.loop.current = true ∧ ∀ p waiter, s.waiters.lookup p = some waiter → waiter.key ≠ key
    | .beginShutdown => s.dispatching = none ∧ s.loop.current = true ∧ s.loop.loop.shutDown = false
    | .finishDestruction => s.dispatching = none ∧ s.loop.current = true ∧ s.loop.loop.shutDown = true ∧
        s.loop.loop.registered = ∅
  step s
    | .create => .ok s.create
    | .wait p req => Prod.fst <$> s.wait p req
    | .cancel p => s.cancel p
    | .destroy p => s.destroy p
    | .dispatch record status => s.dispatch record status
    | .callbackReturns => s.callbackReturns
    | .addOther req => s.addOther req
    | .removeOther key => s.removeOther key
    | .beginShutdown => .ok { s with loop := s.loop.beginShutdown }
    | .finishDestruction => s.finishDestruction

end Mtl.Tasks
