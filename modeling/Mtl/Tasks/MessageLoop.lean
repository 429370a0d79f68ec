import Mathlib.Data.Finmap
import Mtl.Foundation.Machine
import Mtl.Magenta

/-! The handlers of a `MessageLoop`: `AddHandler`, `RemoveHandler`, `HasHandler` and the
dispatch of a record by the async loop, callbacks included. -/
namespace Mtl.Tasks

abbrev HandlerKey := UInt64
/-- A `HandlerRecord*`, identified with the number of its allocation. -/
abbrev RecordPtr := Nat
/-- A `MessageLoopHandler*`. -/
abbrev HandlerPtr := Nat

/-- `MessageLoop::HandlerRecord`. Its `loop_` is the one loop of the state below. -/
structure HandlerRecord where
  object : MxHandle
  trigger : MxSignals
  deadline : MxTime
  handler : HandlerPtr
  key : HandlerKey
  deriving DecidableEq

/-- What the message loop relies on in `async::Loop`: the waits begun and not
yet cancelled or dispatched, and the handles that were closed under a wait. -/
structure AsyncLoop where
  shutDown : Bool := false
  registered : Finset RecordPtr := ∅
  closed : Finset MxHandle := ∅

namespace AsyncLoop

/-- `Begin` refuses new waits once shutdown has begun. -/
def begin (l : AsyncLoop) (record : RecordPtr) : AsyncLoop × MxStatus :=
  if l.shutDown then (l, .errBadState)
  else ({ l with registered := insert record l.registered }, .ok)

def cancel (l : AsyncLoop) (record : RecordPtr) (object : MxHandle) : AsyncLoop × MxStatus :=
  if record ∈ l.registered then
    ({ l with registered := l.registered.erase record },
      if object ∈ l.closed then .errBadHandle else .ok)
  else (l, .other 0)

end AsyncLoop

/-- What a caller of the loop can observe, and the end of each record. -/
inductive Event where
  | added (key : HandlerKey) (registered : Bool)
  | removed (key : HandlerKey)
  | queried (key : HandlerKey) (answer : Bool)
  | started (record : RecordPtr) (key : HandlerKey) (status : MxStatus)
  | finished (key : HandlerKey) (status : MxStatus)
  | deleted (record : RecordPtr)
  deriving DecidableEq

/-- The members of `MessageLoop` that concern handlers, the heap of live records, whether
`g_current` is this loop, and a history of events with the newest first. -/
structure MessageLoop where
  loop : AsyncLoop := {}
  nextHandlerKey : HandlerKey := 1
  handlers : Finmap (fun _ : HandlerKey => RecordPtr) := ∅
  currentHandler : Option RecordPtr := none
  currentHandlerRemoved : Bool := false
  current : Bool := true
  records : Finmap (fun _ : RecordPtr => HandlerRecord) := ∅
  nextRecord : RecordPtr := 0
  log : List Event := []

/-- The arguments of `AddHandler`, and the clock when it is called. -/
structure AddRequest where
  handler : HandlerPtr
  handle : MxHandle
  trigger : MxSignals
  timeout : TimeDelta := TimeDelta.max
  now : MxTime := 0
  valid : handle ≠ 0
  deriving DecidableEq

def AddRequest.deadline (req : AddRequest) : MxTime :=
  if req.timeout = TimeDelta.max then mxTimeInfinite
  else mxDeadlineAfter req.now req.timeout.toUInt64

def AddRequest.record (req : AddRequest) (key : HandlerKey) : HandlerRecord :=
  ⟨req.handle, req.trigger, req.deadline, req.handler, key⟩

/-- `std::map::emplace` keeps an entry that is already there. -/
def emplace (m : Finmap (fun _ : HandlerKey => RecordPtr)) (key : HandlerKey) (record : RecordPtr) :
    Finmap (fun _ : HandlerKey => RecordPtr) :=
  match m.lookup key with
  | none => m.insert key record
  | some _ => m

theorem lookup_emplace_ne (m : Finmap (fun _ : HandlerKey => RecordPtr)) {k k' : HandlerKey} (h : k' ≠ k)
    (r : RecordPtr) : (emplace m k r).lookup k' = m.lookup k' := by
  unfold emplace
  split
  · exact Finmap.lookup_insert_of_ne m h
  · rfl

theorem lookup_emplace_self (m : Finmap (fun _ : HandlerKey => RecordPtr)) (k : HandlerKey) (r : RecordPtr) :
    (emplace m k r).lookup k = some ((m.lookup k).getD r) := by
  unfold emplace
  cases hk : m.lookup k with
  | none => exact Finmap.lookup_insert m
  | some r' => exact hk

/-- An entry was there before, or is the new one. -/
theorem lookup_emplace_some {m : Finmap (fun _ : HandlerKey => RecordPtr)} {k k' : HandlerKey} {r r' : RecordPtr}
    (h : (emplace m k r).lookup k' = some r') : m.lookup k' = some r' ∨ (k' = k ∧ r' = r) := by
  by_cases hk : k' = k
  · rw [hk, lookup_emplace_self, Option.some.injEq] at h
    cases hm : m.lookup k with
    | none => exact .inr ⟨hk, by rw [← h, hm]; rfl⟩
    | some r'' => exact .inl (by rw [hk, ← h, hm]; rfl)
  · rw [lookup_emplace_ne m hk] at h
    exact .inl h

inductive AsyncWaitResult where
  | again | finished
  deriving DecidableEq, Repr

namespace MessageLoop

def note (s : MessageLoop) (e : Event) : MessageLoop := { s with log := e :: s.log }

def deleteRecord (s : MessageLoop) (record : RecordPtr) : Except Fault MessageLoop :=
  match s.records.lookup record with
  | none => .error (.doubleDelete record)
  | some _ => .ok ({ s with records := s.records.erase record }.note (.deleted record))

def addHandler (s : MessageLoop) (req : AddRequest) : Except Fault (MessageLoop × HandlerKey) :=
  if s.current = false then .error (.dcheck "g_current == this") else
    let key := s.nextHandlerKey
    let record := s.nextRecord
    let (loop, status) := s.loop.begin record
    let s := { s with
      nextHandlerKey := key + 1
      nextRecord := record + 1
      records := s.records.insert record (req.record key)
      loop := loop }
    match status with
    | .errBadState => do
      -- Suppress request when shutting down.
      let s ← s.deleteRecord record
      return (s.note (.added key false), key)
    | .ok => .ok ({ s with handlers := emplace s.handlers key record }.note (.added key true), key)
    | _ => .error (.check "Failed to add handler")

def removeHandler (s : MessageLoop) (key : HandlerKey) : Except Fault MessageLoop :=
  if s.current = false then .error (.dcheck "g_current == this") else
    match s.handlers.lookup key with
    | none => .ok (s.note (.removed key))
    | some record =>
      let s := { s with handlers := s.handlers.erase key }
      if s.currentHandler = some record then
        -- defer cleanup
        .ok ({ s with currentHandlerRemoved := true }.note (.removed key))
      else
        match s.records.lookup record with
        | none => .error (.useAfterFree record)
        | some rec =>
          let (loop, status) := s.loop.cancel record rec.object
          match status with
          | .errBadHandle | .ok => do
            let s ← { s with loop := loop }.deleteRecord record
            return s.note (.removed key)
          | _ => .error (.check "Failed to cancel handler")

def hasHandler (s : MessageLoop) (key : HandlerKey) : Except Fault (MessageLoop × Bool) :=
  if s.current = false then .error (.dcheck "g_current == this") else
    let answer := (s.handlers.lookup key).isSome
    .ok (s.note (.queried key answer), answer)

/-- `HandlerRecord::Handle` up to the callback. -/
def handleEnter (s : MessageLoop) (record : RecordPtr) (status : MxStatus) :
    Except Fault (MessageLoop × HandlerRecord) :=
  match s.records.lookup record, s.currentHandler with
  | none, _ => .error (.useAfterFree record)
  | some _, some _ => .error (.dcheck "!loop_->current_handler_")
  | some rec, none =>
    .ok ({ s with currentHandler := some record }.note (.started record rec.key status), rec)

/-- The error branch of `Handle` after `OnHandleError` returned. -/
def eraseFailed (s : MessageLoop) (key : HandlerKey) : Except Fault MessageLoop :=
  if s.currentHandlerRemoved then .ok s else
    match s.handlers.lookup key with
    | none => .error (.dcheck "it != loop_->handlers_.end()")
    | some _ => .ok { s with handlers := s.handlers.erase key, currentHandlerRemoved := true }

/-- `Handle` from the return of the callback. -/
def handleExit (s : MessageLoop) (record : RecordPtr) (status : MxStatus) :
    Except Fault (MessageLoop × AsyncWaitResult) :=
  match s.records.lookup record with
  | none => .error (.useAfterFree record)
  | some rec => do
    let s ← if status = .ok then .ok s else s.eraseFailed rec.key
    if s.currentHandler = some record then
      let s := { s with currentHandler := none }.note (.finished rec.key status)
      if s.currentHandlerRemoved then
        let s ← { s with currentHandlerRemoved := false }.deleteRecord record
        return (s, .finished)
      else return (s, .again)
    else .error (.dcheck "loop_->current_handler_ == this")

/-- The async loop takes a registered record, runs `Handle`, and waits again when told to. -/
def dispatchEnter (s : MessageLoop) (record : RecordPtr) (status : MxStatus) :
    Except Fault (MessageLoop × HandlerRecord) :=
  { s with loop.registered := s.loop.registered.erase record }.handleEnter record status

def dispatchExit (s : MessageLoop) (record : RecordPtr) (status : MxStatus) :
    Except Fault MessageLoop := do
  let (s, result) ← s.handleExit record status
  match result with
  | .again => return { s with loop.registered := insert record s.loop.registered }
  | .finished => return s

/-- `loop_.Shutdown()` first makes the loop refuse new waits. -/
def beginShutdown (s : MessageLoop) : MessageLoop := { s with loop.shutDown := true }

/-- `~MessageLoop` from the return of `loop_.Shutdown()`. -/
def finishDestruction (s : MessageLoop) : Except Fault MessageLoop :=
  if s.handlers = ∅ then .ok { s with current := false }
  else .error (.dcheck "handlers_.empty()")

end MessageLoop

/-- One call of the loop's interface, from inside or outside a callback. -/
inductive Call where
  | addHandler (req : AddRequest)
  | removeHandler (key : HandlerKey)
  | hasHandler (key : HandlerKey)
  deriving DecidableEq

def MessageLoop.call (s : MessageLoop) : Call → Except Fault MessageLoop
  | .addHandler req => Prod.fst <$> s.addHandler req
  | .removeHandler key => s.removeHandler key
  | .hasHandler key => Prod.fst <$> s.hasHandler key

/-- A whole dispatch whose callback makes the given calls. -/
def MessageLoop.dispatch (s : MessageLoop) (record : RecordPtr) (status : MxStatus)
    (body : List Call) : Except Fault MessageLoop := do
  let (s, _) ← s.dispatchEnter record status
  let s ← body.foldlM MessageLoop.call s
  s.dispatchExit record status

/-- What happens on the loop's thread between two dispatches. -/
inductive Act where
  | call (c : Call)
  | dispatch (record : RecordPtr) (status : MxStatus) (body : List Call)
  | beginShutdown

/-- The loop under every user of its interface: only registered records are
dispatched, one at a time. -/
def loopMachine : Foundation.Machine MessageLoop Act Fault where
  Enabled s
    | .dispatch record _ _ => record ∈ s.loop.registered
    | _ => True
  step s
    | .call c => s.call c
    | .dispatch record status body => s.dispatch record status body
    | .beginShutdown => .ok s.beginShutdown

end Mtl.Tasks
