import Mtl.Tasks.HandlerRegistry

/-! The default waiter: each wait is a `HandleWatcher` that deletes itself when it is done or
cancelled. Its heap stays in step with the loop's registry. -/
namespace Mtl.Waiter
open Foundation Tasks
variable {γ : Type}

/-- A `FidlAsyncWaitID`: the address of a `HandleWatcher`, identified with the number of its
allocation. No watcher is at 0. -/
abbrev WaitId := Nat

/-- `context` stands for the pair of `callback_` and `context_`. -/
structure HandleWatcher (γ : Type) where
  key : HandlerKey := 0
  handle : MxHandle
  context : γ

/-- The loop of the thread and the live watchers. -/
structure DefaultWaiter (γ : Type) where
  loop : MessageLoop := {}
  watchers : Finmap (fun _ : WaitId => HandleWatcher γ) := ∅
  nextWatcher : WaitId := 1

/-- `HandleWatcher::Start` on the timeout. -/
def timeoutDelta (timeout : MxTime) : TimeDelta :=
  if timeout = mxTimeInfinite then TimeDelta.max else timeout.toInt64

namespace DefaultWaiter

/-- `~HandleWatcher`. -/
def deleteWatcher (s : DefaultWaiter γ) (id : WaitId) : Except Fault (DefaultWaiter γ) :=
  match s.watchers.lookup id with
  | none => .error (.doubleDelete id)
  | some watcher => do
    let loop ← if watcher.key = 0 then .ok s.loop
      -- `GetCurrent()` is null when there is no loop any more
      else if s.loop.current = false then .error .nullLoop
      else s.loop.removeHandler watcher.key
    return { s with loop := loop, watchers := s.watchers.erase id }

/-- `AsyncWait` at the time `now`. -/
def asyncWait (s : DefaultWaiter γ) (handle : MxHandle) (signals : MxSignals) (timeout now : MxTime) (context : γ) :
    Except Fault (DefaultWaiter γ × WaitId) :=
  if s.loop.current = false then .error (.dcheck "DefaultAsyncWaiter requires a MessageLoop")
  else if valid : handle ≠ 0 then do
    let id := s.nextWatcher
    let (loop, key) ← s.loop.addHandler ⟨id, handle, signals, timeoutDelta timeout, now, valid⟩
    return ({ s with
      loop := loop
      watchers := s.watchers.insert id ⟨key, handle, context⟩
      nextWatcher := id + 1 }, id)
  else .error (.dcheck "handle != MX_HANDLE_INVALID")

def cancelWait (s : DefaultWaiter γ) (id : WaitId) : Except Fault (DefaultWaiter γ) := s.deleteWatcher id

/-- `OnHandleReady` and `OnHandleError` up to the call of the callback. -/
def callCallback (s : DefaultWaiter γ) (id : WaitId) (handle : MxHandle) : Except Fault (DefaultWaiter γ × γ) :=
  match s.watchers.lookup id with
  | none => .error (.useAfterFree id)
  | some watcher =>
    if watcher.handle ≠ handle then .error (.dcheck "handle_ == handle") else do
      let s ← s.deleteWatcher id
      return (s, watcher.context)

/-- The dispatch of a record up to the watcher's callback, and from its return. -/
def dispatchEnter (s : DefaultWaiter γ) (record : RecordPtr) (status : MxStatus) :
    Except Fault (DefaultWaiter γ × γ) := do
  let (loop, rec) ← s.loop.dispatchEnter record status
  { s with loop := loop }.callCallback rec.handler rec.object

def dispatchExit (s : DefaultWaiter γ) (record : RecordPtr) (status : MxStatus) :
    Except Fault (DefaultWaiter γ) := do
  let loop ← s.loop.dispatchExit record status
  return { s with loop := loop }

end DefaultWaiter

/-- Every live watcher is the handler of the record that is registered under its key, and no other
handler is registered. -/
structure Watching (s : DefaultWaiter γ) : Prop where
  registry : Registry s.loop.nextRecord s.loop
  removed : s.loop.currentHandler ≠ none → s.loop.currentHandlerRemoved = true
  fresh : ∀ id, s.nextWatcher ≤ id → s.watchers.lookup id = none
  nonzero : 0 < s.nextWatcher
  unaddressed : s.watchers.lookup 0 = none
  registered : ∀ id watcher, s.watchers.lookup id = some watcher → ∃ r rec,
    s.loop.handlers.lookup watcher.key = some r ∧ s.loop.records.lookup r = some rec ∧
    rec.handler = id ∧ rec.object = watcher.handle
  watched : ∀ key r rec, s.loop.handlers.lookup key = some r → s.loop.records.lookup r = some rec →
    ∃ watcher, s.watchers.lookup rec.handler = some watcher ∧ watcher.key = key

/-- What the waiter's operations leave alone. -/
structure Follows (s t : DefaultWaiter γ) : Prop where
  shutDown : t.loop.loop.shutDown = s.loop.loop.shutDown
  running : t.loop.currentHandler = s.loop.currentHandler
  started : lastStart t.loop.log = lastStart s.loop.log

namespace Watching
variable {s t : DefaultWaiter γ}

theorem init : Watching ({} : DefaultWaiter γ) := by
  constructor
  case registry => exact .init
  all_goals simp

/-- A wait on a loop that still accepts them. -/
theorem asyncWait (h : Watching s) (hs : s.loop.loop.shutDown = false) (hn : s.loop.nextRecord + 1 < 2^64)
    {handle : MxHandle} (hh : handle ≠ 0) (signals : MxSignals) (timeout now : MxTime) (context : γ) :
    ∃ t, s.asyncWait handle signals timeout now context = .ok (t, s.nextWatcher) ∧ Watching t ∧
      t.watchers = s.watchers.insert s.nextWatcher ⟨s.loop.nextHandlerKey, handle, context⟩ ∧
      Follows s t := by
  let req : AddRequest := ⟨s.nextWatcher, handle, signals, timeoutDelta timeout, now, hh⟩
  have hreq := h.registry.addHandler_registered hs hn req
  have hreg := h.registry.registered hn req
  have hkey := h.registry.key_unused hn
  have hrec := h.registry.record_unused
  have hkeyed := h.registry.keyed
  obtain ⟨h1, h2, h3, h4, h5, h6, h7⟩ := h
  refine ⟨⟨s.loop.registered req, s.watchers.insert s.nextWatcher ⟨s.loop.nextHandlerKey, handle, context⟩,
    s.nextWatcher + 1⟩, by simp [DefaultWaiter.asyncWait, h1.attached, hh, hreq, req],
    ⟨hreg, h2, ?_, by simp, ?_, ?_, ?_⟩, rfl, ⟨rfl, rfl, rfl⟩⟩
  all_goals simp only [MessageLoop.registered]
  case refine_3 =>
    intro id watcher hw
    rw [lookup_insert_eq] at hw
    split_ifs at hw with hid
    · cases hw
      exact ⟨_, _, Finmap.lookup_insert _, Finmap.lookup_insert _, hid.symm, rfl⟩
    · obtain ⟨r, rec, hr, hrec', hrest⟩ := h6 id watcher hw
      exact ⟨r, rec, by grind, by grind, hrest⟩
  case refine_4 =>
    intro key r rec hk hr
    rw [lookup_insert_eq] at hk
    split_ifs at hk with hkey
    · cases hk
      rw [Finmap.lookup_insert] at hr
      cases hr
      exact ⟨_, Finmap.lookup_insert _, hkey.symm⟩
    · obtain ⟨watcher, hw, hwk⟩ := h7 key r rec hk (by grind)
      exact ⟨watcher, by grind, hwk⟩
  all_goals grind

/-- A wait that is cancelled from outside its own callback. -/
theorem cancelWait (h : Watching s) {id : WaitId} {watcher : HandleWatcher γ}
    (hw : s.watchers.lookup id = some watcher) :
    ∃ t, s.cancelWait id = .ok t ∧ Watching t ∧ t.watchers = s.watchers.erase id ∧ Follows s t ∧
      t.nextWatcher = s.nextWatcher ∧ t.loop.nextRecord = s.loop.nextRecord := by
  obtain ⟨r, rec, hk, hr, hid, hobj⟩ := h.registered id watcher hw
  have hkey : watcher.key ≠ 0 := by
    intro h0
    have := (h.registry.handler_key hk).1
    simp [h0] at this
  have hrunning : s.loop.currentHandler ≠ some r := by
    intro hc
    exact h.registry.removed_gone r watcher.key (h.removed (by simp [hc])) hc hk
  have hremove := h.registry.removeHandler_cancelled hk hrunning
  have hreg := h.registry.cancelled hk hrunning
  have hkeyed := h.registry.keyed
  obtain ⟨h1, h2, h3, h4, h5, h6, h7⟩ := h
  refine ⟨⟨s.loop.cancelled watcher.key r, s.watchers.erase id, s.nextWatcher⟩,
    by simp [DefaultWaiter.cancelWait, DefaultWaiter.deleteWatcher, hw, hkey, h1.attached, hremove],
    ⟨hreg, h2, ?_, h4, ?_, ?_, ?_⟩, rfl, ⟨rfl, rfl, rfl⟩, rfl, rfl⟩
  all_goals simp only [MessageLoop.cancelled]
  case refine_3 =>
    intro id' watcher' hw'
    obtain ⟨r', rec', hk', hr', hid', hobj'⟩ := h6 id' watcher' (by grind)
    exact ⟨r', rec', by grind, by grind, hid', hobj'⟩
  case refine_4 =>
    intro key r' rec' hk' hr'
    obtain ⟨watcher', hw', hwk'⟩ := h7 key r' rec' (by grind) (by grind)
    exact ⟨watcher', by grind, hwk'⟩
  all_goals grind

/-- A dispatch deletes the watcher that it finds and hands over its context. -/
theorem dispatchEnter (h : Watching s) (hc : s.loop.currentHandler = none) {r : RecordPtr}
    (hr : r ∈ s.loop.loop.registered) (status : MxStatus) :
    ∃ t id watcher key, s.dispatchEnter r status = .ok (t, watcher.context) ∧ Watching t ∧
      s.watchers.lookup id = some watcher ∧ t.watchers = s.watchers.erase id ∧
      t.loop.loop.shutDown = s.loop.loop.shutDown ∧ t.loop.currentHandler = some r ∧
      lastStart t.loop.log = some (r, key, status) ∧ t.nextWatcher = s.nextWatcher ∧
      t.loop.nextRecord = s.loop.nextRecord := by
  obtain ⟨rec, hrec, hk, henter⟩ := h.registry.dispatchEnter_eq hc hr status
  obtain ⟨watcher, hw, hkey⟩ := h.watched rec.key r rec hk hrec
  obtain ⟨r', rec', hk', hrec', hid, hobj⟩ := h.registered _ watcher hw
  obtain rfl : r = r' := by
    rw [hkey, hk] at hk'
    exact Option.some.inj hk'
  obtain rfl : rec = rec' := Option.some.inj (hrec.symm.trans hrec')
  have hne : watcher.key ≠ 0 := by
    intro h0
    have := (h.registry.handler_key hk').1
    simp [h0] at this
  have hreg := h.registry.entered hc hrec status
  have hremove := hreg.removeHandler_deferred hk rfl
  have hdeferred := hreg.deferred hk rfl
  have hkeyed := h.registry.keyed
  obtain ⟨h1, h2, h3, h4, h5, h6, h7⟩ := h
  refine ⟨⟨(s.loop.entered r rec.key status).deferred rec.key, s.watchers.erase rec.handler, s.nextWatcher⟩,
    rec.handler, watcher, rec.key, ?_, ⟨hdeferred, fun _ => rfl, ?_, h4, ?_, ?_, ?_⟩, hw, rfl, rfl, rfl, rfl, rfl, rfl⟩
  · rw [hkey] at hne
    simp [DefaultWaiter.dispatchEnter, henter, DefaultWaiter.callCallback, hw, hobj,
      DefaultWaiter.deleteWatcher, hne, hreg.attached, hkey, hremove]
  all_goals simp only [MessageLoop.deferred, MessageLoop.entered]
  case refine_4 =>
    intro id' watcher' hw'
    obtain ⟨r', rec', hk', hr', hid', hobj'⟩ := h6 id' watcher' (by grind)
    exact ⟨r', rec', by grind, hr', hid', hobj'⟩
  case refine_5 =>
    intro key r' rec' hk' hr'
    obtain ⟨watcher', hw', hwk'⟩ := h7 key r' rec' (by grind) hr'
    exact ⟨watcher', by grind, hwk'⟩
  all_goals grind

/-- The end of a dispatch, which leaves the watchers alone. -/
theorem dispatchExit (h : Watching s) {r : RecordPtr} {key : HandlerKey} {status : MxStatus}
    (hc : s.loop.currentHandler = some r) (hl : lastStart s.loop.log = some (r, key, status)) :
    ∃ t, s.dispatchExit r status = .ok t ∧ Watching t ∧ t.watchers = s.watchers ∧
      t.loop.loop.shutDown = s.loop.loop.shutDown ∧ t.loop.currentHandler = none ∧ t.nextWatcher = s.nextWatcher ∧
      t.loop.nextRecord = s.loop.nextRecord := by
  obtain ⟨rec, status', hrec, hl'⟩ := h.registry.running r hc
  obtain ⟨rfl, rfl⟩ : rec.key = key ∧ status' = status := by simpa using hl'.symm.trans hl
  have hrem := h.removed (by simp [hc])
  have hgone := h.registry.removed_gone r
  have hexit := Registry.dispatchExit_removed hc hrem hrec status'
  have hreg := h.registry.ended hc hrec status'
  obtain ⟨h1, h2, h3, h4, h5, h6, h7⟩ := h
  refine ⟨⟨s.loop.ended r rec.key status', s.watchers, s.nextWatcher⟩, by simp [DefaultWaiter.dispatchExit, hexit],
    ⟨hreg, fun hne => absurd rfl hne, h3, h4, h5, ?_, ?_⟩, rfl, rfl, rfl, rfl, rfl⟩
  all_goals simp only [MessageLoop.ended, hrem, if_true]
  · intro id' watcher' hw'
    obtain ⟨r', rec', hk', hr', hid', hobj'⟩ := h6 id' watcher' hw'
    exact ⟨r', rec', hk', by grind, hid', hobj'⟩
  · intro key r' rec' hk' hr'
    exact h7 key r' rec' hk' (by grind)

theorem beginShutdown (h : Watching s) : Watching { s with loop := s.loop.beginShutdown } := by
  obtain ⟨h1, h2, h3, h4, h5, h6, h7⟩ := h
  exact ⟨h1.shutdown, h2, h3, h4, h5, h6, h7⟩

end Watching

end Mtl.Waiter
