import Mtl.Foundation.Slots
import Mtl.Tasks.FDWaiter

/-! Who owns the callables of users while they are called. A body may use the library again, so what it does are
steps of their own, between the one that calls it and the one that returns from it. -/
namespace Mtl.Tasks
open Foundation

/-- `callback` is the local variable of `FDWaiter::OnHandleReady` and `OnHandleError`, one for each such call that has
not returned. `depth` is how many calls there were before it. -/
inductive CallableSlot where
  | afterTaskCallback
  | deviceWatcher (p : HandlerPtr)
  | fdWaiter (p : HandlerPtr)
  | callback (depth : Nat)
  deriving DecidableEq

/-- The callables of a loop, its device watchers and its waiters. `waiters` has the `io_` of each, with which its `key_`
is set and reset. `calls` are those that have not returned, the innermost first. -/
structure CallableOwners where
  slots : Slots CallableSlot := {}
  watchers : Finset HandlerPtr := ∅
  waiters : Finmap (fun _ : HandlerPtr => Option Mxio) := ∅
  calls : List (CallableSlot × Nat) := []

namespace CallableOwners

/-- The call of what is in the slot. To call an empty one is an error. -/
def call (s : CallableOwners) (slot : CallableSlot) : Except Fault CallableOwners :=
  match s.slots.held slot with
  | none => .error (.check "bad_function_call")
  | some c => .ok { s with calls := (slot, c) :: s.calls }

def setAfterTaskCallback (s : CallableOwners) : CallableOwners := { s with slots := s.slots.put .afterTaskCallback }

def clearAfterTaskCallback (s : CallableOwners) : CallableOwners := { s with slots := s.slots.clear .afterTaskCallback }

def epilogue (s : CallableOwners) : Except Fault CallableOwners :=
  if s.slots.held .afterTaskCallback ≠ none then s.call .afterTaskCallback else .ok s

/-- The constructor of `DeviceWatcher`. -/
def createWatcher (s : CallableOwners) (p : HandlerPtr) : CallableOwners :=
  { s with slots := s.slots.put (.deviceWatcher p), watchers := insert p s.watchers }

def destroyWatcher (s : CallableOwners) (p : HandlerPtr) : Except Fault CallableOwners :=
  if p ∈ s.watchers then .ok { s with slots := s.slots.clear (.deviceWatcher p), watchers := s.watchers.erase p }
  else .error (.doubleDelete p)

/-- `DeviceWatcher::OnHandleReady` up to the call for an event. It makes the next one if the watcher still exists. -/
def watcherOnHandleReady (s : CallableOwners) (p : HandlerPtr) : Except Fault CallableOwners :=
  if p ∈ s.watchers then s.call (.deviceWatcher p) else .error (.useAfterFree p)

def createWaiter (s : CallableOwners) (p : HandlerPtr) : CallableOwners :=
  { s with waiters := s.waiters.insert p none }

def cancel (s : CallableOwners) (p : HandlerPtr) : Except Fault CallableOwners :=
  match s.waiters.lookup p with
  | none => .error (.useAfterFree p)
  | some none => .error (.dcheck "io_")
  | some (some _) => .ok { s with slots := s.slots.clear (.fdWaiter p), waiters := s.waiters.insert p none }

/-- `Wait`, with the results of `__mxio_fd_to_io` and `__mxio_wait_begin`. When it fails, its parameter is all that
had the callable. -/
def wait (s : CallableOwners) (p : HandlerPtr) (io : Option Mxio) (handle : MxHandle) : Except Fault CallableOwners :=
  match s.waiters.lookup p with
  | none => .error (.useAfterFree p)
  | some (some _) => .error (.dcheck "!io_")
  | some none =>
    match io with
    | none => .ok { s with slots := s.slots.discard }
    | some io =>
      let s := { s with waiters := s.waiters.insert p (some io) }
      if handle ≠ 0 then .ok { s with slots := s.slots.put (.fdWaiter p) } else do
        let s ← s.cancel p
        return { s with slots := s.slots.discard }

/-- `~FDWaiter`, and of its `callback_`. -/
def destroyWaiter (s : CallableOwners) (p : HandlerPtr) : Except Fault CallableOwners :=
  match s.waiters.lookup p with
  | none => .error (.doubleDelete p)
  | some io => do
    let s ← if io ≠ none then s.cancel p else .ok s
    return { s with slots := s.slots.clear (.fdWaiter p), waiters := s.waiters.erase p }

/-- `FDWaiter::OnHandleError` up to the call of the local variable, and the rest of `OnHandleReady`. -/
def waiterOnHandleError (s : CallableOwners) (p : HandlerPtr) : Except Fault CallableOwners := do
  let callback := CallableSlot.callback s.calls.length
  let s ← { s with slots := s.slots.move (.fdWaiter p) callback }.cancel p
  s.call callback

def waiterOnHandleReady (s : CallableOwners) (p : HandlerPtr) : Except Fault CallableOwners :=
  match s.waiters.lookup p with
  | none => .error (.useAfterFree p)
  | some none => .error (.dcheck "io_")
  | some (some _) => s.waiterOnHandleError p

/-- The innermost call returns, and with one of a local variable its function does. -/
def returns (s : CallableOwners) : CallableOwners :=
  match s.calls with
  | [] => s
  | (.callback depth, _) :: calls => { s with slots := s.slots.clear (.callback depth), calls := calls }
  | _ :: calls => { s with calls := calls }

end CallableOwners

inductive CallableAct where
  | setAfterTaskCallback
  | clearAfterTaskCallback
  | epilogue
  | createWatcher (p : HandlerPtr)
  | destroyWatcher (p : HandlerPtr)
  | watcherOnHandleReady (p : HandlerPtr)
  | createWaiter (p : HandlerPtr)
  | wait (p : HandlerPtr) (io : Option Mxio) (handle : MxHandle)
  | cancel (p : HandlerPtr)
  | destroyWaiter (p : HandlerPtr)
  | waiterOnHandleReady (p : HandlerPtr)
  | waiterOnHandleError (p : HandlerPtr)
  | returns
  | destroyLoop

/-- All that a user does may be done in any callable. The loop calls what exists and waits at any time, which is more
than it can, and it is destroyed outside of calls. -/
def callableMachine : Machine CallableOwners CallableAct Fault where
  Enabled s
    | .setAfterTaskCallback | .clearAfterTaskCallback | .epilogue => True
    | .createWatcher p => p ∉ s.watchers
    | .destroyWatcher p | .watcherOnHandleReady p => p ∈ s.watchers
    | .createWaiter p => s.waiters.lookup p = none
    | .wait p _ _ => s.waiters.lookup p = some none
    | .cancel p | .waiterOnHandleReady p | .waiterOnHandleError p => ∃ io, s.waiters.lookup p = some (some io)
    | .destroyWaiter p => s.waiters.lookup p ≠ none
    | .returns => s.calls ≠ []
    | .destroyLoop => s.calls = []
  step s
    | .setAfterTaskCallback => .ok s.setAfterTaskCallback
    | .clearAfterTaskCallback => .ok s.clearAfterTaskCallback
    | .epilogue => s.epilogue
    | .createWatcher p => .ok (s.createWatcher p)
    | .destroyWatcher p => s.destroyWatcher p
    | .watcherOnHandleReady p => s.watcherOnHandleReady p
    | .createWaiter p => .ok (s.createWaiter p)
    | .wait p io handle => s.wait p io handle
    | .cancel p => s.cancel p
    | .destroyWaiter p => s.destroyWaiter p
    | .waiterOnHandleReady p => s.waiterOnHandleReady p
    | .waiterOnHandleError p => s.waiterOnHandleError p
    | .returns => .ok s.returns
    | .destroyLoop => .ok s.clearAfterTaskCallback

namespace CallableOwners

/-- No callable has ended whose call has not returned. -/
def Intact (s : CallableOwners) : Prop := s.slots.Safe s.calls

/-- What is called in place is left in its place: the after-task callback is neither set nor cleared while it is
called, and no watcher is destroyed while its callback is. -/
def Keeps (s : CallableOwners) : CallableAct → Prop
  | .setAfterTaskCallback | .clearAfterTaskCallback => ∀ call ∈ s.calls, call.1 ≠ .afterTaskCallback
  | .destroyWatcher p => ∀ call ∈ s.calls, call.1 ≠ .deviceWatcher p
  | _ => True

end CallableOwners

/-! ## Calls and their slots -/

/-- The callables of waiters are called in local variables, each of the call that it is in. -/
def Nested : List (CallableSlot × Nat) → Prop
  | [] => True
  | (.fdWaiter _, _) :: _ => False
  | (.callback depth, _) :: calls => depth = calls.length ∧ Nested calls
  | _ :: calls => Nested calls

namespace Nested
variable {call : CallableSlot × Nat} {calls : List (CallableSlot × Nat)}

theorem tail (h : Nested (call :: calls)) : Nested calls := by
  obtain ⟨_ | _ | _ | _, c⟩ := call
  · exact h
  · exact h
  · exact h.elim
  · exact h.2

theorem ne_fdWaiter (h : Nested calls) (p : HandlerPtr) : ∀ call ∈ calls, call.1 ≠ .fdWaiter p := by
  induction calls with
  | nil => simp
  | cons call calls ih =>
    refine List.forall_mem_cons.mpr ⟨?_, ih h.tail⟩
    rintro hp
    obtain ⟨slot, c⟩ := call
    obtain rfl : slot = .fdWaiter p := hp
    exact h

theorem ne_callback (h : Nested calls) {depth : Nat} (hd : calls.length ≤ depth) :
    ∀ call ∈ calls, call.1 ≠ .callback depth := by
  induction calls with
  | nil => simp
  | cons call calls ih =>
    rw [List.length_cons] at hd
    refine List.forall_mem_cons.mpr ⟨?_, ih h.tail (by omega)⟩
    rintro hp
    obtain ⟨slot, c⟩ := call
    obtain rfl : slot = .callback depth := hp
    have := h.1
    omega

end Nested

/-- The owners of callables agree with the slots, and so do the calls. -/
structure Owned (s : CallableOwners) : Prop where
  sole : s.slots.Sole
  serves : s.slots.Serves s.calls
  nested : Nested s.calls
  callback : ∀ depth c, s.slots.held (.callback depth) = some c → (.callback depth, c) ∈ s.calls
  watcher : ∀ p, s.slots.held (.deviceWatcher p) = none ↔ p ∉ s.watchers
  waiter : ∀ p, s.slots.held (.fdWaiter p) = none ↔ ∀ io, s.waiters.lookup p ≠ some (some io)

namespace Owned
open CallableOwners
variable {s : CallableOwners} {p : HandlerPtr}

theorem init : Owned {} :=
  ⟨.init, by simp [Slots.Serves], trivial, by simp, by simp, by simp⟩

theorem intact (h : Owned s) : s.Intact := h.sole.safe h.serves

theorem setAfterTaskCallback (h : Owned s) (hk : s.Keeps .setAfterTaskCallback) : Owned s.setAfterTaskCallback where
  sole := h.sole.put _
  serves := h.serves.put hk
  nested := h.nested
  callback := by simpa [CallableOwners.setAfterTaskCallback, Slots.held_put] using h.callback
  watcher := by simpa [CallableOwners.setAfterTaskCallback, Slots.held_put] using h.watcher
  waiter := by simpa [CallableOwners.setAfterTaskCallback, Slots.held_put] using h.waiter

theorem clearAfterTaskCallback (h : Owned s) (hk : s.Keeps .clearAfterTaskCallback) :
    Owned s.clearAfterTaskCallback where
  sole := h.sole.clear _
  serves := h.serves.clear hk
  nested := h.nested
  callback := by simpa [CallableOwners.clearAfterTaskCallback, Slots.held_clear] using h.callback
  watcher := by simpa [CallableOwners.clearAfterTaskCallback, Slots.held_clear] using h.watcher
  waiter := by simpa [CallableOwners.clearAfterTaskCallback, Slots.held_clear] using h.waiter

/-- What is called is in its slot, and nothing else changes. -/
theorem call {slot : CallableSlot} {c : Nat} (h : Owned s) (hslot : s.slots.held slot = some c)
    (hn : Nested ((slot, c) :: s.calls)) :
    s.call slot = .ok { s with calls := (slot, c) :: s.calls } ∧ Owned { s with calls := (slot, c) :: s.calls } := by
  refine ⟨by rw [CallableOwners.call, hslot], h.sole, List.forall_mem_cons.mpr ⟨hslot, h.serves⟩, hn, ?_, h.watcher,
    h.waiter⟩
  exact fun depth c hc => List.mem_cons_of_mem _ (h.callback depth c hc)

/-- Only the waiter at `p` changes. -/
theorem waiterSlot {slots : Slots CallableSlot} {waiters : Finmap (fun _ : HandlerPtr => Option Mxio)} (h : Owned s)
    (hsole : slots.Sole) (hheld : ∀ slot, slot ≠ .fdWaiter p → slots.held slot = s.slots.held slot)
    (hlookup : ∀ q, q ≠ p → waiters.lookup q = s.waiters.lookup q)
    (hp : slots.held (.fdWaiter p) = none ↔ ∀ io, waiters.lookup p ≠ some (some io)) :
    Owned { s with slots := slots, waiters := waiters } where
  sole := hsole
  serves call hcall := (hheld _ (h.nested.ne_fdWaiter p call hcall)).trans (h.serves call hcall)
  nested := h.nested
  callback depth c hc := h.callback depth c ((hheld _ (by simp)).symm.trans hc)
  watcher q := by
    rw [hheld _ (by simp)]
    exact h.watcher q
  waiter q := by
    by_cases hq : q = p
    · rw [hq]
      exact hp
    · rw [hheld _ (by simpa using hq), hlookup q hq]
      exact h.waiter q

theorem createWatcher (h : Owned s) (hp : p ∉ s.watchers) : Owned (s.createWatcher p) where
  sole := h.sole.put _
  serves := by
    refine h.serves.put ?_
    rintro ⟨slot, c⟩ hcall hslot
    obtain rfl : slot = .deviceWatcher p := hslot
    have hheld := h.serves _ hcall
    rw [(h.watcher p).mpr hp] at hheld
    cases hheld
  nested := h.nested
  callback := by simpa [CallableOwners.createWatcher, Slots.held_put] using h.callback
  watcher q := by
    rw [CallableOwners.createWatcher, Slots.held_put, Finset.mem_insert, not_or]
    by_cases hq : q = p
    · simp [hq]
    · simpa [hq] using h.watcher q
  waiter := by simpa [CallableOwners.createWatcher, Slots.held_put] using h.waiter

theorem destroyWatcher (h : Owned s) (hp : p ∈ s.watchers) (hk : s.Keeps (.destroyWatcher p)) :
    ∃ t, s.destroyWatcher p = .ok t ∧ Owned t := by
  refine ⟨_, if_pos hp, h.sole.clear _, h.serves.clear hk, h.nested, ?_, fun q => ?_, ?_⟩
  · simpa [Slots.held_clear] using h.callback
  · rw [Slots.held_clear, Finset.mem_erase, not_and_or, not_not]
    by_cases hq : q = p
    · simp [hq]
    · simpa [hq] using h.watcher q
  · simpa [Slots.held_clear] using h.waiter

theorem createWaiter (h : Owned s) (hp : s.waiters.lookup p = none) : Owned (s.createWaiter p) := by
  refine h.waiterSlot h.sole (fun _ _ => rfl) (fun q hq => Finmap.lookup_insert_of_ne _ hq) ?_
  rw [h.waiter p, hp, Finmap.lookup_insert]
  simp

theorem cancel {io : Mxio} (h : Owned s) (hp : s.waiters.lookup p = some (some io)) :
    ∃ t, s.cancel p = .ok t ∧ Owned t ∧ t.waiters.lookup p = some none := by
  refine ⟨{ s with slots := s.slots.clear (.fdWaiter p), waiters := s.waiters.insert p none }, ?_, ?_,
    Finmap.lookup_insert _⟩
  · rw [CallableOwners.cancel, hp]
  · refine h.waiterSlot (h.sole.clear _) (fun slot hslot => ?_) (fun q hq => Finmap.lookup_insert_of_ne _ hq) ?_
    · rw [Slots.held_clear, if_neg hslot]
    · simp [Slots.held_clear]

theorem discard (h : Owned s) : Owned { s with slots := s.slots.discard } :=
  ⟨h.sole.discard, h.serves, h.nested, h.callback, h.watcher, h.waiter⟩

theorem wait (h : Owned s) (hp : s.waiters.lookup p = some none) (io : Option Mxio) (handle : MxHandle) :
    ∃ t, s.wait p io handle = .ok t ∧ Owned t := by
  cases io with
  | none => exact ⟨_, by rw [CallableOwners.wait, hp], h.discard⟩
  | some io =>
    by_cases hh : handle ≠ 0
    · refine ⟨_, by rw [CallableOwners.wait, hp]; exact if_pos hh, ?_⟩
      refine h.waiterSlot (h.sole.put _) (fun slot hslot => ?_) (fun q hq => Finmap.lookup_insert_of_ne _ hq) ?_
      · rw [Slots.held_put, if_neg hslot]
      · simp [Slots.held_put]
    · refine ⟨{ s with slots := (s.slots.clear (.fdWaiter p)).discard, waiters := s.waiters.insert p none }, ?_, ?_⟩
      · simp [CallableOwners.wait, hp, hh, CallableOwners.cancel, Finmap.insert_insert]
      · refine h.waiterSlot (h.sole.clear _).discard (fun slot hslot => ?_)
          (fun q hq => Finmap.lookup_insert_of_ne _ hq) ?_
        · exact (Slots.held_clear slot).trans (if_neg hslot)
        · exact iff_of_true ((Slots.held_clear _).trans (if_pos rfl)) (by simp)

theorem destroyWaiter (h : Owned s) (hp : s.waiters.lookup p ≠ none) : ∃ t, s.destroyWaiter p = .ok t ∧ Owned t := by
  have herase {t : CallableOwners} (ht : Owned t) :
      Owned { t with slots := t.slots.clear (.fdWaiter p), waiters := t.waiters.erase p } := by
    refine ht.waiterSlot (ht.sole.clear _) (fun slot hslot => ?_) (fun q hq => Finmap.lookup_erase_ne hq) ?_
    · rw [Slots.held_clear, if_neg hslot]
    · simp [Slots.held_clear]
  obtain ⟨io, hio⟩ := Option.ne_none_iff_exists'.mp hp
  cases io with
  | none => exact ⟨_, by simp [CallableOwners.destroyWaiter, hio], herase h⟩
  | some io =>
    obtain ⟨t, ht, hown, -⟩ := h.cancel hio
    exact ⟨_, by simp [CallableOwners.destroyWaiter, hio, ht], herase hown⟩

theorem epilogue (h : Owned s) : ∃ t, s.epilogue = .ok t ∧ Owned t := by
  cases hc : s.slots.held .afterTaskCallback with
  | none => exact ⟨s, by simp [CallableOwners.epilogue, hc], h⟩
  | some c =>
    obtain ⟨hcall, hown⟩ := h.call hc h.nested
    exact ⟨_, by simp [CallableOwners.epilogue, hc, hcall], hown⟩

theorem watcherOnHandleReady (h : Owned s) (hp : p ∈ s.watchers) : ∃ t, s.watcherOnHandleReady p = .ok t ∧ Owned t := by
  obtain ⟨c, hc⟩ := Option.ne_none_iff_exists'.mp fun hnone => (h.watcher p).mp hnone hp
  obtain ⟨hcall, hown⟩ := h.call hc h.nested
  exact ⟨_, (if_pos hp).trans hcall, hown⟩

/-- The callable is in the local variable when it is called, and its waiter is idle. -/
theorem waiterOnHandleError {io : Mxio} (h : Owned s) (hp : s.waiters.lookup p = some (some io)) :
    ∃ t, s.waiterOnHandleError p = .ok t ∧ Owned t := by
  obtain ⟨c, hc⟩ := Option.ne_none_iff_exists'.mp fun hnone => (h.waiter p).mp hnone io hp
  let callback := CallableSlot.callback s.calls.length
  let slots := (s.slots.move (.fdWaiter p) callback).clear (.fdWaiter p)
  have hlocal : slots.held callback = some c := by
    rw [Slots.held_move_clear, if_neg (by simp [callback]), if_pos rfl, hc]
  have hold (slot : CallableSlot) (hwaiter : slot ≠ .fdWaiter p) (hcallback : slot ≠ callback) :
      slots.held slot = s.slots.held slot := by
    rw [Slots.held_move_clear, if_neg hwaiter, if_neg hcallback]
  refine ⟨⟨slots, s.watchers, s.waiters.insert p none, (callback, c) :: s.calls⟩, ?_, ?_⟩
  · simp only [CallableOwners.waiterOnHandleError, CallableOwners.cancel, hp, ok_bind]
    rw [CallableOwners.call, hlocal]
  · refine ⟨(h.sole.move _ _).clear _, List.forall_mem_cons.mpr ⟨hlocal, fun call hcall => ?_⟩, ⟨rfl, h.nested⟩,
      fun depth c' hc' => ?_, fun q => ?_, fun q => ?_⟩
    · rw [hold _ (h.nested.ne_fdWaiter p call hcall) (h.nested.ne_callback (Nat.le_refl _) call hcall)]
      exact h.serves call hcall
    · by_cases hdepth : .callback depth = callback
      · rw [hdepth, hlocal] at hc'
        rw [hdepth, Option.some.inj hc']
        exact List.mem_cons_self
      · rw [hold _ (by simp) hdepth] at hc'
        exact List.mem_cons_of_mem _ (h.callback depth c' hc')
    · rw [hold _ (by simp) (by simp [callback])]
      exact h.watcher q
    · by_cases hq : q = p
      · rw [hq, Slots.held_move_clear, if_pos rfl, Finmap.lookup_insert]
        simp
      · rw [hold _ (by simpa using hq) (by simp [callback]), Finmap.lookup_insert_of_ne _ hq]
        exact h.waiter q

theorem returns (h : Owned s) : Owned s.returns := by
  obtain ⟨slots, watchers, waiters, calls⟩ := s
  cases calls with
  | nil => exact h
  | cons last calls =>
    have hserves := (List.forall_mem_cons.mp h.serves).2
    have htail {slot : CallableSlot} {c : Nat} (hne : slot ≠ last.1) (hmem : (slot, c) ∈ last :: calls) :
        (slot, c) ∈ calls :=
      (List.mem_cons.mp hmem).resolve_left fun heq => hne (congrArg Prod.fst heq)
    have hinPlace (hlast : ∀ depth, .callback depth ≠ last.1) : Owned ⟨slots, watchers, waiters, calls⟩ :=
      ⟨h.sole, hserves, h.nested.tail, fun d c hc => htail (hlast d) (h.callback d c hc), h.watcher, h.waiter⟩
    obtain ⟨slot, c⟩ := last
    cases slot with
    | afterTaskCallback => exact hinPlace (by simp)
    | deviceWatcher p => exact hinPlace (by simp)
    | fdWaiter p => exact h.nested.elim
    | callback depth =>
      obtain ⟨hdepth, hnested⟩ := h.nested
      have hothers := hnested.ne_callback (Nat.le_of_eq hdepth.symm)
      refine ⟨h.sole.clear _, Slots.Serves.clear hserves hothers, hnested, ?_, ?_, ?_⟩
      · intro d c' hc'
        rw [CallableOwners.returns, Slots.held_clear] at hc'
        split_ifs at hc' with hd
        exact htail hd (h.callback d c' hc')
      · simpa [CallableOwners.returns, Slots.held_clear] using h.watcher
      · simpa [CallableOwners.returns, Slots.held_clear] using h.waiter

theorem step {a : CallableAct} (h : Owned s) (he : callableMachine.Enabled s a) (hk : s.Keeps a) :
    ∃ t, callableMachine.step s a = .ok t ∧ Owned t := by
  cases a with
  | setAfterTaskCallback => exact ⟨_, rfl, h.setAfterTaskCallback hk⟩
  | clearAfterTaskCallback => exact ⟨_, rfl, h.clearAfterTaskCallback hk⟩
  | epilogue => exact h.epilogue
  | createWatcher p => exact ⟨_, rfl, h.createWatcher he⟩
  | destroyWatcher p => exact h.destroyWatcher he hk
  | watcherOnHandleReady p => exact h.watcherOnHandleReady he
  | createWaiter p => exact ⟨_, rfl, h.createWaiter he⟩
  | wait p io handle => exact h.wait he io handle
  | cancel p =>
    obtain ⟨io, hp⟩ := he
    obtain ⟨t, ht, hown, -⟩ := h.cancel hp
    exact ⟨t, ht, hown⟩
  | destroyWaiter p => exact h.destroyWaiter he
  | waiterOnHandleReady p =>
    obtain ⟨io, hp⟩ := he
    obtain ⟨t, ht, hown⟩ := h.waiterOnHandleError hp
    exact ⟨t, by simpa [callableMachine, CallableOwners.waiterOnHandleReady, hp] using ht, hown⟩
  | waiterOnHandleError p =>
    obtain ⟨io, hp⟩ := he
    exact h.waiterOnHandleError hp
  | returns => exact ⟨_, rfl, h.returns⟩
  | destroyLoop =>
    have hidle : s.calls = [] := he
    exact ⟨_, rfl, h.clearAfterTaskCallback (by simp [CallableOwners.Keeps, hidle])⟩

/-- A step that does not keep what is called ends it. -/
theorem ends {a : CallableAct} (h : Owned s) (he : callableMachine.Enabled s a) (hk : ¬ s.Keeps a) :
    ∃ t, callableMachine.step s a = .ok t ∧ ¬ t.Intact := by
  cases a with
  | setAfterTaskCallback => exact ⟨_, rfl, mt (h.sole.safe_put_iff h.serves).mp hk⟩
  | clearAfterTaskCallback => exact ⟨_, rfl, mt (h.sole.safe_clear_iff h.serves).mp hk⟩
  | destroyWatcher p => exact ⟨_, if_pos he, mt (h.sole.safe_clear_iff h.serves).mp hk⟩
  | _ => exact absurd trivial hk

end Owned

/-- While what is called in place is left there, no callable ends before its call returns, and no step faults. The
first step that does otherwise ends one that is being called. -/
theorem callables_outlive_calls {acts : List CallableAct} {result : Except Fault CallableOwners}
    (hrun : (callableMachine.restrict CallableOwners.Keeps).Run {} acts result) :
    ∃ s, result = .ok s ∧ s.Intact ∧
      ∀ a, callableMachine.Enabled s a → ∃ t, callableMachine.step s a = .ok t ∧ (t.Intact ↔ s.Keeps a) := by
  have hstep (s : CallableOwners) (a : CallableAct) (h : Owned s)
      (he : (callableMachine.restrict CallableOwners.Keeps).Enabled s a) :
      ∃ t, callableMachine.step s a = .ok t ∧ Owned t := h.step he.1 he.2
  obtain ⟨s, rfl, h⟩ := hrun.safe hstep .init
  refine ⟨s, rfl, h.intact, fun a he => ?_⟩
  by_cases hk : s.Keeps a
  · obtain ⟨t, ht, hown⟩ := h.step he hk
    exact ⟨t, ht, iff_of_true hown.intact hk⟩
  · obtain ⟨t, ht, hended⟩ := h.ends he hk
    exact ⟨t, ht, iff_of_false hended hk⟩

/-- A waiter's callback waits again, and destroys its waiter. -/
theorem callables_outlive_calls_waiter :
    ∃ s, (callableMachine.restrict CallableOwners.Keeps).Run {} [.createWaiter 1, .wait 1 (some 7) 5,
        .waiterOnHandleReady 1, .wait 1 (some 7) 5, .destroyWaiter 1] (.ok s) ∧
      s.calls = [(.callback 0, 0)] ∧ s.Intact := by
  have hrun : (callableMachine.restrict CallableOwners.Keeps).Run {} [.createWaiter 1, .wait 1 (some 7) 5,
      .waiterOnHandleReady 1, .wait 1 (some 7) 5, .destroyWaiter 1] (.ok _) :=
    .step ⟨rfl, trivial⟩ rfl (.step ⟨rfl, trivial⟩ rfl (.step ⟨⟨7, rfl⟩, trivial⟩ rfl (.step ⟨rfl, trivial⟩ rfl
      (.step ⟨Option.some_ne_none _, trivial⟩ rfl (.nil _)))))
  obtain ⟨s, hs, hintact, -⟩ := callables_outlive_calls hrun
  cases hs
  exact ⟨_, hrun, rfl, hintact⟩

/-- The after-task callback clears itself, and a device watcher's callback destroys its watcher. -/
theorem callable_ends_in_its_call :
    (∃ s, callableMachine.Run {} [.setAfterTaskCallback, .epilogue, .clearAfterTaskCallback] (.ok s) ∧
      (.afterTaskCallback, 0) ∈ s.calls ∧ 0 ∈ s.slots.ended) ∧
    ∃ s, callableMachine.Run {} [.createWatcher 1, .watcherOnHandleReady 1, .destroyWatcher 1] (.ok s) ∧
      (.deviceWatcher 1, 0) ∈ s.calls ∧ 0 ∈ s.slots.ended := by
  constructor
  · exact ⟨_, .step trivial rfl (.step trivial rfl (.step trivial rfl (.nil _))), List.mem_cons_self, by decide⟩
  · exact ⟨_, .step (Finset.notMem_empty _) rfl (.step (Finset.mem_insert_self _ _) rfl
      (.step (Finset.mem_insert_self _ _) rfl (.nil _))), List.mem_cons_self, by decide⟩

end Mtl.Tasks
