import Mtl.Io.DeviceWatcher
import Mtl.Tasks.KeyHolders

/-! Device watchers on a message loop: who owns the channel that a registered handler waits on. -/
namespace Mtl.Io
open Foundation Tasks

/-- What the constructor waits for. -/
def watchSignals : MxSignals := {.channelReadable, .channelPeerClosed}

/-- The dispatch under way. `destroys` says that one of the callbacks that it makes destroys the watcher. -/
structure WatchTurn where
  record : RecordPtr
  status : MxStatus
  handler : HandlerPtr
  destroys : Bool := false

/-- The live watchers, beside the other users of their loop. Handler 0 stands for those. -/
structure WatchLoop where
  loop : MessageLoop := {}
  watchers : Finmap (fun _ : HandlerPtr => DeviceWatcher) := ∅
  nextWatcher : HandlerPtr := 1
  dispatching : Option WatchTurn := none

namespace WatchLoop

/-- `mx::channel::reset`, and its destructor. -/
def close (s : WatchLoop) : Option MxHandle → WatchLoop
  | none => s
  | some handle => { s with loop.loop.closed := insert handle s.loop.loop.closed }

/-- `Create` from the constructor on. The channel is new, and so is its handle, though its value may have
been in use before. -/
def create (s : WatchLoop) (handle : MxHandle) (valid : handle ≠ 0) : Except Fault WatchLoop := do
  let loop := { s.loop with loop.closed := s.loop.loop.closed.erase handle }
  let (loop, key) ← loop.addHandler ⟨s.nextWatcher, handle, watchSignals, TimeDelta.max, 0, valid⟩
  return { s with
    loop := loop
    watchers := s.watchers.insert s.nextWatcher ⟨some handle, key⟩
    nextWatcher := s.nextWatcher + 1 }

/-- `~DeviceWatcher`, which ends with the destruction of `dir_watch_`. -/
def destroy (s : WatchLoop) (p : HandlerPtr) : Except Fault WatchLoop :=
  match s.watchers.lookup p with
  | none => .error (.useAfterFree p)
  | some w => do
    let loop ← s.loop.removeHandler w.handlerKey
    return ({ s with loop := loop, watchers := s.watchers.erase p } : WatchLoop).close w.dirWatch

/-- `OnHandleReady`, but for what the callbacks do, and whether one of them destroys the watcher. -/
def onHandleReady (s : WatchLoop) (evt : WatchEvents) (p : HandlerPtr) (w : DeviceWatcher) (pending : MxSignals)
    (destroysAt : Option Nat) (read : ChannelRead) : Except Fault (WatchLoop × Bool) := do
  let (w', out) ← w.onHandleReady evt destroysAt pending read
  let s := { s with watchers := s.watchers.insert p w' }
  return (if w'.dirWatch = w.dirWatch then s else s.close w.dirWatch, out.destroyed)

/-- The dispatch of a record. A watcher does not override `OnHandleError`. -/
def dispatch (s : WatchLoop) (evt : WatchEvents) (record : RecordPtr) (status : MxStatus) (pending : MxSignals)
    (destroysAt : Option Nat) (read : ChannelRead) : Except Fault WatchLoop := do
  let (loop, rec) ← s.loop.dispatchEnter record status
  let s := { s with loop := loop, dispatching := some { record := record, status := status, handler := rec.handler } }
  if rec.handler = 0 then return s
  else
    match s.watchers.lookup rec.handler with
    | none => .error (.useAfterFree rec.handler)
    | some w =>
      if status ≠ .ok then return s
      else
        let (s, destroys) ← s.onHandleReady evt rec.handler w pending destroysAt read
        return { s with
          dispatching := some { record := record, status := status, handler := rec.handler, destroys := destroys } }

def callbackReturns (s : WatchLoop) : Except Fault WatchLoop :=
  match s.dispatching with
  | none => .ok s
  | some turn => do
    let loop ← s.loop.dispatchExit turn.record turn.status
    return { s with loop := loop, dispatching := none }

def addOther (s : WatchLoop) (req : AddRequest) : Except Fault WatchLoop := do
  let (loop, _) ← s.loop.addHandler { req with handler := 0 }
  return { s with loop := loop }

def removeOther (s : WatchLoop) (key : HandlerKey) : Except Fault WatchLoop := do
  let loop ← s.loop.removeHandler key
  return { s with loop := loop }

/-- No watcher owns the handle. -/
def Unowned (s : WatchLoop) (handle : MxHandle) : Prop :=
  ∀ p w, s.watchers.lookup p = some w → w.dirWatch ≠ some handle

end WatchLoop

inductive WatchAct where
  | create (handle : MxHandle) (valid : handle ≠ 0)
  | destroy (p : HandlerPtr)
  | dispatch (record : RecordPtr) (status : MxStatus) (pending : MxSignals) (destroysAt : Option Nat) (read : ChannelRead)
  | callbackReturns
  | addOther (req : AddRequest)
  | removeOther (key : HandlerKey)
  | closeOther (handle : MxHandle)
  | beginShutdown

/-- Everything may happen inside a callback or outside of it, but for a nested dispatch. Only its own callbacks
destroy a watcher in its dispatch, and they do so before the dispatch ends. A wait for the signals of a watcher
completes on one of them. -/
def watchMachine (evt : WatchEvents) : Machine WatchLoop WatchAct Fault where
  Enabled s
    | .create handle _ => s.Unowned handle
    | .destroy p => s.watchers.lookup p ≠ none ∧
        ∀ turn, s.dispatching = some turn → turn.handler = p → turn.destroys = true
    | .dispatch record status pending _ _ => s.dispatching = none ∧ record ∈ s.loop.loop.registered ∧
        ∀ rec, s.loop.records.lookup record = some rec → rec.handler ≠ 0 → status = .ok →
          .channelReadable ∈ pending ∨ .channelPeerClosed ∈ pending
    | .callbackReturns => ∃ turn, s.dispatching = some turn ∧
        (turn.destroys = true → s.watchers.lookup turn.handler = none)
    | .addOther _ => True
    | .removeOther key => ∀ p w, s.watchers.lookup p = some w → w.handlerKey ≠ key
    | .closeOther handle => s.Unowned handle
    | .beginShutdown => s.dispatching = none
  step s
    | .create handle valid => s.create handle valid
    | .destroy p => s.destroy p
    | .dispatch record status pending destroysAt read => s.dispatch evt record status pending destroysAt read
    | .callbackReturns => s.callbackReturns
    | .addOther req => s.addOther req
    | .removeOther key => s.removeOther key
    | .closeOther handle => .ok (s.close (some handle))
    | .beginShutdown => .ok { s with loop := s.loop.beginShutdown }

/-- Whatever waits for a watcher, in `handlers_` or in the async loop, waits on the open handle that the watcher
owns. -/
structure WatchLoop.HandlesOpen (s : WatchLoop) : Prop where
  listed : ∀ p w r, s.watchers.lookup p = some w → s.loop.handlers.lookup w.handlerKey = some r →
    ∃ rec, s.loop.records.lookup r = some rec ∧ rec.handler = p ∧ w.dirWatch = some rec.object ∧
      rec.object ∉ s.loop.loop.closed
  waiting : ∀ r rec, r ∈ s.loop.loop.registered → s.loop.records.lookup r = some rec → rec.handler ≠ 0 →
    ∃ w, s.watchers.lookup rec.handler = some w ∧ w.handlerKey = rec.key ∧ w.dirWatch = some rec.object ∧
      rec.object ∉ s.loop.loop.closed

/-- There is a key left for whoever adds a handler, and what is ready for a watcher is a message, whether or not
the peer is gone too. -/
def WatchLoop.Delivers (s : WatchLoop) : WatchAct → Prop
  | .create _ _ | .addOther _ => s.loop.KeysLeft 1
  | .dispatch record status pending _ _ => ∀ rec, s.loop.records.lookup record = some rec → rec.handler ≠ 0 →
      status = .ok → .channelReadable ∈ pending
  | _ => True

/-- How the dispatch of a message may fail. -/
def Unreadable (e : Fault) : Prop := e = .check "Failed to read from directory watch channel" ∨ ∃ i, e = .overrun i

theorem WatchLoop.unowned_init (handle : MxHandle) : Unowned {} handle := by
  intro p w hp
  simp at hp

theorem messageLoop_fails {evt : WatchEvents} {destroysAt : Option Nat} {msg : List UInt8} {pos size : Nat}
    {out : WatchOutcome} {e : Fault} (h : messageLoop evt destroysAt msg pos size out = .error e) : Unreadable e := by
  fun_induction messageLoop evt destroysAt msg pos size out with
  | case1 | case2 | case4 => cases h
  | case3 | case7 =>
    cases h
    exact .inr ⟨_, rfl⟩
  | case5 pos size out hsize event byte rest namelen hfits hl hrest called next hd ih => exact ih h
  | case6 pos size out hsize event byte rest namelen hfits hl ih => exact ih h

/-- A message leaves the watcher's members as they are. -/
theorem DeviceWatcher.onHandleReady_message (w : DeviceWatcher) (evt : WatchEvents) (destroysAt : Option Nat)
    {pending : MxSignals} (hp : .channelReadable ∈ pending) (read : ChannelRead) :
    (∃ out, w.onHandleReady evt destroysAt pending read = .ok (w, out)) ∨
      ∃ e, w.onHandleReady evt destroysAt pending read = .error e ∧ Unreadable e := by
  simp only [DeviceWatcher.onHandleReady, if_pos hp]
  by_cases hread : read.status = .ok
  · rw [if_pos hread]
    cases hloop : messageLoop evt destroysAt read.buf 0 read.size {} with
    | ok out => exact .inl ⟨out, rfl⟩
    | error e => exact .inr ⟨e, rfl, messageLoop_fails hloop⟩
  · rw [if_neg hread]
    exact .inr ⟨_, rfl, .inl rfl⟩

/-! ## The owners -/

namespace WatchLoop

def held (s : WatchLoop) (p : HandlerPtr) : Option HandlerKey := (s.watchers.lookup p).map DeviceWatcher.handlerKey

/-- The dispatch under way is the one that the loop knows of. -/
structure InTurn (s : WatchLoop) : Prop where
  idle : s.dispatching = none → s.loop.currentHandler = none
  running : ∀ turn, s.dispatching = some turn → s.loop.currentHandler = some turn.record ∧
    (∃ key, lastStart s.loop.log = some (turn.record, key, turn.status)) ∧ s.loop.records.lookup turn.record ≠ none

/-- Each live watcher owns an open handle that no other one owns, and its registration is for that handle. -/
structure Owned (s : WatchLoop) : Prop where
  first : 0 < s.nextWatcher
  made : ∀ p, s.watchers.lookup p ≠ none → 0 < p ∧ p < s.nextWatcher
  owner : ∀ p w, s.watchers.lookup p = some w → ∃ handle, w.dirWatch = some handle ∧ handle ∉ s.loop.loop.closed
  sole : ∀ p p' w w', s.watchers.lookup p = some w → s.watchers.lookup p' = some w' → w.dirWatch = w'.dirWatch → p = p'
  bound : ∀ p w rec, s.watchers.lookup p = some w → s.loop.registration w.handlerKey = some rec →
    w.dirWatch = some rec.object

structure Watched (s : WatchLoop) : Prop where
  holds : Holds (fun _ => True) s.loop s.held
  owned : s.Owned
  turn : s.InTurn

variable {s : WatchLoop} {p : HandlerPtr} {w : DeviceWatcher} {loop : MessageLoop}

theorem InTurn.same (h : s.InTurn) (hs : SameCallback s.loop loop) (watchers : Finmap fun _ : HandlerPtr => DeviceWatcher)
    (nextWatcher : HandlerPtr) :
    InTurn { s with loop := loop, watchers := watchers, nextWatcher := nextWatcher } := by
  refine ⟨fun hnone => hs.running.trans (h.idle hnone), fun turn hsome => ?_⟩
  obtain ⟨hcur, ⟨key, hstart⟩, hrec⟩ := h.running turn hsome
  exact ⟨hs.running.trans hcur, ⟨key, hs.started.trans hstart⟩, by rw [hs.record _ hcur]; exact hrec⟩

/-- The loop changes, but for what the watchers registered. -/
theorem Owned.loops (h : s.Owned) (loop : MessageLoop) (hclosed : loop.loop.closed = s.loop.loop.closed)
    (hreg : ∀ p w rec, s.watchers.lookup p = some w → loop.registration w.handlerKey = some rec →
      s.loop.registration w.handlerKey = some rec) (dispatching : Option WatchTurn) :
    Owned { s with loop := loop, dispatching := dispatching } := by
  refine ⟨h.first, h.made, fun p w hp => ?_, h.sole, fun p w rec hp hrec => h.bound p w rec hp (hreg p w rec hp hrec)⟩
  obtain ⟨handle, hhandle, hopen⟩ := h.owner p w hp
  exact ⟨handle, hhandle, by rw [hclosed]; exact hopen⟩

namespace Watched

theorem init : Watched {} := by
  refine ⟨.init _, ?_, ⟨fun _ => rfl, by simp⟩⟩
  constructor
  all_goals simp

theorem held_eq (hp : s.watchers.lookup p = some w) : s.held p = some w.handlerKey := by
  rw [held, hp, Option.map_some]

/-- The handle of a registration is the owner's, and open. -/
theorem registered (h : Watched s) (hp : s.watchers.lookup p = some w) {r : RecordPtr}
    (hk : s.loop.handlers.lookup w.handlerKey = some r) :
    ∃ rec, s.loop.records.lookup r = some rec ∧ rec.handler = p ∧ rec.key = w.handlerKey ∧
      w.dirWatch = some rec.object ∧ rec.object ∉ s.loop.loop.closed := by
  obtain ⟨rec, hrec, hkey⟩ := Option.map_eq_some_iff.mp (h.holds.registry.keyed _ _ hk)
  have hbound := h.owned.bound p w rec hp (Option.bind_eq_some_iff.mpr ⟨r, hk, hrec⟩)
  obtain ⟨handle, hhandle, hopen⟩ := h.owned.owner p w hp
  obtain rfl : handle = rec.object := Option.some.inj (hhandle.symm.trans hbound)
  exact ⟨rec, hrec, h.holds.own _ r rec p hk hrec (held_eq hp), hkey, hbound, hopen⟩

theorem handlesOpen (h : Watched s) : s.HandlesOpen := by
  constructor
  · intro p w r hp hk
    obtain ⟨rec, hrec, hhandler, -, hdir, hopen⟩ := h.registered hp hk
    exact ⟨rec, hrec, hhandler, hdir, hopen⟩
  · intro r rec hr hrec hne
    obtain ⟨-, hcur⟩ := (h.holds.registry.registered_iff r).mp hr
    have hk : s.loop.handlers.lookup rec.key = some r :=
      (h.holds.registry.live r rec hrec).resolve_right fun hrun => hcur hrun.1
    obtain ⟨w, hp, hkey⟩ := Option.map_eq_some_iff.mp (h.holds.owned _ r rec hk hrec hne)
    obtain ⟨rec', hrec', -, -, hdir, hopen⟩ := h.registered hp (hkey ▸ hk)
    cases hrec.symm.trans hrec'
    exact ⟨w, hp, hkey, hdir, hopen⟩

/-- A new watcher, whether the loop accepts its handler or not. -/
theorem created (h : Watched s) {handle : MxHandle} (hnew : s.Unowned handle) {key : HandlerKey}
    (hkey : ∀ p, s.held p ≠ some key) (hclosed : loop.loop.closed = s.loop.loop.closed.erase handle)
    (hold : ∀ key' rec, loop.registration key' = some rec → key' = key ∧ rec.object = handle ∨
      key' ≠ key ∧ s.loop.registration key' = some rec) :
    Owned { s with
      loop := loop
      watchers := s.watchers.insert s.nextWatcher ⟨some handle, key⟩
      nextWatcher := s.nextWatcher + 1 } := by
  obtain ⟨h1, h2, h3, h4, h5⟩ := h.owned
  refine ⟨Nat.succ_pos _, ?_, ?_, ?_, ?_⟩
  all_goals simp only [lookup_insert_eq, hclosed]
  · intro p hp
    split_ifs at hp with heq
    · rw [heq]
      exact ⟨h1, Nat.lt_succ_self _⟩
    · exact ⟨(h2 p hp).1, Nat.lt_succ_of_lt (h2 p hp).2⟩
  · intro p w hp
    split_ifs at hp with heq
    · cases hp
      exact ⟨handle, rfl, Finset.notMem_erase _ _⟩
    · obtain ⟨handle', hhandle, hopen⟩ := h3 p w hp
      exact ⟨handle', hhandle, fun hmem => hopen (Finset.mem_of_mem_erase hmem)⟩
  · intro p p' w w' hp hp' hdir
    split_ifs at hp hp' with heq heq' heq'
    · rw [heq, heq']
    · cases hp
      exact absurd hdir.symm (hnew p' w' hp')
    · cases hp'
      exact absurd hdir (hnew p w hp)
    · exact h4 p p' w w' hp hp' hdir
  · intro p w rec hp hrec
    split_ifs at hp with heq
    · cases hp
      rcases hold _ _ hrec with ⟨-, hobject⟩ | ⟨hne, -⟩
      · rw [hobject]
      · exact absurd rfl hne
    · rcases hold _ _ hrec with ⟨hsame, -⟩ | ⟨-, hrec⟩
      · exact absurd (hsame ▸ held_eq hp) (hkey p)
      · exact h5 p w rec hp hrec

theorem create (h : Watched s) (hn : s.loop.KeysLeft 1) {handle : MxHandle} (valid : handle ≠ 0)
    (hnew : s.Unowned handle) : ∃ t, s.create handle valid = .ok t ∧ Watched t := by
  let opened : MessageLoop := { s.loop with loop.closed := s.loop.loop.closed.erase handle }
  let req : AddRequest := ⟨s.nextWatcher, handle, watchSignals, TimeDelta.max, 0, valid⟩
  have hholds : Holds (fun _ => True) opened s.held := h.holds.handles _
  have hp : s.nextWatcher ≠ 0 := h.owned.first.ne'
  have hnone : s.held s.nextWatcher = none := by
    have hlookup : s.watchers.lookup s.nextWatcher = none := by
      by_contra hne
      exact Nat.lt_irrefl _ (h.owned.made _ hne).2
    rw [held, hlookup, Option.map_none]
  obtain ⟨loop, hadd, hadded, hsame, -⟩ := hholds.addHandler hn req hp hnone fun _ => trivial
  let t : WatchLoop := { s with
    loop := loop
    watchers := s.watchers.insert s.nextWatcher ⟨some handle, s.loop.nextHandlerKey⟩
    nextWatcher := s.nextWatcher + 1 }
  have hheld : t.held = Function.update s.held s.nextWatcher (some s.loop.nextHandlerKey) := by
    funext p
    rw [held, Function.update_apply, lookup_insert_eq]
    split_ifs <;> rfl
  refine ⟨t, by rw [WatchLoop.create, show opened.addHandler _ = _ from hadd]; rfl, by rw [hheld]; exact hadded,
    h.created hnew (fun p => h.holds.next_free hn) (hholds.closed_added hn hadd) (fun key rec hrec => ?_), ?_⟩
  · refine (hholds.registration_added hn hadd hrec).imp_left ?_
    rintro ⟨hkey, rfl⟩
    exact ⟨hkey, rfl⟩
  · exact h.turn.same ⟨hsame.attached, hsame.shutDown, hsame.running, hsame.started, hsame.record, hsame.removed⟩ _ _

/-- A watcher ends, and its handle with it: nothing waits on it any more. -/
theorem destroy (h : Watched s) (hp : s.watchers.lookup p = some w) :
    ∃ t, s.destroy p = .ok t ∧ Watched t := by
  obtain ⟨handle, hhandle, -⟩ := h.owned.owner p w hp
  obtain ⟨-, loop, hremove, hholds, hsame, -⟩ := h.holds.release (held_eq hp)
  have heffect := h.holds.removed_effect hremove
  refine ⟨({ s with loop := loop, watchers := s.watchers.erase p } : WatchLoop).close w.dirWatch,
    by simp [WatchLoop.destroy, hp, hremove], ?_, ?_, ?_⟩
  · have hheld : held { s with loop := loop, watchers := s.watchers.erase p } = Function.update s.held p none := by
      funext p'
      rw [held, Function.update_apply, lookup_erase_eq]
      split_ifs <;> rfl
    rw [hhandle]
    exact (hheld ▸ hholds).handles _
  · obtain ⟨h1, h2, h3, h4, h5⟩ := h.owned
    rw [hhandle]
    refine ⟨h1, ?_, ?_, ?_, ?_⟩
    all_goals simp only [close, lookup_erase_eq, heffect.closed]
    · intro p' hp'
      split_ifs at hp' with heq
      · exact absurd rfl hp'
      · exact h2 p' hp'
    · intro p' w' hp'
      split_ifs at hp' with heq
      obtain ⟨handle', hhandle', hopen⟩ := h3 p' w' hp'
      refine ⟨handle', hhandle', fun hmem => ?_⟩
      rcases Finset.mem_insert.mp hmem with rfl | hmem
      · exact heq (h4 p' p w' w hp' hp (hhandle'.trans hhandle.symm))
      · exact hopen hmem
    · intro p' p'' w' w'' hp' hp'' hdir
      split_ifs at hp' hp'' with heq heq'
      exact h4 p' p'' w' w'' hp' hp'' hdir
    · intro p' w' rec hp' hrec
      split_ifs at hp' with heq
      exact h5 p' w' rec hp' (heffect.registration hrec)
  · rw [hhandle]
    obtain ⟨hidle, hrunning⟩ := h.turn.same hsame (s.watchers.erase p) s.nextWatcher
    exact ⟨hidle, hrunning⟩

theorem addOther (h : Watched s) (hn : s.loop.KeysLeft 1) (req : AddRequest) :
    ∃ t, s.addOther req = .ok t ∧ Watched t := by
  obtain ⟨loop, hadd, hholds, hsame, -⟩ := h.holds.addOther hn { req with handler := 0 } rfl
  refine ⟨{ s with loop := loop }, by simp [WatchLoop.addOther, hadd], hholds,
    h.owned.loops _ (h.holds.closed_added hn hadd) (fun p w rec hp hrec => ?_) _, h.turn.same hsame _ _⟩
  refine ((h.holds.registration_added hn hadd hrec).resolve_left ?_).2
  exact fun hnew => h.holds.next_free hn (hnew.1 ▸ held_eq hp)

theorem removeOther (h : Watched s) {key : HandlerKey}
    (hkey : ∀ p w, s.watchers.lookup p = some w → w.handlerKey ≠ key) : ∃ t, s.removeOther key = .ok t ∧ Watched t := by
  obtain ⟨loop, hremove, hholds, hsame, -⟩ := h.holds.removeHandler key
  have hfree (p : HandlerPtr) : s.held p ≠ some key := by
    intro hheld
    obtain ⟨w, hp, hkey'⟩ := Option.map_eq_some_iff.mp hheld
    exact hkey p w hp hkey'
  rw [Holds.dropKey_free hfree] at hholds
  have heffect := h.holds.removed_effect hremove
  exact ⟨{ s with loop := loop }, by simp [WatchLoop.removeOther, hremove], hholds,
    h.owned.loops _ heffect.closed (fun _ _ _ _ => heffect.registration) _, h.turn.same hsame _ _⟩

theorem closeOther (h : Watched s) {handle : MxHandle} (hother : s.Unowned handle) : Watched (s.close (some handle)) := by
  refine ⟨h.holds.handles _, ⟨h.owned.first, h.owned.made, ?_, h.owned.sole, h.owned.bound⟩, h.turn.idle, h.turn.running⟩
  intro p w hp
  obtain ⟨handle', hhandle, hopen⟩ := h.owned.owner p w hp
  refine ⟨handle', hhandle, fun hmem => ?_⟩
  rcases Finset.mem_insert.mp hmem with rfl | hmem
  · exact hother p w hp hhandle
  · exact hopen hmem

theorem beginShutdown (h : Watched s) : Watched { s with loop := s.loop.beginShutdown } :=
  ⟨h.holds.beginShutdown, h.owned.loops s.loop.beginShutdown rfl (fun _ _ _ _ => id) _, h.turn.idle, h.turn.running⟩

/-- The loop waits again for what was ready, unless its handler was removed. -/
theorem callbackReturns (h : Watched s) {turn : WatchTurn} (hd : s.dispatching = some turn) :
    ∃ t, s.callbackReturns = .ok t ∧ Watched t := by
  obtain ⟨hcur, ⟨key, hstart⟩, hsome⟩ := h.turn.running turn hd
  obtain ⟨rec, hrec⟩ := Option.ne_none_iff_exists'.mp hsome
  obtain ⟨loop, hexit, hholds, hidle, -⟩ := h.holds.dispatchExit hcur hstart hrec (.inr (.inr (.inr trivial)))
  have heffect := h.holds.exited_effect hcur hstart hexit
  exact ⟨{ s with loop := loop, dispatching := none }, by simp [WatchLoop.callbackReturns, hd, hexit], hholds,
    h.owned.loops _ heffect.closed (fun _ _ _ _ => heffect.registration) _, fun _ => hidle, by simp⟩

/-- A dispatch up to the call of the handler. -/
theorem entered (h : Watched s) (hd : s.dispatching = none) {r : RecordPtr} (hr : r ∈ s.loop.loop.registered)
    (status : MxStatus) :
    ∃ loop rec, s.loop.dispatchEnter r status = .ok (loop, rec) ∧ s.loop.records.lookup r = some rec ∧
      loop.handlers = s.loop.handlers ∧ loop.records = s.loop.records ∧ loop.currentHandlerRemoved = false ∧
      (rec.handler ≠ 0 → ∃ w, s.watchers.lookup rec.handler = some w ∧ w.handlerKey = rec.key ∧
        s.loop.handlers.lookup rec.key = some r) ∧
      ∀ destroys, Watched { s with loop := loop, dispatching := some ⟨r, status, rec.handler, destroys⟩ } := by
  have hc := h.turn.idle hd
  obtain ⟨rec, hrec, hk, henter⟩ := h.holds.registry.dispatchEnter_eq hc hr status
  have hremoved : s.loop.currentHandlerRemoved = false := by
    by_contra hne
    exact h.holds.registry.removed_current (by simpa using hne) hc
  refine ⟨_, rec, henter, hrec, rfl, rfl, hremoved, ?_, fun destroys => ⟨?_,
    h.owned.loops (s.loop.entered r rec.key status) rfl (fun _ _ _ _ => id) _, ?_⟩⟩
  · intro hne
    obtain ⟨w, hp, hkey⟩ := Option.map_eq_some_iff.mp (h.holds.owned _ r rec hk hrec hne)
    exact ⟨w, hp, hkey, hk⟩
  · obtain ⟨hreg, h2, h3, h4, h5, h6, h7⟩ := h.holds
    exact ⟨hreg.entered hc hrec status, h2, h3, h4, h5, h6, h7⟩
  · refine ⟨by simp, ?_⟩
    rintro turn ⟨⟩
    exact ⟨rfl, ⟨rec.key, rfl⟩, by simp [MessageLoop.entered, hrec]⟩

/-- A dispatch of a message, of an error, or of another user's handler. -/
theorem dispatch (h : Watched s) (hd : s.dispatching = none) {r : RecordPtr} (hr : r ∈ s.loop.loop.registered)
    {status : MxStatus} {pending : MxSignals} (hpending : ∀ rec, s.loop.records.lookup r = some rec →
      rec.handler ≠ 0 → status = .ok → .channelReadable ∈ pending) (evt : WatchEvents) (destroysAt : Option Nat)
    (read : ChannelRead) :
    (∃ t, s.dispatch evt r status pending destroysAt read = .ok t ∧ Watched t) ∨
      ∃ e, s.dispatch evt r status pending destroysAt read = .error e ∧ Unreadable e := by
  obtain ⟨loop, rec, henter, hrec, -, -, -, howner, hkept⟩ := h.entered hd hr status
  by_cases hother : rec.handler = 0
  · exact .inl ⟨_, by simp [WatchLoop.dispatch, henter, hother], hother ▸ hkept false⟩
  obtain ⟨w, hp, -⟩ := howner hother
  by_cases hst : status = .ok
  · subst hst
    rcases w.onHandleReady_message evt destroysAt (hpending rec hrec hother rfl) read with ⟨out, hready⟩ | ⟨e, hready, he⟩
    · refine .inl ⟨_, ?_, hkept out.destroyed⟩
      simp [WatchLoop.dispatch, henter, hother, hp, WatchLoop.onHandleReady, hready, insert_self s.watchers hp]
    · refine .inr ⟨e, ?_, he⟩
      simp [WatchLoop.dispatch, henter, hother, hp, WatchLoop.onHandleReady, hready]
  · exact .inl ⟨_, by simp [WatchLoop.dispatch, henter, hother, hp, hst], hkept false⟩

theorem step (h : Watched s) (evt : WatchEvents) (a : WatchAct) (he : (watchMachine evt).Enabled s a)
    (hc : s.Delivers a) :
    (∃ t, (watchMachine evt).step s a = .ok t ∧ Watched t) ∨
      ∃ e, (watchMachine evt).step s a = .error e ∧ Unreadable e := by
  cases a with
  | create handle valid => exact .inl (h.create hc valid he)
  | destroy p =>
    obtain ⟨w, hp⟩ := Option.ne_none_iff_exists'.mp he.1
    exact .inl (h.destroy hp)
  | dispatch r status pending destroysAt read => exact h.dispatch he.1 he.2.1 hc evt destroysAt read
  | callbackReturns =>
    obtain ⟨turn, hd, -⟩ := he
    exact .inl (h.callbackReturns hd)
  | addOther req => exact .inl (h.addOther hc req)
  | removeOther key => exact .inl (h.removeOther he)
  | closeOther handle => exact .inl ⟨_, rfl, h.closeOther he⟩
  | beginShutdown => exact .inl ⟨_, rfl, h.beginShutdown⟩

/-- The peer is gone and there is no message: the loop waits again, on the handle that is now closed. -/
theorem peer_closed (h : Watched s) (hd : s.dispatching = none) {r : RecordPtr} (hr : r ∈ s.loop.loop.registered)
    {rec : HandlerRecord} (hrec : s.loop.records.lookup r = some rec) (hwatcher : rec.handler ≠ 0)
    {pending : MxSignals} (hnone : .channelReadable ∉ pending) (hgone : .channelPeerClosed ∈ pending)
    (evt : WatchEvents) (destroysAt : Option Nat) (read : ChannelRead) :
    ∃ t u, s.dispatch evt r .ok pending destroysAt read = .ok t ∧ t.callbackReturns = .ok u ∧
      u.dispatching = none ∧ r ∈ u.loop.loop.registered ∧ rec.object ∈ u.loop.loop.closed ∧ ¬ u.HandlesOpen := by
  obtain ⟨loop, rec', henter, hrec', hhandlers, hrecords, hremoved, howner, hkept⟩ := h.entered hd hr .ok
  cases hrec.symm.trans hrec'
  obtain ⟨w, hp, hkey, hk⟩ := howner hwatcher
  obtain ⟨rec', hrec'', -, -, hdir, -⟩ := h.registered hp (hkey ▸ hk)
  cases hrec.symm.trans hrec''
  have hcur : loop.currentHandler = some r := ((hkept false).turn.running _ rfl).1
  let closing : MessageLoop := { loop with loop.closed := insert rec.object loop.loop.closed }
  let t : WatchLoop := { s with
    loop := closing
    watchers := s.watchers.insert rec.handler ⟨none, w.handlerKey⟩
    dispatching := some ⟨r, .ok, rec.handler, false⟩ }
  have hready : s.dispatch evt r .ok pending destroysAt read = .ok t := by
    simp [WatchLoop.dispatch, henter, hwatcher, hp, WatchLoop.onHandleReady, DeviceWatcher.onHandleReady, hnone, hgone,
      hdir, close, t, closing]
  have hexit : closing.dispatchExit r .ok = .ok (closing.rearmed r rec.key .ok) :=
    Registry.dispatchExit_rearmed hcur hremoved (by simpa [closing, hrecords] using hrec)
  refine ⟨t, { t with loop := closing.rearmed r rec.key .ok, dispatching := none }, hready, ?_, rfl, ?_, ?_, ?_⟩
  · simp [WatchLoop.callbackReturns, t, hexit]
  · exact Finset.mem_insert_self _ _
  · exact Finset.mem_insert_self _ _
  · intro hopen
    have hlisted : closing.handlers.lookup w.handlerKey = some r :=
      (congrArg (Finmap.lookup w.handlerKey) hhandlers).trans (hkey ▸ hk)
    obtain ⟨_, -, -, hnothing, -⟩ := hopen.listed rec.handler ⟨none, w.handlerKey⟩ r (Finmap.lookup_insert _) hlisted
    cases hnothing

end Watched

end WatchLoop

/-- In every run in which what is ready for a watcher is a message, and keys are left for whoever adds a handler,
whatever waits for a watcher, in `handlers_` or in the async loop, waits on the open handle that the watcher owns;
nothing fails but the decoding of a message. The next dispatch of a watcher whose peer is gone, with no message,
leaves the loop waiting on a handle that is closed. -/
theorem watch_handles_open (evt : WatchEvents) {acts : List WatchAct} {result : Except Fault WatchLoop}
    (hrun : ((watchMachine evt).restrict WatchLoop.Delivers).Run {} acts result) :
    (∃ s, result = .ok s ∧ s.HandlesOpen ∧
      ∀ r pending destroysAt read rec, (watchMachine evt).Enabled s (.dispatch r .ok pending destroysAt read) →
        s.loop.records.lookup r = some rec → rec.handler ≠ 0 → .channelReadable ∉ pending →
        ∃ t u, (watchMachine evt).step s (.dispatch r .ok pending destroysAt read) = .ok t ∧
          (watchMachine evt).step t .callbackReturns = .ok u ∧ u.dispatching = none ∧
          r ∈ u.loop.loop.registered ∧ rec.object ∈ u.loop.loop.closed ∧ ¬ u.HandlesOpen) ∨
      ∃ e, result = .error e ∧ Unreadable e := by
  have hstep (s : WatchLoop) (a : WatchAct) (h : s.Watched) (he : ((watchMachine evt).restrict WatchLoop.Delivers).Enabled s a) :=
    h.step evt a he.1 he.2
  rcases hrun.safe_or hstep .init with ⟨s, rfl, h⟩ | hfault
  · refine .inl ⟨s, rfl, h.handlesOpen, fun r pending destroysAt read rec he hrec hne hnone => ?_⟩
    have hgone := (he.2.2 rec hrec hne rfl).resolve_left hnone
    exact h.peer_closed he.1 he.2.1 hrec hne hnone hgone evt destroysAt read
  · exact .inr hfault

/-- A watcher is created, gets the message of a device "a" beside the close of its peer, and goes on. -/
theorem watch_handles_open_message :
    ∃ s, ((watchMachine ⟨1, 3⟩).restrict WatchLoop.Delivers).Run {}
        [.create 5 (by decide), .dispatch 0 .ok {.channelReadable, .channelPeerClosed} none ⟨.ok, [1, 1, 97, 0, 5], 3⟩,
          .callbackReturns] (.ok s) ∧
      s.HandlesOpen := by
  let req : AddRequest := ⟨1, 5, watchSignals, TimeDelta.max, 0, by decide⟩
  let s : WatchLoop := {
    loop := MessageLoop.registered {} req
    watchers := (∅ : Finmap fun _ : HandlerPtr => DeviceWatcher).insert 1 ⟨some 5, 1⟩
    nextWatcher := 2 }
  let t : WatchLoop := { s with loop := s.loop.entered 0 1 .ok, dispatching := some ⟨0, .ok, 1, false⟩ }
  have hloop : messageLoop ⟨1, 3⟩ none [1, 1, 97, 0, 5] 0 3 {} = .ok ⟨[[97]], false, 5⟩ := by
    simp [messageLoop, WatchEvents.Lists]
  have hready (w : DeviceWatcher) : w.onHandleReady ⟨1, 3⟩ none {.channelReadable, .channelPeerClosed}
      ⟨.ok, [1, 1, 97, 0, 5], 3⟩ = .ok (w, ⟨[[97]], false, 5⟩) := by
    simp [DeviceWatcher.onHandleReady, hloop]
  have henter : s.loop.dispatchEnter 0 .ok = .ok (s.loop.entered 0 1 .ok, req.record 1) := rfl
  have hp : s.watchers.lookup 1 = some ⟨some 5, 1⟩ := rfl
  have hdispatch : s.dispatch ⟨1, 3⟩ 0 .ok {.channelReadable, .channelPeerClosed} none ⟨.ok, [1, 1, 97, 0, 5], 3⟩ = .ok t := by
    simp [WatchLoop.dispatch, henter, req, AddRequest.record, hp, WatchLoop.onHandleReady, hready, insert_self _ hp, t]
  have hrun : ((watchMachine ⟨1, 3⟩).restrict WatchLoop.Delivers).Run {}
      [.create 5 (by decide), .dispatch 0 .ok {.channelReadable, .channelPeerClosed} none ⟨.ok, [1, 1, 97, 0, 5], 3⟩,
        .callbackReturns] (.ok _) :=
    .step ⟨WatchLoop.unowned_init 5, by unfold WatchLoop.Delivers MessageLoop.KeysLeft; decide⟩ (t := s) rfl
      (.step ⟨⟨rfl, by decide, fun _ _ _ _ => by decide⟩, fun _ _ _ _ => by decide⟩ hdispatch
        (.step ⟨⟨_, rfl, fun hd => absurd hd (by decide)⟩, trivial⟩ rfl (.nil _)))
  rcases watch_handles_open ⟨1, 3⟩ hrun with ⟨s, hs, hopen, -⟩ | ⟨e, he, -⟩
  · cases hs
    exact ⟨_, hrun, hopen⟩
  · cases he

/-- The peer of a watcher closes its end. Between dispatches the loop then waits on the closed handle, and to
destroy the watcher is to cancel that wait. -/
theorem closed_watch_waits_again :
    ∃ s t, (watchMachine ⟨1, 3⟩).Run {}
        [.create 5 (by decide), .dispatch 0 .ok {.channelPeerClosed} none ⟨.ok, [], 0⟩, .callbackReturns] (.ok s) ∧
      s.dispatching = none ∧ s.watchers.lookup 1 = some ⟨none, 1⟩ ∧ s.loop.handlers.lookup 1 = some 0 ∧
      (∃ rec, s.loop.records.lookup 0 = some rec ∧ rec.object = 5 ∧ 5 ∈ s.loop.loop.closed ∧
        (s.loop.loop.cancel 0 rec.object).2 = .errBadHandle) ∧
      (watchMachine ⟨1, 3⟩).step s (.destroy 1) = .ok t ∧ ¬ s.HandlesOpen := by
  have hrun : (watchMachine ⟨1, 3⟩).Run {}
      [.create 5 (by decide), .dispatch 0 .ok {.channelPeerClosed} none ⟨.ok, [], 0⟩, .callbackReturns] (.ok _) :=
    .step (WatchLoop.unowned_init 5) rfl
      (.step ⟨rfl, by decide, fun _ _ _ _ => by decide⟩ rfl (.step ⟨_, rfl, by simp⟩ rfl (.nil _)))
  refine ⟨_, _, hrun, rfl, rfl, rfl, ⟨_, rfl, rfl, by decide, rfl⟩, rfl, fun hopen => ?_⟩
  obtain ⟨_, -, -, hdir, -⟩ := hopen.listed 1 ⟨none, 1⟩ 0 rfl rfl
  cases hdir

end Mtl.Io
