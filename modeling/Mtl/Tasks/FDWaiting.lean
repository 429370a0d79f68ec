import Mtl.Tasks.FDWaiter

/-! The members of an `FDWaiter`, its reference to the `mxio_t` and its registration move together, in
and out of callbacks. -/
namespace Mtl.Tasks
open Foundation

namespace FDWaiters

def held (s : FDWaiters) (p : HandlerPtr) : Option HandlerKey :=
  (s.waiters.lookup p).bind fun waiter => if waiter.key = 0 then none else some waiter.key

/-- `io_` of a live waiter. -/
def io (s : FDWaiters) (p : HandlerPtr) : Option Mxio := (s.waiters.lookup p).bind FDWaiter.io

/-- The wait that the waiter at `p` is in. -/
def waitOf (s : FDWaiters) (p : HandlerPtr) : Option WaitNo := (s.waiters.lookup p).bind FDWaiter.callback

/-- `handlers_` contains `key` for the handler at `p`. -/
def Registered (s : FDWaiters) (p : HandlerPtr) (key : HandlerKey) : Prop :=
  ∃ r rec, s.loop.handlers.lookup key = some r ∧ s.loop.records.lookup r = some rec ∧ rec.handler = p

end FDWaiters

/-- A waiter that waits, with all that it then has. -/
structure FDWaiter.Waits (waiter : FDWaiter) (wait : WaitNo) : Prop where
  io : waiter.io ≠ none
  key : waiter.key ≠ 0
  callback : waiter.callback = some wait

/-- The members and the history agree on each waiter and on each wait. -/
structure FDBooks (s : FDWaiters) : Prop where
  first : 0 < s.nextWaiter
  made : ∀ p, s.waiters.lookup p ≠ none → 0 < p ∧ p < s.nextWaiter
  whole : ∀ p waiter, s.waiters.lookup p = some waiter → waiter = {} ∨ ∃ wait < s.nextWait, waiter.Waits wait
  references : ∀ p, s.log.count (.acquired p) = s.log.count (.released p) + if s.io p = none then 0 else 1
  returned : ∀ n, s.log.count (.returned n true) + s.log.count (.returned n false) = if n < s.nextWait then 1 else 0
  distinct : ∀ p p' n, s.waitOf p = some n → s.waitOf p' = some n → p = p'
  waiting : ∀ p n, s.waitOf p = some n → s.log.count (.returned n true) = 1 ∧ s.log.count (.called n) = 0 ∧
    s.log.count (.cancelled n) = 0
  ended : ∀ n, (∀ p, s.waitOf p ≠ some n) → s.log.count (.called n) + s.log.count (.cancelled n) =
    s.log.count (.returned n true)

namespace FDBooks
variable {s : FDWaiters} {p : HandlerPtr} {waiter : FDWaiter}

theorem init : FDBooks {} := by
  constructor
  all_goals simp [FDWaiters.waitOf, FDWaiters.io]

theorem loop (h : FDBooks s) (loop : MessageLoop) (dispatching : Option (RecordPtr × MxStatus)) :
    FDBooks { s with loop := loop, dispatching := dispatching } :=
  ⟨h.first, h.made, h.whole, h.references, h.returned, h.distinct, h.waiting, h.ended⟩

/-- A new waiter. -/
theorem create (h : FDBooks s) : FDBooks s.create := by
  have hnew : s.waiters.lookup s.nextWaiter = none := by
    by_contra hne
    exact Nat.lt_irrefl _ (h.made _ hne).2
  obtain ⟨h1, h2, h3, h4, h5, h6, h7, h8⟩ := h
  refine ⟨Nat.succ_pos _, ?_, ?_, ?_, h5, ?_, ?_, ?_⟩
  all_goals simp only [FDWaiters.create, FDWaiters.io, FDWaiters.waitOf, lookup_insert_eq] at *
  all_goals grind

/-- A `Wait` that returns false, with or without a reference that it gave back. -/
theorem refuse (h : FDBooks s) (hp : s.waiters.lookup p = some {}) {waiters : Finmap fun _ : HandlerPtr => FDWaiter}
    (hw : ∀ p, waiters.lookup p = s.waiters.lookup p) {calls : List FDEvent}
    (hcalls : calls = [] ∨ calls = [.released p, .acquired p]) :
    FDBooks { s with
      waiters := waiters
      nextWait := s.nextWait + 1
      log := .returned s.nextWait false :: calls ++ s.log } := by
  obtain ⟨h1, h2, h3, h4, h5, h6, h7, h8⟩ := h
  refine ⟨h1, ?_, ?_, ?_, ?_, ?_, ?_, ?_⟩
  all_goals simp only [FDWaiters.io, FDWaiters.waitOf, hw] at *
  · exact h2
  · intro p' waiter hlookup
    rcases h3 p' waiter hlookup with hidle | ⟨wait, hlt, hwaits⟩
    · exact .inl hidle
    · exact .inr ⟨wait, Nat.lt_succ_of_lt hlt, hwaits⟩
  case refine_5 => exact h6
  all_goals
    rcases hcalls with rfl | rfl
    all_goals
      simp only [List.cons_append, List.nil_append, List.count_cons]
      grind

/-- The next wait is not under way. -/
theorem fresh (h : FDBooks s) (p : HandlerPtr) : s.waitOf p ≠ some s.nextWait := by
  intro hp
  have hreturned := h.returned s.nextWait
  rw [(h.waiting p _ hp).1, if_neg (Nat.lt_irrefl _)] at hreturned
  omega

/-- A `Wait` that returns true. -/
theorem begin (h : FDBooks s) (hp : s.waiters.lookup p = some {}) (hwaits : waiter.Waits s.nextWait)
    (loop : MessageLoop) :
    FDBooks { s with
      loop := loop
      waiters := s.waiters.insert p waiter
      nextWait := s.nextWait + 1
      log := .returned s.nextWait true :: .acquired p :: s.log } := by
  have hfresh := h.fresh
  have hnone := h.returned s.nextWait
  have hended := h.ended s.nextWait hfresh
  rw [if_neg (Nat.lt_irrefl _)] at hnone
  obtain ⟨h1, h2, h3, h4, h5, h6, h7, h8⟩ := h
  have hio := hwaits.io
  have hcallback := hwaits.callback
  refine ⟨h1, ?_, ?_, ?_, ?_, ?_, ?_, ?_⟩
  case refine_2 =>
    intro p' waiter' hlookup
    rw [lookup_insert_eq] at hlookup
    split_ifs at hlookup with heq
    · cases hlookup
      exact .inr ⟨_, Nat.lt_succ_self _, hwaits⟩
    · rcases h3 p' waiter' hlookup with hidle | ⟨wait, hlt, hwaits'⟩
      · exact .inl hidle
      · exact .inr ⟨wait, Nat.lt_succ_of_lt hlt, hwaits'⟩
  all_goals simp only [FDWaiters.io, FDWaiters.waitOf, lookup_insert_eq, List.count_cons] at *
  all_goals grind

/-- The end of a wait, by `Cancel` or by its callback. -/
theorem finish (h : FDBooks s) {wait : WaitNo} (hp : s.waiters.lookup p = some waiter) (hwaits : waiter.Waits wait)
    (loop : MessageLoop) {e : FDEvent} (he : e = .called wait ∨ e = .cancelled wait) :
    FDBooks { s with
      loop := loop
      waiters := s.waiters.insert p {}
      log := e :: .released p :: s.log } := by
  obtain ⟨hio, hkey, hcallback⟩ := hwaits
  obtain ⟨h1, h2, h3, h4, h5, h6, h7, h8⟩ := h
  refine ⟨h1, ?_, ?_, ?_, ?_, ?_, ?_, ?_⟩
  all_goals simp only [FDWaiters.io, FDWaiters.waitOf, lookup_insert_eq, List.count_cons] at *
  all_goals grind [FDWaiter.Waits]

/-- The destruction of an idle waiter. -/
theorem destroy (h : FDBooks s) (hp : s.waiters.lookup p = some {}) :
    FDBooks { s with waiters := s.waiters.erase p } := by
  obtain ⟨h1, h2, h3, h4, h5, h6, h7, h8⟩ := h
  refine ⟨h1, ?_, ?_, ?_, h5, ?_, ?_, ?_⟩
  all_goals simp only [FDWaiters.io, FDWaiters.waitOf, lookup_erase_eq] at *
  all_goals grind

end FDBooks

/-- The waiters, in and out of callbacks, with and without a loop. No wait outlives the loop. -/
structure FDSound (s : FDWaiters) : Prop where
  books : FDBooks s
  turn : CallbackTurn s.dispatching s.loop
  holds : Holds (fun _ => False) s.loop s.held ∨
    (s.loop.current = false ∧ s.loop.handlers = ∅ ∧ s.dispatching = none ∧
      ∀ p waiter, s.waiters.lookup p = some waiter → waiter = {})

theorem held_insert_waiter {s : FDWaiters} (p : HandlerPtr) (waiter : FDWaiter) (loop : MessageLoop) :
    FDWaiters.held { s with loop := loop, waiters := s.waiters.insert p waiter } =
      Function.update s.held p (if waiter.key = 0 then none else some waiter.key) := by
  funext p'
  simp only [FDWaiters.held, lookup_insert_eq, Function.update_apply]
  split_ifs <;> simp_all

namespace FDSound
variable {s : FDWaiters} {p : HandlerPtr} {waiter : FDWaiter} {wait : WaitNo}

theorem init : FDSound {} := ⟨.init, ⟨fun _ => rfl, by simp⟩, .inl (.init _)⟩

/-- The loop is there as long as its destructor has not come to its end. -/
theorem attached (h : FDSound s) (hcur : s.loop.current = true) : Holds (fun _ => False) s.loop s.held := by
  refine h.holds.resolve_right fun hgone => ?_
  rw [hcur] at hgone
  exact absurd hgone.1 (by decide)

/-- A wait needs the loop. -/
theorem waits_attached (h : FDSound s) (hp : s.waiters.lookup p = some waiter) (hw : waiter.Waits wait) :
    Holds (fun _ => False) s.loop s.held := by
  refine h.holds.resolve_right fun hgone => ?_
  have hidle := hgone.2.2.2 p waiter hp
  exact hw.key (by rw [hidle])

theorem held_waits (hp : s.waiters.lookup p = some waiter) (hw : waiter.Waits wait) : s.held p = some waiter.key := by
  rw [FDWaiters.held, hp, Option.bind_some, if_neg hw.key]

theorem held_idle (hp : s.waiters.lookup p = some {}) : s.held p = none := by
  rw [FDWaiters.held, hp]
  rfl

/-- What `Cancel` does on the loop when the waiter waits. -/
theorem unregister (hholds : Holds (fun _ => False) s.loop s.held) (hp : s.waiters.lookup p = some waiter)
    (hw : waiter.Waits wait) :
    ∃ loop, s.loop.current = true ∧ s.loop.removeHandler waiter.key = .ok loop ∧ SameCallback s.loop loop ∧
      loop.additions = s.loop.additions ∧
      Holds (fun _ => False) loop (FDWaiters.held { s with loop := loop, waiters := s.waiters.insert p {} }) ∧
      (∀ r rec, s.loop.currentHandler = some r → s.loop.records.lookup r = some rec → rec.handler = p →
        loop.currentHandlerRemoved = true) := by
  obtain ⟨-, loop, hremove, hholds', hsame, hcount, hremoved⟩ := hholds.release (held_waits hp hw)
  refine ⟨loop, hholds.registry.attached, hremove, hsame, hcount, ?_, hremoved⟩
  rw [held_insert_waiter]
  exact hholds'

theorem create (h : FDSound s) : FDSound s.create := by
  have hnew : s.waiters.lookup s.nextWaiter = none := by
    by_contra hne
    exact Nat.lt_irrefl _ (h.books.made _ hne).2
  refine ⟨h.books.create, h.turn,
    h.holds.imp (fun hholds => ?_) fun ⟨hgone, hempty, hd, hidle⟩ => ⟨hgone, hempty, hd, ?_⟩⟩
  · have hheld := held_insert_waiter (s := s) s.nextWaiter {} s.loop
    have hnone : s.held s.nextWaiter = none := by rw [FDWaiters.held, hnew, Option.bind_none]
    rw [if_pos rfl, ← hnone, Function.update_eq_self] at hheld
    exact hheld ▸ hholds
  · intro p waiter hp
    simp only [FDWaiters.create, lookup_insert_eq] at hp
    split_ifs at hp with heq
    · exact (Option.some.inj hp).symm
    · exact hidle p waiter hp

/-- `Cancel` of a wait. -/
theorem cancel (h : FDSound s) (hp : s.waiters.lookup p = some waiter) (hw : waiter.Waits wait) :
    ∃ t, s.cancel p = .ok t ∧ FDSound t ∧ t.waiters.lookup p = some {} ∧ SameCallback s.loop t.loop ∧
      t.loop.additions = s.loop.additions := by
  obtain ⟨loop, hcur, hremove, hsame, hcount, hholds, -⟩ := unregister (h.waits_attached hp hw) hp hw
  obtain ⟨io, hio⟩ := Option.ne_none_iff_exists'.mp hw.io
  refine ⟨{ s with loop := loop, waiters := s.waiters.insert p {}, log := .cancelled wait :: .released p :: s.log }, ?_,
    ⟨h.books.finish hp hw loop (.inr rfl), h.turn.same hsame, .inl hholds⟩, Finmap.lookup_insert _, hsame, hcount⟩
  simp [FDWaiters.cancel, hp, hio, hw.key, hw.callback, hcur, hremove, FDWaiters.note, FDWaiters.dropCallback]

theorem destroy (h : FDSound s) (hp : s.waiters.lookup p = some waiter) :
    ∃ t, s.destroy p = .ok t ∧ FDSound t := by
  have hidle {u : FDWaiters} (hu : FDSound u) (hnone : u.waiters.lookup p = some {}) :
      FDSound { u with waiters := u.waiters.erase p } := by
    refine ⟨hu.books.destroy hnone, hu.turn,
      hu.holds.imp (fun hholds => ?_) fun ⟨hgone, hempty, hd, hall⟩ => ⟨hgone, hempty, hd, ?_⟩⟩
    · have hheld : FDWaiters.held { u with waiters := u.waiters.erase p } = u.held := by
        funext p'
        simp only [FDWaiters.held, lookup_erase_eq]
        split_ifs with heq
        · rw [heq, hnone]
          rfl
        · rfl
      exact hheld ▸ hholds
    · intro p' waiter' hp'
      exact hall p' waiter' (lookup_of_erase hp')
  rcases h.books.whole p waiter hp with rfl | ⟨wait, -, hw⟩
  · exact ⟨_, by simp [FDWaiters.destroy, hp], hidle h hp⟩
  · obtain ⟨t, ht, hsound, hnone, -⟩ := h.cancel hp hw
    exact ⟨_, by simp [FDWaiters.destroy, hp, hw.io, ht, hnone], hidle hsound hnone⟩

/-- A `Wait` on no descriptor, or on one that cannot be waited on. -/
theorem wait_refused (h : FDSound s) (hp : s.waiters.lookup p = some {}) {req : WaitRequest}
    (hreq : req.io = none ∨ req.handle = 0) :
    ∃ t, s.wait p req = .ok (t, false) ∧ FDSound t ∧ t.waiters.lookup p = some {} ∧ t.loop = s.loop := by
  have hsame (waiters : Finmap fun _ : HandlerPtr => FDWaiter) (hwaiters : ∀ p, waiters.lookup p = s.waiters.lookup p)
      {calls : List FDEvent} (hcalls : calls = [] ∨ calls = [.released p, .acquired p]) :
      FDSound { s with
        waiters := waiters
        nextWait := s.nextWait + 1
        log := .returned s.nextWait false :: calls ++ s.log } := by
    have hwaiters' : waiters = s.waiters := Finmap.ext_lookup hwaiters
    exact ⟨h.books.refuse hp hwaiters hcalls, h.turn, by rw [hwaiters']; exact h.holds⟩
  by_cases hio : req.io = none
  · exact ⟨_, by simp [FDWaiters.wait, hp, hio, FDWaiters.note], hsame s.waiters (fun _ => rfl) (.inl rfl), hp, rfl⟩
  · obtain ⟨io, hio'⟩ := Option.ne_none_iff_exists'.mp hio
    refine ⟨{ s with
        waiters := (s.waiters.insert p { io := some io }).insert p {}
        nextWait := s.nextWait + 1
        log := .returned s.nextWait false :: .released p :: .acquired p :: s.log }, ?_,
      hsame ((s.waiters.insert p { io := some io }).insert p {}) ?_ (.inr rfl), Finmap.lookup_insert _, rfl⟩
    · simp [FDWaiters.wait, hp, hio', hreq.resolve_left hio, FDWaiters.note, FDWaiters.cancel, FDWaiters.dropCallback]
    · intro p'
      rw [lookup_insert_eq, lookup_insert_eq]
      split_ifs with heq
      · rw [heq, hp]
      · rfl

/-- A `Wait` that the loop accepts. -/
theorem wait_accepted (h : FDSound s) (hp : s.waiters.lookup p = some {}) {req : WaitRequest} (hio : req.io ≠ none)
    (hh : req.handle ≠ 0) (hcur : s.loop.current = true) (hs : s.loop.loop.shutDown = false) (hn : s.loop.KeysLeft 1) :
    ∃ t waiter, s.wait p req = .ok (t, true) ∧ FDSound t ∧ t.waiters.lookup p = some waiter ∧
      waiter.Waits s.nextWait ∧ Holds (fun _ => False) t.loop t.held ∧ SameCallback s.loop t.loop ∧
      t.loop.additions = s.loop.additions + 1 := by
  obtain ⟨io, hio'⟩ := Option.ne_none_iff_exists'.mp hio
  have hholds := h.attached hcur
  have hpos : p ≠ 0 := Nat.pos_iff_ne_zero.mp (h.books.made p (by simp [hp])).1
  obtain ⟨loop, hadd, hholds', hsame, hcount⟩ := hholds.addHandler hn
    ⟨p, req.handle, req.signals, req.timeout, req.now, hh⟩ hpos (held_idle hp) (by simp [hs])
  have hkey : s.loop.nextHandlerKey ≠ 0 := by
    intro hzero
    have hnext := hholds.next_key hn
    rw [hzero] at hnext
    exact absurd hnext (by simp)
  have hwaits : FDWaiter.Waits ⟨some io, s.loop.nextHandlerKey, some s.nextWait⟩ s.nextWait := ⟨by simp, hkey, rfl⟩
  have hheld := held_insert_waiter (s := s) p ⟨some io, s.loop.nextHandlerKey, some s.nextWait⟩ loop
  rw [if_neg hkey] at hheld
  rw [← hheld] at hholds'
  refine ⟨{ s with
      loop := loop
      waiters := s.waiters.insert p ⟨some io, s.loop.nextHandlerKey, some s.nextWait⟩
      nextWait := s.nextWait + 1
      log := .returned s.nextWait true :: .acquired p :: s.log }, _, ?_,
    ⟨h.books.begin hp hwaits loop, h.turn.same hsame, .inl hholds'⟩, Finmap.lookup_insert _, hwaits, hholds', hsame,
    hcount⟩
  simp [FDWaiters.wait, hp, hio', hh, hcur, hadd, FDWaiters.note, Finmap.insert_insert]

theorem onHandleReady_eq (hp : s.waiters.lookup p = some waiter) (hw : waiter.Waits wait) :
    s.onHandleReady p = s.onHandleError p := by
  simp [FDWaiters.onHandleReady, hp, hw.key, hw.io]

/-- The call of the callback. -/
theorem onHandleError (hholds : Holds (fun _ => False) s.loop s.held) (hp : s.waiters.lookup p = some waiter)
    (hw : waiter.Waits wait) :
    ∃ loop, s.onHandleError p = .ok { s with
          loop := loop
          waiters := s.waiters.insert p {}
          log := .called wait :: .released p :: s.log } ∧
      SameCallback s.loop loop ∧
      Holds (fun _ => False) loop (FDWaiters.held { s with loop := loop, waiters := s.waiters.insert p {} }) ∧
      (∀ r rec, s.loop.currentHandler = some r → s.loop.records.lookup r = some rec → rec.handler = p →
        loop.currentHandlerRemoved = true) := by
  obtain ⟨loop, hcur, hremove, hsame, -, hholds', hremoved⟩ := unregister hholds hp hw
  obtain ⟨io, hio⟩ := Option.ne_none_iff_exists'.mp hw.io
  refine ⟨loop, ?_, hsame, hholds', hremoved⟩
  simp [FDWaiters.onHandleError, hp, hw.key, hio, hw.callback, FDWaiters.cancel, hcur, hremove, FDWaiters.note,
    FDWaiters.dropCallback, Finmap.insert_insert]

/-- A dispatch: the waiter is idle again when its callback is called. -/
theorem dispatch (h : FDSound s) (hd : s.dispatching = none) (hcur : s.loop.current = true) {r : RecordPtr}
    (hr : r ∈ s.loop.loop.registered) (status : MxStatus) :
    ∃ t rec, s.dispatch r status = .ok t ∧ FDSound t ∧ s.loop.records.lookup r = some rec ∧
      (rec.handler ≠ 0 → ∃ waiter wait, s.waiters.lookup rec.handler = some waiter ∧ waiter.Waits wait ∧
        t.waiters.lookup rec.handler = some {} ∧ t.log = .called wait :: .released rec.handler :: s.log) := by
  obtain ⟨loop, rec, henter, hholds, hrun, hshut, hstart, -, hrecords, hrec, -, hheld⟩ :=
    (h.attached hcur).dispatchEnter (h.turn.idle hd) hr status
  have hrec' : s.loop.records.lookup r = some rec := by rw [← hrecords, hrec]
  by_cases hother : rec.handler = 0
  · refine ⟨{ s with loop := loop, dispatching := some (r, status) }, rec, by simp [FDWaiters.dispatch, henter, hother],
      ⟨h.books.loop loop _, ⟨by simp, ?_⟩, .inl hholds⟩, hrec', fun hne => absurd hother hne⟩
    rintro r' status' ⟨⟩
    exact ⟨hrun, ⟨rec.key, hstart⟩, rec, hrec, .inr hother⟩
  · obtain ⟨waiter, hp, hkey⟩ := Option.bind_eq_some_iff.mp (hheld hother)
    obtain ⟨wait, hw⟩ : ∃ wait, waiter.Waits wait := by
      rcases h.books.whole rec.handler waiter hp with rfl | ⟨wait, -, hw⟩
      · simp at hkey
      · exact ⟨wait, hw⟩
    let u : FDWaiters := { s with loop := loop, dispatching := some (r, status) }
    have hready : u.onHandleReady rec.handler = u.onHandleError rec.handler := onHandleReady_eq hp hw
    obtain ⟨loop', hcall, hsame, hholds', hremoved⟩ := onHandleError (s := u) hholds hp hw
    refine ⟨_, rec, ?_, ⟨(h.books.loop loop (some (r, status))).finish hp hw loop' (.inl rfl), ⟨by simp, ?_⟩,
      .inl hholds'⟩, hrec', fun _ => ⟨waiter, wait, hp, hw, Finmap.lookup_insert _, rfl⟩⟩
    · rw [FDWaiters.dispatch, henter, ok_bind]
      change (if rec.handler = 0 then _ else if status = .ok then u.onHandleReady rec.handler else _) = _
      rw [if_neg hother, hready, ite_self]
      exact hcall
    · rintro r' status' ⟨⟩
      exact ⟨hsame.running.trans hrun, ⟨rec.key, hsame.started.trans hstart⟩, rec,
        (hsame.record r hrun).trans hrec, .inl (hremoved r rec hrun hrec rfl)⟩

/-- The callback returns, whatever it did to its waiter. -/
theorem callbackReturns (h : FDSound s) (hd : s.dispatching ≠ none) :
    ∃ t, s.callbackReturns = .ok t ∧ FDSound t := by
  obtain ⟨⟨r, status⟩, hsome⟩ := Option.ne_none_iff_exists'.mp hd
  have hholds := h.holds.resolve_right fun hgone => hd hgone.2.2.1
  obtain ⟨hcur, ⟨key, hstart⟩, rec, hrec, hout⟩ := h.turn.running r status hsome
  obtain ⟨loop, hexit, hholds', hidle, -⟩ := hholds.dispatchExit hcur hstart hrec (hout.imp_right fun h => .inr (.inl h))
  exact ⟨{ s with loop := loop, dispatching := none }, by simp [FDWaiters.callbackReturns, hsome, hexit],
    h.books.loop loop none, ⟨fun _ => hidle, by simp⟩, .inl hholds'⟩

theorem addOther (h : FDSound s) (hcur : s.loop.current = true) (hn : s.loop.KeysLeft 1) (req : AddRequest) :
    ∃ t, s.addOther req = .ok t ∧ FDSound t := by
  obtain ⟨loop, hadd, hholds, hsame, -⟩ := (h.attached hcur).addOther hn { req with handler := 0 } rfl
  exact ⟨{ s with loop := loop }, by simp [FDWaiters.addOther, hadd], h.books.loop loop _, h.turn.same hsame, .inl hholds⟩

theorem removeOther (h : FDSound s) (hcur : s.loop.current = true) {key : HandlerKey}
    (hkey : ∀ p waiter, s.waiters.lookup p = some waiter → waiter.key ≠ key) :
    ∃ t, s.removeOther key = .ok t ∧ FDSound t := by
  obtain ⟨loop, hremove, hholds, hsame, -⟩ := (h.attached hcur).removeHandler key
  have hfree (p : HandlerPtr) : s.held p ≠ some key := by
    intro hheld
    obtain ⟨waiter, hp, hkey'⟩ := Option.bind_eq_some_iff.mp hheld
    split_ifs at hkey' with hzero
    exact hkey p waiter hp (Option.some.inj hkey')
  rw [Holds.dropKey_free hfree] at hholds
  exact ⟨{ s with loop := loop }, by simp [FDWaiters.removeOther, hremove], h.books.loop loop _, h.turn.same hsame,
    .inl hholds⟩

theorem finishDestruction (h : FDSound s) (hd : s.dispatching = none) (hcur : s.loop.current = true)
    (hr : s.loop.loop.registered = ∅) : ∃ t, s.finishDestruction = .ok t ∧ FDSound t := by
  obtain ⟨hempty, hlost⟩ := (h.attached hcur).lost_of_drained (h.turn.idle hd) hr
  refine ⟨{ s with loop := { s.loop with current := false } },
    by simp [FDWaiters.finishDestruction, MessageLoop.finishDestruction, hempty], h.books.loop _ _,
    ⟨h.turn.idle, h.turn.running⟩, .inr ⟨rfl, hempty, hd, fun p waiter hp => ?_⟩⟩
  rcases h.books.whole p waiter hp with hidle | ⟨wait, -, hw⟩
  · exact hidle
  · exact (hlost p waiter.key (held_waits hp hw)).elim

/-- The three signs that a waiter waits. -/
theorem registered_iff (h : FDSound s) (hp : s.waiters.lookup p = some waiter) :
    (waiter.io ≠ none ↔ waiter.key ≠ 0) ∧ (waiter.key ≠ 0 ↔ s.Registered p waiter.key) := by
  rcases h.books.whole p waiter hp with rfl | ⟨wait, -, hw⟩
  · refine ⟨by simp, iff_of_false (by simp) ?_⟩
    rintro ⟨r, rec, hk, -⟩
    rcases h.holds with hholds | ⟨-, hempty, -⟩
    · exact absurd (hholds.registry.handler_key hk).1 (by simp)
    · rw [hempty, Finmap.lookup_empty] at hk
      cases hk
  · refine ⟨iff_of_true hw.io hw.key, iff_of_true hw.key ?_⟩
    have hholds := h.waits_attached hp hw
    have hheld := held_waits hp hw
    obtain ⟨r, hk⟩ := Option.ne_none_iff_exists'.mp fun hnone => hholds.kept p waiter.key hheld hnone
    obtain ⟨rec, hrec, -⟩ := Option.map_eq_some_iff.mp (hholds.registry.keyed _ r hk)
    exact ⟨r, rec, hk, hrec, hholds.own _ r rec p hk hrec hheld⟩

/-- A wait on a descriptor that can be waited on is made only while the loop accepts handlers. -/
def Timely (s : FDWaiters) : FDAct → Prop
  | .wait _ req => req.io ≠ none → req.handle ≠ 0 → s.loop.loop.shutDown = false
  | _ => True

theorem idle_of_enabled (h : FDSound s) (hio : ∃ waiter, s.waiters.lookup p = some waiter ∧ waiter.io = none) :
    s.waiters.lookup p = some {} := by
  obtain ⟨waiter, hp, hio⟩ := hio
  rcases h.books.whole p waiter hp with rfl | ⟨wait, -, hw⟩
  · exact hp
  · exact absurd hio hw.io

theorem step (h : FDSound s) (a : FDAct) (he : fdMachine.Enabled s a) (ht : Timely s a) (hn : s.loop.KeysLeft a.adds) :
    ∃ t, fdMachine.step s a = .ok t ∧ FDSound t := by
  cases a with
  | create => exact ⟨_, rfl, h.create⟩
  | wait p req =>
    have hp := h.idle_of_enabled he.2
    by_cases hreq : req.io = none ∨ req.handle = 0
    · obtain ⟨t, heq, hsound, -⟩ := h.wait_refused hp hreq
      exact ⟨t, by simp [fdMachine, heq], hsound⟩
    · obtain ⟨hio, hh⟩ := not_or.mp hreq
      obtain ⟨t, -, heq, hsound, -⟩ := h.wait_accepted hp hio hh he.1 (ht hio hh) hn
      exact ⟨t, by simp [fdMachine, heq], hsound⟩
  | cancel p =>
    obtain ⟨waiter, hp, hio⟩ := he
    rcases h.books.whole p waiter hp with rfl | ⟨wait, -, hw⟩
    · exact absurd rfl hio
    · obtain ⟨t, heq, hsound, -⟩ := h.cancel hp hw
      exact ⟨t, heq, hsound⟩
  | destroy p =>
    obtain ⟨waiter, hp⟩ := Option.ne_none_iff_exists'.mp he
    exact h.destroy hp
  | dispatch r status =>
    obtain ⟨t, -, heq, hsound, -⟩ := h.dispatch he.1 he.2.1 he.2.2.1 status
    exact ⟨t, heq, hsound⟩
  | callbackReturns => exact h.callbackReturns he
  | addOther req => exact h.addOther he hn req
  | removeOther key => exact h.removeOther he.1 he.2
  | beginShutdown =>
    exact ⟨_, rfl, h.books.loop _ _, ⟨h.turn.idle, h.turn.running⟩, .inl (h.attached he.2.1).beginShutdown⟩
  | finishDestruction => exact h.finishDestruction he.1 he.2.1 he.2.2.2

end FDSound

/-- Every state of every run whose waits come in time and whose keys last. -/
theorem FDSound.of_run {acts : List FDAct} {result : Except Fault FDWaiters}
    (hrun : (fdMachine.restrict fun s a => FDSound.Timely s a ∧ s.loop.KeysLeft a.adds).Run {} acts result) :
    ∃ s, result = .ok s ∧ FDSound s := by
  refine hrun.safe (I := FDSound) (fun s a h he => ?_) .init
  exact h.step a he.1 he.2.1 he.2.2

/-- What a `Wait` that returned false has found. -/
theorem wait_false {s t : FDWaiters} {p : HandlerPtr} {req : WaitRequest} (hp : s.waiters.lookup p = some {})
    (h : s.wait p req = .ok (t, false)) : req.io = none ∨ req.handle = 0 := by
  by_contra hreq
  obtain ⟨hio, hh⟩ := not_or.mp hreq
  obtain ⟨io, hio'⟩ := Option.ne_none_iff_exists'.mp hio
  cases hcur : s.loop.current with
  | false => simp [FDWaiters.wait, hp, hio', hh, hcur, FDWaiters.note] at h
  | true =>
    cases hadd : s.loop.addHandler ⟨p, req.handle, req.signals, req.timeout, req.now, hh⟩ with
    | error e => simp [FDWaiters.wait, hp, hio', hh, hcur, hadd, FDWaiters.note] at h
    | ok out => simp [FDWaiters.wait, hp, hio', hh, hcur, hadd, FDWaiters.note] at h

/-- While the loop is not shutting down and its keys last: a waiter holds its reference and its
registration exactly while it waits; a wait has one end, or is under way; a `Wait` that returned false
leaves no trace; and a dispatch finds a wait and calls its callback once, with the waiter idle. -/
theorem fd_waiter_one_shot {acts : List FDAct} {result : Except Fault FDWaiters}
    (hrun : (fdMachine.restrict fun s a => s.loop.loop.shutDown = false ∧ s.loop.KeysLeft a.adds).Run {} acts result) :
    ∃ s, result = .ok s ∧
      (∀ p waiter, s.waiters.lookup p = some waiter →
        (waiter.io ≠ none ↔ waiter.key ≠ 0) ∧ (waiter.key ≠ 0 ↔ s.Registered p waiter.key)) ∧
      (∀ p, s.log.count (.acquired p) = s.log.count (.released p) + if s.io p = none then 0 else 1) ∧
      (∀ n, s.log.count (.returned n true) + s.log.count (.returned n false) ≤ 1 ∧
        ((∃ p, s.waitOf p = some n) → s.log.count (.returned n true) = 1 ∧ s.log.count (.called n) = 0 ∧
          s.log.count (.cancelled n) = 0) ∧
        ((∀ p, s.waitOf p ≠ some n) →
          s.log.count (.called n) + s.log.count (.cancelled n) = s.log.count (.returned n true))) ∧
      (∀ p req t, fdMachine.Enabled s (.wait p req) → s.wait p req = .ok (t, false) →
        t.waiters.lookup p = some {} ∧ t.loop = s.loop) ∧
      (∀ r status, fdMachine.Enabled s (.dispatch r status) → ∃ t rec, s.dispatch r status = .ok t ∧
        s.loop.records.lookup r = some rec ∧ (rec.handler ≠ 0 → ∃ wait, s.waitOf rec.handler = some wait ∧
          t.waiters.lookup rec.handler = some {} ∧ t.log = .called wait :: .released rec.handler :: s.log)) := by
  have hsound : ∃ s, result = .ok s ∧ FDSound s := by
    refine hrun.safe (I := FDSound) (fun s a h he => ?_) .init
    refine h.step a he.1 ?_ he.2.2
    cases a with
    | wait => exact fun _ _ => he.2.1
    | create | cancel | destroy | dispatch | callbackReturns | addOther | removeOther | beginShutdown
      | finishDestruction => trivial
  obtain ⟨s, rfl, h⟩ := hsound
  refine ⟨s, rfl, fun p waiter hp => h.registered_iff hp, h.books.references, fun n => ⟨?_, ?_, h.books.ended n⟩, ?_, ?_⟩
  · rw [h.books.returned n]
    split_ifs <;> simp
  · rintro ⟨p, hp⟩
    exact h.books.waiting p n hp
  · intro p req t he hfalse
    have hp := h.idle_of_enabled he.2
    obtain ⟨u, hu, -, hidle, hloop⟩ := h.wait_refused hp (wait_false hp hfalse)
    obtain rfl : u = t := (Prod.mk.inj (Except.ok.inj (hu.symm.trans hfalse))).1
    exact ⟨hidle, hloop⟩
  · intro r status he
    obtain ⟨t, rec, ht, -, hrec, hcall⟩ := h.dispatch he.1 he.2.1 he.2.2.1 status
    refine ⟨t, rec, ht, hrec, fun hne => ?_⟩
    obtain ⟨waiter, wait, hp, hw, hidle, hlog⟩ := hcall hne
    exact ⟨wait, by rw [FDWaiters.waitOf, hp]; exact hw.callback, hidle, hlog⟩

/-- A wait on descriptor 5, whose handle is 9. -/
def someWait : WaitRequest := ⟨some 5, 9, {.channelReadable}, TimeDelta.max, 0⟩

/-- The callback waits again, cancels that, and destroys its waiter. -/
theorem fd_waiter_one_shot_reentrant :
    ∃ s, (fdMachine.restrict fun s a => s.loop.loop.shutDown = false ∧ s.loop.KeysLeft a.adds).Run {} [.create,
        .wait 1 someWait, .dispatch 0 .ok, .wait 1 someWait, .cancel 1, .destroy 1, .callbackReturns] (.ok s) ∧
      s.log.count (.acquired 1) = s.log.count (.released 1) ∧ s.log.count (.called 0) = 1 ∧
      s.log.count (.called 1) + s.log.count (.cancelled 1) = 1 := by
  have hrun : (fdMachine.restrict fun s a => s.loop.loop.shutDown = false ∧ s.loop.KeysLeft a.adds).Run {} [.create,
      .wait 1 someWait, .dispatch 0 .ok, .wait 1 someWait, .cancel 1, .destroy 1, .callbackReturns] (.ok _) :=
    .step ⟨trivial, rfl, (by decide : 0 + 0 < 2^64)⟩ rfl
      (.step ⟨⟨rfl, {}, rfl, rfl⟩, rfl, (by decide : 0 + 1 < 2^64)⟩ rfl
        (.step ⟨⟨rfl, rfl, by decide, fun h => absurd h (by decide)⟩, rfl, (by decide : 1 + 0 < 2^64)⟩ rfl
          (.step ⟨⟨rfl, {}, rfl, rfl⟩, rfl, (by decide : 1 + 1 < 2^64)⟩ rfl
            (.step ⟨⟨_, rfl, Option.some_ne_none _⟩, rfl, (by decide : 2 + 0 < 2^64)⟩ rfl
              (.step ⟨Option.some_ne_none _, rfl, (by decide : 2 + 0 < 2^64)⟩ rfl
                (.step ⟨Option.some_ne_none _, rfl, (by decide : 2 + 0 < 2^64)⟩ rfl (.nil _)))))))
  obtain ⟨s, hs, -, hrefs, -⟩ := fd_waiter_one_shot hrun
  cases hs
  exact ⟨_, hrun, hrefs 1, rfl, rfl⟩

private theorem repeated_waits (n : Nat) (hn : n < 2^64) :
    ∃ acts s, (fdMachine.restrict fun s _ => s.loop.loop.shutDown = false).Run {} acts (.ok s) ∧ FDSound s ∧
      s.loop.current = true ∧ s.loop.loop.shutDown = false ∧ s.waiters.lookup 1 = some {} ∧ s.loop.additions = n := by
  induction n with
  | zero =>
    exact ⟨[.create], FDWaiters.create {}, .single ⟨trivial, rfl⟩ rfl, FDSound.init.create, rfl, rfl, rfl, rfl⟩
  | succ n ih =>
    obtain ⟨acts, s, hrun, h, hcur, hs, hp, hcount⟩ := ih (by omega)
    have hio : someWait.io ≠ none := by simp [someWait]
    have hkeys : s.loop.KeysLeft 1 := by
      rw [MessageLoop.KeysLeft, hcount]
      exact hn
    obtain ⟨t, waiter, ht, hsound, hp', hw, -, hsame, hcount'⟩ := h.wait_accepted hp hio (by decide) hcur hs hkeys
    obtain ⟨u, hu, hsound', hp'', hsame', hcount''⟩ := hsound.cancel hp' hw
    have hs' := hsame.shutDown.trans hs
    have hwait : fdMachine.step s (.wait 1 someWait) = .ok t := congrArg (Prod.fst <$> ·) ht
    have hrest :
        (fdMachine.restrict fun s _ => s.loop.loop.shutDown = false).Run s [.wait 1 someWait, .cancel 1] (.ok u) :=
      .step ⟨⟨hcur, {}, hp, rfl⟩, hs⟩ hwait (.single ⟨⟨waiter, hp', hw.io⟩, hs'⟩ hu)
    exact ⟨_, u, hrun.append hrest, hsound', hsame'.attached.trans (hsame.attached.trans hcur),
      hsame'.shutDown.trans hs', hp'', by rw [hcount'', hcount', hcount]⟩

/-- After 2^64 - 1 waits the next one waits under key 0. -/
theorem wrapped_wait_has_no_key :
    ¬ ∀ acts s, (fdMachine.restrict fun s _ => s.loop.loop.shutDown = false).Run {} acts (.ok s) →
      ∀ p waiter, s.waiters.lookup p = some waiter → (waiter.io ≠ none ↔ waiter.key ≠ 0) := by
  intro hkeyed
  obtain ⟨n, hn⟩ : ∃ n, n = 2^64 - 1 := ⟨_, rfl⟩
  obtain ⟨acts, s, hrun, h, hcur, hs, hp, hcount⟩ := repeated_waits n (by omega)
  obtain ⟨-, hadd⟩ := (h.attached hcur).registry.addHandler_wrapped hs (by omega)
    ⟨1, 9, {.channelReadable}, TimeDelta.max, 0, by decide⟩
  let t : FDWaiters :=
    { s with
      loop := s.loop.registered ⟨1, 9, {.channelReadable}, TimeDelta.max, 0, by decide⟩
      waiters := s.waiters.insert 1 ⟨some 5, 0, some s.nextWait⟩
      nextWait := s.nextWait + 1
      log := .returned s.nextWait true :: .acquired 1 :: s.log }
  have hwait : fdMachine.step s (.wait 1 someWait) = .ok t := by
    simp [fdMachine, FDWaiters.wait, hp, someWait, hcur, hadd, FDWaiters.note, Finmap.insert_insert, t]
  have hnext : (fdMachine.restrict fun s _ => s.loop.loop.shutDown = false).Run s [.wait 1 someWait] (.ok t) :=
    .single ⟨⟨hcur, {}, hp, rfl⟩, hs⟩ hwait
  have hlast := hkeyed _ t (hrun.append hnext) 1 _ (Finmap.lookup_insert _)
  exact absurd rfl (hlast.mp (by simp))

end Mtl.Tasks
