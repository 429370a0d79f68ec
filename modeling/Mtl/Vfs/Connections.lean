import Mtl.Foundation.History
import Mtl.Vfs.VFSDispatcher

/-! The end of a connection: its iostate is closed once, by the handler, the remote side or the
destructor, and is not used after that. -/
namespace Mtl.Vfs
open Foundation Tasks

/-- What the history of a connection must be when an event is added to it. -/
def Orderly : VFSEvent → List VFSEvent → Prop
  | .added _, _ => True
  | .served c, past => .closed c ∉ past ∧ .deleted c ∉ past
  | .closed c, past => .closed c ∉ past ∧ .deleted c ∉ past
  | .removed c, past => .removed c ∉ past ∧ .deleted c ∉ past
  | .deleted c, past => past.count (.closed c) = 1 ∧ past.count (.removed c) = 1 ∧ .deleted c ∉ past

namespace VFS

def held (s : VFS) (c : HandlerPtr) : Option HandlerKey := (s.heap.lookup c).map VFSHandler.key

/-- The handlers made so far. -/
def Made (s : VFS) (c : HandlerPtr) : Prop := 0 < c ∧ c < s.nextHandler

/-- `handlers_` lists the live handlers, none once the dispatcher is gone. -/
def Listed (s : VFS) : Prop := ∀ c, s.heap.lookup c ≠ none ↔ ∃ handlers, s.handlers = some handlers ∧ c ∈ handlers

end VFS

/-- The history says of each handler what has become of it. -/
structure Books (s : VFS) : Prop where
  first : 0 < s.nextHandler
  made : ∀ c, s.heap.lookup c ≠ none → s.Made c
  added : ∀ c, s.log.count (.added c) = if 0 < c ∧ c < s.nextHandler then 1 else 0
  closed : ∀ c, s.log.count (.closed c) = if 0 < c ∧ c < s.nextHandler ∧ s.heap.lookup c = none then 1 else 0
  removed : ∀ c, s.log.count (.removed c) = if 0 < c ∧ c < s.nextHandler ∧ s.heap.lookup c = none then 1 else 0
  deleted : ∀ c, s.log.count (.deleted c) = if 0 < c ∧ c < s.nextHandler ∧ s.heap.lookup c = none then 1 else 0
  past : EveryPast Orderly s.log

/-- The handlers, inside or outside of a callback, while there is a loop. -/
structure Connected (s : VFS) : Prop where
  books : Books s
  listed : s.Listed
  holds : Holds (fun _ => False) s.loop s.held

/-- The handlers between dispatches, with or without a loop. -/
structure Served (s : VFS) : Prop where
  books : Books s
  listed : s.Listed
  idle : s.loop.currentHandler = none
  holds : Holds (fun _ => False) s.loop s.held ∨ (s.loop.current = false ∧ ∀ c, s.heap.lookup c = none)

namespace Books
variable {s : VFS} {c : HandlerPtr}

theorem init : Books {} := by
  refine ⟨Nat.one_pos, by simp, ?_, ?_, ?_, ?_, everyPast_nil⟩
  all_goals
    intro c
    exact (if_neg fun h => absurd (Nat.lt_of_lt_of_le h.1 (Nat.le_of_lt_succ (by first | exact h.2 | exact h.2.1)))
      (Nat.lt_irrefl 0)).symm

/-- Nothing ended a live connection. -/
theorem live (h : Books s) (hc : s.heap.lookup c ≠ none) :
    .closed c ∉ s.log ∧ .removed c ∉ s.log ∧ .deleted c ∉ s.log := by
  simp only [← List.count_eq_zero, h.closed, h.removed, h.deleted, hc, and_false, if_false, and_self]

theorem serve (h : Books s) (hc : s.heap.lookup c ≠ none) : Books (s.note (.served c)) := by
  obtain ⟨hclosed, -, hdeleted⟩ := h.live hc
  obtain ⟨h1, h2, h3, h4, h5, h6, h7⟩ := h
  exact ⟨h1, h2, fun c' => (List.count_cons_of_ne (by simp)).trans (h3 c'),
    fun c' => (List.count_cons_of_ne (by simp)).trans (h4 c'), fun c' => (List.count_cons_of_ne (by simp)).trans (h5 c'),
    fun c' => (List.count_cons_of_ne (by simp)).trans (h6 c'), everyPast_cons.mpr ⟨⟨hclosed, hdeleted⟩, h7⟩⟩

theorem loop (h : Books s) (loop : MessageLoop) : Books { s with loop := loop } :=
  ⟨h.first, h.made, h.added, h.closed, h.removed, h.deleted, h.past⟩

/-- A new connection. -/
theorem add (h : Books s) (loop : MessageLoop) (handler : VFSHandler) (handlers : Option (Finset HandlerPtr)) :
    Books ({ s with
      loop := loop
      heap := s.heap.insert s.nextHandler handler
      nextHandler := s.nextHandler + 1
      handlers := handlers }.note (.added s.nextHandler)) := by
  obtain ⟨h1, h2, h3, h4, h5, h6, h7⟩ := h
  refine ⟨by simp [VFS.note], ?_, ?_, ?_, ?_, ?_, everyPast_cons.mpr ⟨trivial, h7⟩⟩
  all_goals
    intro c'
    simp only [VFS.note, VFS.Made, lookup_insert_eq, List.count_cons, h3, h4, h5, h6] at *
    grind

/-- A connection that ends: its two calls come in either order before the deletion. -/
theorem finish (h : Books s) (hc : s.heap.lookup c ≠ none) (loop : MessageLoop) (handlers : Option (Finset HandlerPtr))
    {calls : List VFSEvent} (hcalls : calls = [.closed c, .removed c] ∨ calls = [.removed c, .closed c]) :
    Books { s with
      loop := loop
      heap := s.heap.erase c
      handlers := handlers
      log := .deleted c :: calls ++ s.log } := by
  obtain ⟨hclosed, hremoved, hdeleted⟩ := h.live hc
  have hmade := h.made c hc
  obtain ⟨h1, h2, h3, h4, h5, h6, h7⟩ := h
  refine ⟨h1, ?_, ?_, ?_, ?_, ?_, ?_⟩
  case refine_6 =>
    rcases hcalls with rfl | rfl
    all_goals
      simp only [List.cons_append, List.nil_append, everyPast_cons, Orderly]
      simp [hclosed, hremoved, hdeleted, h7, List.count_eq_zero.mpr hclosed, List.count_eq_zero.mpr hremoved]
  all_goals
    intro c'
    rcases hcalls with rfl | rfl
    all_goals
      simp only [VFS.Made, lookup_erase_eq, List.cons_append, List.nil_append, List.count_cons, h3, h4, h5, h6] at *
      grind

end Books

theorem held_insert {s : VFS} (c : HandlerPtr) (handler : VFSHandler) :
    VFS.held { s with heap := s.heap.insert c handler } = Function.update s.held c (some handler.key) := by
  funext c'
  simp only [VFS.held, lookup_insert_eq, Function.update_apply]
  split_ifs <;> rfl

theorem held_erase {s : VFS} (c : HandlerPtr) :
    VFS.held { s with heap := s.heap.erase c } = Function.update s.held c none := by
  funext c'
  simp only [VFS.held, lookup_erase_eq, Function.update_apply]
  split_ifs <;> rfl

/-- The end of a connection on the loop and in the heap. -/
theorem remove_held {s : VFS} {c : HandlerPtr} {handler : VFSHandler} (h : Holds (fun _ => False) s.loop s.held)
    (hc : s.heap.lookup c = some handler) :
    handler.key ≠ 0 ∧ ∃ loop, s.loop.removeHandler handler.key = .ok loop ∧
      Holds (fun _ => False) loop (VFS.held { s with heap := s.heap.erase c }) ∧ SameCallback s.loop loop ∧
      (∀ r rec, s.loop.currentHandler = some r → s.loop.records.lookup r = some rec → rec.handler = c →
        loop.currentHandlerRemoved = true) := by
  obtain ⟨hkey, loop, hremove, hholds, hsame, -, hremoved⟩ :=
    h.release (p := c) (k := handler.key) (by rw [VFS.held, hc, Option.map_some])
  rw [← held_erase] at hholds
  exact ⟨hkey, loop, hremove, hholds, hsame, hremoved⟩

namespace Connected
variable {s : VFS} {c : HandlerPtr} {handler : VFSHandler}

/-- `AddVFSHandler`, in a callback or not. -/
theorem add (h : Connected s) {channel : MxHandle} (hc : channel ≠ 0) (hs : s.loop.loop.shutDown = false)
    (hd : s.handlers ≠ none) (hn : s.loop.KeysLeft 1) :
    ∃ t, s.addVFSHandler channel = .ok t ∧ Connected t ∧ SameCallback s.loop t.loop ∧
      t.loop.additions = s.loop.additions + 1 ∧ t.handlers ≠ none ∧
      (∀ c, s.heap.lookup c ≠ none → t.heap.lookup c = s.heap.lookup c) := by
  obtain ⟨handlers, hhandlers⟩ := Option.ne_none_iff_exists'.mp hd
  have hnew : s.heap.lookup s.nextHandler = none := by
    by_contra hne
    exact Nat.lt_irrefl _ (h.books.made _ hne).2
  have hfree : s.held s.nextHandler = none := by rw [VFS.held, hnew, Option.map_none]
  have hpos : s.nextHandler ≠ 0 := Nat.pos_iff_ne_zero.mp h.books.first
  obtain ⟨loop, hadd, hholds, hsame, hnext⟩ := h.holds.addHandler hn
    { handler := s.nextHandler, handle := channel, trigger := {.channelReadable, .channelPeerClosed}, valid := hc }
    hpos hfree (by simp [hs])
  refine ⟨{ s with
      loop := loop
      heap := s.heap.insert s.nextHandler ⟨s.loop.nextHandlerKey, channel⟩
      nextHandler := s.nextHandler + 1
      handlers := some (insert s.nextHandler handlers) }.note (.added s.nextHandler), ?_,
    ⟨h.books.add _ _ _, ?_, ?_⟩, hsame, hnext, by simp [VFS.note], ?_⟩
  · simp [VFS.addVFSHandler, hhandlers, h.holds.registry.attached, hc, hadd]
  · intro c
    have hlisted := h.listed c
    simp only [VFS.note, lookup_insert_eq, hhandlers, Option.some.injEq, exists_eq_left', Finset.mem_insert] at hlisted ⊢
    split_ifs with heq
    · simp [heq]
    · simpa [heq] using hlisted
  · have hheld := held_insert (s := s) s.nextHandler ⟨s.loop.nextHandlerKey, channel⟩
    rw [← hheld] at hholds
    exact hholds
  · intro c hlive
    simp only [VFS.note, lookup_insert_eq]
    rw [if_neg]
    rintro rfl
    exact hlive hnew

theorem adds (h : Connected s) {channels : List MxHandle} (hc : ∀ channel ∈ channels, channel ≠ 0)
    (hs : channels ≠ [] → s.loop.loop.shutDown = false ∧ s.handlers ≠ none) (hn : s.loop.KeysLeft channels.length) :
    ∃ t, channels.foldlM VFS.addVFSHandler s = .ok t ∧ Connected t ∧ SameCallback s.loop t.loop ∧
      (∀ c, s.heap.lookup c ≠ none → t.heap.lookup c = s.heap.lookup c) := by
  induction channels generalizing s with
  | nil => exact ⟨s, rfl, h, .refl _, fun _ _ => rfl⟩
  | cons channel channels ih =>
    rw [List.forall_mem_cons] at hc
    obtain ⟨hs, hd⟩ := hs (by simp)
    simp only [MessageLoop.KeysLeft, List.length_cons] at hn
    obtain ⟨u, hu, hconn, hsame, hnext, hd', hlive⟩ := h.add hc.1 hs hd (by simp only [MessageLoop.KeysLeft]; omega)
    obtain ⟨t, ht, hconn', hsame', hlive'⟩ := ih hconn hc.2 (fun _ => ⟨hsame.shutDown.trans hs, hd'⟩)
      (by simp only [MessageLoop.KeysLeft]; omega)
    refine ⟨t, by rw [List.foldlM_cons, hu]; exact ht, hconn', hsame.trans hsame', fun c hne => ?_⟩
    have hsame := hlive c hne
    exact (hlive' c (hsame ▸ hne)).trans hsame

/-- The connection of `c` has ended; if it was its turn, its registration is gone. -/
structure Ended (s t : VFS) (c : HandlerPtr) : Prop where
  connected : Connected t
  same : SameCallback s.loop t.loop
  removed : ∀ r rec, s.loop.currentHandler = some r → s.loop.records.lookup r = some rec → rec.handler = c →
    t.loop.currentHandlerRemoved = true

/-- `Stop` by a handler whose iostate is closed by itself, or was closed by the remote side. -/
theorem stop (h : Connected s) (hc : s.heap.lookup c = some handler) (needsClose : Bool) :
    ∃ t, (if needsClose then s else s.note (.closed c)).stop c needsClose = .ok t ∧ Ended s t c := by
  obtain ⟨hkey, loop, hremove, hholds, hsame, hremoved⟩ := remove_held h.holds hc
  have hlive : s.heap.lookup c ≠ none := by simp [hc]
  obtain ⟨handlers, hhandlers, hmem⟩ := (h.listed c).mp hlive
  let calls : List VFSEvent := if needsClose then [.closed c, .removed c] else [.removed c, .closed c]
  let t : VFS :=
    { s with
      loop := loop
      heap := s.heap.erase c
      handlers := some (handlers.erase c)
      log := .deleted c :: calls ++ s.log }
  have hcalls : calls = [.closed c, .removed c] ∨ calls = [.removed c, .closed c] := by
    cases needsClose
    · exact .inr rfl
    · exact .inl rfl
  refine ⟨t, ?_, ⟨h.books.finish hlive loop _ hcalls, ?_, hholds⟩, hsame, hremoved⟩
  · cases needsClose
    all_goals
      simp [VFS.stop, VFS.note, hc, hkey, VFS.removeHandler, h.holds.registry.attached, hremove, VFS.dispatcherStop,
        hhandlers, VFS.deleteHandler, erase_insert_self, t, calls]
  · intro c'
    have hlisted := h.listed c'
    simp only [t, lookup_erase_eq, hhandlers, Option.some.injEq, exists_eq_left', Finset.mem_erase] at hlisted ⊢
    split_ifs with heq
    · simp [heq]
    · simpa [heq] using hlisted

/-- A message, its end or an error. -/
theorem onHandleReady (h : Connected s) (hc : s.heap.lookup c = some handler) {pending : MxSignals} {serve : ServeResult}
    (hp : .channelReadable ∈ pending ∨ .channelPeerClosed ∈ pending) (hadds : ∀ channel ∈ serve.adds, channel ≠ 0)
    (hs : serve.adds ≠ [] → s.loop.loop.shutDown = false ∧ s.handlers ≠ none)
    (hn : s.loop.KeysLeft serve.adds.length) :
    ∃ t, s.onHandleReady c pending serve = .ok t ∧ Connected t ∧ SameCallback s.loop t.loop := by
  by_cases hread : .channelReadable ∈ pending
  · have hlive : s.heap.lookup c ≠ none := by simp [hc]
    have hserved : Connected (s.note (.served c)) := ⟨h.books.serve hlive, h.listed, h.holds⟩
    obtain ⟨u, hu, hconn, hsame, hkept⟩ := hserved.adds hadds hs hn
    have hc' : u.heap.lookup c = some handler := (hkept c hlive).trans hc
    by_cases hzero : serve.status = 0
    · exact ⟨u, by simp [VFS.onHandleReady, hc, hread, hu, hzero], hconn, hsame⟩
    by_cases hneg : serve.status < 0
    · obtain ⟨t, ht, hended⟩ := hconn.stop hc' true
      exact ⟨t, by simpa [VFS.onHandleReady, hc, hread, hu, hzero, hneg] using ht, hended.connected,
        hsame.trans hended.same⟩
    · obtain ⟨t, ht, hended⟩ := hconn.stop hc' false
      exact ⟨t, by simpa [VFS.onHandleReady, hc, hread, hu, hzero, hneg] using ht, hended.connected,
        hsame.trans hended.same⟩
  · obtain ⟨t, ht, hended⟩ := h.stop hc true
    exact ⟨t, by simpa [VFS.onHandleReady, hc, hread, hp.resolve_left hread] using ht, hended.connected, hended.same⟩

/-- The return of the callback. -/
theorem exit (h : Connected s) {r : RecordPtr} {key : HandlerKey} {status : MxStatus} {rec : HandlerRecord}
    (hcur : s.loop.currentHandler = some r) (hstart : lastStart s.loop.log = some (r, key, status))
    (hrec : s.loop.records.lookup r = some rec)
    (hout : s.loop.currentHandlerRemoved = true ∨ status = .ok ∨ rec.handler = 0) :
    ∃ loop, s.loop.dispatchExit r status = .ok loop ∧ Served { s with loop := loop } := by
  obtain ⟨loop, hexit, hholds, hidle, -⟩ := h.holds.dispatchExit hcur hstart hrec (hout.imp_right (Or.imp_right .inl))
  exact ⟨loop, hexit, h.books.loop loop, h.listed, hidle, .inl hholds⟩

end Connected

namespace Served
variable {s : VFS}

theorem init : Served {} := by
  refine ⟨.init, ?_, rfl, .inl (.init _)⟩
  intro c
  simp

/-- The loop is there as long as its destructor has not come to its end. -/
theorem attached (h : Served s) (hcur : s.loop.current = true) : Connected s := by
  refine ⟨h.books, h.listed, h.holds.resolve_right fun hgone => ?_⟩
  rw [hcur] at hgone
  exact absurd hgone.1 (by decide)

theorem dispatch (h : Served s) (hcur : s.loop.current = true) {r : RecordPtr} (hr : r ∈ s.loop.loop.registered)
    {status : MxStatus} {pending : MxSignals} {serve : ServeResult}
    (hp : status = .ok → .channelReadable ∈ pending ∨ .channelPeerClosed ∈ pending)
    (hs : serve.adds ≠ [] → s.loop.loop.shutDown = false ∧ s.handlers ≠ none)
    (hadds : ∀ channel ∈ serve.adds, channel ≠ 0) (hn : s.loop.KeysLeft serve.adds.length) :
    ∃ t, s.dispatch r status pending serve = .ok t ∧ Served t := by
  obtain ⟨loop, rec, henter, hholds, hrun, hshut, hstart, hcount, -, hrec, -, hheld⟩ :=
    (h.attached hcur).holds.dispatchEnter h.idle hr status
  have hconn : Connected { s with loop := loop } := ⟨h.books.loop loop, h.listed, hholds⟩
  have hs' : serve.adds ≠ [] → loop.loop.shutDown = false ∧ s.handlers ≠ none :=
    fun hne => ⟨hshut.trans (hs hne).1, (hs hne).2⟩
  have hn' : loop.KeysLeft serve.adds.length := by rw [MessageLoop.KeysLeft, hcount]; exact hn
  have hexit {u : VFS} (hu : Connected u) (hsame : SameCallback loop u.loop)
      (hout : u.loop.currentHandlerRemoved = true ∨ status = .ok ∨ rec.handler = 0) :
      ∃ loop, u.loop.dispatchExit r status = .ok loop ∧ Served { u with loop := loop } :=
    hu.exit (hsame.running.trans hrun) (hsame.started.trans hstart) ((hsame.record r hrun).trans hrec) hout
  by_cases hother : rec.handler = 0
  · obtain ⟨u, hu, hconn', hsame, -⟩ := hconn.adds hadds hs' hn'
    obtain ⟨loop', hexit, hserved⟩ := hexit hconn' hsame (.inr (.inr hother))
    exact ⟨_, by simp [VFS.dispatch, henter, hother, hu, hexit], hserved⟩
  obtain ⟨handler, hc, -⟩ := Option.map_eq_some_iff.mp (hheld hother)
  by_cases hok : status = .ok
  · obtain ⟨u, hu, hconn', hsame⟩ := hconn.onHandleReady hc (hp hok) hadds hs' hn'
    obtain ⟨loop', hexit, hserved⟩ := hexit hconn' hsame (.inr (.inl hok))
    subst hok
    exact ⟨_, by simp [VFS.dispatch, henter, hother, hu, hexit], hserved⟩
  · obtain ⟨u, hu, hended⟩ := hconn.stop hc true
    obtain ⟨loop', hexit, hserved⟩ := hexit hended.connected hended.same (.inl (hended.removed r rec hrun hrec rfl))
    have herror : VFS.onHandleError { s with loop := loop } rec.handler = .ok u := hu
    exact ⟨_, by simp [VFS.dispatch, henter, hother, hok, herror, hexit], hserved⟩

/-- `~VFSDispatcher` while there is a loop: the handlers left, in any order. -/
theorem deleteHandlers (hb : Books s) (hh : Holds (fun _ => False) s.loop s.held) (hidle : s.loop.currentHandler = none)
    {order : List HandlerPtr} (hnodup : order.Nodup) (hlive : ∀ c ∈ order, s.heap.lookup c ≠ none) :
    ∃ t, order.foldlM VFS.deleteHandler s = .ok t ∧ Books t ∧ Holds (fun _ => False) t.loop t.held ∧
      t.loop.currentHandler = none ∧ ∀ c, t.heap.lookup c = if c ∈ order then none else s.heap.lookup c := by
  induction order generalizing s with
  | nil => exact ⟨s, rfl, hb, hh, hidle, fun c => rfl⟩
  | cons c order ih =>
    obtain ⟨hnot, hnodup⟩ := List.nodup_cons.mp hnodup
    rw [List.forall_mem_cons] at hlive
    obtain ⟨handler, hc⟩ := Option.ne_none_iff_exists'.mp hlive.1
    obtain ⟨hkey, loop, hremove, hholds, hsame, -⟩ := remove_held hh hc
    have hb' := hb.finish hlive.1 loop s.handlers (.inl rfl)
    obtain ⟨t, ht, hbooks, hholds', hidle', hheap⟩ := ih (s := { s with
      loop := loop
      heap := s.heap.erase c
      log := .deleted c :: [.closed c, .removed c] ++ s.log }) hb' hholds (hsame.running.trans hidle) hnodup (by
        intro c' hmem
        rw [lookup_erase_eq, if_neg (by rintro rfl; exact hnot hmem)]
        exact hlive.2 c' hmem)
    refine ⟨t, ?_, hbooks, hholds', hidle', fun c' => ?_⟩
    · rw [List.foldlM_cons]
      simp only [VFS.deleteHandler, hc, hkey, ne_eq, not_false_eq_true, if_true, VFS.removeHandler, hh.registry.attached,
        hremove, Bool.true_eq_false, if_false, ok_bind]
      exact ht
    · rw [hheap c', lookup_erase_eq]
      simp only [List.mem_cons]
      split_ifs <;> simp_all

theorem destroyDispatcher (h : Served s) {handlers : Finset HandlerPtr} (hd : s.handlers = some handlers)
    {order : List HandlerPtr} (hnodup : order.Nodup) (horder : ∀ c, c ∈ order ↔ c ∈ handlers) :
    ∃ t, s.destroyDispatcher order = .ok t ∧ Served t := by
  have hlive (c : HandlerPtr) : c ∈ order ↔ s.heap.lookup c ≠ none := by
    rw [h.listed c, horder c, hd]
    simp
  rcases h.holds with hholds | ⟨hgone, hnone⟩
  · obtain ⟨t, ht, hbooks, hholds', hidle, hheap⟩ :=
      deleteHandlers h.books hholds h.idle hnodup fun c hmem => (hlive c).mp hmem
    have hempty (c : HandlerPtr) : t.heap.lookup c = none := by
      rw [hheap c]
      split_ifs with hmem
      · rfl
      · exact not_not.mp fun hne => hmem ((hlive c).mpr hne)
    refine ⟨{ t with handlers := none }, by simp [VFS.destroyDispatcher, ht],
      ⟨hbooks.first, hbooks.made, hbooks.added, hbooks.closed, hbooks.removed, hbooks.deleted, hbooks.past⟩, ?_,
      hidle, .inl hholds'⟩
    intro c
    simp [hempty c]
  · obtain rfl : order = [] := List.eq_nil_iff_forall_not_mem.mpr fun c hmem => (hlive c).mp hmem (hnone c)
    refine ⟨{ s with handlers := none }, rfl,
      ⟨h.books.first, h.books.made, h.books.added, h.books.closed, h.books.removed, h.books.deleted, h.books.past⟩, ?_,
      h.idle, .inr ⟨hgone, hnone⟩⟩
    intro c
    simp [hnone c]

theorem finishDestruction (h : Served s) (hcur : s.loop.current = true) (hr : s.loop.loop.registered = ∅) :
    ∃ t, s.finishDestruction = .ok t ∧ Served t := by
  obtain ⟨hempty, hlost⟩ := (h.attached hcur).holds.lost_of_drained h.idle hr
  have hnone (c : HandlerPtr) : s.heap.lookup c = none := by
    cases hc : s.heap.lookup c with
    | none => rfl
    | some handler => exact (hlost c handler.key (by rw [VFS.held, hc, Option.map_some])).elim
  refine ⟨{ s with loop := { s.loop with current := false } },
    by simp [VFS.finishDestruction, MessageLoop.finishDestruction, hempty], h.books.loop _, h.listed, h.idle,
    .inr ⟨rfl, hnone⟩⟩

theorem step (h : Served s) (a : VFSAct) (he : vfsMachine.Enabled s a) (hn : s.loop.KeysLeft a.adds) :
    ∃ t, vfsMachine.step s a = .ok t ∧ Served t := by
  cases a with
  | addVFSHandler channel =>
    obtain ⟨hc, hcur, hs, hd⟩ := he
    obtain ⟨t, ht, hconn, hsame, -⟩ := (h.attached hcur).add hc hs hd hn
    exact ⟨t, ht, hconn.books, hconn.listed, hsame.running.trans h.idle, .inl hconn.holds⟩
  | dispatch r status pending serve =>
    obtain ⟨hcur, hr, -, hp, hs, hadds⟩ := he
    exact h.dispatch hcur hr hp hs hadds hn
  | destroyDispatcher order =>
    obtain ⟨handlers, hd, hnodup, horder⟩ := he
    exact h.destroyDispatcher hd hnodup horder
  | addOther req =>
    obtain ⟨loop, hadd, hholds, hsame, -⟩ := (h.attached he).holds.addOther hn { req with handler := 0 } rfl
    exact ⟨{ s with loop := loop }, by simp [vfsMachine, VFS.addOther, hadd], h.books.loop loop, h.listed,
      hsame.running.trans h.idle, .inl hholds⟩
  | removeOther key =>
    obtain ⟨loop, hremove, hholds, hsame, -⟩ := (h.attached he.1).holds.removeHandler key
    have hfree (c : HandlerPtr) : s.held c ≠ some key := by
      intro hheld
      obtain ⟨handler, hc, hkey⟩ := Option.map_eq_some_iff.mp hheld
      exact he.2 c handler hc hkey
    rw [Holds.dropKey_free hfree] at hholds
    exact ⟨{ s with loop := loop }, by simp [vfsMachine, VFS.removeOther, hremove], h.books.loop loop, h.listed,
      hsame.running.trans h.idle, .inl hholds⟩
  | beginShutdown =>
    exact ⟨_, rfl, h.books.loop _, h.listed, h.idle, .inl (h.attached he.1).holds.beginShutdown⟩
  | finishDestruction => exact h.finishDestruction he.1 he.2.2

end Served

/-- While the keys last, a connection is used in order and closed once before its handler is deleted;
its registration is removed once. Live handlers are the ones in `handlers_`, and there are none once
the loop or the dispatcher is gone. -/
theorem connections_closed_once {acts : List VFSAct} {result : Except Fault VFS}
    (hrun : (vfsMachine.restrict fun s a => s.loop.KeysLeft a.adds).Run {} acts result) :
    ∃ s, result = .ok s ∧ EveryPast Orderly s.log ∧
      (∀ c, s.log.count (.added c) ≤ 1 ∧
        s.log.count (.deleted c) + (if s.heap.lookup c = none then 0 else 1) = s.log.count (.added c) ∧
        s.log.count (.closed c) = s.log.count (.deleted c) ∧ s.log.count (.removed c) = s.log.count (.deleted c)) ∧
      s.Listed ∧ (s.loop.current = false ∨ s.handlers = none → ∀ c, s.heap.lookup c = none) := by
  have hserved : ∃ s, result = .ok s ∧ Served s := by
    refine hrun.safe (I := Served) (fun s a h he => ?_) .init
    exact h.step a he.1 he.2
  obtain ⟨s, rfl, h⟩ := hserved
  refine ⟨s, rfl, h.books.past, fun c => ?_, h.listed, ?_⟩
  · have hmade := h.books.made c
    simp only [VFS.Made] at hmade
    rw [h.books.added, h.books.closed, h.books.removed, h.books.deleted]
    split_ifs <;> simp_all
  · rintro (hgone | hgone) c
    · rcases h.holds with hholds | hnone
      · have hcur := hholds.registry.attached
        rw [hgone] at hcur
        cases hcur
      · exact hnone.2 c
    · have hlisted := h.listed c
      simpa [hgone] using hlisted

/-- A message adds a second connection and ends its own with an error; the second one ends with the
loop, and the dispatcher goes last. -/
theorem connections_closed_once_reentrant :
    ∃ s, (vfsMachine.restrict fun s a => s.loop.KeysLeft a.adds).Run {} [.addVFSHandler 3,
        .dispatch 0 .ok {.channelReadable} ⟨-1, [4]⟩, .beginShutdown, .dispatch 1 .errCanceled ∅ ⟨0, []⟩,
        .finishDestruction, .destroyDispatcher []] (.ok s) ∧
      EveryPast Orderly s.log ∧ (∀ c, s.heap.lookup c = none) ∧ s.log.count (.closed 1) = s.log.count (.deleted 1) := by
  have hrun : (vfsMachine.restrict fun s a => s.loop.KeysLeft a.adds).Run {} [.addVFSHandler 3,
      .dispatch 0 .ok {.channelReadable} ⟨-1, [4]⟩, .beginShutdown, .dispatch 1 .errCanceled ∅ ⟨0, []⟩,
      .finishDestruction, .destroyDispatcher []] (.ok _) :=
    .step ⟨⟨by decide, rfl, rfl, by simp⟩, (by decide : 0 + 1 < 2^64)⟩ rfl
      (.step ⟨⟨rfl, by decide, fun h => absurd h (by decide), by simp, fun _ => ⟨rfl, Option.some_ne_none _⟩, by simp⟩,
          (by decide : 1 + 1 < 2^64)⟩ rfl
        (.step ⟨⟨rfl, rfl⟩, (by decide : 2 + 0 < 2^64)⟩ rfl
          (.step ⟨⟨rfl, by decide, fun _ => rfl, by simp, by simp, by simp⟩, (by decide : 2 + 0 < 2^64)⟩ rfl
            (.step ⟨⟨rfl, rfl, by decide⟩, (by decide : 2 + 0 < 2^64)⟩ rfl
              (.step ⟨⟨∅, rfl, by simp, by simp⟩, (by decide : 2 + 0 < 2^64)⟩ rfl (.nil _))))))
  obtain ⟨s, hs, hpast, hcounts, -, hgone⟩ := connections_closed_once hrun
  cases hs
  exact ⟨_, hrun, hpast, hgone (.inl rfl), (hcounts 1).2.2.1⟩

/-- A handler of someone else. -/
private def otherRequest : AddRequest := { someRequest with handler := 0 }

/-- Another user of the loop adds a handler and removes it again, over and over. -/
private theorem repeated_others (n : Nat) (hn : n < 2^64) :
    ∃ acts loop, vfsMachine.Run {} acts (.ok { loop := loop }) ∧ Served { loop := loop } ∧ loop.current = true ∧
      loop.loop.shutDown = false ∧ loop.additions = n := by
  induction n with
  | zero => exact ⟨[], {}, .nil _, .init, rfl, rfl, rfl⟩
  | succ n ih =>
    obtain ⟨acts, loop, hrun, hserved, hcur, hs, hcount⟩ := ih (by omega)
    have hkeys : loop.KeysLeft 1 := by rw [MessageLoop.KeysLeft, hcount]; exact hn
    have hreg : Registry loop.additions loop := (hserved.attached hcur).holds.registry
    obtain ⟨hremove, -⟩ := hreg.remove_added hserved.idle hkeys otherRequest
    have hadd' : vfsMachine.step { loop := loop } (.addOther otherRequest) =
        .ok { loop := loop.registered otherRequest } :=
      congrArg (· >>= _) (hreg.addHandler_registered hs hkeys otherRequest)
    have hremove' : vfsMachine.step { loop := loop.registered otherRequest } (.removeOther loop.nextHandlerKey) =
        .ok { loop := (loop.registered otherRequest).cancelled loop.nextHandlerKey loop.nextRecord } :=
      congrArg (· >>= _) hremove
    have hfree : vfsMachine.Enabled { loop := loop.registered otherRequest } (.removeOther loop.nextHandlerKey) := by
      refine ⟨hcur, fun c handler hc => ?_⟩
      cases hc
    obtain ⟨v, hv, hserved'⟩ := hserved.step (.addOther otherRequest) hcur hkeys
    cases hadd'.symm.trans hv
    obtain ⟨v, hv, hserved''⟩ := hserved'.step (.removeOther loop.nextHandlerKey) hfree hkeys
    cases hremove'.symm.trans hv
    have hnext : vfsMachine.Run { loop := loop } [.addOther otherRequest, .removeOther loop.nextHandlerKey] (.ok _) :=
      .step hcur hadd' (.single hfree hremove')
    exact ⟨_, _, hrun.append hnext, hserved'', hcur, hs, congrArg (· + 1) hcount⟩

/-- The connection that gets key 0 after 2^64 - 1 handlers of others cannot be ended: `key_` fails its check. -/
theorem wrapped_connection_never_ends :
    ¬ ∀ acts result, vfsMachine.Run {} acts result → ∃ s, result = .ok s ∧ EveryPast Orderly s.log ∧
      ∀ c, s.log.count (.deleted c) + (if s.heap.lookup c = none then 0 else 1) = s.log.count (.added c) ∧
        s.log.count (.closed c) = s.log.count (.deleted c) ∧ s.log.count (.removed c) = s.log.count (.deleted c) := by
  intro hclosed
  obtain ⟨n, hn⟩ : ∃ n, n = 2^64 - 1 := ⟨_, rfl⟩
  obtain ⟨acts, loop, hrun, hserved, hcur, hs, hcount⟩ := repeated_others n (by omega)
  let req : AddRequest :=
    { handler := 1, handle := 3, trigger := {.channelReadable, .channelPeerClosed}, valid := by decide }
  have hreg : Registry loop.additions loop := (hserved.attached hcur).holds.registry
  obtain ⟨-, hadd⟩ := hreg.addHandler_wrapped hs (by omega) req
  let t : VFS :=
    { loop := loop.registered req
      heap := (∅ : Finmap _).insert 1 ⟨0, 3⟩
      nextHandler := 2
      handlers := some (insert 1 ∅)
      log := [.added 1] }
  have hstep : vfsMachine.step { loop := loop } (.addVFSHandler 3) = .ok t := by
    simp only [vfsMachine, VFS.addVFSHandler, hcur, Bool.true_eq_false, if_false]
    rw [dif_pos (by decide)]
    exact congrArg (· >>= _) hadd
  have hfault : vfsMachine.step t (.dispatch loop.nextRecord .ok {.channelPeerClosed} ⟨0, []⟩) =
      .error (.dcheck "key_") := by
    have hidle : loop.currentHandler = none := hserved.idle
    simp [vfsMachine, VFS.dispatch, t, MessageLoop.registered, MessageLoop.dispatchEnter, MessageLoop.handleEnter, hidle,
      MessageLoop.note, req, AddRequest.record, VFS.onHandleReady, VFS.stop]
  have hmem : loop.nextRecord ∈ t.loop.loop.registered := Finset.mem_insert_self _ _
  have hlast : vfsMachine.Run { loop := loop } [.addVFSHandler 3,
      .dispatch loop.nextRecord .ok {.channelPeerClosed} ⟨0, []⟩] (.error (.dcheck "key_")) :=
    .step ⟨by decide, hcur, hs, Option.some_ne_none _⟩ hstep
      (.fault ⟨hcur, hmem, fun h => absurd (hs.symm.trans h) (by decide), fun _ => .inr (by decide),
        fun h => absurd rfl h, by simp⟩ hfault)
  obtain ⟨u, hu, -⟩ := hclosed _ _ (hrun.append hlast)
  cases hu

end Mtl.Vfs
