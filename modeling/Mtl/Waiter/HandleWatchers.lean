import Mtl.Tasks.CallEvents
import Mtl.Waiter.Default

/-! Owners of waits. Each owner keeps the id of the wait that it is in, or 0; the watchers, their
registrations and these ids stay in step, also on a loop that has other users and one that shuts down. -/
namespace Mtl.Waiter
open Foundation Tasks
variable {γ : Type}

/-- A call of `AsyncWait` that returned, and the two ends of its watcher. -/
inductive WaitEvent where
  | begun (id : WaitId)
  | called (id : WaitId)
  | cancelled (id : WaitId)
  deriving DecidableEq

/-- Each watcher is deleted at most once, by `CallCallback` or by `CancelWait`. -/
structure Ledger (watchers : Finmap fun _ : WaitId => HandleWatcher γ) (next : WaitId) (log : List WaitEvent) : Prop where
  begun : ∀ id, log.count (.begun id) = if 0 < id ∧ id < next then 1 else 0
  ended : ∀ id, log.count (.begun id) =
    log.count (.called id) + log.count (.cancelled id) + if watchers.lookup id = none then 0 else 1

namespace Ledger
variable {watchers : Finmap fun _ : WaitId => HandleWatcher γ} {next id : WaitId} {log : List WaitEvent}
  {watcher : HandleWatcher γ}

theorem init : Ledger (∅ : Finmap fun _ : WaitId => HandleWatcher γ) 1 [] := by
  constructor
  · intro id
    rw [if_neg fun hid => absurd (Nat.lt_one_iff.mp hid.2) (Nat.pos_iff_ne_zero.mp hid.1), List.count_nil]
  · simp

theorem begin (h : Ledger watchers next log) (hpos : 0 < next) (hfree : watchers.lookup next = none) :
    Ledger (watchers.insert next watcher) (next + 1) (.begun next :: log) := by
  obtain ⟨h1, h2⟩ := h
  have hnone := h2 next
  rw [h1 next, if_neg fun hlt => Nat.lt_irrefl _ hlt.2, hfree, if_pos rfl] at hnone
  constructor
  all_goals
    intro id'
    have hbegun := h1 id'
    have hended := h2 id'
    simp only [List.count_cons, lookup_insert_eq]
    grind

theorem finish (h : Ledger watchers next log) (hid : watchers.lookup id = some watcher) {e : WaitEvent}
    (he : e = .called id ∨ e = .cancelled id) : Ledger (watchers.erase id) next (e :: log) := by
  obtain ⟨h1, h2⟩ := h
  constructor
  all_goals
    intro id'
    have hbegun := h1 id'
    have hended := h2 id'
    simp only [List.count_cons, lookup_erase_eq]
    grind

/-- The callback of a wait is called at most once and not if the wait was cancelled. -/
theorem once (h : Ledger watchers next log) (id : WaitId) : log.count (.called id) + log.count (.cancelled id) ≤ 1 := by
  have hbegun := h.begun id
  have hended := h.ended id
  split_ifs at hbegun <;> omega

end Ledger

def DefaultWaiter.held (s : DefaultWaiter γ) (id : HandlerPtr) : Option HandlerKey :=
  (s.watchers.lookup id).map HandleWatcher.key

/-- What each live owner has in `wait_id_` is the watcher whose context it is. -/
structure Attended (s : DefaultWaiter γ) (waitOf : γ → Option WaitId) : Prop where
  holds : Holds (fun _ => s.loop.loop.shutDown = true) s.loop s.held
  first : 0 < s.nextWatcher
  made : ∀ id watcher, s.watchers.lookup id = some watcher → 0 < id ∧ id < s.nextWatcher
  object : ∀ id watcher rec, s.watchers.lookup id = some watcher → s.loop.registration watcher.key = some rec →
    rec.object = watcher.handle
  context : ∀ id watcher, s.watchers.lookup id = some watcher → waitOf watcher.context = some id
  waits : ∀ o id, waitOf o = some id → id ≠ 0 → (s.watchers.lookup id).map HandleWatcher.context = some o

namespace Attended
variable {s : DefaultWaiter γ} {waitOf : γ → Option WaitId} {o : γ} {id : WaitId}
  {watcher : HandleWatcher γ}

theorem init : Attended ({} : DefaultWaiter γ) fun _ => none := by
  constructor
  case holds => exact .init _
  all_goals simp

theorem held_of_lookup (hw : s.watchers.lookup id = some watcher) : s.held id = some watcher.key := by
  rw [DefaultWaiter.held, hw, Option.map_some]

theorem fresh (h : Attended s waitOf) : s.watchers.lookup s.nextWatcher = none := by
  cases hw : s.watchers.lookup s.nextWatcher with
  | none => rfl
  | some watcher => exact absurd (h.made _ watcher hw).2 (Nat.lt_irrefl _)

/-- An owner that waits has one watcher, and no other watcher has it as its context. -/
theorem unique (h : Attended s waitOf) (ho : waitOf o = some id) :
    id ≠ 0 ↔ ∃! id', ∃ watcher, s.watchers.lookup id' = some watcher ∧ watcher.context = o := by
  constructor
  · intro hid
    obtain ⟨watcher, hw, hcontext⟩ := Option.map_eq_some_iff.mp (h.waits o id ho hid)
    refine ⟨id, ⟨watcher, hw, hcontext⟩, ?_⟩
    rintro id' ⟨watcher', hw', rfl⟩
    exact Option.some.inj ((h.context id' watcher' hw').symm.trans ho)
  · rintro ⟨id', ⟨watcher, hw, rfl⟩, -⟩ hid
    obtain rfl : id' = id := Option.some.inj ((h.context id' watcher hw).symm.trans ho)
    exact absurd (h.made id' watcher hw).1 (by rw [hid]; exact Nat.lt_irrefl 0)

/-- The loop goes on, with the registrations that the watchers have. -/
theorem loop (h : Attended s waitOf) {loop : MessageLoop}
    (hholds : Holds (fun _ => loop.loop.shutDown = true) loop s.held)
    (hreg : ∀ key rec, loop.registration key = some rec → rec.handler ≠ 0 → s.loop.registration key = some rec) :
    Attended { s with loop := loop } waitOf := by
  refine ⟨hholds, h.first, h.made, fun id watcher rec hw hrec => ?_, h.context, h.waits⟩
  obtain ⟨r, hk, hr⟩ := Option.bind_eq_some_iff.mp hrec
  have hheld := held_of_lookup hw
  have hown := hholds.own _ r rec id hk hr hheld
  have hpos := (h.made id watcher hw).1
  exact h.object id watcher rec hw (hreg _ rec hrec (by rw [hown]; exact Nat.pos_iff_ne_zero.mp hpos))

theorem held_insert (s : DefaultWaiter γ) (loop : MessageLoop) (id next : WaitId) (watcher : HandleWatcher γ) :
    DefaultWaiter.held { loop := loop, watchers := s.watchers.insert id watcher, nextWatcher := next } =
      Function.update s.held id (some watcher.key) := by
  funext id'
  rw [DefaultWaiter.held, lookup_insert_eq, Function.update_apply]
  split_ifs <;> rfl

theorem held_erase (s : DefaultWaiter γ) (loop : MessageLoop) (id : WaitId) :
    DefaultWaiter.held { s with loop := loop, watchers := s.watchers.erase id } = Function.update s.held id none := by
  funext id'
  rw [DefaultWaiter.held, lookup_erase_eq, Function.update_apply]
  split_ifs <;> rfl

/-- A new watcher, whose key the loop has registered for it or for nobody. -/
theorem watch [DecidableEq γ] (h : Attended s waitOf) (ho : waitOf o = some 0) {loop : MessageLoop} {key : HandlerKey}
    {handle : MxHandle}
    (hholds : Holds (fun _ => loop.loop.shutDown = true) loop (Function.update s.held s.nextWatcher (some key)))
    (hregs : ∀ key' rec, loop.registration key' = some rec →
      (key' = key ∧ rec.object = handle) ∨ (key' ≠ key ∧ s.loop.registration key' = some rec)) :
    Attended ⟨loop, s.watchers.insert s.nextWatcher ⟨key, handle, o⟩, s.nextWatcher + 1⟩
      (Function.update waitOf o (some s.nextWatcher)) := by
  have hnew := h.fresh
  refine ⟨?_, Nat.succ_pos _, ?_, ?_, ?_, ?_⟩
  · rw [held_insert]
    exact hholds
  · intro id watcher hw
    rw [lookup_insert_eq] at hw
    split_ifs at hw with hid
    · rw [hid]
      exact ⟨h.first, Nat.lt_succ_self _⟩
    · obtain ⟨hpos, hlt⟩ := h.made id watcher hw
      exact ⟨hpos, Nat.lt_succ_of_lt hlt⟩
  · intro id watcher rec hw hrec
    rw [lookup_insert_eq] at hw
    split_ifs at hw with hid
    · obtain rfl := Option.some.inj hw
      rcases hregs _ rec hrec with ⟨-, hobj⟩ | ⟨hne, -⟩
      · exact hobj
      · exact absurd rfl hne
    · rcases hregs _ rec hrec with ⟨hkey, -⟩ | ⟨-, hold⟩
      · have hheld : Function.update s.held s.nextWatcher (some key) id = some key := by
          rw [Function.update_of_ne hid, held_of_lookup hw, hkey]
        exact absurd (hholds.distinct id _ key hheld (Function.update_self _ _ _)) hid
      · exact h.object id watcher rec hw hold
  · intro id watcher hw
    rw [lookup_insert_eq] at hw
    rw [Function.update_apply]
    split_ifs at hw with hid
    · obtain rfl := Option.some.inj hw
      rw [if_pos rfl, hid]
    · have hcontext := h.context id watcher hw
      rw [if_neg, hcontext]
      intro heq
      rw [heq, ho] at hcontext
      exact absurd (h.made id watcher hw).1 (by rw [← Option.some.inj hcontext]; exact Nat.lt_irrefl 0)
  · intro o' id hid hne
    rw [Function.update_apply] at hid
    rw [lookup_insert_eq]
    split_ifs at hid with heq
    · rw [if_pos (Option.some.inj hid).symm, heq, Option.map_some]
    · have hold := h.waits o' id hid hne
      rw [if_neg, hold]
      rintro rfl
      rw [hnew] at hold
      cases hold

/-- A wait, which a loop that shuts down gives a key without registering it. -/
theorem asyncWait [DecidableEq γ] (h : Attended s waitOf) (hn : s.loop.KeysLeft 1) {handle : MxHandle} (hh : handle ≠ 0)
    (signals : MxSignals) (timeout now : MxTime) (ho : waitOf o = some 0) :
    ∃ loop watcher, s.asyncWait handle signals timeout now o =
        .ok (⟨loop, s.watchers.insert s.nextWatcher watcher, s.nextWatcher + 1⟩, s.nextWatcher) ∧
      Attended ⟨loop, s.watchers.insert s.nextWatcher watcher, s.nextWatcher + 1⟩
        (Function.update waitOf o (some s.nextWatcher)) ∧
      SameCallback s.loop loop := by
  let req : AddRequest := ⟨s.nextWatcher, handle, signals, timeoutDelta timeout, now, hh⟩
  have hreg := h.holds.registry
  have hheld : s.held s.nextWatcher = none := by rw [DefaultWaiter.held, h.fresh, Option.map_none]
  have hpos : s.nextWatcher ≠ 0 := Nat.pos_iff_ne_zero.mp h.first
  obtain ⟨loop, hadd, hholds, hsame, -⟩ := h.holds.addHandler hn req hpos hheld id
  refine ⟨loop, ⟨s.loop.nextHandlerKey, handle, o⟩, ?_, h.watch ho ?_ ?_, hsame⟩
  · simp [DefaultWaiter.asyncWait, hreg.attached, hh, hadd, req]
  · exact hholds.mono fun _ hdown => hsame.shutDown.trans hdown
  · intro key rec hrec
    refine (h.holds.registration_added hn hadd hrec).imp_left ?_
    rintro ⟨hkey, rfl⟩
    exact ⟨hkey, rfl⟩

/-- A watcher is deleted, and its owner has no wait any more or is gone. -/
theorem deleteWatcher [DecidableEq γ] (h : Attended s waitOf) (hw : s.watchers.lookup id = some watcher)
    {next : Option WaitId} (hnext : next = none ∨ next = some 0) :
    ∃ loop, s.deleteWatcher id = .ok { s with loop := loop, watchers := s.watchers.erase id } ∧
      Attended { s with loop := loop, watchers := s.watchers.erase id } (Function.update waitOf watcher.context next) ∧
      SameCallback s.loop loop ∧ loop.additions = s.loop.additions ∧ loop.handlers.lookup watcher.key = none ∧
      (∀ r rec, s.loop.currentHandler = some r → s.loop.records.lookup r = some rec → rec.handler = id →
        loop.currentHandlerRemoved = true) := by
  have hheld := held_of_lookup hw
  obtain ⟨hkey, loop, hremove, hholds, hsame, hcount, hremoved⟩ := h.holds.release hheld
  have hgone : loop.handlers.lookup watcher.key = none := by
    cases hk : loop.handlers.lookup watcher.key with
    | none => rfl
    | some r =>
      obtain ⟨loop', hremove', -, -, -, herase, -⟩ := h.holds.removeHandler watcher.key
      obtain rfl : loop = loop' := Except.ok.inj (hremove.symm.trans hremove')
      rw [herase, Finmap.lookup_erase] at hk
      cases hk
  refine ⟨loop, ?_, ⟨?_, h.first, ?_, ?_, ?_, ?_⟩, hsame, hcount, hgone, hremoved⟩
  · simp [DefaultWaiter.deleteWatcher, hw, hkey, h.holds.registry.attached, hremove]
  · rw [held_erase]
    exact hholds.mono fun _ hdown => hsame.shutDown.trans hdown
  · intro id' watcher' hw'
    exact h.made id' watcher' (by grind)
  · intro id' watcher' rec hw' hrec
    exact h.object id' watcher' rec (by grind) ((h.holds.removed_effect hremove).registration hrec)
  · intro id' watcher' hw'
    rw [lookup_erase_eq] at hw'
    split_ifs at hw' with hid
    rw [Function.update_apply, if_neg, h.context id' watcher' hw']
    intro heq
    have hcontext := h.context id' watcher' hw'
    rw [heq, h.context id watcher hw] at hcontext
    exact hid (Option.some.inj hcontext).symm
  · intro o' id' hid hne
    rw [Function.update_apply] at hid
    split_ifs at hid with heq
    · rcases hnext with rfl | rfl
      · cases hid
      · exact absurd (Option.some.inj hid).symm hne
    · have hold := h.waits o' id' hid hne
      rw [lookup_erase_eq, if_neg, hold]
      rintro rfl
      rw [hw] at hold
      exact heq (Option.some.inj hold).symm

/-- A dispatch finds the watcher of an owner that waits for it, unless it is for another user. When
the callback is called the watcher and its registration are gone. -/
theorem dispatch [DecidableEq γ] (h : Attended s waitOf) (hc : s.loop.currentHandler = none) {r : RecordPtr}
    (hr : r ∈ s.loop.loop.registered) (status : MxStatus) :
    ∃ loop rec, s.loop.dispatchEnter r status = .ok (loop, rec) ∧
      ((rec.handler = 0 ∧ Attended { s with loop := loop } waitOf ∧ CallbackTurn (some (r, status)) loop ∧
          loop.additions = s.loop.additions ∧ loop.loop.shutDown = s.loop.loop.shutDown) ∨
        ∃ loop' watcher, rec.handler ≠ 0 ∧ s.watchers.lookup rec.handler = some watcher ∧
          DefaultWaiter.callCallback { s with loop := loop } rec.handler rec.object =
            .ok ({ s with loop := loop', watchers := s.watchers.erase rec.handler }, watcher.context) ∧
          loop'.handlers.lookup watcher.key = none ∧
          Attended { s with loop := loop', watchers := s.watchers.erase rec.handler }
            (Function.update waitOf watcher.context (some 0)) ∧
          CallbackTurn (some (r, status)) loop' ∧ loop'.additions = s.loop.additions ∧
          loop'.loop.shutDown = s.loop.loop.shutDown) := by
  obtain ⟨loop, rec, henter, hholds, hrun, hshut, hstart, hcount, hrecords, hrec, hkey, hheld⟩ :=
    h.holds.dispatchEnter hc hr status
  have hregs (key : HandlerKey) : loop.registration key = s.loop.registration key := by
    obtain ⟨rec', -, -, henter'⟩ := h.holds.registry.dispatchEnter_eq hc hr status
    cases henter.symm.trans henter'
    rfl
  have hentered : Attended { s with loop := loop } waitOf :=
    h.loop (hholds.mono fun _ hdown => hshut.trans hdown) fun key rec hrec _ => (hregs key).symm.trans hrec
  refine ⟨loop, rec, henter, ?_⟩
  by_cases hother : rec.handler = 0
  · refine .inl ⟨hother, hentered, ⟨by simp, ?_⟩, hcount, hshut⟩
    rintro r' status' ⟨⟩
    exact ⟨hrun, ⟨rec.key, hstart⟩, rec, hrec, .inr hother⟩
  · obtain ⟨watcher, hw, hwkey⟩ := Option.map_eq_some_iff.mp (hheld hother)
    have hobj : rec.object = watcher.handle := by
      refine hentered.object rec.handler watcher rec hw (Option.bind_eq_some_iff.mpr ⟨r, ?_, hrec⟩)
      rw [hwkey]
      exact hkey
    obtain ⟨loop', hdelete, hattended, hsame, hcount', hgone, hremoved⟩ := hentered.deleteWatcher hw (.inr rfl)
    refine .inr ⟨loop', watcher, hother, hw, ?_, hgone, hattended, ⟨by simp, ?_⟩, hcount'.trans hcount,
      hsame.shutDown.trans hshut⟩
    · simp [DefaultWaiter.callCallback, hw, hobj, hdelete]
    · rintro r' status' ⟨⟩
      exact ⟨hsame.running.trans hrun, ⟨rec.key, hsame.started.trans hstart⟩, rec, (hsame.record r hrun).trans hrec,
        .inl (hremoved r rec hrun hrec rfl)⟩

theorem dispatchExit (h : Attended s waitOf) {r : RecordPtr} {status : MxStatus}
    (ht : CallbackTurn (some (r, status)) s.loop) :
    ∃ loop, s.dispatchExit r status = .ok { s with loop := loop } ∧ Attended { s with loop := loop } waitOf ∧
      CallbackTurn none loop ∧ loop.additions = s.loop.additions ∧ loop.loop.shutDown = s.loop.loop.shutDown := by
  obtain ⟨hcur, ⟨key, hstart⟩, rec, hrec, hout⟩ := ht.running r status rfl
  obtain ⟨loop, hexit, hholds, hidle, hshut, hcount⟩ := h.holds.dispatchExit hcur hstart hrec (hout.imp_right fun h => .inr (.inl h))
  refine ⟨loop, by simp [DefaultWaiter.dispatchExit, hexit], ?_, ⟨fun _ => hidle, by simp⟩, hcount, hshut⟩
  exact h.loop (hholds.mono fun _ hdown => hshut.trans hdown)
    fun key rec' hrec' _ => (h.holds.exited_effect hcur hstart hexit).registration hrec'

/-- Another user of the loop adds a handler. -/
theorem addOther (h : Attended s waitOf) (hn : s.loop.KeysLeft 1) (req : AddRequest) (hp : req.handler = 0) :
    ∃ loop, s.loop.addHandler req = .ok (loop, s.loop.nextHandlerKey) ∧ Attended { s with loop := loop } waitOf ∧
      SameCallback s.loop loop ∧ loop.additions = s.loop.additions + 1 := by
  obtain ⟨loop, hadd, hholds, hsame, hcount⟩ := h.holds.addOther hn req hp
  refine ⟨loop, hadd, h.loop (hholds.mono fun _ hdown => hsame.shutDown.trans hdown) ?_, hsame, hcount⟩
  intro key rec hrec hne
  rcases h.holds.registration_added hn hadd hrec with ⟨-, rfl⟩ | ⟨-, hold⟩
  · exact absurd hp hne
  · exact hold

/-- Another user of the loop removes a handler, under a key that no watcher has. -/
theorem removeOther (h : Attended s waitOf) {key : HandlerKey}
    (hkey : ∀ id watcher, s.watchers.lookup id = some watcher → watcher.key ≠ key) :
    ∃ loop, s.loop.removeHandler key = .ok loop ∧ Attended { s with loop := loop } waitOf ∧
      SameCallback s.loop loop := by
  obtain ⟨loop, hremove, hholds, hsame, -⟩ := h.holds.removeHandler key
  have hfree (id : WaitId) : s.held id ≠ some key := by
    intro hheld
    obtain ⟨watcher, hw, hkey'⟩ := Option.map_eq_some_iff.mp hheld
    exact hkey id watcher hw hkey'
  rw [Holds.dropKey_free hfree] at hholds
  refine ⟨loop, hremove, h.loop (hholds.mono fun _ hdown => hsame.shutDown.trans hdown) ?_, hsame⟩
  exact fun key rec hrec _ => (h.holds.removed_effect hremove).registration hrec

theorem beginShutdown (h : Attended s waitOf) : Attended { s with loop := s.loop.beginShutdown } waitOf :=
  h.loop (h.holds.beginShutdown.mono fun _ _ => rfl) fun _ _ hrec _ => hrec

/-- While the loop is not shutting down, a wait is registered. -/
theorem waits_registered (h : Attended s waitOf) (hs : s.loop.loop.shutDown = false)
    (hw : s.watchers.lookup id = some watcher) : s.loop.handlers.lookup watcher.key ≠ none := by
  intro hnone
  have hheld := held_of_lookup hw
  have hdown := h.holds.kept id watcher.key hheld hnone
  rw [hs] at hdown
  cases hdown

/-- A new owner, which waits for nothing, or the end of one. -/
theorem owner [DecidableEq γ] (h : Attended s waitOf) (ho : waitOf o = none ∨ waitOf o = some 0) {next : Option WaitId}
    (hnext : next = none ∨ next = some 0) : Attended s (Function.update waitOf o next) := by
  refine ⟨h.holds, h.first, h.made, h.object, fun id watcher hw => ?_, fun o' id hid hne => ?_⟩
  · have hcontext := h.context id watcher hw
    have hpos := (h.made id watcher hw).1
    rw [Function.update_apply, if_neg, hcontext]
    intro heq
    rw [heq] at hcontext
    rcases ho with hnone | hzero
    · rw [hnone] at hcontext
      cases hcontext
    · rw [hzero] at hcontext
      rw [← Option.some.inj hcontext] at hpos
      exact Nat.lt_irrefl 0 hpos
  · rw [Function.update_apply] at hid
    split_ifs at hid with heq
    · rcases hnext with rfl | rfl
      · cases hid
      · exact absurd (Option.some.inj hid).symm hne
    · exact h.waits o' id hid hne

end Attended

/-! ## What the operations leave of the waits -/

namespace DefaultWaiter
variable {s t : DefaultWaiter γ} {id : WaitId} {o : γ}

/-- Something is registered for a wait of `o`. -/
def Awaits (s : DefaultWaiter γ) (o : γ) : Prop :=
  ∃ key rec watcher, s.loop.registration key = some rec ∧ rec.handler ≠ 0 ∧
    s.watchers.lookup rec.handler = some watcher ∧ watcher.context = o

/-- No wait begins, and the loop begins no shutdown. -/
structure Keeps (s t : DefaultWaiter γ) : Prop where
  shutDown : t.loop.loop.shutDown = s.loop.loop.shutDown
  registration : ∀ key rec, t.loop.registration key = some rec → rec.handler = 0 ∨ s.loop.registration key = some rec
  watchers : ∀ id watcher, t.watchers.lookup id = some watcher → s.watchers.lookup id = some watcher

theorem Keeps.awaits (h : Keeps s t) (ho : t.Awaits o) : s.Awaits o := by
  obtain ⟨key, rec, watcher, hrec, hne, hw, hcontext⟩ := ho
  exact ⟨key, rec, watcher, (h.registration key rec hrec).resolve_left hne, hne, h.watchers _ _ hw, hcontext⟩

theorem Keeps.trans {u : DefaultWaiter γ} (h : Keeps s t) (h' : Keeps t u) : Keeps s u :=
  ⟨h'.shutDown.trans h.shutDown,
    fun key rec hrec => (h'.registration key rec hrec).elim .inl fun hrec => h.registration key rec hrec,
    fun id watcher hw => h.watchers id watcher (h'.watchers id watcher hw)⟩

theorem keeps_loop {loop : MessageLoop} {told : List Event} (h : MessageLoop.Leaves told s.loop loop) :
    Keeps s { s with loop := loop } :=
  ⟨h.shutDown, fun _ _ hrec => .inr (h.registration hrec), fun _ _ hw => hw⟩

theorem deleteWatcher_keeps (h : s.deleteWatcher id = .ok t) : Keeps s t ∧ t.watchers = s.watchers.erase id := by
  unfold deleteWatcher at h
  split at h
  · cases h
  · split_ifs at h
    · cases h
      exact ⟨⟨rfl, fun _ _ hrec => .inr hrec, fun _ _ hw => lookup_of_erase hw⟩, rfl⟩
    · cases h
    · obtain ⟨loop, hremove, h⟩ := of_bind_ok h
      have hleaves := MessageLoop.removeHandler_leaves hremove
      cases h
      exact ⟨⟨hleaves.shutDown, fun _ _ hrec => .inr (hleaves.registration hrec), fun _ _ hw => lookup_of_erase hw⟩, rfl⟩

/-- `CallCallback` finds the context in the watcher that it deletes. -/
theorem callCallback_keeps {handle : MxHandle} (h : s.callCallback id handle = .ok (t, o)) :
    Keeps s t ∧ t.watchers = s.watchers.erase id ∧ (s.watchers.lookup id).map HandleWatcher.context = some o := by
  unfold callCallback at h
  split at h
  · cases h
  · next watcher hw =>
    split_ifs at h
    obtain ⟨u, hdelete, h⟩ := of_bind_ok h
    obtain ⟨hkeeps, hwatchers⟩ := deleteWatcher_keeps hdelete
    cases h
    exact ⟨hkeeps, hwatchers, by rw [hw, Option.map_some]⟩

/-- A wait is registered for its owner, or for nobody. -/
theorem asyncWait_eq {handle : MxHandle} {signals : MxSignals} {timeout now : MxTime}
    (h : s.asyncWait handle signals timeout now o = .ok (t, id)) :
    id = s.nextWatcher ∧ t.loop.loop.shutDown = s.loop.loop.shutDown ∧
      (∃ key, t.watchers = s.watchers.insert id ⟨key, handle, o⟩) ∧
      ∀ key rec, t.loop.registration key = some rec →
        s.loop.registration key = some rec ∨ (s.loop.loop.shutDown = false ∧ rec.handler = id) := by
  unfold asyncWait at h
  split_ifs at h
  obtain ⟨⟨loop, key⟩, hadd, h⟩ := of_bind_ok h
  obtain ⟨-, hshut, hregs⟩ := MessageLoop.addHandler_leaves hadd
  cases h
  refine ⟨rfl, hshut, ⟨key, rfl⟩, fun key' rec hrec => (hregs key' rec hrec).imp_right ?_⟩
  rintro ⟨hs, rfl⟩
  exact ⟨hs, rfl⟩

/-- Nobody else is registered. -/
theorem awaits_of_asyncWait {handle : MxHandle} {signals : MxSignals} {timeout now : MxTime} {o' : γ}
    (h : s.asyncWait handle signals timeout now o = .ok (t, id)) (ho : t.Awaits o') : o' = o ∨ s.Awaits o' := by
  obtain ⟨-, -, ⟨key', hwatchers⟩, hregs⟩ := asyncWait_eq h
  obtain ⟨key, rec, watcher, hrec, hne, hw, hcontext⟩ := ho
  rw [hwatchers, lookup_insert_eq] at hw
  split_ifs at hw with hid
  · cases hw
    exact .inl hcontext.symm
  · refine .inr ⟨key, rec, watcher, (hregs key rec hrec).resolve_right fun hnew => hid hnew.2, hne, hw, hcontext⟩

end DefaultWaiter

/-- A wait during shutdown is registered for nobody. -/
theorem Attended.awaits_refused {s t : DefaultWaiter γ} {waitOf : γ → Option WaitId} (h : Attended s waitOf)
    (hs : s.loop.loop.shutDown = true) {handle : MxHandle} {signals : MxSignals} {timeout now : MxTime} {o o' : γ}
    {id : WaitId} (hwait : s.asyncWait handle signals timeout now o = .ok (t, id)) (ho : t.Awaits o') : s.Awaits o' := by
  obtain ⟨rfl, -, ⟨key', hwatchers⟩, hregs⟩ := DefaultWaiter.asyncWait_eq hwait
  obtain ⟨key, rec, watcher, hrec, hne, hw, hcontext⟩ := ho
  have hold : s.loop.registration key = some rec := by
    refine (hregs key rec hrec).resolve_right fun hnew => ?_
    rw [hs] at hnew
    cases hnew.1
  obtain ⟨r, hk, hr⟩ := Option.bind_eq_some_iff.mp hold
  have hheld := h.holds.owned key r rec hk hr hne
  rw [hwatchers, lookup_insert_eq] at hw
  split_ifs at hw with hid
  · rw [hid, DefaultWaiter.held, h.fresh] at hheld
    cases hheld
  · exact ⟨key, rec, watcher, hold, hne, hw, hcontext⟩

end Mtl.Waiter
