import Mathlib.Logic.Function.Basic
import Mtl.Tasks.HandlerRegistry

/-! Handler objects that keep the key of their registration, as every user of `AddHandler` does. A
handler that stays alive while its key is lost is counted in `lost`; other users of the loop register
handler 0. -/
namespace Mtl.Tasks
open Foundation

/-- How often `AddHandler` was called: each call allocates one record. -/
abbrev MessageLoop.additions (s : MessageLoop) : Nat := s.nextRecord

/-- Whether `AddHandler` has keys left for `more` calls. -/
def MessageLoop.KeysLeft (s : MessageLoop) (more : Nat) : Prop := s.additions + more < 2^64

/-- The keys that the handlers hold are those of their registrations. -/
structure Holds (lost : HandlerPtr → Prop) (s : MessageLoop) (held : HandlerPtr → Option HandlerKey) : Prop where
  registry : Registry s.additions s
  range : ∀ p k, held p = some k → 0 < k.toNat ∧ k.toNat ≤ s.additions
  distinct : ∀ p p' k, held p = some k → held p' = some k → p = p'
  null : held 0 = none
  owned : ∀ k r rec, s.handlers.lookup k = some r → s.records.lookup r = some rec → rec.handler ≠ 0 →
    held rec.handler = some k
  own : ∀ k r rec p, s.handlers.lookup k = some r → s.records.lookup r = some rec → held p = some k → rec.handler = p
  kept : ∀ p k, held p = some k → s.handlers.lookup k = none → lost p

/-- The record that is registered under `key`. -/
def MessageLoop.registration (s : MessageLoop) (key : HandlerKey) : Option HandlerRecord :=
  (s.handlers.lookup key).bind s.records.lookup

/-- Nobody holds `key` any more. -/
def dropKey (held : HandlerPtr → Option HandlerKey) (key : HandlerKey) : HandlerPtr → Option HandlerKey :=
  fun p => if held p = some key then none else held p

/-- What the calls made inside a callback leave alone. -/
structure SameCallback (s t : MessageLoop) : Prop where
  attached : t.current = s.current
  shutDown : t.loop.shutDown = s.loop.shutDown
  running : t.currentHandler = s.currentHandler
  started : lastStart t.log = lastStart s.log
  record : ∀ r, s.currentHandler = some r → t.records.lookup r = s.records.lookup r
  removed : s.currentHandlerRemoved = true → t.currentHandlerRemoved = true

theorem SameCallback.refl (s : MessageLoop) : SameCallback s s := ⟨rfl, rfl, rfl, rfl, fun _ _ => rfl, id⟩

theorem SameCallback.trans {s t u : MessageLoop} (h : SameCallback s t) (h' : SameCallback t u) : SameCallback s u :=
  ⟨h'.attached.trans h.attached, h'.shutDown.trans h.shutDown, h'.running.trans h.running, h'.started.trans h.started,
    fun r hr => (h'.record r (h.running.trans hr)).trans (h.record r hr), fun hrem => h'.removed (h.removed hrem)⟩

/-- The dispatch in progress. What its callback has left to do needs no registration. -/
structure CallbackTurn (dispatching : Option (RecordPtr × MxStatus)) (s : MessageLoop) : Prop where
  idle : dispatching = none → s.currentHandler = none
  running : ∀ r status, dispatching = some (r, status) → s.currentHandler = some r ∧
    (∃ key, lastStart s.log = some (r, key, status)) ∧
    ∃ rec, s.records.lookup r = some rec ∧ (s.currentHandlerRemoved = true ∨ rec.handler = 0)

theorem CallbackTurn.same {dispatching : Option (RecordPtr × MxStatus)} {s t : MessageLoop}
    (h : CallbackTurn dispatching s) (hs : SameCallback s t) : CallbackTurn dispatching t := by
  refine ⟨fun hnone => hs.running.trans (h.idle hnone), fun r status hsome => ?_⟩
  obtain ⟨hcur, ⟨key, hstart⟩, rec, hrec, hout⟩ := h.running r status hsome
  exact ⟨hs.running.trans hcur, ⟨key, hs.started.trans hstart⟩, rec, (hs.record r hcur).trans hrec,
    hout.imp_left hs.removed⟩

/-- The key after the last one is 0, which is entered like any other. -/
theorem Registry.addHandler_wrapped {n : Nat} {s : MessageLoop} (h : Registry n s) (hs : s.loop.shutDown = false)
    (hn : n + 1 = 2^64) (req : AddRequest) :
    s.nextHandlerKey = 0 ∧ s.addHandler req = .ok (s.registered req, 0) := by
  have hzero : s.nextHandlerKey = 0 := by
    rw [h.next, hn]
    rfl
  have hfree : s.handlers.lookup 0 = none := by
    cases hk : s.handlers.lookup 0 with
    | none => rfl
    | some r => exact absurd (h.handler_key hk).1 (by simp)
  refine ⟨hzero, ?_⟩
  rw [← hzero] at hfree ⊢
  simp [MessageLoop.addHandler, h.attached, AsyncLoop.begin, hs, emplace, hfree, MessageLoop.registered,
    MessageLoop.note]

/-- A new record is not the one that is running. -/
theorem Registry.same_registered {n : Nat} {s : MessageLoop} (h : Registry n s) (req : AddRequest) :
    SameCallback s (s.registered req) := by
  refine ⟨rfl, rfl, rfl, rfl, fun r hr => ?_, id⟩
  obtain ⟨rec, -, hrec, -⟩ := h.running r hr
  have hr' := h.record_unused
  rw [MessageLoop.registered, lookup_insert_eq, if_neg]
  rintro rfl
  rw [hr'] at hrec
  cases hrec

/-- What is registered after `AddHandler` is the new handler or was so before. -/
theorem Registry.registration_registered {n : Nat} {s : MessageLoop} (h : Registry n s) {req : AddRequest}
    {key : HandlerKey} {rec : HandlerRecord} (hrec : (s.registered req).registration key = some rec) :
    (key = s.nextHandlerKey ∧ rec = req.record s.nextHandlerKey) ∨ s.registration key = some rec := by
  obtain ⟨r, hk, hr⟩ := Option.bind_eq_some_iff.mp hrec
  have hunused := h.record_unused
  simp only [MessageLoop.registered, lookup_insert_eq] at hk hr
  split_ifs at hk with heq
  · rw [if_pos (Option.some.inj hk).symm] at hr
    exact .inl ⟨heq, (Option.some.inj hr).symm⟩
  · rw [if_neg] at hr
    · exact .inr (Option.bind_eq_some_iff.mpr ⟨r, hk, hr⟩)
    · rintro rfl
      have hkeyed := h.keyed key s.nextRecord hk
      rw [hunused] at hkeyed
      cases hkeyed

theorem SameCallback.refused (s : MessageLoop) : SameCallback s s.refused := ⟨rfl, rfl, rfl, rfl, fun _ _ => rfl, id⟩

/-- The loop closes no handle, whatever it does. -/
theorem Effect.closed {A : MxStatus → Prop} {c : Nat} {s t : MessageLoop} (h : Effect A c s t) :
    t.loop.closed = s.loop.closed := by
  cases h <;> rfl

/-- What is registered after something other than `AddHandler` was so before. -/
theorem Effect.registration {A : MxStatus → Prop} {s t : MessageLoop} (h : Effect A 0 s t) {key : HandlerKey}
    {rec : HandlerRecord} (hrec : t.registration key = some rec) : s.registration key = some rec := by
  obtain ⟨r, hk, hr⟩ := Option.bind_eq_some_iff.mp hrec
  refine Option.bind_eq_some_iff.mpr ⟨r, ?_⟩
  cases h with
  | absent | queried | entered | rearmed | shutdown => exact ⟨hk, hr⟩
  | deferred =>
    simp only [MessageLoop.deferred] at hk hr
    grind
  | cancelled =>
    simp only [MessageLoop.cancelled] at hk hr
    grind
  | ended =>
    simp only [MessageLoop.ended] at hk hr
    grind

namespace Holds
variable {lost : HandlerPtr → Prop} {s : MessageLoop} {held : HandlerPtr → Option HandlerKey} {p : HandlerPtr}
  {k : HandlerKey} {r : RecordPtr}

theorem init (lost : HandlerPtr → Prop) : Holds lost {} fun _ => none := by
  constructor
  case registry => exact .init
  all_goals simp

theorem mono {lost' : HandlerPtr → Prop} (h : Holds lost s held) (hlost : ∀ p, lost p → lost' p) : Holds lost' s held :=
  ⟨h.registry, h.range, h.distinct, h.null, h.owned, h.own, fun p k hp hk => hlost p (h.kept p k hp hk)⟩

theorem next_key (h : Holds lost s held) (hn : s.KeysLeft 1) : s.nextHandlerKey.toNat = s.additions + 1 := by
  rw [h.registry.next, UInt64.toNat_ofNat_of_lt' hn]

/-- The next key is nobody's. -/
theorem next_free (h : Holds lost s held) (hn : s.KeysLeft 1) : held p ≠ some s.nextHandlerKey := by
  intro hp
  have := (h.range p _ hp).2
  rw [h.next_key hn] at this
  omega

/-- `AddHandler` by a handler that held no key. -/
theorem registered (h : Holds lost s held) (hn : s.KeysLeft 1) (req : AddRequest) (hp : req.handler ≠ 0)
    (hfree : held req.handler = none) :
    Holds lost (s.registered req) (Function.update held req.handler (some s.nextHandlerKey)) := by
  have hreg := h.registry.registered hn req
  have hkey := h.next_key hn
  have hnone : ∀ p, held p ≠ some s.nextHandlerKey := fun p => h.next_free hn
  have hk := h.registry.key_unused hn
  have hr := h.registry.record_unused
  have hkeyed := h.registry.keyed
  obtain ⟨h1, h2, h3, h4, h5, h6, h7⟩ := h
  refine ⟨hreg, ?_, ?_, ?_, ?_, ?_, ?_⟩
  all_goals simp only [MessageLoop.registered, Function.update_apply]
  all_goals grind [AddRequest.record]

/-- `AddHandler` by another user of the loop. -/
theorem registered_other (h : Holds lost s held) (hn : s.KeysLeft 1) (req : AddRequest) (hp : req.handler = 0) :
    Holds lost (s.registered req) held := by
  have hreg := h.registry.registered hn req
  have hnone : ∀ p, held p ≠ some s.nextHandlerKey := fun p => h.next_free hn
  have hk := h.registry.key_unused hn
  have hr := h.registry.record_unused
  have hkeyed := h.registry.keyed
  obtain ⟨h1, h2, h3, h4, h5, h6, h7⟩ := h
  refine ⟨hreg, ?_, h3, h4, ?_, ?_, ?_⟩
  all_goals simp only [MessageLoop.registered]
  all_goals grind [AddRequest.record]

/-- `AddHandler` once shutdown has begun: the key is lost from the start. -/
theorem refused (h : Holds lost s held) (hn : s.KeysLeft 1) (hp : p ≠ 0) (hfree : held p = none) (hlost : lost p) :
    Holds lost s.refused (Function.update held p (some s.nextHandlerKey)) := by
  have hreg := h.registry.refused
  have hkey := h.next_key hn
  have hnone : ∀ p, held p ≠ some s.nextHandlerKey := fun p => h.next_free hn
  have hk := h.registry.key_unused hn
  have hr := h.registry.record_unused
  have hkeyed := h.registry.keyed
  obtain ⟨h1, h2, h3, h4, h5, h6, h7⟩ := h
  refine ⟨hreg, ?_, ?_, ?_, ?_, ?_, ?_⟩
  all_goals simp only [MessageLoop.refused, Function.update_apply]
  all_goals grind

theorem refused_other (h : Holds lost s held) : Holds lost s.refused held := by
  have hreg := h.registry.refused
  obtain ⟨h1, h2, h3, h4, h5, h6, h7⟩ := h
  refine ⟨hreg, fun p k hp => ?_, h3, h4, h5, h6, h7⟩
  have := h2 p k hp
  exact ⟨this.1, Nat.le_succ_of_le this.2⟩

theorem dropKey_free (hk : ∀ p, held p ≠ some k) : dropKey held k = held := by
  funext p
  exact if_neg (hk p)

theorem dropKey_held (h : Holds lost s held) (hp : held p = some k) : dropKey held k = Function.update held p none := by
  funext p'
  rw [dropKey, Function.update_apply]
  by_cases heq : p' = p
  · rw [if_pos heq, heq, if_pos hp]
  · rw [if_neg heq, if_neg fun hp' => heq (h.distinct p' p k hp' hp)]

theorem absent (h : Holds lost s held) (hk : s.handlers.lookup k = none) :
    Holds lost (s.note (.removed k)) (dropKey held k) := by
  have hreg := h.registry.noted (.removed k) (by simp) rfl
  obtain ⟨h1, h2, h3, h4, h5, h6, h7⟩ := h
  refine ⟨hreg, ?_, ?_, ?_, ?_, ?_, ?_⟩
  all_goals simp only [MessageLoop.note, dropKey]
  all_goals grind

theorem deferred (h : Holds lost s held) (hk : s.handlers.lookup k = some r) (hc : s.currentHandler = some r) :
    Holds lost (s.deferred k) (dropKey held k) := by
  have hreg := h.registry.deferred hk hc
  have hkeyed := h.registry.keyed
  obtain ⟨h1, h2, h3, h4, h5, h6, h7⟩ := h
  refine ⟨hreg, ?_, ?_, ?_, ?_, ?_, ?_⟩
  all_goals simp only [MessageLoop.deferred, dropKey]
  all_goals grind

theorem cancelled (h : Holds lost s held) (hk : s.handlers.lookup k = some r) (hc : s.currentHandler ≠ some r) :
    Holds lost (s.cancelled k r) (dropKey held k) := by
  have hreg := h.registry.cancelled hk hc
  have hkeyed := h.registry.keyed
  obtain ⟨h1, h2, h3, h4, h5, h6, h7⟩ := h
  refine ⟨hreg, ?_, ?_, ?_, ?_, ?_, ?_⟩
  all_goals simp only [MessageLoop.cancelled, dropKey]
  all_goals grind

/-- `RemoveHandler`, whoever calls it. The callback that removes its own handler is noted. -/
theorem removeHandler (h : Holds lost s held) (k : HandlerKey) :
    ∃ t, s.removeHandler k = .ok t ∧ Holds lost t (dropKey held k) ∧ SameCallback s t ∧ t.additions = s.additions ∧
      t.handlers = s.handlers.erase k ∧
      (∀ r, s.handlers.lookup k = some r → s.currentHandler = some r → t.currentHandlerRemoved = true) := by
  cases hk : s.handlers.lookup k with
  | none =>
    refine ⟨s.note (.removed k), ?_, h.absent hk, ⟨rfl, rfl, rfl, rfl, fun _ _ => rfl, id⟩, rfl, ?_, by simp⟩
    · simp [MessageLoop.removeHandler, h.registry.attached, hk]
    · refine Finmap.ext_lookup fun k' => ?_
      rw [lookup_erase_eq]
      split_ifs with heq
      · rw [heq]
        exact hk
      · rfl
  | some r =>
    by_cases hc : s.currentHandler = some r
    · exact ⟨s.deferred k, h.registry.removeHandler_deferred hk hc, h.deferred hk hc,
        ⟨rfl, rfl, rfl, rfl, fun _ _ => rfl, fun _ => rfl⟩, rfl, rfl, fun _ _ _ => rfl⟩
    · refine ⟨s.cancelled k r, h.registry.removeHandler_cancelled hk hc, h.cancelled hk hc,
        ⟨rfl, rfl, rfl, rfl, fun r' hr' => ?_, id⟩, rfl, rfl, fun r' hr' hc' => absurd (hc'.trans hr'.symm) hc⟩
      rw [MessageLoop.cancelled, lookup_erase_eq, if_neg]
      rintro rfl
      exact hc hr'

/-- A handler gives its key up. If it is the one that runs, the loop will not wait for it again. -/
theorem release (h : Holds lost s held) (hp : held p = some k) :
    k ≠ 0 ∧ ∃ t, s.removeHandler k = .ok t ∧ Holds lost t (Function.update held p none) ∧ SameCallback s t ∧
      t.additions = s.additions ∧
      (∀ r rec, s.currentHandler = some r → s.records.lookup r = some rec → rec.handler = p →
        t.currentHandlerRemoved = true) := by
  obtain ⟨t, ht, hholds, hsame, hcount, -, hremoved⟩ := h.removeHandler k
  rw [h.dropKey_held hp] at hholds
  refine ⟨?_, t, ht, hholds, hsame, hcount, ?_⟩
  · rintro rfl
    exact absurd (h.range p _ hp).1 (by decide)
  · rintro r rec hcur hrec rfl
    rcases h.registry.live r rec hrec with hk | ⟨-, hrem⟩
    · have hne : rec.handler ≠ 0 := by
        intro hzero
        rw [hzero, h.null] at hp
        cases hp
      have hkey := (h.owned rec.key r rec hk hrec hne).symm.trans hp
      exact hremoved r (by rw [← Option.some.inj hkey]; exact hk) hcur
    · exact hsame.removed hrem

/-- `RemoveHandler` registers nothing and closes nothing. -/
theorem removed_effect (h : Holds lost s held) {t : MessageLoop} (ht : s.removeHandler k = .ok t) :
    Effect (fun _ => True) 0 s t := by
  obtain ⟨u, hu, heffect, -⟩ := h.registry.removeHandler_effect (A := fun _ => True) k
  rwa [Except.ok.inj (ht.symm.trans hu)]

/-- `AddHandler` by a handler that held no key. A loop that shuts down refuses it, and the key is lost. -/
theorem addHandler (h : Holds lost s held) (hn : s.KeysLeft 1) (req : AddRequest) (hp : req.handler ≠ 0)
    (hfree : held req.handler = none) (hlost : s.loop.shutDown = true → lost req.handler) :
    ∃ t, s.addHandler req = .ok (t, s.nextHandlerKey) ∧
      Holds lost t (Function.update held req.handler (some s.nextHandlerKey)) ∧ SameCallback s t ∧
      t.additions = s.additions + 1 := by
  cases hs : s.loop.shutDown with
  | false => exact ⟨_, h.registry.addHandler_registered hs hn req, h.registered hn req hp hfree,
      h.registry.same_registered req, rfl⟩
  | true => exact ⟨_, h.registry.addHandler_refused hs req, h.refused hn hp hfree (hlost hs), .refused s, rfl⟩

/-- `AddHandler` by another user, whom the loop may refuse. -/
theorem addOther (h : Holds lost s held) (hn : s.KeysLeft 1) (req : AddRequest) (hp : req.handler = 0) :
    ∃ t, s.addHandler req = .ok (t, s.nextHandlerKey) ∧ Holds lost t held ∧ SameCallback s t ∧
      t.additions = s.additions + 1 := by
  cases hs : s.loop.shutDown with
  | false => exact ⟨_, h.registry.addHandler_registered hs hn req, h.registered_other hn req hp,
      h.registry.same_registered req, rfl⟩
  | true => exact ⟨_, h.registry.addHandler_refused hs req, h.refused_other, .refused s, rfl⟩

theorem closed_added (h : Holds lost s held) (hn : s.KeysLeft 1) {req : AddRequest} {t : MessageLoop}
    (ht : s.addHandler req = .ok (t, k)) : t.loop.closed = s.loop.closed := by
  obtain ⟨u, hu, heffect, -⟩ := h.registry.addHandler_effect (A := fun _ => True) req (.inr hn)
  obtain rfl : u = t := (Prod.mk.inj (Except.ok.inj (hu.symm.trans ht))).1
  exact heffect.closed

/-- What is registered after `AddHandler` is the new handler, under a key that was free, or was so before. -/
theorem registration_added (h : Holds lost s held) (hn : s.KeysLeft 1) {req : AddRequest} {t : MessageLoop}
    (ht : s.addHandler req = .ok (t, k)) {key : HandlerKey} {rec : HandlerRecord} (hrec : t.registration key = some rec) :
    (key = s.nextHandlerKey ∧ rec = req.record s.nextHandlerKey) ∨
      key ≠ s.nextHandlerKey ∧ s.registration key = some rec := by
  have hold (hold : s.registration key = some rec) : key ≠ s.nextHandlerKey := by
    rintro rfl
    rw [MessageLoop.registration, h.registry.key_unused hn] at hold
    cases hold
  cases hs : s.loop.shutDown with
  | false =>
    cases (h.registry.addHandler_registered hs hn req).symm.trans ht
    exact (h.registry.registration_registered hrec).imp_right fun hrec => ⟨hold hrec, hrec⟩
  | true =>
    cases (h.registry.addHandler_refused hs req).symm.trans ht
    exact .inr ⟨hold hrec, hrec⟩

theorem beginShutdown (h : Holds lost s held) : Holds lost s.beginShutdown held :=
  ⟨h.registry.shutdown, h.range, h.distinct, h.null, h.owned, h.own, h.kept⟩

/-- Handles are closed and opened outside of the loop. -/
theorem handles (h : Holds lost s held) (closed : Finset MxHandle) :
    Holds lost { s with loop.closed := closed } held := by
  obtain ⟨hreg, h2, h3, h4, h5, h6, h7⟩ := h
  obtain ⟨r1, r2, r3, r4, r5, r6, r7, r8, r9, r10, r11, r12⟩ := hreg
  exact ⟨⟨r1, r2, r3, r4, r5, r6, r7, r8, r9, r10, r11, r12⟩, h2, h3, h4, h5, h6, h7⟩

/-- Nobody holds a key, unless it is lost, once the loop has nothing left to wait for. -/
theorem lost_of_drained (h : Holds lost s held) (hc : s.currentHandler = none) (hr : s.loop.registered = ∅) :
    s.handlers = ∅ ∧ ∀ p k, held p = some k → lost p := by
  have hempty := (h.registry.settled hc).handlers_empty hr
  refine ⟨hempty, fun p k hp => h.kept p k hp ?_⟩
  rw [hempty, Finmap.lookup_empty]

/-- The dispatch of a record, up to the callback of its handler. -/
theorem dispatchEnter (h : Holds lost s held) (hc : s.currentHandler = none) (hr : r ∈ s.loop.registered)
    (status : MxStatus) :
    ∃ t rec, s.dispatchEnter r status = .ok (t, rec) ∧ Holds lost t held ∧ t.currentHandler = some r ∧
      t.loop.shutDown = s.loop.shutDown ∧ lastStart t.log = some (r, rec.key, status) ∧ t.additions = s.additions ∧
      t.records = s.records ∧ t.records.lookup r = some rec ∧ t.handlers.lookup rec.key = some r ∧
      (rec.handler ≠ 0 → held rec.handler = some rec.key) := by
  obtain ⟨rec, hrec, hk, henter⟩ := h.registry.dispatchEnter_eq hc hr status
  refine ⟨_, rec, henter, ⟨h.registry.entered hc hrec status, h.range, h.distinct, h.null, h.owned, h.own, h.kept⟩,
    rfl, rfl, rfl, rfl, rfl, hrec, hk, h.owned _ _ _ hk hrec⟩

/-- The end of a dispatch. A handler that got an error and did not remove itself loses its key. -/
theorem dispatchExit (h : Holds lost s held) (hc : s.currentHandler = some r) {k : HandlerKey} {status : MxStatus}
    (hl : lastStart s.log = some (r, k, status)) {rec : HandlerRecord} (hrec : s.records.lookup r = some rec)
    (hout : s.currentHandlerRemoved = true ∨ status = .ok ∨ rec.handler = 0 ∨ lost rec.handler) :
    ∃ t, s.dispatchExit r status = .ok t ∧ Holds lost t held ∧ t.currentHandler = none ∧
      t.loop.shutDown = s.loop.shutDown ∧ t.additions = s.additions := by
  obtain ⟨rec', status', hrec', hl'⟩ := h.registry.running r hc
  obtain rfl : rec' = rec := Option.some.inj (hrec'.symm.trans hrec)
  obtain rfl : status' = status := (Prod.mk.inj (Prod.mk.inj (Option.some.inj (hl'.symm.trans hl))).2).2
  cases hrem : s.currentHandlerRemoved with
  | true =>
    have hreg := h.registry.ended hc hrec status'
    have hgone := h.registry.removed_gone r
    refine ⟨_, Registry.dispatchExit_removed hc hrem hrec status', ?_, rfl, rfl, rfl⟩
    obtain ⟨h1, h2, h3, h4, h5, h6, h7⟩ := h
    refine ⟨hreg, h2, h3, h4, ?_, ?_, ?_⟩
    all_goals simp only [MessageLoop.ended, hrem, if_true]
    all_goals grind
  | false =>
    have hk : s.handlers.lookup rec'.key = some r := by
      rcases h.registry.live r rec' hrec with hk | ⟨-, hk⟩
      · exact hk
      · rw [hrem] at hk
        cases hk
    by_cases hst : status' = .ok
    · subst hst
      have hreg := h.registry.rearmed hc hrem rec'.key .ok
      exact ⟨_, Registry.dispatchExit_rearmed hc hrem hrec,
        ⟨hreg, h.range, h.distinct, h.null, h.owned, h.own, h.kept⟩, rfl, rfl, rfl⟩
    · have hother : rec'.handler = 0 ∨ lost rec'.handler := (hout.resolve_left (by simp [hrem])).resolve_left hst
      have hreg := h.registry.ended hc hrec status'
      refine ⟨_, Registry.dispatchExit_failed hst hc hrec (.inr (by simp [hk])), ?_, rfl, rfl, rfl⟩
      obtain ⟨h1, h2, h3, h4, h5, h6, h7⟩ := h
      refine ⟨hreg, h2, h3, h4, ?_, ?_, ?_⟩
      all_goals simp only [MessageLoop.ended, hrem]
      all_goals grind

theorem exited_effect (h : Holds lost s held) (hc : s.currentHandler = some r) {status : MxStatus}
    (hl : lastStart s.log = some (r, k, status)) {t : MessageLoop} (ht : s.dispatchExit r status = .ok t) :
    Effect (fun _ => True) 0 s t := by
  obtain ⟨u, hu, heffect, -⟩ := h.registry.dispatchExit_effect (A := fun _ => True) hc hl
  rwa [Except.ok.inj (ht.symm.trans hu)]

end Holds

end Mtl.Tasks
