import Mathlib.Algebra.GroupWithZero.Nat
import Mtl.Foundation.FiniteMap
import Mtl.Tasks.MessageLoop

/-! The registry invariant: `handlers_`, the live records, the async loop's registrations and
the pair `current_handler_`, `current_handler_removed_` stay in step. -/
namespace Mtl.Tasks
open Foundation

/-- How many keys a call spends. -/
def Call.adds : Call → Nat
  | .addHandler _ => 1
  | _ => 0

def Act.adds : Act → Nat
  | .call c => c.adds
  | .dispatch _ _ body => (body.map Call.adds).sum
  | .beginShutdown => 0

/-- Every dispatch has a status in `A`. -/
def Act.Allowed (A : MxStatus → Prop) : Act → Prop
  | .dispatch _ status _ => A status
  | _ => True

theorem Act.allowed_any (a : Act) : a.Allowed fun _ => True := by
  cases a <;> trivial

/-- The callback that started last. -/
@[grind] def lastStart : List Event → Option (RecordPtr × HandlerKey × MxStatus)
  | [] => none
  | .started record key status :: _ => some (record, key, status)
  | _ :: log => lastStart log

/-- The registry after `n` calls of `AddHandler`, inside or outside a callback. -/
structure Registry (n : Nat) (s : MessageLoop) : Prop where
  attached : s.current = true
  next : s.nextHandlerKey = UInt64.ofNat (n + 1)
  key_le : ∀ r rec, s.records.lookup r = some rec → 0 < rec.key.toNat ∧ rec.key.toNat ≤ n
  key_owner : ∀ r r' rec rec', s.records.lookup r = some rec → s.records.lookup r' = some rec' →
    rec.key = rec'.key → r = r'
  keyed : ∀ k r, s.handlers.lookup k = some r → (s.records.lookup r).map HandlerRecord.key = some k
  live : ∀ r rec, s.records.lookup r = some rec →
    s.handlers.lookup rec.key = some r ∨ (s.currentHandler = some r ∧ s.currentHandlerRemoved = true)
  running : ∀ r, s.currentHandler = some r → ∃ rec status, s.records.lookup r = some rec ∧
    lastStart s.log = some (r, rec.key, status)
  removed_current : s.currentHandlerRemoved = true → s.currentHandler ≠ none
  removed_gone : ∀ r k, s.currentHandlerRemoved = true → s.currentHandler = some r →
    s.handlers.lookup k ≠ some r
  registered_iff : ∀ r, r ∈ s.loop.registered ↔
    s.records.lookup r ≠ none ∧ s.currentHandler ≠ some r
  fresh : ∀ r, s.nextRecord ≤ r → s.records.lookup r = none
  deleted_count : ∀ r, s.log.count (.deleted r) =
    if r < s.nextRecord ∧ s.records.lookup r = none then 1 else 0

namespace MessageLoop

/-- `AddHandler` when the async loop accepts the wait. -/
def registered (s : MessageLoop) (req : AddRequest) : MessageLoop :=
  { s with
    loop.registered := insert s.nextRecord s.loop.registered
    nextHandlerKey := s.nextHandlerKey + 1
    nextRecord := s.nextRecord + 1
    records := s.records.insert s.nextRecord (req.record s.nextHandlerKey)
    handlers := s.handlers.insert s.nextHandlerKey s.nextRecord
    log := .added s.nextHandlerKey true :: s.log }

/-- `AddHandler` while shutting down: the record is gone again and a key was spent. -/
def refused (s : MessageLoop) : MessageLoop :=
  { s with
    nextHandlerKey := s.nextHandlerKey + 1
    nextRecord := s.nextRecord + 1
    log := .added s.nextHandlerKey false :: .deleted s.nextRecord :: s.log }

/-- `RemoveHandler` of the running record. -/
def deferred (s : MessageLoop) (key : HandlerKey) : MessageLoop :=
  { s with
    handlers := s.handlers.erase key
    currentHandlerRemoved := true
    log := .removed key :: s.log }

/-- `RemoveHandler` of any other record. -/
def cancelled (s : MessageLoop) (key : HandlerKey) (record : RecordPtr) : MessageLoop :=
  { s with
    loop.registered := s.loop.registered.erase record
    handlers := s.handlers.erase key
    records := s.records.erase record
    log := .removed key :: .deleted record :: s.log }

/-- A record is taken from the async loop and its callback starts. -/
def entered (s : MessageLoop) (record : RecordPtr) (key : HandlerKey) (status : MxStatus) :
    MessageLoop :=
  { s with
    loop.registered := s.loop.registered.erase record
    currentHandler := some record
    log := .started record key status :: s.log }

/-- The callback returned and the record waits again. -/
def rearmed (s : MessageLoop) (record : RecordPtr) (key : HandlerKey) (status : MxStatus) :
    MessageLoop :=
  { s with
    loop.registered := insert record s.loop.registered
    currentHandler := none
    log := .finished key status :: s.log }

/-- The callback returned and the record is gone, its entry with it if that was left. -/
def ended (s : MessageLoop) (record : RecordPtr) (key : HandlerKey) (status : MxStatus) :
    MessageLoop :=
  { s with
    handlers := if s.currentHandlerRemoved then s.handlers else s.handlers.erase key
    records := s.records.erase record
    currentHandler := none
    currentHandlerRemoved := false
    log := .deleted record :: .finished key status :: s.log }

end MessageLoop

/-- Everything that one call, the start of a callback or its end can do to the loop, with the
number of keys it spends. Only the statuses in `A` are dispatched. -/
inductive Effect (A : MxStatus → Prop) : Nat → MessageLoop → MessageLoop → Prop where
  | registered {s : MessageLoop} (req : AddRequest) :
      s.loop.shutDown = false → Effect A 1 s (s.registered req)
  | refused {s : MessageLoop} : s.loop.shutDown = true → Effect A 1 s s.refused
  | absent {s : MessageLoop} {key : HandlerKey} :
      s.handlers.lookup key = none → Effect A 0 s (s.note (.removed key))
  | deferred {s : MessageLoop} {key : HandlerKey} {r : RecordPtr} :
      s.handlers.lookup key = some r → s.currentHandler = some r → Effect A 0 s (s.deferred key)
  | cancelled {s : MessageLoop} {key : HandlerKey} {r : RecordPtr} :
      s.handlers.lookup key = some r → s.currentHandler ≠ some r → Effect A 0 s (s.cancelled key r)
  | queried {s : MessageLoop} (key : HandlerKey) :
      Effect A 0 s (s.note (.queried key (s.handlers.lookup key).isSome))
  | entered {s : MessageLoop} {r : RecordPtr} {rec : HandlerRecord} {status : MxStatus} :
      A status → s.currentHandler = none → s.records.lookup r = some rec →
      s.handlers.lookup rec.key = some r → Effect A 0 s (s.entered r rec.key status)
  | rearmed {s : MessageLoop} {r : RecordPtr} {rec : HandlerRecord} :
      s.currentHandler = some r → s.records.lookup r = some rec →
      lastStart s.log = some (r, rec.key, .ok) →
      s.currentHandlerRemoved = false → Effect A 0 s (s.rearmed r rec.key .ok)
  | ended {s : MessageLoop} {r : RecordPtr} {rec : HandlerRecord} {status : MxStatus} :
      s.currentHandler = some r → s.records.lookup r = some rec →
      lastStart s.log = some (r, rec.key, status) →
      status ≠ .ok ∨ s.currentHandlerRemoved = true → Effect A 0 s (s.ended r rec.key status)
  | shutdown {s : MessageLoop} : Effect A 0 s s.beginShutdown

/-- A chain of effects, as one dispatch or one run produces it. -/
inductive Effects (A : MxStatus → Prop) : Nat → MessageLoop → MessageLoop → Prop where
  | refl (s : MessageLoop) : Effects A 0 s s
  | cons {c m : Nat} {s t u : MessageLoop} :
      Effect A c s t → Effects A m t u → Effects A (c + m) s u

namespace Effects
variable {A : MxStatus → Prop} {c m : Nat} {s t u : MessageLoop}

theorem single (h : Effect A c s t) : Effects A c s t := .cons h (.refl t)

theorem trans (h : Effects A c s t) (h' : Effects A m t u) : Effects A (c + m) s u := by
  induction h with
  | refl => rwa [Nat.zero_add]
  | cons he _ ih =>
    rw [Nat.add_assoc]
    exact .cons he (ih h')

end Effects

/-- Keys stay unique while fewer than 2^64 were spent, or once no key is entered any more. -/
def KeysLast (n : Nat) (s : MessageLoop) : Prop := s.loop.shutDown = true ∨ n < 2^64

namespace Registry
variable {A : MxStatus → Prop} {n : Nat} {s t : MessageLoop}

theorem record_unused (h : Registry n s) : s.records.lookup s.nextRecord = none :=
  h.fresh _ (Nat.le_refl _)

theorem handler_key (h : Registry n s) {k : HandlerKey} {r : RecordPtr}
    (hk : s.handlers.lookup k = some r) : 0 < k.toNat ∧ k.toNat ≤ n := by
  obtain ⟨rec, hrec, rfl⟩ := Option.map_eq_some_iff.mp (h.keyed k r hk)
  exact h.key_le r rec hrec

theorem removed_key (h : Registry n s) {r : RecordPtr} {rec : HandlerRecord}
    (hrem : s.currentHandlerRemoved = true) (hc : s.currentHandler = some r)
    (hrec : s.records.lookup r = some rec) : s.handlers.lookup rec.key = none := by
  cases hk : s.handlers.lookup rec.key with
  | none => rfl
  | some r' =>
    obtain ⟨rec', hrec', hkey⟩ := Option.map_eq_some_iff.mp (h.keyed rec.key r' hk)
    obtain rfl := h.key_owner r' r rec' rec hrec' hrec hkey
    exact absurd hk (h.removed_gone r' rec.key hrem hc)

theorem key_unused (h : Registry n s) (hn : n + 1 < 2^64) :
    s.handlers.lookup s.nextHandlerKey = none := by
  cases hk : s.handlers.lookup s.nextHandlerKey with
  | none => rfl
  | some r =>
    have := (h.handler_key hk).2
    rw [h.next, UInt64.toNat_ofNat_of_lt' hn] at this
    omega

theorem next_succ (h : Registry n s) : s.nextHandlerKey + 1 = UInt64.ofNat (n + 1 + 1) := by
  rw [h.next, UInt64.ofNat_add (n + 1) 1]
  rfl

theorem registered (h : Registry n s) (hn : n + 1 < 2^64) (req : AddRequest) :
    Registry (n + 1) (s.registered req) := by
  have hk := h.key_unused hn
  have hr := h.record_unused
  have hkey : s.nextHandlerKey.toNat = n + 1 := by rw [h.next, UInt64.toNat_ofNat_of_lt' hn]
  have hnext := h.next_succ
  cases h
  constructor
  all_goals simp only [MessageLoop.registered]
  case next => exact hnext
  all_goals grind [AddRequest.record]

theorem refused (h : Registry n s) : Registry (n + 1) s.refused := by
  have hr := h.record_unused
  have hnext := h.next_succ
  cases h
  constructor
  all_goals simp only [MessageLoop.refused]
  case next => exact hnext
  all_goals grind

theorem noted (h : Registry n s) (e : Event) (he : ∀ r, e ≠ .deleted r)
    (hl : lastStart (e :: s.log) = lastStart s.log) : Registry n (s.note e) := by
  obtain ⟨h1, h2, h3, h4, h5, h6, h7, h8, h9, h10, h11, h12⟩ := h
  refine ⟨h1, h2, h3, h4, h5, h6, ?_, h8, h9, h10, h11, ?_⟩
  · intro r hc
    simpa only [MessageLoop.note, hl] using h7 r hc
  · intro r
    rw [MessageLoop.note, List.count_cons_of_ne (he r), h12]

theorem deferred (h : Registry n s) {key : HandlerKey} {r : RecordPtr}
    (hk : s.handlers.lookup key = some r) (hc : s.currentHandler = some r) :
    Registry n (s.deferred key) := by
  cases h
  constructor
  all_goals simp only [MessageLoop.deferred]
  all_goals grind

theorem cancelled (h : Registry n s) {key : HandlerKey} {r : RecordPtr}
    (hk : s.handlers.lookup key = some r) (hc : s.currentHandler ≠ some r) :
    Registry n (s.cancelled key r) := by
  cases h
  constructor
  all_goals simp only [MessageLoop.cancelled]
  all_goals grind

theorem entered (h : Registry n s) (hc : s.currentHandler = none) {r : RecordPtr} {rec : HandlerRecord}
    (hr : s.records.lookup r = some rec) (status : MxStatus) :
    Registry n (s.entered r rec.key status) := by
  cases h
  constructor
  all_goals simp only [MessageLoop.entered]
  case running =>
    intro r' hr'
    cases hr'
    exact ⟨rec, status, hr, rfl⟩
  all_goals grind

theorem rearmed (h : Registry n s) {r : RecordPtr} (hc : s.currentHandler = some r)
    (hrem : s.currentHandlerRemoved = false) (key : HandlerKey) (status : MxStatus) :
    Registry n (s.rearmed r key status) := by
  cases h
  constructor
  all_goals simp only [MessageLoop.rearmed]
  all_goals grind

theorem ended (h : Registry n s) {r : RecordPtr} {rec : HandlerRecord} (hc : s.currentHandler = some r)
    (hrec : s.records.lookup r = some rec) (status : MxStatus) :
    Registry n (s.ended r rec.key status) := by
  cases h
  constructor
  all_goals simp only [MessageLoop.ended]
  all_goals grind

theorem shutdown (h : Registry n s) : Registry n s.beginShutdown := by
  obtain ⟨h1, h2, h3, h4, h5, h6, h7, h8, h9, h10, h11, h12⟩ := h
  exact ⟨h1, h2, h3, h4, h5, h6, h7, h8, h9, h10, h11, h12⟩

theorem init : Registry 0 {} := by
  constructor <;> simp

/-- Every effect keeps the registry in step. -/
theorem effect {c : Nat} (h : Registry n s) (he : Effect A c s t) (hn : KeysLast (n + c) s) :
    Registry (n + c) t := by
  cases he with
  | registered req hs =>
    have hn : n + 1 < 2^64 := hn.resolve_left (by simp [hs])
    exact h.registered hn req
  | refused => exact h.refused
  | absent => exact h.noted _ (by simp) rfl
  | deferred hk hc => exact h.deferred hk hc
  | cancelled hk hc => exact h.cancelled hk hc
  | queried => exact h.noted _ (by simp) rfl
  | entered _ hc hr => exact h.entered hc hr _
  | rearmed hc _ _ hrem => exact h.rearmed hc hrem _ _
  | ended hc hr _ => exact h.ended hc hr _
  | shutdown => exact h.shutdown

theorem keysLast_effect {c m : Nat} (he : Effect A c s t) (hn : KeysLast (n + (c + m)) s) :
    KeysLast (n + c) s ∧ KeysLast (n + c + m) t := by
  rcases hn with hs | hn
  · refine ⟨.inl hs, .inl ?_⟩
    cases he <;> first | exact hs | rfl
  · exact ⟨.inr (by omega), .inr (by omega)⟩

/-- What every effect keeps while the registry is in step, every chain of effects keeps. -/
theorem effects_keep {P : Nat → MessageLoop → Prop}
    (hP : ∀ n c s t, Registry n s → KeysLast (n + c) s → Effect A c s t → P n s → P (n + c) t)
    {m : Nat} (he : Effects A m s t) (h : Registry n s) (hn : KeysLast (n + m) s) (hs : P n s) :
    P (n + m) t := by
  induction he generalizing n with
  | refl => exact hs
  | cons he _ ih =>
    obtain ⟨hn', hn''⟩ := keysLast_effect he hn
    rw [← Nat.add_assoc]
    exact ih (h.effect he hn') hn'' (hP _ _ _ _ h hn' he hs)

theorem effects {m : Nat} (h : Registry n s) (he : Effects A m s t) (hn : KeysLast (n + m) s) :
    Registry (n + m) t :=
  effects_keep (P := Registry) (fun _ _ _ _ h hn he _ => h.effect he hn) he h hn h

theorem keysLast_effects {m k : Nat} (he : Effects A m s t) (hn : KeysLast (n + (m + k)) s) :
    KeysLast (n + m + k) t := by
  induction he generalizing n with
  | refl => simpa using hn
  | cons he _ ih =>
    rw [Nat.add_assoc _ _ k] at hn
    have := ih (keysLast_effect he hn).2
    rwa [← Nat.add_assoc n]

/-! ## Calls and dispatches as effects -/

theorem addHandler_registered (h : Registry n s) (hs : s.loop.shutDown = false) (hn : n + 1 < 2^64)
    (req : AddRequest) : s.addHandler req = .ok (s.registered req, s.nextHandlerKey) := by
  simp [MessageLoop.addHandler, h.attached, AsyncLoop.begin, hs, emplace, h.key_unused hn,
    MessageLoop.registered, MessageLoop.note]

theorem addHandler_refused (h : Registry n s) (hs : s.loop.shutDown = true) (req : AddRequest) :
    s.addHandler req = .ok (s.refused, s.nextHandlerKey) := by
  simp [MessageLoop.addHandler, h.attached, AsyncLoop.begin, hs, MessageLoop.deleteRecord,
    erase_insert _ _ _ h.record_unused, MessageLoop.refused, MessageLoop.note]

theorem addHandler_effect (h : Registry n s) (req : AddRequest) (hn : KeysLast (n + 1) s) :
    ∃ t, s.addHandler req = .ok (t, s.nextHandlerKey) ∧ Effect A 1 s t ∧
      t.currentHandler = s.currentHandler ∧ lastStart t.log = lastStart s.log := by
  cases hs : s.loop.shutDown with
  | false =>
    have hkeys := hn.resolve_left (by simp [hs])
    exact ⟨_, h.addHandler_registered hs hkeys req, .registered req hs, rfl, rfl⟩
  | true => exact ⟨_, h.addHandler_refused hs req, .refused hs, rfl, rfl⟩

theorem removeHandler_deferred (h : Registry n s) {key : HandlerKey} {r : RecordPtr}
    (hk : s.handlers.lookup key = some r) (hc : s.currentHandler = some r) :
    s.removeHandler key = .ok (s.deferred key) := by
  simp [MessageLoop.removeHandler, h.attached, hk, hc, MessageLoop.deferred, MessageLoop.note]

theorem removeHandler_cancelled (h : Registry n s) {key : HandlerKey} {r : RecordPtr}
    (hk : s.handlers.lookup key = some r) (hc : s.currentHandler ≠ some r) :
    s.removeHandler key = .ok (s.cancelled key r) := by
  obtain ⟨rec, hrec, -⟩ := Option.map_eq_some_iff.mp (h.keyed key r hk)
  have hreg := (h.registered_iff r).mpr ⟨by simp [hrec], hc⟩
  simp only [MessageLoop.removeHandler, h.attached, hk, hc, hrec, AsyncLoop.cancel, hreg,
    MessageLoop.cancelled, MessageLoop.deleteRecord, MessageLoop.note, if_true, if_false,
    reduceCtorEq]
  split_ifs <;> rfl

/-- A handler that is removed right after it was added leaves a spent key. -/
theorem remove_added (h : Registry n s) (hc : s.currentHandler = none) (hn : n + 1 < 2^64) (req : AddRequest) :
    let t := (s.registered req).cancelled s.nextHandlerKey s.nextRecord
    (s.registered req).removeHandler s.nextHandlerKey = .ok t ∧ Registry (n + 1) t ∧ t.handlers = s.handlers := by
  have hreg := h.registered hn req
  have hk : (s.registered req).handlers.lookup s.nextHandlerKey = some s.nextRecord := Finmap.lookup_insert _
  have hidle : (s.registered req).currentHandler ≠ some s.nextRecord := by
    change s.currentHandler ≠ _
    rw [hc]
    simp
  exact ⟨hreg.removeHandler_cancelled hk hidle, hreg.cancelled hk hidle, erase_insert _ _ _ (h.key_unused hn)⟩

theorem removeHandler_effect (h : Registry n s) (key : HandlerKey) :
    ∃ t, s.removeHandler key = .ok t ∧ Effect A 0 s t ∧ t.currentHandler = s.currentHandler ∧
      lastStart t.log = lastStart s.log := by
  cases hk : s.handlers.lookup key with
  | none =>
    refine ⟨_, ?_, .absent hk, rfl, rfl⟩
    simp [MessageLoop.removeHandler, h.attached, hk]
  | some r =>
    by_cases hc : s.currentHandler = some r
    · exact ⟨_, h.removeHandler_deferred hk hc, .deferred hk hc, rfl, rfl⟩
    · exact ⟨_, h.removeHandler_cancelled hk hc, .cancelled hk hc, rfl, rfl⟩

theorem hasHandler_eq (h : Registry n s) (key : HandlerKey) :
    s.hasHandler key = .ok (s.note (.queried key (s.handlers.lookup key).isSome),
      (s.handlers.lookup key).isSome) := by
  simp [MessageLoop.hasHandler, h.attached]

theorem call (h : Registry n s) (c : Call) (hn : KeysLast (n + c.adds) s) :
    ∃ t, s.call c = .ok t ∧ Effect A c.adds s t ∧ t.currentHandler = s.currentHandler ∧
      lastStart t.log = lastStart s.log := by
  cases c with
  | addHandler req =>
    obtain ⟨t, ht, he, hc⟩ := h.addHandler_effect req hn
    exact ⟨t, by simp [MessageLoop.call, ht], he, hc⟩
  | removeHandler key => exact h.removeHandler_effect key
  | hasHandler key =>
    exact ⟨_, by simp only [MessageLoop.call, h.hasHandler_eq, map_ok], .queried key, rfl, rfl⟩

/-- A callback body is a chain of effects around the record that runs it. -/
theorem calls (h : Registry n s) (body : List Call)
    (hn : KeysLast (n + (body.map Call.adds).sum) s) :
    ∃ t, body.foldlM MessageLoop.call s = .ok t ∧ Effects A (body.map Call.adds).sum s t ∧
      t.currentHandler = s.currentHandler ∧ lastStart t.log = lastStart s.log := by
  induction body generalizing n s with
  | nil => exact ⟨s, rfl, .refl s, rfl, rfl⟩
  | cons c body ih =>
    rw [List.map_cons, List.sum_cons] at hn ⊢
    obtain ⟨u, hu, he, hc, hl⟩ := h.call c (hn.imp_right (by omega))
    obtain ⟨-, hn'⟩ := keysLast_effect he hn
    obtain ⟨t, ht, hes, hc', hl'⟩ := ih (h.effect he (hn.imp_right (by omega))) hn'
    exact ⟨t, by rw [List.foldlM_cons, hu]; exact ht, .cons he hes, hc'.trans hc, hl'.trans hl⟩

theorem dispatchEnter_eq (h : Registry n s) (hc : s.currentHandler = none) {r : RecordPtr}
    (hr : r ∈ s.loop.registered) (status : MxStatus) :
    ∃ rec, s.records.lookup r = some rec ∧ s.handlers.lookup rec.key = some r ∧
      s.dispatchEnter r status = .ok (s.entered r rec.key status, rec) := by
  obtain ⟨hl, -⟩ := (h.registered_iff r).mp hr
  obtain ⟨rec, hrec⟩ := Option.ne_none_iff_exists'.mp hl
  refine ⟨rec, hrec, ?_, ?_⟩
  · rcases h.live r rec hrec with hk | ⟨hk, -⟩
    · exact hk
    · rw [hc] at hk
      cases hk
  · simp [MessageLoop.dispatchEnter, MessageLoop.handleEnter, hrec, hc, MessageLoop.entered,
      MessageLoop.note]

/-- The end of a callback that removed its own handler. -/
theorem dispatchExit_removed {r : RecordPtr} {rec : HandlerRecord}
    (hc : s.currentHandler = some r) (hrem : s.currentHandlerRemoved = true)
    (hrec : s.records.lookup r = some rec) (status : MxStatus) :
    s.dispatchExit r status = .ok (s.ended r rec.key status) := by
  simp [MessageLoop.dispatchExit, MessageLoop.handleExit, hrec, MessageLoop.eraseFailed, hrem, hc,
    MessageLoop.deleteRecord, MessageLoop.ended, MessageLoop.note]

/-- The end of a callback after an error, whether the handler removed itself or the loop does. -/
theorem dispatchExit_failed {r : RecordPtr} {rec : HandlerRecord} {status : MxStatus} (hst : status ≠ .ok)
    (hc : s.currentHandler = some r) (hrec : s.records.lookup r = some rec)
    (hk : s.currentHandlerRemoved = true ∨ s.handlers.lookup rec.key ≠ none) :
    s.dispatchExit r status = .ok (s.ended r rec.key status) := by
  cases hrem : s.currentHandlerRemoved with
  | true => exact dispatchExit_removed hc hrem hrec status
  | false =>
    obtain ⟨r', hl⟩ := Option.ne_none_iff_exists'.mp (hk.resolve_left (by simp [hrem]))
    simp [MessageLoop.dispatchExit, MessageLoop.handleExit, hrec, hst, hrem, hc, hl, MessageLoop.eraseFailed,
      MessageLoop.note, MessageLoop.ended, MessageLoop.deleteRecord]

theorem dispatchExit_rearmed {r : RecordPtr} {rec : HandlerRecord} (hc : s.currentHandler = some r)
    (hrem : s.currentHandlerRemoved = false) (hrec : s.records.lookup r = some rec) :
    s.dispatchExit r .ok = .ok (s.rearmed r rec.key .ok) := by
  simp [MessageLoop.dispatchExit, MessageLoop.handleExit, hrec, hrem, hc, MessageLoop.note, MessageLoop.rearmed]

theorem dispatchExit_effect (h : Registry n s) {r : RecordPtr} {key : HandlerKey}
    {status : MxStatus} (hc : s.currentHandler = some r)
    (hl : lastStart s.log = some (r, key, status)) :
    ∃ t, s.dispatchExit r status = .ok t ∧ Effect A 0 s t ∧ t.currentHandler = none := by
  obtain ⟨rec, st, hrec, hl'⟩ := h.running r hc
  obtain ⟨rfl, rfl⟩ : rec.key = key ∧ st = status := by simpa using hl'.symm.trans hl
  cases hrem : s.currentHandlerRemoved with
  | true => exact ⟨_, dispatchExit_removed hc hrem hrec st, .ended hc hrec hl (.inr hrem), rfl⟩
  | false =>
    have hk : s.handlers.lookup rec.key = some r := by
      rcases h.live r rec hrec with hk | ⟨-, hk⟩
      · exact hk
      · rw [hrem] at hk
        cases hk
    by_cases hs : st = .ok
    · subst hs
      exact ⟨_, dispatchExit_rearmed hc hrem hrec, .rearmed hc hrec hl hrem, rfl⟩
    · exact ⟨_, dispatchExit_failed hs hc hrec (.inr (by simp [hk])), .ended hc hrec hl (.inl hs), rfl⟩

/-- A dispatch: its callback starts, and the rest of it is a chain of effects. -/
theorem dispatch (h : Registry n s) (hc : s.currentHandler = none) {r : RecordPtr}
    (hr : r ∈ s.loop.registered) {status : MxStatus} (hA : A status) (body : List Call)
    (hn : KeysLast (n + (body.map Call.adds).sum) s) :
    ∃ key t, s.dispatch r status body = .ok t ∧ Effect A 0 s (s.entered r key status) ∧
      Effects A (body.map Call.adds).sum (s.entered r key status) t ∧ t.currentHandler = none := by
  obtain ⟨rec, hrec, hk, henter⟩ := h.dispatchEnter_eq hc hr status
  have hin := Effect.entered hA hc hrec hk
  have hreg := h.effect hin (hn.imp_right (by omega))
  obtain ⟨u, hu, hbody, hcur, hl⟩ := hreg.calls body hn
  have hreg' := hreg.effects hbody hn
  obtain ⟨t, ht, hout, hc'⟩ := hreg'.dispatchExit_effect (r := r) hcur hl
  exact ⟨rec.key, t, by simp [MessageLoop.dispatch, henter, hu, ht], hin, hbody.trans (.single hout), hc'⟩

/-- One step between dispatches, whatever its callback does. -/
theorem step (h : Registry n s) (hc : s.currentHandler = none) (a : Act)
    (he : loopMachine.Enabled s a) (hA : a.Allowed A) (hn : KeysLast (n + a.adds) s) :
    ∃ t, loopMachine.step s a = .ok t ∧ Effects A a.adds s t ∧ t.currentHandler = none := by
  cases a with
  | call c =>
    obtain ⟨t, ht, heff, hcur, -⟩ := h.call c hn
    exact ⟨t, ht, .single heff, hcur.trans hc⟩
  | dispatch r status body =>
    obtain ⟨key, t, ht, hin, heff, hcur⟩ := h.dispatch hc he hA body hn
    exact ⟨t, ht, by simpa [Act.adds] using Effects.cons hin heff, hcur⟩
  | beginShutdown => exact ⟨_, rfl, .single .shutdown, hc⟩

/-- Every run whose keys last is a chain of effects and ends without a fault. -/
theorem run {acts : List Act} {result : Except Fault MessageLoop}
    (hrun : loopMachine.Run s acts result) (h : Registry n s) (hc : s.currentHandler = none)
    (hA : ∀ a ∈ acts, a.Allowed A) (hn : KeysLast (n + (acts.map Act.adds).sum) s) :
    ∃ t, result = .ok t ∧ Effects A (acts.map Act.adds).sum s t ∧ t.currentHandler = none := by
  induction hrun generalizing n with
  | nil s => exact ⟨s, rfl, .refl s, hc⟩
  | step he hs _ ih =>
    rw [List.map_cons, List.sum_cons] at hn ⊢
    obtain ⟨u, hu, heff, hcur⟩ := h.step hc _ he (hA _ List.mem_cons_self) (hn.imp_right (by omega))
    rw [hs] at hu
    cases hu
    obtain ⟨t, ht, heff', hcur'⟩ :=
      ih (h.effects heff (hn.imp_right (by omega))) hcur
        (fun a ha => hA a (List.mem_cons_of_mem _ ha)) (keysLast_effects heff hn)
    exact ⟨t, ht, heff.trans heff', hcur'⟩
  | fault he hs =>
    rw [List.map_cons, List.sum_cons] at hn
    obtain ⟨u, hu, -⟩ := h.step hc _ he (hA _ List.mem_cons_self) (hn.imp_right (by omega))
    rw [hs] at hu
    cases hu

end Registry

/-- The registry as it is seen between dispatches. -/
structure Settled (s : MessageLoop) : Prop where
  attached : s.current = true
  idle : s.currentHandler = none
  kept : s.currentHandlerRemoved = false
  nonzero : 0 ∉ s.handlers
  distinct : ∀ k k' r, s.handlers.lookup k = some r → s.handlers.lookup k' = some r → k = k'
  keyed : ∀ k r, s.handlers.lookup k = some r → (s.records.lookup r).map HandlerRecord.key = some k
  handlers_live : ∀ r, (∃ k, s.handlers.lookup k = some r) ↔ r ∈ s.records
  live_registered : ∀ r, r ∈ s.records ↔ r ∈ s.loop.registered
  allocated : ∀ r, r ∈ s.records → r < s.nextRecord
  deleted_once : ∀ r, s.log.count (.deleted r) = if r < s.nextRecord ∧ r ∉ s.records then 1 else 0

private theorem mem_records (s : MessageLoop) (r : RecordPtr) :
    r ∈ s.records ↔ s.records.lookup r ≠ none := by
  rw [ne_eq, Finmap.lookup_eq_none, not_not]

theorem Registry.settled {n : Nat} {s : MessageLoop} (h : Registry n s) (hc : s.currentHandler = none) :
    Settled s := by
  have hkept : s.currentHandlerRemoved = false := by
    cases hrem : s.currentHandlerRemoved with
    | false => rfl
    | true => exact absurd hc (h.removed_current hrem)
  refine ⟨h.attached, hc, hkept, ?_, ?_, h.keyed, ?_, ?_, ?_, ?_⟩
  · intro hmem
    obtain ⟨r, hr⟩ := Finmap.mem_iff.mp hmem
    exact absurd (h.handler_key hr).1 (by simp)
  · intro k k' r hk hk'
    have := (h.keyed k r hk).symm.trans (h.keyed k' r hk')
    exact Option.some.inj this
  · intro r
    constructor
    · rintro ⟨k, hk⟩
      obtain ⟨rec, hrec, -⟩ := Option.map_eq_some_iff.mp (h.keyed k r hk)
      exact Finmap.mem_of_lookup_eq_some hrec
    · intro hr
      obtain ⟨rec, hrec⟩ := Finmap.mem_iff.mp hr
      rcases h.live r rec hrec with hk | ⟨hk, -⟩
      · exact ⟨rec.key, hk⟩
      · rw [hc] at hk
        cases hk
  · intro r
    rw [h.registered_iff r, mem_records, hc]
    simp
  · intro r hr
    by_contra hle
    exact (mem_records s r).mp hr (h.fresh r (Nat.le_of_not_lt hle))
  · intro r
    simp only [h.deleted_count r, mem_records, not_not]

/-- Once nothing is registered no handler is left. -/
theorem Settled.handlers_empty {s : MessageLoop} (h : Settled s) (hr : s.loop.registered = ∅) : s.handlers = ∅ := by
  refine eq_empty_of_lookup _ fun key => ?_
  cases hk : s.handlers.lookup key with
  | none => rfl
  | some r =>
    have := (h.live_registered r).mp ((h.handlers_live r).mp ⟨key, hk⟩)
    simp [hr] at this

/-- A settled registry is in step whatever its keys: the number of calls only bounds them. -/
theorem Settled.registry {s : MessageLoop} (h : Settled s) : ∃ n, Registry n s := by
  have hkey (r : RecordPtr) (rec : HandlerRecord) (hrec : s.records.lookup r = some rec) :
      s.handlers.lookup rec.key = some r := by
    obtain ⟨k, hk⟩ := (h.handlers_live r).mpr (Finmap.mem_of_lookup_eq_some hrec)
    have := h.keyed k r hk
    rw [hrec, Option.map_some, Option.some.injEq] at this
    rwa [this]
  have hidle := h.idle
  refine ⟨s.nextHandlerKey.toNat + (2^64 - 1), h.attached, ?_, ?_, ?_, h.keyed, ?_, ?_, ?_, ?_, ?_, ?_, ?_⟩
  · rw [Nat.add_assoc, Nat.sub_add_cancel (by omega), UInt64.ofNat_add, UInt64.ofNat_toNat]
    exact (UInt64.add_zero _).symm
  · intro r rec hrec
    have hlt := rec.key.toNat_lt
    have hne : rec.key ≠ 0 := by
      intro h0
      exact h.nonzero (h0 ▸ Finmap.mem_of_lookup_eq_some (hkey r rec hrec))
    have hpos : rec.key.toNat ≠ 0 := fun h0 => hne (UInt64.toNat_inj.mp h0)
    omega
  · intro r r' rec rec' hrec hrec' heq
    have := hkey r rec hrec
    rw [heq, hkey r' rec' hrec'] at this
    exact (Option.some.inj this).symm
  · exact fun r rec hrec => .inl (hkey r rec hrec)
  · simp [hidle]
  · simp [h.kept]
  · simp [hidle]
  · intro r
    rw [← h.live_registered r, mem_records, hidle]
    simp
  · intro r hr
    by_contra hne
    exact Nat.not_lt.mpr hr (h.allocated r ((mem_records s r).mpr hne))
  · intro r
    simp only [h.deleted_once r, mem_records, not_not]

/-- Every run with fewer than 2^64 additions ends between dispatches with its registry in step. -/
theorem Settled.of_run {acts : List Act} {result : Except Fault MessageLoop}
    (hrun : loopMachine.Run {} acts result) (hadds : (acts.map Act.adds).sum < 2^64) :
    ∃ s, result = .ok s ∧ Registry (acts.map Act.adds).sum s ∧ Settled s := by
  obtain ⟨s, hs, heff, hc⟩ := Registry.run hrun .init rfl (fun a _ => a.allowed_any) (.inr (by omega))
  have hreg := Registry.init.effects heff (.inr (by omega))
  rw [Nat.zero_add] at hreg
  exact ⟨s, hs, hreg, hreg.settled hc⟩

/-- Between dispatches the three representations of the registry agree and each record ever
allocated is live or was deleted once. No assertion, deletion or access of the run faulted.
Keys stay within the number of additions, hence below `next_handler_key_` until that wraps. -/
theorem registry_in_step {acts : List Act} {result : Except Fault MessageLoop}
    (hrun : loopMachine.Run {} acts result) (hadds : (acts.map Act.adds).sum < 2^64) :
    ∃ s, result = .ok s ∧ Settled s ∧
      (∀ k, k ∈ s.handlers → 0 < k.toNat ∧ k.toNat ≤ (acts.map Act.adds).sum) ∧
      (s.nextHandlerKey ≠ 0 → ∀ k, k ∈ s.handlers → k < s.nextHandlerKey) ∧
      (s.nextHandlerKey = 0 ↔ (acts.map Act.adds).sum = 2^64 - 1) := by
  obtain ⟨s, hs, hreg, hset⟩ := Settled.of_run hrun hadds
  have hkey (k : HandlerKey) (hk : k ∈ s.handlers) : 0 < k.toNat ∧ k.toNat ≤ (acts.map Act.adds).sum := by
    obtain ⟨r, hr⟩ := Finmap.mem_iff.mp hk
    exact hreg.handler_key hr
  have hzero : s.nextHandlerKey = 0 ↔ (acts.map Act.adds).sum = 2^64 - 1 := by
    rw [hreg.next, ← UInt64.toNat_inj, UInt64.toNat_ofNat']
    simp only [UInt64.toNat_zero]
    omega
  refine ⟨s, hs, hset, hkey, ?_, hzero⟩
  intro hne k hk
  have := hkey k hk
  rw [ne_eq, hzero] at hne
  rw [UInt64.lt_iff_toNat_lt, hreg.next, UInt64.toNat_ofNat_of_lt' (show _ < 2^64 by omega)]
  omega

/-- A registration of handler 7 on handle 3. -/
def someRequest : AddRequest := ⟨7, 3, {.channelReadable}, TimeDelta.max, 0, by decide⟩

/-- Handler 1 removes itself and adds handler 2, which then times out. -/
theorem registry_in_step_reentrant :
    ∃ s, loopMachine.Run {} [.call (.addHandler someRequest),
        .dispatch 0 .ok [.removeHandler 1, .addHandler someRequest],
        .dispatch 1 .errTimedOut []] (.ok s) ∧ Settled s := by
  have hrun : loopMachine.Run {} [.call (.addHandler someRequest),
      .dispatch 0 .ok [.removeHandler 1, .addHandler someRequest],
      .dispatch 1 .errTimedOut []] (.ok _) :=
    .step trivial rfl (.step (show 0 ∈ _ by decide) rfl (.step (show 1 ∈ _ by decide) rfl (.nil _)))
  obtain ⟨s, hs, hset, -⟩ := registry_in_step hrun (by decide)
  rw [hs] at hrun
  exact ⟨s, hrun, hset⟩

/-- The same handler is added to an empty registry and removed again, over and over. -/
private theorem repeated_additions (n : Nat) (hn : n < 2^64) :
    ∃ acts s, loopMachine.Run {} acts (.ok s) ∧ (acts.map Act.adds).sum = n ∧ Registry n s ∧ s.loop.shutDown = false ∧
      s.currentHandler = none ∧ s.handlers = ∅ := by
  induction n with
  | zero => exact ⟨[], {}, .nil _, rfl, .init, rfl, rfl, rfl⟩
  | succ n ih =>
    obtain ⟨acts, s, hrun, hsum, hreg, hs, hc, hempty⟩ := ih (by omega)
    obtain ⟨hremove, hreg', hsame⟩ := hreg.remove_added hc hn someRequest
    have hadd : s.call (.addHandler someRequest) = .ok (s.registered someRequest) :=
      congrArg (Prod.fst <$> ·) (hreg.addHandler_registered hs hn someRequest)
    have hnext : loopMachine.Run s [.call (.addHandler someRequest), .call (.removeHandler s.nextHandlerKey)] (.ok _) :=
      .step trivial hadd (.single trivial hremove)
    exact ⟨_, _, hrun.append hnext, by simp [hsum, Act.adds, Call.adds], hreg', hs, hc, hsame.trans hempty⟩

/-- A handler added after 2^64 - 2 others, each removed before the next, has the last key: the next key has
wrapped to 0. -/
theorem next_key_wraps :
    ¬ ∀ acts s, loopMachine.Run {} acts (.ok s) → (acts.map Act.adds).sum < 2^64 →
      ∀ k, k ∈ s.handlers → k < s.nextHandlerKey := by
  intro hbelow
  obtain ⟨n, hn⟩ : ∃ n, n = 2^64 - 2 := ⟨_, rfl⟩
  obtain ⟨acts, s, hrun, hsum, hreg, hs, -, -⟩ := repeated_additions n (by omega)
  have hcall : s.call (.addHandler someRequest) = .ok (s.registered someRequest) :=
    congrArg (Prod.fst <$> ·) (hreg.addHandler_registered hs (by omega) someRequest)
  have hlast : loopMachine.Run s [.call (.addHandler someRequest)] (.ok (s.registered someRequest)) :=
    .single trivial hcall
  have hsum' : ((acts ++ [Act.call (.addHandler someRequest)]).map Act.adds).sum = n + 1 := by
    simp [hsum, Act.adds, Call.adds]
  have hlt := hbelow _ _ (hrun.append hlast) (by omega) s.nextHandlerKey (Finmap.mem_insert.mpr (.inl rfl))
  change s.nextHandlerKey < s.nextHandlerKey + 1 at hlt
  rw [hreg.next, hn] at hlt
  exact absurd hlt (by decide)

end Mtl.Tasks
