import Mtl.Tasks.HandlerRegistry

/-! When a failed handler leaves `handlers_`: `message_loop_handler.h` says before `OnHandleError`
is invoked, `HandlerRecord::Handle` erases it after that. -/
namespace Mtl.Tasks
open Foundation

/-- The dispatch of an error as `message_loop_handler.h` describes it. -/
def MessageLoop.dispatchDocumented (s : MessageLoop) (record : RecordPtr) (status : MxStatus)
    (body : List Call) : Except Fault MessageLoop := do
  let (s, rec) ← s.dispatchEnter record status
  let s ← s.eraseFailed rec.key
  let s ← body.foldlM MessageLoop.call s
  s.dispatchExit record status

/-- What a call returned to its caller. -/
inductive CallResult where
  | added (key : HandlerKey)
  | removed (key : HandlerKey)
  | queried (key : HandlerKey) (answer : Bool)
  deriving DecidableEq

def Event.result : Event → Option CallResult
  | .added key _ => some (.added key)
  | .removed key => some (.removed key)
  | .queried key answer => some (.queried key answer)
  | _ => none

/-- The results of the calls in a history, the last one first. -/
def results (log : List Event) : List CallResult := log.filterMap Event.result

/-- The calls of the body return the same as under the documented order, none of them is told that
the handler is still there, and the same handlers are left. -/
def AsDocumented (s : MessageLoop) (record : RecordPtr) (key : HandlerKey) (status : MxStatus)
    (body : List Call) : Prop :=
  ∃ t t' new, s.dispatch record status body = .ok t ∧ s.dispatchDocumented record status body = .ok t' ∧
    results t.log = new ++ results s.log ∧ results t'.log = new ++ results s.log ∧
    .queried key true ∉ new ∧ t.handlers = t'.handlers

/-- The keys that the additions of a body return, from the next one on. -/
def returnedKeys (next : HandlerKey) : List Call → List HandlerKey
  | [] => []
  | .addHandler _ :: body => next :: returnedKeys (next + 1) body
  | .removeHandler _ :: body | .hasHandler _ :: body => returnedKeys next body

/-- The body asks for `key` only while it is gone: after it removed `key`, and before an addition
that returns `key` again. `accepts` says whether additions register. -/
def AsksWhenGone (key : HandlerKey) (accepts : Bool) : Bool → HandlerKey → List Call → Prop
  | _, _, [] => True
  | gone, next, .addHandler _ :: body =>
    AsksWhenGone key accepts (gone && !(accepts && next = key)) (next + 1) body
  | gone, next, .removeHandler k :: body => AsksWhenGone key accepts (gone || k = key) next body
  | gone, next, .hasHandler k :: body => (k = key → gone = true) ∧ AsksWhenGone key accepts gone next body

/-- The body cannot tell when its handler is erased. -/
def Unaware (s : MessageLoop) (key : HandlerKey) (body : List Call) : Prop :=
  AsksWhenGone key (!s.loop.shutDown) false s.nextHandlerKey body ∧
    (.removeHandler key ∈ body ∨ s.loop.shutDown = true ∨ key ∉ returnedKeys s.nextHandlerKey body)

/-! ## The registry of any reachable loop -/

/-- What is left of the registry's invariant when keys may have been used up. -/
structure Linked (s : MessageLoop) : Prop where
  attached : s.current = true
  keyed : ∀ k r, s.handlers.lookup k = some r → (s.records.lookup r).map HandlerRecord.key = some k
  registered_iff : ∀ r, r ∈ s.loop.registered ↔ s.records.lookup r ≠ none ∧ s.currentHandler ≠ some r
  fresh : ∀ r, s.nextRecord ≤ r → s.records.lookup r = none
  removed_gone : s.currentHandlerRemoved = true → ∀ r, s.currentHandler = some r →
    ∀ k, s.handlers.lookup k ≠ some r
  removed_current : s.currentHandlerRemoved = true → s.currentHandler ≠ none
  running : ∀ r, s.currentHandler = some r → s.records.lookup r ≠ none

/-- What the calls of a body go by. -/
structure Table where
  handlers : Finmap (fun _ : HandlerKey => RecordPtr)
  nextKey : HandlerKey
  nextRecord : RecordPtr
  shutDown : Bool

def MessageLoop.table (s : MessageLoop) : Table :=
  ⟨s.handlers, s.nextHandlerKey, s.nextRecord, s.loop.shutDown⟩

namespace Table

def call (v : Table) : Call → Table × CallResult
  | .addHandler _ => ({ v with
      handlers := if v.shutDown then v.handlers else emplace v.handlers v.nextKey v.nextRecord
      nextKey := v.nextKey + 1
      nextRecord := v.nextRecord + 1 }, .added v.nextKey)
  | .removeHandler key => ({ v with handlers := v.handlers.erase key }, .removed key)
  | .hasHandler key => (v, .queried key (v.handlers.lookup key).isSome)

def after (v : Table) (body : List Call) : Table := body.foldl (fun v c => (v.call c).1) v

def results (v : Table) : List Call → List CallResult
  | [] => []
  | c :: body => (v.call c).2 :: (v.call c).1.results body

end Table

/-- Only a removal takes an entry away. -/
theorem Table.lookup_call (v : Table) {c : Call} {key : HandlerKey} (hc : c ≠ .removeHandler key) {r : RecordPtr}
    (hl : v.handlers.lookup key = some r) : (v.call c).1.handlers.lookup key = some r := by
  cases c with
  | addHandler req =>
    cases hs : v.shutDown with
    | true => simpa only [Table.call, hs, if_true] using hl
    | false =>
      simp only [Table.call, hs, Bool.false_eq_true, if_false]
      by_cases he : key = v.nextKey
      · rw [he, lookup_emplace_self, ← he, hl]
        rfl
      · rw [lookup_emplace_ne _ he, hl]
  | removeHandler k => exact (Finmap.lookup_erase_ne fun he => hc (by rw [he])).trans hl
  | hasHandler k => exact hl

/-- What one call does to a loop in any reachable state. -/
structure Calls (s : MessageLoop) (c : Call) (t : MessageLoop) : Prop where
  eq : s.call c = .ok t
  linked : Linked t
  current : t.currentHandler = s.currentHandler
  table : t.table = (s.table.call c).1
  results : results t.log = (s.table.call c).2 :: results s.log
  kept : ∀ r, s.currentHandler = some r → t.records.lookup r = s.records.lookup r
  removed : t.currentHandlerRemoved = true ↔ s.currentHandlerRemoved = true ∨
    ∃ k r, c = .removeHandler k ∧ s.currentHandler = some r ∧ s.handlers.lookup k = some r

/-- The error branch of `Handle` takes the entry of the running record away. -/
def MessageLoop.erased (s : MessageLoop) (key : HandlerKey) : MessageLoop :=
  { s with handlers := s.handlers.erase key, currentHandlerRemoved := true }

namespace Linked
variable {s t : MessageLoop}

theorem init : Linked {} := by
  constructor <;> simp

theorem noted (h : Linked s) (e : Event) : Linked (s.note e) := by
  cases h
  constructor <;> assumption

theorem addHandler (h : Linked s) (req : AddRequest) : ∃ t, Calls s (.addHandler req) t := by
  have hfresh := h.fresh s.nextRecord (Nat.le_refl _)
  cases hs : s.loop.shutDown with
  | true =>
    refine ⟨s.refused, ?_, ?_, rfl, ?_, ?_, ?_, ?_⟩
    · simp [MessageLoop.call, MessageLoop.addHandler, h.attached, AsyncLoop.begin, hs, MessageLoop.deleteRecord,
        erase_insert _ _ _ hfresh, MessageLoop.refused, MessageLoop.note]
    · cases h
      constructor
      all_goals simp only [MessageLoop.refused]
      all_goals grind
    · simp [MessageLoop.table, MessageLoop.refused, Table.call, hs]
    · rfl
    · exact fun _ _ => rfl
    · simp [MessageLoop.refused]
  | false =>
    refine ⟨{ s with
      loop.registered := insert s.nextRecord s.loop.registered
      nextHandlerKey := s.nextHandlerKey + 1
      nextRecord := s.nextRecord + 1
      records := s.records.insert s.nextRecord (req.record s.nextHandlerKey)
      handlers := emplace s.handlers s.nextHandlerKey s.nextRecord
      log := .added s.nextHandlerKey true :: s.log }, ?_, ?_, rfl, ?_, ?_, ?_, ?_⟩
    · simp [MessageLoop.call, MessageLoop.addHandler, h.attached, AsyncLoop.begin, hs, MessageLoop.note]
    · have hgone (k : HandlerKey) (r : RecordPtr) := @lookup_emplace_some s.handlers s.nextHandlerKey k s.nextRecord r
      cases h
      constructor
      all_goals grind [AddRequest.record]
    · simp [MessageLoop.table, Table.call, hs]
    · rfl
    · intro r hc
      refine Finmap.lookup_insert_of_ne _ fun hr => h.running r hc ?_
      rw [hr, hfresh]
    · simp

theorem removeHandler (h : Linked s) (key : HandlerKey) : ∃ t, Calls s (.removeHandler key) t := by
  cases hk : s.handlers.lookup key with
  | none =>
    refine ⟨s.note (.removed key), ?_, h.noted _, rfl, ?_, rfl, fun _ _ => rfl, ?_⟩
    · simp [MessageLoop.call, MessageLoop.removeHandler, h.attached, hk]
    · have herase : s.handlers.erase key = s.handlers := Finmap.ext_lookup fun k => by grind
      simp [MessageLoop.table, MessageLoop.note, Table.call, herase]
    · simp [MessageLoop.note, hk]
  | some r =>
    obtain ⟨rec, hrec, -⟩ := Option.map_eq_some_iff.mp (h.keyed key r hk)
    by_cases hc : s.currentHandler = some r
    · refine ⟨s.deferred key, ?_, ?_, rfl, rfl, rfl, fun _ _ => rfl, ?_⟩
      · simp [MessageLoop.call, MessageLoop.removeHandler, h.attached, hk, hc, MessageLoop.deferred, MessageLoop.note]
      · cases h
        constructor
        all_goals simp only [MessageLoop.deferred]
        all_goals grind
      · simp [MessageLoop.deferred, hk, hc]
    · have hreg := (h.registered_iff r).mpr ⟨by simp [hrec], hc⟩
      refine ⟨s.cancelled key r, ?_, ?_, rfl, rfl, rfl, ?_, ?_⟩
      · simp only [MessageLoop.call, MessageLoop.removeHandler, h.attached, hk, hc, hrec, AsyncLoop.cancel, hreg,
          MessageLoop.cancelled, MessageLoop.deleteRecord, MessageLoop.note, if_true, if_false, reduceCtorEq]
        split_ifs <;> rfl
      · cases h
        constructor
        all_goals simp only [MessageLoop.cancelled]
        all_goals grind
      · intro r' hr'
        exact Finmap.lookup_erase_ne fun hr => hc (hr ▸ hr')
      · simp only [MessageLoop.cancelled]
        grind

theorem call (h : Linked s) (c : Call) : ∃ t, Calls s c t := by
  cases c with
  | addHandler req => exact h.addHandler req
  | removeHandler key => exact h.removeHandler key
  | hasHandler key =>
    refine ⟨s.note (.queried key (s.handlers.lookup key).isSome), ?_, h.noted _, rfl, rfl, rfl, fun _ _ => rfl, ?_⟩
    · simp [MessageLoop.call, MessageLoop.hasHandler, h.attached]
    · simp [MessageLoop.note]

/-- A callback body around the record that runs it. -/
theorem calls (h : Linked s) (body : List Call) : ∃ t, body.foldlM MessageLoop.call s = .ok t ∧ Linked t ∧
    t.currentHandler = s.currentHandler ∧ t.table = s.table.after body ∧
    results t.log = (s.table.results body).reverse ++ results s.log ∧
    ∀ r, s.currentHandler = some r → t.records.lookup r = s.records.lookup r := by
  induction body generalizing s with
  | nil => exact ⟨s, rfl, h, rfl, rfl, rfl, fun _ _ => rfl⟩
  | cons c body ih =>
    obtain ⟨u, hu⟩ := h.call c
    obtain ⟨t, ht, hlinked, hcur, htable, hresults, hkept⟩ := ih hu.linked
    refine ⟨t, by rw [List.foldlM_cons, hu.eq]; exact ht, hlinked, hcur.trans hu.current, ?_, ?_, ?_⟩
    · rw [htable, hu.table]
      rfl
    · rw [hresults, hu.table, hu.results, Table.results]
      simp
    · intro r hr
      rw [hkept r (hu.current.trans hr), hu.kept r hr]

/-- While the entry of the running record is there, only the removal of its key takes it away. -/
theorem calls_removed (h : Linked s) {r : RecordPtr} (key : HandlerKey) (hc : s.currentHandler = some r)
    (hk : s.currentHandlerRemoved = true ∨ s.handlers.lookup key = some r) (body : List Call)
    (ht : body.foldlM MessageLoop.call s = .ok t) :
    (t.currentHandlerRemoved = true ↔ s.currentHandlerRemoved = true ∨ .removeHandler key ∈ body) ∧
      (t.currentHandlerRemoved = true ∨ t.handlers.lookup key = some r) := by
  induction body generalizing s with
  | nil =>
    cases ht
    exact ⟨by simp, hk⟩
  | cons c body ih =>
    obtain ⟨u, hu⟩ := h.call c
    rw [List.foldlM_cons, hu.eq] at ht
    have hcu := hu.current.trans hc
    have hown (hrem : s.currentHandlerRemoved = false) (k : HandlerKey) (hl : s.handlers.lookup k = some r) : k = key := by
      have hkey := hk.resolve_left (by simp [hrem])
      exact Option.some.inj ((h.keyed k r hl).symm.trans (h.keyed key r hkey))
    have hstep : u.currentHandlerRemoved = true ↔ s.currentHandlerRemoved = true ∨ c = .removeHandler key := by
      rw [hu.removed]
      constructor
      · rintro (hrem | ⟨k, r', rfl, hr', hl⟩)
        · exact .inl hrem
        · cases hc.symm.trans hr'
          cases hrem : s.currentHandlerRemoved with
          | true => exact .inl rfl
          | false => rw [hown hrem k hl]; exact .inr rfl
      · rintro (hrem | rfl)
        · exact .inl hrem
        · rcases hk with hrem | hl
          · exact .inl hrem
          · exact .inr ⟨key, r, rfl, hc, hl⟩
    have hnext : u.currentHandlerRemoved = true ∨ u.handlers.lookup key = some r := by
      by_cases hrem : u.currentHandlerRemoved = true
      · exact .inl hrem
      · rw [hstep, not_or] at hrem
        have hl := hk.resolve_left hrem.1
        have htable : u.handlers = (s.table.call c).1.handlers := congrArg Table.handlers hu.table
        rw [htable]
        exact .inr (s.table.lookup_call hrem.2 hl)
    obtain ⟨hiff, hend⟩ := ih hu.linked hcu hnext ht
    refine ⟨?_, hend⟩
    rw [hiff, hstep, List.mem_cons, or_assoc, @eq_comm _ c]

/-- The record of the callback that returned is gone, its entry with it. -/
theorem ended (h : Linked s) {r : RecordPtr} {rec : HandlerRecord} (hc : s.currentHandler = some r)
    (hrec : s.records.lookup r = some rec) (status : MxStatus) : Linked (s.ended r rec.key status) := by
  cases h
  constructor
  all_goals simp only [MessageLoop.ended]
  all_goals grind

theorem rearmed (h : Linked s) {r : RecordPtr} (hc : s.currentHandler = some r)
    (hrem : s.currentHandlerRemoved = false) (key : HandlerKey) (status : MxStatus) :
    Linked (s.rearmed r key status) := by
  cases h
  constructor
  all_goals simp only [MessageLoop.rearmed]
  all_goals grind

/-- The running record's entry goes before its callback has returned. -/
theorem erased (h : Linked s) {r : RecordPtr} (hc : s.currentHandler = some r) {key : HandlerKey}
    (hk : s.handlers.lookup key = some r) : Linked (s.erased key) := by
  cases h
  constructor
  all_goals simp only [MessageLoop.erased]
  all_goals grind

theorem entered (h : Linked s) (hc : s.currentHandler = none) {r : RecordPtr} (hr : s.records.lookup r ≠ none)
    (key : HandlerKey) (status : MxStatus) : Linked (s.entered r key status) := by
  cases h
  constructor
  all_goals simp only [MessageLoop.entered]
  all_goals grind

/-- The end of any callback, when it does not fail an assertion. -/
theorem exit (h : Linked s) {r : RecordPtr} {status : MxStatus} (hc : s.currentHandler = some r)
    (ht : s.dispatchExit r status = .ok t) : Linked t ∧ t.currentHandler = none := by
  obtain ⟨rec, hrec⟩ := Option.ne_none_iff_exists'.mp (h.running r hc)
  cases hrem : s.currentHandlerRemoved with
  | true =>
    rw [Registry.dispatchExit_removed hc hrem hrec status] at ht
    cases ht
    exact ⟨h.ended hc hrec status, rfl⟩
  | false =>
    by_cases hst : status = .ok
    · have hagain : s.dispatchExit r status = .ok (s.rearmed r rec.key status) := by
        simp [MessageLoop.dispatchExit, MessageLoop.handleExit, hrec, hst, hrem, hc, MessageLoop.note,
          MessageLoop.rearmed]
      rw [hagain] at ht
      cases ht
      exact ⟨h.rearmed hc hrem _ _, rfl⟩
    · cases hl : s.handlers.lookup rec.key with
      | none =>
        simp [MessageLoop.dispatchExit, MessageLoop.handleExit, hrec, hst, hrem, MessageLoop.eraseFailed, hl] at ht
      | some r' =>
        rw [Registry.dispatchExit_failed hst hc hrec (.inr (by simp [hl]))] at ht
        cases ht
        exact ⟨h.ended hc hrec status, rfl⟩

/-- Every state that a run reaches between dispatches, however many keys it used. -/
theorem of_run {acts : List Act} (hrun : loopMachine.Run {} acts (.ok s)) : Linked s ∧ s.currentHandler = none := by
  have hstep (s : MessageLoop) (a : Act) (hs : Linked s ∧ s.currentHandler = none) (he : loopMachine.Enabled s a) :
      (∃ t, loopMachine.step s a = .ok t ∧ Linked t ∧ t.currentHandler = none) ∨
        ∃ e, loopMachine.step s a = .error e ∧ True := by
    obtain ⟨h, hc⟩ := hs
    cases a with
    | call c =>
      obtain ⟨t, ht⟩ := h.call c
      exact .inl ⟨t, ht.eq, ht.linked, ht.current.trans hc⟩
    | beginShutdown =>
      cases h
      exact .inl ⟨_, rfl, by constructor <;> assumption, hc⟩
    | dispatch r status body =>
      obtain ⟨hr, -⟩ := (h.registered_iff r).mp he
      obtain ⟨rec, hrec⟩ := Option.ne_none_iff_exists'.mp hr
      have henter : s.dispatchEnter r status = .ok (s.entered r rec.key status, rec) := by
        simp [MessageLoop.dispatchEnter, MessageLoop.handleEnter, hrec, hc, MessageLoop.entered, MessageLoop.note]
      obtain ⟨u, hu, hlinked, hcur, -⟩ := (h.entered hc hr rec.key status).calls body
      have hdispatch : s.dispatch r status body = u.dispatchExit r status := by
        simp [MessageLoop.dispatch, henter, hu]
      cases hexit : u.dispatchExit r status with
      | ok t =>
        obtain ⟨ht, hct⟩ := hlinked.exit hcur hexit
        exact .inl ⟨t, hdispatch.trans hexit, ht, hct⟩
      | error e => exact .inr ⟨e, hdispatch.trans hexit, trivial⟩
  rcases hrun.safe_or (E := fun _ => True) hstep ⟨.init, rfl⟩ with ⟨t, ht, h⟩ | ⟨e, he, -⟩
  · cases ht
    exact h
  · cases he

end Linked

/-! ## Bodies on two tables -/

/-- Tables that differ in what they say of `key` only. -/
structure SameBut (key : HandlerKey) (v w : Table) : Prop where
  nextKey : w.nextKey = v.nextKey
  nextRecord : w.nextRecord = v.nextRecord
  shutDown : w.shutDown = v.shutDown
  handlers : ∀ k, k ≠ key → w.handlers.lookup k = v.handlers.lookup k

namespace SameBut
variable {key : HandlerKey} {v w : Table}

theorem call (h : SameBut key v w) (c : Call) : SameBut key (v.call c).1 (w.call c).1 := by
  obtain ⟨hkey, hrec, hshut, hl⟩ := h
  cases c with
  | addHandler req =>
    refine ⟨congrArg (· + 1) hkey, congrArg (· + 1) hrec, hshut, fun k hk => ?_⟩
    simp only [Table.call, hshut, hkey, hrec]
    split_ifs
    · exact hl k hk
    · by_cases he : k = v.nextKey
      · rw [he, lookup_emplace_self, lookup_emplace_self, ← he, hl k hk]
      · rw [lookup_emplace_ne _ he, lookup_emplace_ne _ he, hl k hk]
  | removeHandler k' =>
    refine ⟨hkey, hrec, hshut, fun k hk => ?_⟩
    simp only [Table.call, lookup_erase_eq, hl k hk]
  | hasHandler k' => exact ⟨hkey, hrec, hshut, hl⟩

/-- The removal of the key makes them equal. -/
theorem removed (h : SameBut key v w) : (w.call (.removeHandler key)).1 = (v.call (.removeHandler key)).1 := by
  have hl : w.handlers.erase key = v.handlers.erase key := by
    apply Finmap.ext_lookup
    intro k
    rw [lookup_erase_eq, lookup_erase_eq]
    split_ifs with hk
    · rfl
    · exact h.handlers k hk
  obtain ⟨hkey, hrec, hshut, -⟩ := h
  cases v
  cases w
  simp only at hkey hrec hshut
  simp only [Table.call, hl, hkey, hrec, hshut]

/-- Calls that are not told of the key return the same on both. -/
theorem results_eq (h : SameBut key v w) (hk : v.handlers.lookup key ≠ none) {body : List Call}
    (hq : .queried key true ∉ v.results body) : w.results body = v.results body := by
  induction body generalizing v w with
  | nil => rfl
  | cons c body ih =>
    rw [Table.results, List.mem_cons, not_or] at hq
    have hfirst : (w.call c).2 = (v.call c).2 := by
      cases c with
      | addHandler req => exact congrArg CallResult.added h.nextKey
      | removeHandler k => rfl
      | hasHandler k =>
        have hne : k ≠ key := by
          rintro rfl
          refine hq.1 ?_
          simp only [Table.call, Option.isSome_iff_ne_none.mpr hk]
        simp only [Table.call, h.handlers k hne]
    rw [Table.results, Table.results, hfirst]
    by_cases hc : c = .removeHandler key
    · rw [hc, h.removed]
    · obtain ⟨r, hr⟩ := Option.ne_none_iff_exists'.mp hk
      rw [ih (h.call c) (by simp [v.lookup_call hc hr]) hq.2]

theorem after (h : SameBut key v w) (body : List Call) : SameBut key (v.after body) (w.after body) := by
  induction body generalizing v w with
  | nil => exact h
  | cons c body ih => exact ih (h.call c)

theorem after_removed (h : SameBut key v w) {body : List Call} (hmem : .removeHandler key ∈ body) :
    w.after body = v.after body := by
  obtain ⟨front, back, rfl⟩ := List.append_of_mem hmem
  simp only [Table.after, List.foldl_append, List.foldl_cons]
  exact congrArg (fun u => back.foldl (fun u c => (Table.call u c).1) u) (h.after front).removed

end SameBut

namespace Table
variable {key : HandlerKey}

theorem after_cons (v : Table) (c : Call) (body : List Call) : v.after (c :: body) = (v.call c).1.after body := rfl

/-- The key is never confirmed to a body that asks for it only while it is gone. -/
theorem queried_iff (v : Table) (key : HandlerKey) (body : List Call) :
    .queried key true ∉ v.results body ↔
      AsksWhenGone key (!v.shutDown) (v.handlers.lookup key).isNone v.nextKey body := by
  induction body generalizing v with
  | nil => simp [Table.results, AsksWhenGone]
  | cons c body ih =>
    rw [Table.results, List.mem_cons, not_or, ih]
    cases c with
    | addHandler req =>
      have hgone : ((v.call (.addHandler req)).1.handlers.lookup key).isNone =
          ((v.handlers.lookup key).isNone && !((!v.shutDown) && v.nextKey = key)) := by
        cases hs : v.shutDown with
        | true => simp [Table.call, hs]
        | false =>
          by_cases he : v.nextKey = key
          · simp [Table.call, hs, he, lookup_emplace_self]
          · simp [Table.call, hs, he, lookup_emplace_ne _ (Ne.symm he)]
      rw [AsksWhenGone, ← hgone]
      simp [Table.call]
    | removeHandler k =>
      have hgone : ((v.handlers.erase k).lookup key).isNone = ((v.handlers.lookup key).isNone || k = key) := by
        rw [lookup_erase_eq]
        by_cases he : key = k
        · simp [he]
        · simp [he, Ne.symm he]
      rw [AsksWhenGone, ← hgone]
      simp [Table.call]
    | hasHandler k =>
      rw [AsksWhenGone]
      refine and_congr ?_ Iff.rfl
      simp only [Table.call, CallResult.queried.injEq, not_and, @eq_comm _ key k]
      refine forall_congr' fun he => ?_
      subst he
      cases v.handlers.lookup k <;> simp

/-- A key that is gone and not removed comes back only if an addition returns it. -/
theorem after_gone_iff (v : Table) {body : List Call} (hmem : .removeHandler key ∉ body)
    (hk : v.handlers.lookup key = none) :
    (v.after body).handlers.lookup key = none ↔ v.shutDown = true ∨ key ∉ returnedKeys v.nextKey body := by
  have hkept (body : List Call) (u : Table) {r : RecordPtr} (hr : u.handlers.lookup key = some r)
      (hmem : .removeHandler key ∉ body) : (u.after body).handlers.lookup key = some r := by
    induction body generalizing u with
    | nil => exact hr
    | cons c body ih =>
      rw [List.mem_cons, not_or] at hmem
      exact ih _ (u.lookup_call (Ne.symm hmem.1) hr) hmem.2
  induction body generalizing v with
  | nil => simp [Table.after, hk, returnedKeys]
  | cons c body ih =>
    rw [List.mem_cons, not_or] at hmem
    cases c with
    | addHandler req =>
      rw [after_cons]
      by_cases hs : v.shutDown = true
      · have hl : (v.call (.addHandler req)).1.handlers.lookup key = none := by
          simpa only [Table.call, hs, if_true] using hk
        refine (ih _ hmem.2 hl).trans ?_
        simp only [Table.call, hs, true_or]
      · by_cases he : key = v.nextKey
        · have hl : (v.call (.addHandler req)).1.handlers.lookup key = some v.nextRecord := by
            rw [he] at hk ⊢
            simp only [Table.call, if_neg hs, lookup_emplace_self, hk, Option.getD_none]
          rw [hkept body _ hl hmem.2]
          simp [hs, returnedKeys, he]
        · have hl : (v.call (.addHandler req)).1.handlers.lookup key = none := by
            simp only [Table.call, if_neg hs, lookup_emplace_ne _ he, hk]
          refine (ih _ hmem.2 hl).trans ?_
          simp [Table.call, returnedKeys, he]
    | removeHandler k =>
      have hl : (v.call (.removeHandler k)).1.handlers.lookup key = none := by
        simp only [Table.call, lookup_erase_eq, hk, ite_self]
      exact ih _ hmem.2 hl
    | hasHandler k => exact ih v hmem.2 hk

end Table

/-- Both orders of a dispatch run the body, from tables that differ in the failed handler's entry. -/
theorem Linked.dispatches {s : MessageLoop} (h : Linked s) (hc : s.currentHandler = none) {key : HandlerKey}
    {r : RecordPtr} (hk : s.handlers.lookup key = some r) {status : MxStatus} (hst : status ≠ .ok) (body : List Call) :
    ∃ t t' w, SameBut key s.table w ∧ w.handlers.lookup key = none ∧
      s.dispatch r status body = .ok t ∧ s.dispatchDocumented r status body = .ok t' ∧
      results t.log = (s.table.results body).reverse ++ results s.log ∧
      results t'.log = (w.results body).reverse ++ results s.log ∧
      t.handlers = (if .removeHandler key ∈ body then (s.table.after body).handlers
        else (s.table.after body).handlers.erase key) ∧
      t'.handlers = (w.after body).handlers := by
  obtain ⟨rec, hrec, rfl⟩ := Option.map_eq_some_iff.mp (h.keyed key r hk)
  have henter : s.dispatchEnter r status = .ok (s.entered r rec.key status, rec) := by
    simp [MessageLoop.dispatchEnter, MessageLoop.handleEnter, hrec, hc, MessageLoop.entered, MessageLoop.note]
  have hentered := h.entered (r := r) hc (by simp [hrec]) rec.key status
  have hkept : (s.entered r rec.key status).currentHandlerRemoved = false := by
    by_contra hrem
    exact h.removed_current (by simpa [MessageLoop.entered] using hrem) hc
  -- the implementation: the body runs first
  obtain ⟨u, hu, hlinked, hcur, htable, hresults, hrecords⟩ := hentered.calls body
  obtain ⟨hremoved, hleft⟩ := hentered.calls_removed rec.key rfl (.inr hk) body hu
  have hexit := Registry.dispatchExit_failed hst hcur ((hrecords r rfl).trans hrec)
    (hleft.imp_right fun hl => by simp [hl])
  -- the documented order: the entry goes first
  have herase : (s.entered r rec.key status).eraseFailed rec.key = .ok ((s.entered r rec.key status).erased rec.key) := by
    simp only [MessageLoop.eraseFailed, hkept, MessageLoop.erased]
    simp [MessageLoop.entered, hk]
  obtain ⟨u', hu', -, hcur', htable', hresults', hrecords'⟩ := (hentered.erased rfl hk).calls body
  have hremoved' := ((hentered.erased rfl hk).calls_removed rec.key rfl (.inl rfl) body hu').1.mpr (.inl rfl)
  have hexit' := Registry.dispatchExit_failed hst hcur' ((hrecords' r rfl).trans hrec) (.inl hremoved')
  have hhandlers : u.handlers = (s.table.after body).handlers := congrArg Table.handlers htable
  refine ⟨u.ended r rec.key status, u'.ended r rec.key status, ((s.entered r rec.key status).erased rec.key).table,
    ⟨rfl, rfl, rfl, fun k hne => Finmap.lookup_erase_ne hne⟩, ?_, ?_, ?_, hresults, hresults', ?_, ?_⟩
  · exact Finmap.lookup_erase rec.key s.handlers
  · simp [MessageLoop.dispatch, henter, hu, hexit]
  · simp [MessageLoop.dispatchDocumented, henter, herase, hu', hexit']
  · rw [hkept] at hremoved
    simp only [Bool.false_eq_true, false_or] at hremoved
    simp only [MessageLoop.ended, hremoved, hhandlers]
  · have hhandlers' := congrArg Table.handlers htable'
    simp only [MessageLoop.ended, hremoved', if_true]
    exact hhandlers'

/-- In any reachable state a body gets the same results and leaves the same handlers as under the
documented order, and never sees its handler registered, exactly if it asks for the key only after
having removed it. (Once the keys have wrapped an addition may return `key` again: then it must not
be the last to touch it.) -/
theorem error_removal_as_documented_iff {acts : List Act} {s : MessageLoop}
    (hrun : loopMachine.Run {} acts (.ok s)) {key : HandlerKey} {r : RecordPtr}
    (hk : s.handlers.lookup key = some r) {status : MxStatus} (hst : status ≠ .ok) (body : List Call) :
    AsDocumented s r key status body ↔ Unaware s key body := by
  obtain ⟨h, hc⟩ := Linked.of_run hrun
  obtain ⟨t, t', w, hsame, hgone, ht, ht', hres, hres', hleft, hleft'⟩ := h.dispatches hc hk hst body
  have hasks := s.table.queried_iff key body
  have hlisted : (s.table.handlers.lookup key).isNone = false := by simp [MessageLoop.table, hk]
  rw [hlisted] at hasks
  have hback (hmem : .removeHandler key ∉ body) := w.after_gone_iff hmem hgone
  rw [hsame.shutDown, hsame.nextKey] at hback
  constructor
  · rintro ⟨u, u', new, hu, hu', hnew, -, hnot, heq⟩
    cases ht.symm.trans hu
    cases ht'.symm.trans hu'
    rw [hres, List.append_cancel_right_eq] at hnew
    refine ⟨hasks.mp ?_, ?_⟩
    · rwa [← List.mem_reverse, hnew]
    · by_cases hmem : .removeHandler key ∈ body
      · exact .inl hmem
      · refine .inr ((hback hmem).mp ?_)
        rw [← hleft', ← heq, hleft, if_neg hmem]
        rw [Finmap.lookup_erase]
  · rintro ⟨hask, hadd⟩
    have hnot := hasks.mpr hask
    have hresults := hsame.results_eq (by simp [MessageLoop.table, hk]) hnot
    refine ⟨t, t', _, ht, ht', hres, by rw [hres', hresults], by rwa [List.mem_reverse], ?_⟩
    rw [hleft, hleft']
    split_ifs with hmem
    · rw [hsame.after_removed hmem]
    · apply Finmap.ext_lookup
      intro k
      rw [lookup_erase_eq]
      split_ifs with he
      · rw [he, (hback hmem).mpr (hadd.resolve_left hmem)]
      · rw [(hsame.after body).handlers k he]

/-- A handler that removes itself in `OnHandleError` and then asks for itself. -/
theorem error_removal_as_documented_iff_removed :
    ∃ s, loopMachine.Run {} [.call (.addHandler someRequest)] (.ok s) ∧
      AsDocumented s 0 1 .errTimedOut [.removeHandler 1, .addHandler someRequest, .hasHandler 1] := by
  have hrun : loopMachine.Run {} [.call (.addHandler someRequest)] (.ok _) := .step trivial rfl (.nil _)
  have hiff : AsDocumented _ 0 1 .errTimedOut [.removeHandler 1, .addHandler someRequest, .hasHandler 1] ↔ _ :=
    error_removal_as_documented_iff hrun rfl (by decide) _
  refine ⟨_, hrun, hiff.mpr ⟨?_, ?_⟩⟩
  · simp [AsksWhenGone]
    decide
  · simp

/-- In `OnHandleError` the loop still says that it has the handler. -/
theorem failed_handler_still_listed :
    ¬ ∀ acts s key r status body, loopMachine.Run {} acts (.ok s) → s.handlers.lookup key = some r → status ≠ .ok →
      AsDocumented s r key status body := by
  intro hdocumented
  have hrun : loopMachine.Run {} [.call (.addHandler someRequest)] (.ok _) := .step trivial rfl (.nil _)
  obtain ⟨t, t', new, ht, ht', hnew, -, hnot, -⟩ := hdocumented _ _ 1 0 .errTimedOut [.hasHandler 1] hrun rfl (by decide)
  cases ht
  have hqueried : [CallResult.queried 1 true] = new := List.append_cancel_right (hnew : _ ++ [CallResult.added 1] = _)
  exact hnot (by simp [← hqueried])

end Mtl.Tasks
