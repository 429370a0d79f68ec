import Mtl.Foundation.Simulation
import Mtl.Tasks.KeyHolders

/-! What the calls of a loop and its dispatches leave in the history, and among the registrations. None
of them touches the shutdown. -/
namespace Mtl.Tasks
open Foundation

/-- The history without the ends of records, which no caller sees. -/
def observed (log : List Event) : List Event :=
  log.filter fun
    | .deleted _ => false
    | _ => true

namespace MessageLoop

/-- A part of a step that leaves `told`, the newest event first, and registers nothing. -/
structure Leaves (told : List Event) (s t : MessageLoop) : Prop where
  log : observed t.log = told ++ observed s.log
  shutDown : t.loop.shutDown = s.loop.shutDown
  handlers : ∀ key r, t.handlers.lookup key = some r → s.handlers.lookup key = some r
  records : ∀ r rec, t.records.lookup r = some rec → s.records.lookup r = some rec

variable {s t u : MessageLoop} {record : RecordPtr} {key : HandlerKey} {status : MxStatus}

theorem Leaves.trans {told told' : List Event} (h : Leaves told s t) (h' : Leaves told' t u) :
    Leaves (told' ++ told) s u :=
  ⟨by rw [h'.log, h.log, List.append_assoc], h'.shutDown.trans h.shutDown,
    fun key r hk => h.handlers key r (h'.handlers key r hk), fun r rec hr => h.records r rec (h'.records r rec hr)⟩

theorem Leaves.registration {told : List Event} (h : Leaves told s t) {rec : HandlerRecord}
    (hrec : t.registration key = some rec) : s.registration key = some rec := by
  obtain ⟨r, hk, hr⟩ := Option.bind_eq_some_iff.mp hrec
  exact Option.bind_eq_some_iff.mpr ⟨r, h.handlers key r hk, h.records r rec hr⟩

theorem deleteRecord_leaves (h : s.deleteRecord record = .ok t) : Leaves [] s t := by
  unfold deleteRecord at h
  split at h
  · cases h
  · cases h
    exact ⟨rfl, rfl, fun _ _ hk => hk, fun _ _ hr => lookup_of_erase hr⟩

/-- `AddHandler` leaves the key that it returns, and a registration unless the loop shuts down. -/
theorem addHandler_leaves {req : AddRequest} (h : s.addHandler req = .ok (t, key)) :
    observed t.log = .added key (!s.loop.shutDown) :: observed s.log ∧ t.loop.shutDown = s.loop.shutDown ∧
      ∀ key' rec, t.registration key' = some rec →
        s.registration key' = some rec ∨ (s.loop.shutDown = false ∧ rec = req.record key) := by
  unfold addHandler at h
  split_ifs at h
  cases hs : s.loop.shutDown with
  | false =>
    simp only [AsyncLoop.begin, hs, Bool.false_eq_true, if_false] at h
    cases h
    refine ⟨rfl, rfl, fun key' rec hrec => ?_⟩
    obtain ⟨r, hk, hr⟩ := Option.bind_eq_some_iff.mp hrec
    simp only [note, lookup_insert_eq] at hk hr
    split_ifs at hr with hnew
    · exact .inr ⟨rfl, (Option.some.inj hr).symm⟩
    · rcases lookup_emplace_some hk with hold | ⟨-, hnext⟩
      · exact .inl (Option.bind_eq_some_iff.mpr ⟨r, hold, hr⟩)
      · exact absurd hnext hnew
  | true =>
    simp only [AsyncLoop.begin, hs, if_true, deleteRecord, Finmap.lookup_insert] at h
    cases h
    refine ⟨rfl, hs, fun key' rec hrec => .inl ?_⟩
    obtain ⟨r, hk, hr⟩ := Option.bind_eq_some_iff.mp hrec
    simp only [note, erase_insert_self] at hk hr
    exact Option.bind_eq_some_iff.mpr ⟨r, hk, lookup_of_erase hr⟩

theorem cancel_shutDown (l : AsyncLoop) (record : RecordPtr) (object : MxHandle) :
    (l.cancel record object).1.shutDown = l.shutDown := by
  unfold AsyncLoop.cancel
  split_ifs <;> rfl

theorem removeHandler_leaves (h : s.removeHandler key = .ok t) : Leaves [.removed key] s t := by
  unfold removeHandler at h
  split_ifs at h
  split at h
  · cases h
    exact ⟨rfl, rfl, fun _ _ hk => hk, fun _ _ hr => hr⟩
  · simp only at h
    split_ifs at h
    · cases h
      exact ⟨rfl, rfl, fun _ _ hk => lookup_of_erase hk, fun _ _ hr => hr⟩
    · split at h
      · cases h
      · split at h
        -- the kernel may say that the handle is closed
        · obtain ⟨u, hu, h⟩ := of_bind_ok h
          obtain ⟨hlog, hshut, hhandlers, hrecords⟩ := deleteRecord_leaves hu
          cases h
          exact ⟨congrArg (Event.removed key :: ·) hlog, hshut.trans (cancel_shutDown s.loop _ _),
            fun key r hk => lookup_of_erase (hhandlers key r hk), hrecords⟩
        · obtain ⟨u, hu, h⟩ := of_bind_ok h
          obtain ⟨hlog, hshut, hhandlers, hrecords⟩ := deleteRecord_leaves hu
          cases h
          exact ⟨congrArg (Event.removed key :: ·) hlog, hshut.trans (cancel_shutDown s.loop _ _),
            fun key r hk => lookup_of_erase (hhandlers key r hk), hrecords⟩
        · cases h

/-- `HasHandler` leaves the answer that it returns. -/
theorem hasHandler_leaves {answer : Bool} (h : s.hasHandler key = .ok (t, answer)) :
    Leaves [.queried key answer] s t := by
  unfold hasHandler at h
  split_ifs at h
  cases h
  exact ⟨rfl, rfl, fun _ _ hk => hk, fun _ _ hr => hr⟩

theorem dispatchEnter_leaves {rec : HandlerRecord} (h : s.dispatchEnter record status = .ok (t, rec)) :
    s.records.lookup record = some rec ∧ Leaves [.started record rec.key status] s t := by
  unfold dispatchEnter handleEnter at h
  split at h
  · cases h
  · cases h
  · next rec' hrec _ =>
    cases h
    exact ⟨hrec, rfl, rfl, fun _ _ hk => hk, fun _ _ hr => hr⟩

theorem eraseFailed_leaves (h : s.eraseFailed key = .ok t) : Leaves [] s t := by
  unfold eraseFailed at h
  split_ifs at h
  · cases h
    exact ⟨rfl, rfl, fun _ _ hk => hk, fun _ _ hr => hr⟩
  · split at h
    · cases h
    · cases h
      exact ⟨rfl, rfl, fun _ _ hk => lookup_of_erase hk, fun _ _ hr => hr⟩

/-- The end of `Handle`, with or without its record. -/
theorem handleExit_leaves {result : AsyncWaitResult} (h : s.handleExit record status = .ok (t, result)) :
    ∃ rec, s.records.lookup record = some rec ∧ Leaves [.finished rec.key status] s t := by
  unfold handleExit at h
  split at h
  · cases h
  · next rec hrec =>
    refine ⟨rec, hrec, ?_⟩
    obtain ⟨u, hu, h⟩ : ∃ u, Leaves [] s u ∧ (if u.currentHandler = some record then
          let u := { u with currentHandler := none }.note (.finished rec.key status)
          if u.currentHandlerRemoved then do
            let u ← { u with currentHandlerRemoved := false }.deleteRecord record
            return (u, .finished)
          else return (u, .again)
        else .error (.dcheck "loop_->current_handler_ == this")) = Except.ok (ε := Fault) (t, result) := by
      by_cases hst : status = .ok
      · rw [if_pos hst] at h
        exact ⟨s, ⟨rfl, rfl, fun _ _ hk => hk, fun _ _ hr => hr⟩, h⟩
      · rw [if_neg hst] at h
        obtain ⟨u, hu, h⟩ := of_bind_ok h
        exact ⟨u, eraseFailed_leaves hu, h⟩
    have hfinished : Leaves [.finished rec.key status] u t := by
      split_ifs at h
      simp only at h
      split_ifs at h
      · obtain ⟨v, hv, h⟩ := of_bind_ok h
        obtain ⟨hlog, hshut, hhandlers, hrecords⟩ := deleteRecord_leaves hv
        cases h
        exact ⟨hlog, hshut, hhandlers, hrecords⟩
      · cases h
        exact ⟨rfl, rfl, fun _ _ hk => hk, fun _ _ hr => hr⟩
    exact hu.trans hfinished

/-- A callback that returned leaves the key of its record. -/
theorem dispatchExit_leaves (h : s.dispatchExit record status = .ok t) :
    ∃ rec, s.records.lookup record = some rec ∧ Leaves [.finished rec.key status] s t := by
  obtain ⟨⟨u, result⟩, hu, h⟩ := of_bind_ok h
  obtain ⟨rec, hrec, hlog, hshut, hhandlers, hrecords⟩ := handleExit_leaves hu
  refine ⟨rec, hrec, ?_⟩
  cases result with
  | again | finished =>
    cases h
    exact ⟨hlog, hshut, hhandlers, hrecords⟩

end MessageLoop

end Mtl.Tasks
