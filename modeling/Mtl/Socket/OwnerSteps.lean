import Mtl.Socket.WaitOwners

/-! What the operations of the owners tell the clients of drainers, and what they leave to the copies. -/
namespace Mtl.Socket
open Foundation Tasks Waiter

/-- What a read leaves of the `Start` that makes it, newest first. -/
def ReadResult.told (read : ReadResult) (d : DrainerPtr) (n : StartNo) : List ClientEvent :=
  match read.status with
  | .ok => [.onDataAvailable d n read.bytes, .read d n read.bytes]
  | .errPeerClosed | .errBadState => [.onDataComplete d n, .readEnd d n]
  | _ => []

namespace Owners

/-- A part of a step that tells clients `told`, the newest event first. It leaves the copies, their
tasks and waits, and the shutdown of the loop alone. -/
structure Tells (told : List ClientEvent) (s t : Owners) : Prop where
  clients : t.clients = told ++ s.clients
  copies : t.copies = s.copies
  nextCopy : t.nextCopy = s.nextCopy
  posted : t.posted = s.posted
  shutDown : t.waiter.loop.loop.shutDown = s.waiter.loop.loop.shutDown
  awaits : ∀ c, t.waiter.Awaits (.copy c) → s.waiter.Awaits (.copy c)

variable {s t u : Owners} {d : DrainerPtr} {c : CopyId} {record : RecordPtr} {status : MxStatus} {read : ReadResult}

theorem Tells.trans {told told' : List ClientEvent} (h : Tells told s t) (h' : Tells told' t u) :
    Tells (told' ++ told) s u :=
  ⟨by rw [h'.clients, h.clients, List.append_assoc], h'.copies.trans h.copies, h'.nextCopy.trans h.nextCopy,
    h'.posted.trans h.posted, h'.shutDown.trans h.shutDown, fun c hc => h.awaits c (h'.awaits c hc)⟩

/-! ## Waits -/

theorem asyncWait_eq {owner : Owner} {handle : MxHandle} {signals : MxSignals} {id : WaitId}
    (h : s.asyncWait owner handle signals = .ok (t, id)) :
    ∃ waiter, s.waiter.asyncWait handle signals mxTimeInfinite 0 owner = .ok (waiter, id) ∧
      t = { s with waiter := waiter, waits := .begun id :: s.waits } := by
  obtain ⟨⟨waiter, id'⟩, hwait, h⟩ := of_bind_ok h
  cases h
  exact ⟨waiter, hwait, rfl⟩

theorem cancelWait_tells {id : WaitId} (h : s.cancelWait id = .ok t) : Tells [] s t := by
  obtain ⟨waiter, hdelete, h⟩ := of_bind_ok h
  obtain ⟨hkeeps, -⟩ := DefaultWaiter.deleteWatcher_keeps hdelete
  cases h
  exact ⟨rfl, rfl, rfl, rfl, hkeeps.shutDown, fun _ hc => hkeeps.awaits hc⟩

theorem unwind_tells (h : s.unwind = .ok t) : Tells [] s t := by
  unfold unwind at h
  split at h
  · obtain ⟨waiter, hwaiter, h⟩ := of_bind_ok h
    obtain ⟨loop, hexit, hwaiter⟩ := of_bind_ok hwaiter
    obtain ⟨rec, -, hleaves⟩ := MessageLoop.dispatchExit_leaves hexit
    have hkeeps := DefaultWaiter.keeps_loop hleaves
    cases hwaiter
    cases h
    exact ⟨rfl, rfl, rfl, rfl, hkeeps.shutDown, fun _ hc => hkeeps.awaits hc⟩
  · cases h
    exact ⟨rfl, rfl, rfl, rfl, rfl, fun _ hc => hc⟩

/-- A dispatch for an owner takes the watcher that it is for. -/
theorem dispatchEnter_tells {owner : Option Owner} (h : s.dispatchEnter record status = .ok (t, owner)) :
    Tells [] s t ∧ t.startOf = s.startOf ∧ ∀ o, owner = some o → ∃ rec, s.waiter.loop.records.lookup record = some rec ∧
      rec.handler ≠ 0 ∧ (s.waiter.watchers.lookup rec.handler).map HandleWatcher.context = some o ∧
      t.waiter.watchers = s.waiter.watchers.erase rec.handler := by
  obtain ⟨⟨loop, rec⟩, henter, h⟩ := of_bind_ok h
  obtain ⟨hrec, hleaves⟩ := MessageLoop.dispatchEnter_leaves henter
  have hkeeps := DefaultWaiter.keeps_loop hleaves
  simp only at h
  split_ifs at h with hother
  · cases h
    exact ⟨⟨rfl, rfl, rfl, rfl, hkeeps.shutDown, fun _ hc => hkeeps.awaits hc⟩, rfl, by simp⟩
  · obtain ⟨⟨waiter, o⟩, hcall, h⟩ := of_bind_ok h
    obtain ⟨hkeeps', hwatchers, hcontext⟩ := DefaultWaiter.callCallback_keeps hcall
    have hboth := hkeeps.trans hkeeps'
    cases h
    refine ⟨⟨rfl, rfl, rfl, rfl, hboth.shutDown, fun _ hc => hboth.awaits hc⟩, rfl, ?_⟩
    rintro o' ⟨⟩
    exact ⟨rec, hrec, hother, hcontext, hwatchers⟩

/-! ## Drainers -/

theorem updateDrainer_eq {f : SocketDrainer → SocketDrainer} (h : s.updateDrainer d f = .ok t) :
    ∃ drainer, s.drainers.lookup d = some drainer ∧ t = { s with drainers := s.drainers.insert d (f drainer) } := by
  unfold updateDrainer at h
  split at h
  · cases h
  · next drainer hd =>
    cases h
    exact ⟨drainer, hd, rfl⟩

theorem waitForData_tells (h : s.waitForData d = .ok t) : Tells [] s t := by
  unfold waitForData at h
  split at h
  · cases h
  · split_ifs at h
    obtain ⟨⟨u, id⟩, hu, h⟩ := of_bind_ok h
    obtain ⟨waiter, hwait, rfl⟩ := asyncWait_eq hu
    obtain ⟨-, hshut, -⟩ := DefaultWaiter.asyncWait_eq hwait
    obtain ⟨drainer, -, rfl⟩ := updateDrainer_eq h
    refine ⟨rfl, rfl, rfl, rfl, hshut, fun c hc => ?_⟩
    exact (DefaultWaiter.awaits_of_asyncWait hwait hc).resolve_left (by simp)

/-- The result of the read decides what the client is told. -/
theorem readData_tells (h : s.readData d read = .ok t) : Tells (read.told d (s.startOf d)) s t := by
  unfold readData at h
  split at h
  · cases h
  · obtain ⟨reaction, hread, h⟩ := of_bind_ok h
    unfold ReadResult.told
    cases hstatus : read.status with
    | ok =>
      simp only [SocketDrainer.readData, hstatus] at hread
      cases hread
      obtain ⟨u, hu, h⟩ := of_bind_ok h
      obtain ⟨drainer, -, rfl⟩ := updateDrainer_eq hu
      cases h
      exact ⟨rfl, rfl, rfl, rfl, rfl, fun _ hc => hc⟩
    | errShouldWait =>
      simp only [SocketDrainer.readData, hstatus] at hread
      cases hread
      exact waitForData_tells h
    | errPeerClosed | errBadState =>
      simp only [SocketDrainer.readData, hstatus] at hread
      cases hread
      cases h
      exact ⟨rfl, rfl, rfl, rfl, rfl, fun _ hc => hc⟩
    | errBadHandle | errTimedOut | errCanceled | other =>
      simp only [SocketDrainer.readData, hstatus] at hread
      cases hread

theorem start_tells {source : MxHandle} (h : s.start d source read = .ok t) :
    Tells (read.told d s.nextStart ++ [.started d s.nextStart]) s t := by
  obtain ⟨u, hu, h⟩ := of_bind_ok h
  obtain ⟨drainer, -, rfl⟩ := updateDrainer_eq hu
  obtain ⟨hclients, hcopies, hnext, hposted, hshut, hawaits⟩ := readData_tells h
  exact ⟨by simpa using hclients, hcopies, hnext, hposted, hshut, hawaits⟩

theorem waitComplete_tells (h : s.waitComplete d read = .ok t) : Tells (read.told d (s.startOf d)) s t := by
  obtain ⟨u, hu, h⟩ := of_bind_ok h
  obtain ⟨drainer, -, rfl⟩ := updateDrainer_eq hu
  obtain ⟨hclients, hcopies, hnext, hposted, hshut, hawaits⟩ := readData_tells h
  exact ⟨hclients, hcopies, hnext, hposted, hshut, hawaits⟩

theorem destroy_tells (h : s.destroy d = .ok t) : Tells [.destroyed d] s t := by
  unfold destroy at h
  split at h
  · cases h
  · next drainer _ =>
    by_cases hw : drainer.waitId ≠ 0
    · rw [if_pos hw] at h
      obtain ⟨u, hcancel, h⟩ := of_bind_ok h
      obtain ⟨hclients, hcopies, hnext, hposted, hshut, hawaits⟩ := cancelWait_tells hcancel
      cases h
      exact ⟨congrArg (ClientEvent.destroyed d :: ·) hclients, hcopies, hnext, hposted, hshut, hawaits⟩
    · rw [if_neg hw] at h
      cases h
      exact ⟨rfl, rfl, rfl, rfl, rfl, fun _ hc => hc⟩

theorem callReturns_tells (h : s.callReturns = .ok t) : Tells [] s t := by
  unfold callReturns at h
  split at h
  · cases h
    exact ⟨rfl, rfl, rfl, rfl, rfl, fun _ hc => hc⟩
  · split_ifs at h
    · obtain ⟨hclients, hcopies, hnext, hposted, hshut, hawaits⟩ := unwind_tells h
      exact ⟨hclients, hcopies, hnext, hposted, hshut, hawaits⟩
    · obtain ⟨u, hu, h⟩ := of_bind_ok h
      obtain ⟨drainer, -, rfl⟩ := updateDrainer_eq hu
      obtain ⟨v, hv, h⟩ := of_bind_ok h
      obtain ⟨hclients, hcopies, hnext, hposted, hshut, hawaits⟩ := (waitForData_tells hv).trans (unwind_tells h)
      exact ⟨hclients, hcopies, hnext, hposted, hshut, hawaits⟩
  · obtain ⟨hclients, hcopies, hnext, hposted, hshut, hawaits⟩ := unwind_tells h
    exact ⟨hclients, hcopies, hnext, hposted, hshut, hawaits⟩

/-! ## Copies -/

theorem resume_eq {f : CopyHandler → Except Fault (CopyHandler × CopyStep)} (h : s.resume c f = .ok t) :
    ∃ copy handler step, s.copies.lookup c = some copy ∧ f copy.handler = .ok (handler, step) ∧
      { s with copies := s.copies.insert c { copy with handler := handler } }.proceed c step = .ok t := by
  unfold resume at h
  split at h
  · cases h
  · next copy hcopy =>
    obtain ⟨⟨handler, step⟩, hf, h⟩ := of_bind_ok h
    exact ⟨copy, handler, step, hcopy, hf, h⟩

theorem resume_clients {f : CopyHandler → Except Fault (CopyHandler × CopyStep)} (h : s.resume c f = .ok t) :
    t.clients = s.clients := by
  obtain ⟨copy, handler, step, -, -, hp⟩ := resume_eq h
  cases step with
  | postReady | postFill | sendCallback =>
    cases hp
    rfl
  | asyncWait signals =>
    unfold proceed at hp
    simp only [Finmap.lookup_insert] at hp
    obtain ⟨⟨u, id⟩, hu, hp⟩ := of_bind_ok hp
    obtain ⟨waiter, -, rfl⟩ := asyncWait_eq hu
    cases hp
    rfl

/-! ## Other users of the loop -/

theorem addOther_tells {req : AddRequest} (h : s.addOther req = .ok t) : Tells [] s t := by
  obtain ⟨⟨loop, key⟩, hadd, h⟩ := of_bind_ok h
  obtain ⟨-, hshut, hregs⟩ := MessageLoop.addHandler_leaves hadd
  have hkeeps : s.waiter.Keeps { s.waiter with loop := loop } := by
    refine ⟨hshut, fun key' rec hrec => ?_, fun _ _ hw => hw⟩
    rcases hregs key' rec hrec with hold | ⟨-, rfl⟩
    · exact .inr hold
    · exact .inl rfl
  cases h
  exact ⟨rfl, rfl, rfl, rfl, hshut, fun _ hc => hkeeps.awaits hc⟩

theorem removeOther_tells {key : HandlerKey} (h : s.removeOther key = .ok t) : Tells [] s t := by
  obtain ⟨loop, hremove, h⟩ := of_bind_ok h
  have hkeeps := DefaultWaiter.keeps_loop (MessageLoop.removeHandler_leaves hremove)
  cases h
  exact ⟨rfl, rfl, rfl, rfl, hkeeps.shutDown, fun _ hc => hkeeps.awaits hc⟩

end Owners

end Mtl.Socket
