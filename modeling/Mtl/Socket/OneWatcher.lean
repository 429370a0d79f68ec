import Mtl.Socket.WaitSteps

/-! The bookkeeping of the default waiter, for any number of drainers and copies on one loop. -/
namespace Mtl.Socket
open Foundation Tasks Waiter

/-- In every run whose keys last, shutdown included: an owner's `wait_id_` is its one watcher; each
watcher ends once; a callback finds its owner alive and its key removed; and nothing fails but a
`ReadData` that reads an unexpected status. -/
theorem waits_have_one_watcher {acts : List OwnerAct} {result : Except Fault Owners}
    (hrun : (ownersMachine.restrict fun s a => s.waiter.loop.KeysLeft a.adds).Run {} acts result) :
    result = .error (.dcheck "Unhandled mx_status_t") ∨ ∃ s, result = .ok s ∧
      (∀ owner id, waitIds s.drainers s.copies owner = some id →
        (id ≠ 0 ↔ ∃! id', ∃ watcher, s.waiter.watchers.lookup id' = some watcher ∧ watcher.context = owner) ∧
        (id ≠ 0 → (s.waiter.watchers.lookup id).map HandleWatcher.context = some owner)) ∧
      (∀ id watcher, s.waiter.watchers.lookup id = some watcher →
        waitIds s.drainers s.copies watcher.context = some id) ∧
      (∀ id, s.waits.count (.called id) + s.waits.count (.cancelled id) ≤ 1 ∧
        s.waits.count (.begun id) = s.waits.count (.called id) + s.waits.count (.cancelled id) +
          if s.waiter.watchers.lookup id = none then 0 else 1) ∧
      (∀ record status, s.calls = [] → record ∈ s.waiter.loop.loop.registered →
        (∃ t, s.dispatchEnter record status = .ok (t, none)) ∨
          ∃ t id watcher, s.dispatchEnter record status = .ok (t, some watcher.context) ∧
            s.waiter.watchers.lookup id = some watcher ∧ t.waiter.watchers.lookup id = none ∧
            t.waiter.loop.handlers.lookup watcher.key = none ∧
            waitIds t.drainers t.copies watcher.context = some id) := by
  rcases Settled.of_run (fun _ _ hkeys => hkeys) hrun with ⟨s, rfl, h⟩ | ⟨-, herr⟩
  · refine .inr ⟨s, rfl, fun owner id hid => ⟨h.books.attended.unique hid, h.books.attended.waits owner id hid⟩,
      h.books.attended.context, fun id => ⟨h.books.ledger.once id, h.books.ledger.ended id⟩, ?_⟩
    intro record status hcalls hr
    rcases h.books.dispatchEnter (h.settled hcalls) hr status with ⟨t, ht, -⟩ |
      ⟨waiter, id, watcher, henter, -, hw, hgone, hkey, hwaits, -⟩
    · exact .inl ⟨t, ht⟩
    · exact .inr ⟨_, id, watcher, henter, hw, hgone, hkey, hwaits⟩
  · exact .inl herr

/-- Results of system calls that ask to wait. -/
def waitingIo : IoResults := ⟨⟨.errShouldWait, []⟩, 0, some [1], ⟨.errShouldWait, 0⟩⟩

/-- A drainer is destroyed in its client's call while another and a copy wait; the waits of these are
cancelled and completed. -/
theorem waits_have_one_watcher_three_owners :
    ∃ s, (ownersMachine.restrict fun s a => s.waiter.loop.KeysLeft a.adds).Run {} [.createDrainer, .createDrainer,
        .startCopy .fromFile 7, .start 0 5 ⟨.errShouldWait, []⟩, .start 1 6 ⟨.errShouldWait, []⟩,
        .runTask (.fillBuffer 0) waitingIo, .dispatch 0 .ok ⟨.ok, [1]⟩ waitingIo, .destroy 0, .callReturns, .destroy 1,
        .dispatch 2 .errTimedOut ⟨.errShouldWait, []⟩ waitingIo] (.ok s) ∧
      ∀ id, s.waits.count (.called id) + s.waits.count (.cancelled id) ≤ 1 := by
  have hrun : (ownersMachine.restrict fun s a => s.waiter.loop.KeysLeft a.adds).Run {} [.createDrainer, .createDrainer,
      .startCopy .fromFile 7, .start 0 5 ⟨.errShouldWait, []⟩, .start 1 6 ⟨.errShouldWait, []⟩,
      .runTask (.fillBuffer 0) waitingIo, .dispatch 0 .ok ⟨.ok, [1]⟩ waitingIo, .destroy 0, .callReturns, .destroy 1,
      .dispatch 2 .errTimedOut ⟨.errShouldWait, []⟩ waitingIo] (.ok _) :=
    .step ⟨trivial, (by decide : 0 + 0 < 2^64)⟩ rfl (.step ⟨trivial, (by decide : 0 + 0 < 2^64)⟩ rfl
      (.step ⟨trivial, (by decide : 0 + 0 < 2^64)⟩ rfl
        (.step ⟨⟨fun hzero => absurd hzero (by decide), _, rfl, rfl, rfl⟩, (by decide : 0 + 1 < 2^64)⟩ rfl
          (.step ⟨⟨fun hzero => absurd hzero (by decide), _, rfl, rfl, rfl⟩, (by decide : 1 + 1 < 2^64)⟩ rfl
            (.step ⟨⟨rfl, rfl, List.mem_singleton_self _, fun c copy hc hcopy hzero => by
                cases hc
                cases hcopy
                cases hzero⟩, (by decide : 2 + 1 < 2^64)⟩ rfl
              (.step ⟨⟨rfl, by decide, fun h => absurd h (by decide)⟩, (by decide : 3 + 1 < 2^64)⟩ rfl
                (.step ⟨⟨_, rfl⟩, (by decide : 3 + 0 < 2^64)⟩ rfl
                  (.step ⟨List.cons_ne_nil _ _, (by decide : 3 + 1 < 2^64)⟩ rfl
                    (.step ⟨⟨_, rfl⟩, (by decide : 3 + 0 < 2^64)⟩ rfl
                      (.step ⟨⟨rfl, by decide, fun h => absurd h (by decide)⟩, (by decide : 3 + 1 < 2^64)⟩ rfl
                        (.nil _)))))))))))
  rcases waits_have_one_watcher hrun with herr | ⟨s, hs, -, -, honce, -⟩
  · cases herr
  · cases hs
    exact ⟨_, hrun, fun id => (honce id).1⟩

/-- After 2^64 - 1 handlers a watcher has key 0, which is still in `handlers_` when its callback runs. -/
theorem wrapped_key_outlives_watcher :
    ¬ ∀ acts s, ownersMachine.Run {} acts (.ok s) → ∀ record t watcher, s.calls = [] →
      record ∈ s.waiter.loop.loop.registered → s.dispatchEnter record .ok = .ok (t, some watcher.context) →
      s.waiter.watchers.lookup 1 = some watcher → t.waiter.loop.handlers.lookup watcher.key = none := by
  intro hremoved
  obtain ⟨acts, s, hrun, hcalls, -, -, hw, hidle, r, ⟨object, trigger, deadline, handler, key⟩, hr, hk, hrec, hhandler,
    hobject⟩ := wrapped_wait
  obtain rfl : handler = 1 := hhandler
  obtain rfl : object = 5 := hobject
  have henter : ∃ t, s.dispatchEnter r .ok = .ok (t, some (.drainer 0)) ∧
      t.waiter.loop.handlers = s.waiter.loop.handlers := by
    refine ⟨{ s with
      waiter.loop := s.waiter.loop.entered r key .ok
      waiter.watchers := s.waiter.watchers.erase 1
      dispatching := some (r, .ok)
      waits := .called 1 :: s.waits }, ?_, rfl⟩
    simp [Owners.dispatchEnter, MessageLoop.dispatchEnter, MessageLoop.handleEnter, hrec, hidle,
      DefaultWaiter.callCallback, hw, DefaultWaiter.deleteWatcher, MessageLoop.entered, MessageLoop.note]
  obtain ⟨t, ht, hsame⟩ := henter
  have hgone := hremoved acts s hrun.unrestrict r t _ hcalls hr ht hw
  rw [hsame, hk] at hgone
  cases hgone

end Mtl.Socket
