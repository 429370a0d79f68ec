import Mtl.Tasks.FDWaiting

/-! What a `Wait` that returned true stands for while `~MessageLoop` runs, and what is left of the
waits after it. -/
namespace Mtl.Tasks
open Foundation

namespace FDSound
variable {s : FDWaiters} {p : HandlerPtr} {req : WaitRequest}

/-- Once shutdown has begun, `AddHandler` gives a `Wait` a key that it does not enter. -/
theorem wait_unregistered (h : FDSound s) (hp : s.waiters.lookup p = some {}) (hio : req.io ≠ none)
    (hh : req.handle ≠ 0) (hcur : s.loop.current = true) (hs : s.loop.loop.shutDown = true) (hn : s.loop.KeysLeft 1) :
    ∃ t waiter, s.wait p req = .ok (t, true) ∧ t.waiters.lookup p = some waiter ∧
      t.loop.handlers.lookup waiter.key = none := by
  obtain ⟨io, hio'⟩ := Option.ne_none_iff_exists'.mp hio
  have hreg := (h.attached hcur).registry
  have hadd := hreg.addHandler_refused hs ⟨p, req.handle, req.signals, req.timeout, req.now, hh⟩
  refine ⟨{ s with
      loop := s.loop.refused
      waiters := s.waiters.insert p ⟨some io, s.loop.nextHandlerKey, some s.nextWait⟩
      nextWait := s.nextWait + 1
      log := .returned s.nextWait true :: .acquired p :: s.log }, _, ?_, Finmap.lookup_insert _, hreg.key_unused hn⟩
  simp [FDWaiters.wait, hp, hio', hh, hcur, hadd, FDWaiters.note, Finmap.insert_insert]

/-- A `Wait` that returned true has been entered exactly if the loop was not shutting down. -/
theorem wait_true (h : FDSound s) (he : fdMachine.Enabled s (.wait p req)) (hn : s.loop.KeysLeft 1) {t : FDWaiters}
    (hwait : s.wait p req = .ok (t, true)) :
    (∃ waiter, t.waiters.lookup p = some waiter ∧ t.Registered p waiter.key) ↔ s.loop.loop.shutDown = false := by
  have hp := h.idle_of_enabled he.2
  have hreq : ¬ (req.io = none ∨ req.handle = 0) := by
    intro hreq
    obtain ⟨u, hu, -⟩ := h.wait_refused hp hreq
    rw [hu] at hwait
    cases hwait
  obtain ⟨hio, hh⟩ := not_or.mp hreq
  cases hs : s.loop.loop.shutDown with
  | false =>
    obtain ⟨u, waiter, hu, hsound, hp', hw, -⟩ := h.wait_accepted hp hio hh he.1 hs hn
    obtain rfl : u = t := (Prod.mk.inj (Except.ok.inj (hu.symm.trans hwait))).1
    exact iff_of_true ⟨waiter, hp', (hsound.registered_iff hp').2.mp hw.key⟩ rfl
  | true =>
    obtain ⟨u, waiter, hu, hp', hfree⟩ := h.wait_unregistered hp hio hh he.1 hs hn
    obtain rfl : u = t := (Prod.mk.inj (Except.ok.inj (hu.symm.trans hwait))).1
    refine iff_of_false ?_ (by decide)
    rintro ⟨waiter', hp'', r, rec, hk, -⟩
    obtain rfl : waiter = waiter' := Option.some.inj (hp'.symm.trans hp'')
    rw [hfree] at hk
    cases hk

/-- No wait is left when the loop is gone. -/
theorem idle_of_gone (h : FDSound s) (hcur : s.loop.current = false) {waiter : FDWaiter}
    (hp : s.waiters.lookup p = some waiter) : waiter.io = none := by
  rcases h.holds with hholds | ⟨-, -, -, hidle⟩
  · have hattached := hholds.registry.attached
    rw [hcur] at hattached
    exact absurd hattached (by decide)
  · rw [hidle p waiter hp]

end FDSound

/-- While no descriptor that can be waited on is waited for in a loop that shuts down, and the keys
last: no step faults, not even the destruction of a waiter without a loop, and no wait outlives the
loop. A next `Wait` that returns true is registered exactly if it comes in time as well. -/
theorem timely_waits_are_registered {acts : List FDAct} {result : Except Fault FDWaiters}
    (hrun : (fdMachine.restrict fun s a => FDSound.Timely s a ∧ s.loop.KeysLeft a.adds).Run {} acts result) :
    ∃ s, result = .ok s ∧
      (∀ p waiter, s.waiters.lookup p = some waiter → waiter.io ≠ none → s.Registered p waiter.key) ∧
      (∀ p req t, fdMachine.Enabled s (.wait p req) → s.loop.KeysLeft 1 → s.wait p req = .ok (t, true) →
        ((∃ waiter, t.waiters.lookup p = some waiter ∧ t.Registered p waiter.key) ↔
          s.loop.loop.shutDown = false)) ∧
      (s.loop.current = false → ∀ p waiter, s.waiters.lookup p = some waiter → waiter.io = none) := by
  obtain ⟨s, rfl, h⟩ := FDSound.of_run hrun
  refine ⟨s, rfl, ?_, fun p req t he hn hwait => h.wait_true he hn hwait, fun hcur p waiter hp => h.idle_of_gone hcur hp⟩
  intro p waiter hp hio
  obtain ⟨hkey, hreg⟩ := h.registered_iff hp
  exact hreg.mp (hkey.mp hio)

/-- A wait that `~MessageLoop` cancels leaves its waiter idle. -/
theorem timely_waits_are_registered_teardown :
    ∃ s, (fdMachine.restrict fun s a => FDSound.Timely s a ∧ s.loop.KeysLeft a.adds).Run {} [.create,
        .wait 1 someWait, .beginShutdown, .dispatch 0 .errCanceled, .callbackReturns, .finishDestruction] (.ok s) ∧
      ∀ p waiter, s.waiters.lookup p = some waiter → waiter.io = none := by
  have hrun : (fdMachine.restrict fun s a => FDSound.Timely s a ∧ s.loop.KeysLeft a.adds).Run {} [.create,
      .wait 1 someWait, .beginShutdown, .dispatch 0 .errCanceled, .callbackReturns, .finishDestruction] (.ok _) :=
    .step ⟨trivial, trivial, (by decide : 0 + 0 < 2^64)⟩ rfl
      (.step ⟨⟨rfl, {}, rfl, rfl⟩, fun _ _ => rfl, (by decide : 0 + 1 < 2^64)⟩ rfl
        (.step ⟨⟨rfl, rfl, rfl⟩, trivial, (by decide : 1 + 0 < 2^64)⟩ rfl
          (.step ⟨⟨rfl, rfl, by decide, fun _ => rfl⟩, trivial, (by decide : 1 + 0 < 2^64)⟩ rfl
            (.step ⟨Option.some_ne_none _, trivial, (by decide : 1 + 0 < 2^64)⟩ rfl
              (.step ⟨⟨rfl, rfl, rfl, by decide⟩, trivial, (by decide : 1 + 0 < 2^64)⟩ rfl (.nil _))))))
  obtain ⟨s, hs, -, -, hgone⟩ := timely_waits_are_registered hrun
  cases hs
  exact ⟨_, hrun, hgone rfl⟩

/-- A callback that gets MX_ERR_CANCELED waits again: that wait is not in `handlers_`, and to destroy its
waiter after the loop faults. -/
theorem late_wait_outlives_loop :
    (∃ s t, fdMachine.Run {} [.create, .wait 1 someWait, .beginShutdown, .dispatch 0 .errCanceled] (.ok s) ∧
      fdMachine.Enabled s (.wait 1 someWait) ∧ s.wait 1 someWait = .ok (t, true) ∧
      ∃ waiter, t.waiters.lookup 1 = some waiter ∧ ¬ t.Registered 1 waiter.key) ∧
    fdMachine.Run {} [.create, .wait 1 someWait, .beginShutdown, .dispatch 0 .errCanceled, .wait 1 someWait,
      .callbackReturns, .finishDestruction, .destroy 1] (.error .nullLoop) := by
  constructor
  · refine ⟨_, _, .step trivial rfl (.step ⟨rfl, {}, rfl, rfl⟩ rfl (.step ⟨rfl, rfl, rfl⟩ rfl
      (.step ⟨rfl, rfl, by decide, fun _ => rfl⟩ rfl (.nil _)))), ⟨rfl, {}, rfl, rfl⟩, rfl, _, rfl, ?_⟩
    rintro ⟨r, rec, hk, -⟩
    cases hk
  · exact .step trivial rfl (.step ⟨rfl, {}, rfl, rfl⟩ rfl (.step ⟨rfl, rfl, rfl⟩ rfl
      (.step ⟨rfl, rfl, by decide, fun _ => rfl⟩ rfl (.step ⟨rfl, {}, rfl, rfl⟩ rfl
        (.step (Option.some_ne_none _) rfl (.step ⟨rfl, rfl, rfl, by decide⟩ rfl
          (.fault (Option.some_ne_none _) rfl)))))))

end Mtl.Tasks
