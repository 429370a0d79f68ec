import Mtl.Socket.OwnerSteps
import Mtl.Socket.WaitSteps

/-! What a drainer's client gets from each `Start`, while the loop keeps running. -/
namespace Mtl.Socket
open Foundation Tasks Waiter

/-! ## What a step tells the clients -/

/-- What an action leaves. A dispatch reads if it is for the wait of a drainer. -/
def OwnerAct.told (s : Owners) : OwnerAct → List ClientEvent
  | .start d _ read => read.told d s.nextStart ++ [.started d s.nextStart]
  | .destroy d => [.destroyed d]
  | .dispatch record status read _ =>
    match s.dispatchEnter record status with
    | .ok (_, some (.drainer d)) => read.told d (s.startOf d)
    | _ => []
  | _ => []

namespace Owners
variable {s t : Owners}

theorem dispatch_clients {record : RecordPtr} {status : MxStatus} {read : ReadResult} {io : IoResults}
    (h : s.dispatch record status read io = .ok t) :
    t.clients = (OwnerAct.dispatch record status read io).told s ++ s.clients := by
  obtain ⟨⟨u, owner⟩, hu, h⟩ := of_bind_ok h
  obtain ⟨htells, hstart, -⟩ := dispatchEnter_tells hu
  have hclients := htells.clients
  rcases owner with _ | (d | c)
  · cases h
    simpa [OwnerAct.told, hu] using hclients
  · obtain ⟨w, hw, h⟩ := of_bind_ok h
    rw [((waitComplete_tells hw).trans (unwind_tells h)).clients]
    simp [OwnerAct.told, hu, hclients, hstart]
  · obtain ⟨w, hw, h⟩ := of_bind_ok h
    unfold copyWaitComplete at hw
    split at hw
    · cases hw
    · rw [(unwind_tells h).clients, resume_clients hw]
      simpa [OwnerAct.told, hu] using hclients

/-- Every step tells its clients what it reads, and a step that does not read tells them nothing. -/
theorem step_clients {a : OwnerAct} (h : ownersMachine.step s a = .ok t) : t.clients = a.told s ++ s.clients := by
  cases a with
  | createDrainer | beginShutdown =>
    cases h
    rfl
  | startCopy kind socket =>
    cases h
    cases kind <;> rfl
  | start d source read => exact (start_tells h).clients
  | destroy d => exact (destroy_tells h).clients
  | runTask task io =>
    cases task with
    | onHandleReady c => exact resume_clients (s := { s with posted := s.posted.erase (.onHandleReady c) }) h
    | fillBuffer c => exact resume_clients (s := { s with posted := s.posted.erase (.fillBuffer c) }) h
    | other =>
      cases h
      rfl
  | dispatch record status read io => exact dispatch_clients h
  | callReturns => exact (callReturns_tells h).clients
  | addOther req => exact (addOther_tells h).clients
  | removeOther key => exact (removeOther_tells h).clients

end Owners

/-! ## What a client gets -/

namespace WaitBooks
variable {s : Owners} {d : DrainerPtr} {drainer : SocketDrainer}

/-- Outside of user code a drainer waits exactly while it drains. -/
theorem waits_iff (h : WaitBooks none s) (hcalls : s.calls = []) (hd : s.drainers.lookup d = some drainer) :
    drainer.waitId ≠ 0 ↔ Underway d (s.startOf d) s.clients := by
  have hquiet : drainer.destructionSentinel = false := by
    have hcount := h.drainers.inClient d
    rw [hcalls, hd, Option.map_some] at hcount
    cases hc : drainer.destructionSentinel with
    | false => rfl
    | true => simp [hc] at hcount
  have hunderway := h.streams.draining d drainer hd
  rw [hquiet] at hunderway
  constructor
  · intro hw
    obtain ⟨hstart, hend⟩ := hunderway.mp (.inl hw)
    exact ⟨h.streams.begun d hstart, hend, h.streams.alive d (.inl (by simp [hd]))⟩
  · rintro ⟨hbegun, hend, -⟩
    have hpos := (h.streams.numbered _ hbegun _ rfl).1
    simpa using hunderway.mpr ⟨Nat.pos_iff_ne_zero.mp hpos, hend⟩

/-- The wait of a drainer, and that it has no second one. -/
theorem one_wait (h : WaitBooks none s) (hs : s.waiter.loop.loop.shutDown = false)
    (hd : s.drainers.lookup d = some drainer) (hw : drainer.waitId ≠ 0) :
    ∃! id, ∃ watcher, s.waiter.watchers.lookup id = some watcher ∧ watcher.context = .drainer d ∧
      s.waiter.loop.handlers.lookup watcher.key ≠ none := by
  obtain ⟨id, ⟨watcher, hlookup, hcontext⟩, hunique⟩ := (h.attended.unique (waitIds_drainer hd)).mp hw
  refine ⟨id, ⟨watcher, hlookup, hcontext, h.attended.waits_registered hs hlookup⟩, ?_⟩
  rintro id' ⟨watcher', hlookup', hcontext', -⟩
  exact hunique id' ⟨watcher', hlookup', hcontext'⟩

end WaitBooks

/-- On a loop that keeps running and whose keys last, with reads that find data, none, or the end: each
`Start` gives its client the chunks that it reads, in order, and one completion if it comes to the end;
the destroyed drainer is left alone; between dispatches a drainer has its one wait exactly while it
drains; and `destruction_sentinel_` is set exactly while the drainer is in `OnDataAvailable`. -/
theorem drainer_delivers_stream {acts : List OwnerAct} {result : Except Fault Owners}
    (hrun : (ownersMachine.restrict fun s a => s.waiter.loop.loop.shutDown = false ∧ a.ReadsExpected ∧
      s.waiter.loop.KeysLeft a.adds).Run {} acts result) :
    ∃ s, result = .ok s ∧
      (∀ d n, bytesAvailable d n s.clients = bytesRead d n s.clients) ∧
      (∀ d n, s.clients.count (.onDataComplete d n) = s.clients.count (.readEnd d n) ∧
        s.clients.count (.readEnd d n) ≤ 1) ∧
      EveryPast Orderly s.clients ∧
      (∀ d drainer, s.calls = [] → s.waiter.loop.loop.shutDown = false → s.drainers.lookup d = some drainer →
        (Underway d (s.startOf d) s.clients → ∃! id, ∃ watcher, s.waiter.watchers.lookup id = some watcher ∧
          watcher.context = .drainer d ∧ s.waiter.loop.handlers.lookup watcher.key ≠ none) ∧
        (¬ Underway d (s.startOf d) s.clients → ∀ id watcher, s.waiter.watchers.lookup id = some watcher →
          watcher.context ≠ .drainer d)) ∧
      (∀ d, s.calls.count (.onDataAvailable d false) =
        if (s.drainers.lookup d).map SocketDrainer.destructionSentinel = some true then 1 else 0) := by
  rcases Settled.of_run (fun _ _ hallowed => hallowed.2.2) hrun with ⟨s, rfl, h⟩ | ⟨⟨_, _, hallowed, hread⟩, -⟩
  · refine ⟨s, rfl, h.books.streams.told, fun d n => ⟨h.books.streams.ended d n, h.books.streams.once d n⟩,
      h.books.streams.orderly, ?_, h.books.drainers.inClient⟩
    intro d drainer hcalls hs hd
    have hiff := h.books.waits_iff hcalls hd
    refine ⟨fun hunderway => h.books.one_wait hs hd (hiff.mpr hunderway), ?_⟩
    intro hdone id watcher hw hcontext
    have hwaits := h.books.attended.context id watcher hw
    rw [hcontext, waitIds_drainer hd] at hwaits
    have hzero : drainer.waitId = 0 := not_not.mp fun hne => hdone (hiff.mp hne)
    have hpos := (h.books.attended.made id watcher hw).1
    rw [← Option.some.inj hwaits, hzero] at hpos
    exact absurd hpos (Nat.lt_irrefl 0)
  · exact absurd hallowed.2.1 hread

/-- The client takes two chunks and the end, starts the drainer again and destroys it in the next chunk. -/
theorem drainer_delivers_stream_restarted :
    ∃ s, (ownersMachine.restrict fun s a => s.waiter.loop.loop.shutDown = false ∧ a.ReadsExpected ∧
        s.waiter.loop.KeysLeft a.adds).Run {} [.createDrainer, .start 0 5 ⟨.ok, [1, 2]⟩, .callReturns,
        .dispatch 0 .ok ⟨.ok, [3]⟩ ⟨⟨.ok, []⟩, 0, none, ⟨.ok, 0⟩⟩, .callReturns,
        .dispatch 1 .ok ⟨.errPeerClosed, []⟩ ⟨⟨.ok, []⟩, 0, none, ⟨.ok, 0⟩⟩, .start 0 6 ⟨.ok, [4]⟩, .destroy 0,
        .callReturns, .callReturns] (.ok s) ∧
      bytesAvailable 0 1 s.clients = [1, 2, 3] ∧ s.clients.count (.onDataComplete 0 1) = 1 ∧
      s.clients.count (.onDataComplete 0 2) = 0 := by
  have hexpected (read : ReadResult) (hread : read.Expected) (a : OwnerAct) (ha : a.read = some read) :
      a.ReadsExpected := by
    intro read' ha'
    rw [ha] at ha'
    cases ha'
    exact hread
  have hquiet (a : OwnerAct) (ha : a.read = none) : a.ReadsExpected := by
    intro read' ha'
    rw [ha] at ha'
    cases ha'
  have hrun : (ownersMachine.restrict fun s a => s.waiter.loop.loop.shutDown = false ∧ a.ReadsExpected ∧
      s.waiter.loop.KeysLeft a.adds).Run {} [.createDrainer, .start 0 5 ⟨.ok, [1, 2]⟩, .callReturns,
      .dispatch 0 .ok ⟨.ok, [3]⟩ ⟨⟨.ok, []⟩, 0, none, ⟨.ok, 0⟩⟩, .callReturns,
      .dispatch 1 .ok ⟨.errPeerClosed, []⟩ ⟨⟨.ok, []⟩, 0, none, ⟨.ok, 0⟩⟩, .start 0 6 ⟨.ok, [4]⟩, .destroy 0,
      .callReturns, .callReturns] (.ok _) :=
    .step ⟨trivial, rfl, hquiet _ rfl, (by decide : 0 + 0 < 2^64)⟩ rfl
      (.step ⟨⟨fun hzero => absurd hzero (by decide), _, rfl, rfl, rfl⟩, rfl, hexpected _ (.inl rfl) _ rfl,
          (by decide : 0 + 1 < 2^64)⟩ rfl
        (.step ⟨List.cons_ne_nil _ _, rfl, hquiet _ rfl, (by decide : 0 + 1 < 2^64)⟩ rfl
          (.step ⟨⟨rfl, by decide, fun h => absurd h (by decide)⟩, rfl, hexpected _ (.inl rfl) _ rfl,
              (by decide : 1 + 1 < 2^64)⟩ rfl
            (.step ⟨List.cons_ne_nil _ _, rfl, hquiet _ rfl, (by decide : 1 + 1 < 2^64)⟩ rfl
              (.step ⟨⟨rfl, by decide, fun h => absurd h (by decide)⟩, rfl, hexpected _ (.inr (.inr (.inl rfl))) _ rfl,
                  (by decide : 2 + 1 < 2^64)⟩ rfl
                (.step ⟨⟨fun hzero => absurd hzero (by decide), _, rfl, rfl, rfl⟩, rfl, hexpected _ (.inl rfl) _ rfl,
                    (by decide : 2 + 1 < 2^64)⟩ rfl
                  (.step ⟨⟨_, rfl⟩, rfl, hquiet _ rfl, (by decide : 2 + 0 < 2^64)⟩ rfl
                    (.step ⟨List.cons_ne_nil _ _, rfl, hquiet _ rfl, (by decide : 2 + 1 < 2^64)⟩ rfl
                      (.step ⟨List.cons_ne_nil _ _, rfl, hquiet _ rfl, (by decide : 2 + 1 < 2^64)⟩ rfl (.nil _))))))))))
  obtain ⟨s, hs, htold, hended, -⟩ := drainer_delivers_stream hrun
  cases hs
  exact ⟨_, hrun, (htold 0 1).trans rfl, (hended 0 1).1.trans rfl, (hended 0 2).1.trans rfl⟩

/-- After 2^64 - 1 handlers a drainer's wait has key 0. The drainer is destroyed, but the loop dispatches
that wait and uses the freed watcher. -/
theorem wrapped_wait_is_dispatched_freed :
    ¬ ∀ acts result, runningOwners.Run {} acts result → ∃ s, result = .ok s := by
  intro hsafe
  obtain ⟨acts, s, hrun, hcalls, hs, hd, hw, hidle, r, ⟨object, trigger, deadline, handler, key⟩, hr, -, hrec, hhandler,
    -⟩ := wrapped_wait
  obtain rfl : handler = 1 := hhandler
  let t : Owners := { s with
    waiter.watchers := s.waiter.watchers.erase 1
    drainers := s.drainers.erase 0
    waits := .cancelled 1 :: s.waits
    clients := .destroyed 0 :: s.clients }
  have hdestroy : ownersMachine.step s (.destroy 0) = .ok t := by
    simp [ownersMachine, Owners.destroy, hd, Owners.cancelWait, DefaultWaiter.cancelWait, DefaultWaiter.deleteWatcher,
      hw, t]
  let read : ReadResult := ⟨.errPeerClosed, []⟩
  let io : IoResults := ⟨⟨.ok, []⟩, 0, none, ⟨.ok, 0⟩⟩
  have hdispatch : ownersMachine.step t (.dispatch r .ok read io) = .error (.useAfterFree 1) := by
    simp [ownersMachine, Owners.dispatch, Owners.dispatchEnter, MessageLoop.dispatchEnter, MessageLoop.handleEnter, t,
      hrec, hidle, DefaultWaiter.callCallback, MessageLoop.note]
  have hexpected : (OwnerAct.dispatch r .ok read io).ReadsExpected := by
    rintro read' ⟨⟩
    exact .inr (.inr (.inl rfl))
  have hnext : runningOwners.Run s [.destroy 0, .dispatch r .ok read io] (.error (.useAfterFree 1)) :=
    .step ⟨⟨_, hd⟩, hs, fun _ hread => by cases hread⟩ hdestroy
      (.fault ⟨⟨hcalls, hr, fun hdown => by rw [hs] at hdown; cases hdown⟩, hs, hexpected⟩ hdispatch)
  obtain ⟨u, hu⟩ := hsafe _ _ (hrun.append hnext)
  cases hu

end Mtl.Socket
