import Mtl.Socket.SocketDrainer

/-! Drainers when their loop is destroyed: every wait is completed with `MX_ERR_CANCELED`, which
`WaitComplete` ignores, and a wait begun after that is never completed. -/
namespace Mtl.Socket
open Foundation Tasks Waiter

/-- A wait would be registered, under a key that is not in use. -/
def Drainers.MayWait (s : Drainers) : Prop :=
  s.waiter.loop.loop.shutDown = false ∧ s.waiter.loop.nextRecord + 1 < 2^64

/-- The steps that do not begin a wait unless it is registered: once shutdown has begun a read finds
the end of the stream, or data in whose `OnDataAvailable` the drainer is destroyed. -/
def WaitsInTime (s : Drainers) : DrainerAct → Prop
  | .start _ _ read | .dispatch _ _ read => read.status = .errShouldWait → s.MayWait
  | .clientReturns => ∀ d calls, s.calls = .onDataAvailable d false :: calls → s.MayWait
  | _ => True

/-- A drainer and its watcher know each other, and a drainer whose client call is in progress waits
for nothing. -/
structure Booked (s : Drainers) : Prop where
  watching : Watching s.waiter
  context : ∀ id watcher, s.waiter.watchers.lookup id = some watcher →
    (s.drainers.lookup watcher.context).map SocketDrainer.waitId = some id
  waits : ∀ d drainer, s.drainers.lookup d = some drainer → drainer.waitId ≠ 0 →
    (s.waiter.watchers.lookup drainer.waitId).map HandleWatcher.context = some d
  inClient : ∀ d, .onDataAvailable d false ∈ s.calls ↔
    (s.drainers.lookup d).map SocketDrainer.destructionSentinel = some true
  once : ∀ d, s.calls.count (.onDataAvailable d false) ≤ 1
  reading : ∀ d drainer, s.drainers.lookup d = some drainer → drainer.destructionSentinel = true →
    drainer.waitId = 0 ∧ drainer.source ≠ 0
  sourced : ∀ d drainer, s.drainers.lookup d = some drainer → drainer.waitId ≠ 0 → drainer.source ≠ 0
  fresh : ∀ d, s.nextDrainer ≤ d → s.drainers.lookup d = none
  idle : s.dispatching = none → s.waiter.loop.currentHandler = none
  running : ∀ r status, s.dispatching = some (r, status) → s.waiter.loop.currentHandler = some r ∧
    ∃ key, lastStart s.waiter.loop.log = some (r, key, status)

/-- `P` holds afterwards, unless `ReadData` stopped at a status that it does not expect. -/
def OrUnhandled (out : Except Fault Drainers) (P : Drainers → Prop) : Prop :=
  (∃ t, out = .ok t ∧ P t) ∨ out = .error (.dcheck "Unhandled mx_status_t")

/-- A read may add a client call, in the same dispatch. -/
def Drainers.Within (s t : Drainers) : Prop := (t.calls = [] → s.calls = []) ∧ t.dispatching = s.dispatching

namespace Booked
variable {s t : Drainers}

theorem init : Booked {} := by
  constructor
  case watching => exact .init
  all_goals simp

/-- A drainer that waits is not in its client. -/
theorem quiet (h : Booked s) {d : DrainerPtr} {drainer : SocketDrainer} (hd : s.drainers.lookup d = some drainer)
    (hw : drainer.waitId ≠ 0) : drainer.destructionSentinel = false := by
  cases hc : drainer.destructionSentinel with
  | false => rfl
  | true => exact absurd (h.reading d drainer hd hc).1 hw

theorem waitForData (h : Booked s) (hmay : s.MayWait) {d : DrainerPtr} {drainer : SocketDrainer}
    (hd : s.drainers.lookup d = some drainer) (hw : drainer.waitId = 0) (hc : drainer.destructionSentinel = false)
    (hs : drainer.source ≠ 0) : ∃ t, s.waitForData d = .ok t ∧ Booked t ∧ s.Within t := by
  obtain ⟨waiter, hwait, hwatching, hwatchers, hfollows⟩ :=
    h.watching.asyncWait hmay.1 hmay.2 hs SocketDrainer.waitSignals mxTimeInfinite 0 d
  have hnonzero := h.watching.nonzero
  have hzero := h.watching.unaddressed
  have hfresh := h.watching.fresh
  have hrunning := hfollows.running
  have hstarted := hfollows.started
  obtain ⟨h1, h2, h3, h4, h5, h6, h7, h8, h9, h10⟩ := h
  refine ⟨{ s with
      waiter := waiter
      drainers := s.drainers.insert d { drainer with waitId := s.waiter.nextWatcher } },
    by simp [Drainers.waitForData, Drainers.update, hd, hw, hwait], ⟨hwatching, ?_, ?_, ?_, h5, ?_, ?_, ?_, ?_, ?_⟩,
    id, rfl⟩
  all_goals simp only [hwatchers]
  all_goals grind

theorem readData (h : Booked s) {read : ReadResult} (hmay : read.status = .errShouldWait → s.MayWait) {d : DrainerPtr}
    {drainer : SocketDrainer} (hd : s.drainers.lookup d = some drainer) (hw : drainer.waitId = 0)
    (hc : drainer.destructionSentinel = false) (hs : drainer.source ≠ 0) :
    OrUnhandled (s.readData d read) fun t => Booked t ∧ s.Within t := by
  have hdone : Booked { s with calls := .onDataComplete :: s.calls } := by
    obtain ⟨h1, h2, h3, h4, h5, h6, h7, h8, h9, h10⟩ := h
    refine ⟨h1, h2, h3, ?_, ?_, h6, h7, h8, h9, h10⟩
    all_goals grind
  cases hread : read.status with
  | ok =>
    refine .inl ⟨{ s with
        drainers := s.drainers.insert d { drainer with destructionSentinel := true }
        calls := .onDataAvailable d false :: s.calls },
      by simp [Drainers.readData, SocketDrainer.readData, hread, Drainers.update, hd], ?_, by simp, rfl⟩
    obtain ⟨h1, h2, h3, h4, h5, h6, h7, h8, h9, h10⟩ := h
    refine ⟨h1, ?_, ?_, ?_, ?_, ?_, ?_, ?_, h9, h10⟩
    all_goals grind
  | errShouldWait =>
    obtain ⟨t, ht, hb⟩ := h.waitForData (hmay hread) hd hw hc hs
    exact .inl ⟨t, by simp [Drainers.readData, SocketDrainer.readData, hread, ht], hb⟩
  | errPeerClosed | errBadState =>
    exact .inl ⟨_, by simp [Drainers.readData, SocketDrainer.readData, hread], hdone, by simp, rfl⟩
  | errBadHandle | errTimedOut | errCanceled | other =>
    exact .inr (by simp [Drainers.readData, SocketDrainer.readData, hread])

/-- A drainer that waits for nothing and is not in its client starts on a socket. -/
theorem start (h : Booked s) {read : ReadResult} (hmay : read.status = .errShouldWait → s.MayWait)
    {d : DrainerPtr} {drainer : SocketDrainer} (hd : s.drainers.lookup d = some drainer) (hw : drainer.waitId = 0)
    (hc : drainer.destructionSentinel = false) {source : MxHandle} (hs : source ≠ 0) :
    OrUnhandled (s.start d source read) fun t => Booked t ∧ s.Within t := by
  have hstarted : Booked { s with drainers := s.drainers.insert d { drainer with source := source } } := by
    obtain ⟨h1, h2, h3, h4, h5, h6, h7, h8, h9, h10⟩ := h
    refine ⟨h1, ?_, ?_, ?_, h5, ?_, ?_, ?_, h9, h10⟩
    all_goals grind
  have hread := hstarted.readData hmay (Finmap.lookup_insert _) hw hc hs
  have heq : s.start d source read =
      { s with drainers := s.drainers.insert d { drainer with source := source } }.readData d read := by
    simp [Drainers.start, Drainers.update, hd]
  rw [heq]
  exact hread

/-- With no client call left the dispatch ends. -/
theorem unwind (h : Booked s) : ∃ t, s.unwind = .ok t ∧ Booked t ∧ (t.calls = [] → t.dispatching = none) := by
  unfold Drainers.unwind
  split
  case h_1 record status hcalls hdisp =>
    obtain ⟨hc, key, hl⟩ := h.running record status hdisp
    obtain ⟨waiter, hexit, hwatching, hwatchers, -, hidle, -, -⟩ := h.watching.dispatchExit hc hl
    refine ⟨{ s with waiter := waiter, dispatching := none }, by simp [hexit], ?_, fun _ => rfl⟩
    obtain ⟨h1, h2, h3, h4, h5, h6, h7, h8, h9, h10⟩ := h
    refine ⟨hwatching, ?_, ?_, h4, h5, h6, h7, h8, fun _ => hidle, nofun⟩
    · rwa [hwatchers]
    · rwa [hwatchers]
  case h_2 hnot =>
    refine ⟨s, rfl, h, fun hcalls => ?_⟩
    cases hdisp : s.dispatching with
    | none => rfl
    | some turn => exact absurd hdisp (hnot turn.1 turn.2 hcalls)

theorem dispatch (h : Booked s) {record : RecordPtr} {status : MxStatus} {read : ReadResult}
    (hr : record ∈ s.waiter.loop.loop.registered) (hdisp : s.dispatching = none)
    (hmay : read.status = .errShouldWait → s.MayWait) :
    OrUnhandled (s.dispatch record status read) fun t => Booked t ∧ (t.calls = [] → t.dispatching = none) := by
  obtain ⟨waiter, id, watcher, key, henter, hwatching, hlookup, hwatchers, hshut, hcur, hlast, hnext, hrec⟩ :=
    h.watching.dispatchEnter (h.idle hdisp) hr status
  have hcontext := h.context id watcher hlookup
  obtain ⟨drainer, hd, hid⟩ := Option.map_eq_some_iff.mp hcontext
  have hpos : drainer.waitId ≠ 0 := by
    rintro h0
    rw [← hid, h0, h.watching.unaddressed] at hlookup
    cases hlookup
  have hsource := h.sourced _ _ hd hpos
  have hquiet := h.quiet hd hpos
  have hcompleted : Booked { s with
      waiter := waiter
      dispatching := some (record, status)
      drainers := s.drainers.insert watcher.context { drainer with waitId := 0 } } := by
    obtain ⟨h1, h2, h3, h4, h5, h6, h7, h8, h9, h10⟩ := h
    refine ⟨hwatching, ?_, ?_, ?_, h5, ?_, ?_, ?_, nofun, ?_⟩
    all_goals simp only [hwatchers]
    all_goals grind
  have hread := hcompleted.readData
    (fun hs => by simpa only [Drainers.MayWait, hshut, hrec] using hmay hs) (Finmap.lookup_insert _) rfl hquiet hsource
  rcases hread with ⟨t, ht, hb, -⟩ | herr
  · obtain ⟨u, hu, hb', hrest⟩ := hb.unwind
    exact .inl ⟨u, by simp [Drainers.dispatch, henter, Drainers.waitComplete, Drainers.update, hd, ht, hu], hb', hrest⟩
  · exact .inr (by simp [Drainers.dispatch, henter, Drainers.waitComplete, Drainers.update, hd, herr])

theorem clientReturns (h : Booked s) (hcalls : s.calls ≠ [])
    (hmay : ∀ d calls, s.calls = .onDataAvailable d false :: calls → s.MayWait) :
    ∃ t, s.clientReturns = .ok t ∧ Booked t ∧ (t.calls = [] → t.dispatching = none) := by
  cases hc : s.calls with
  | nil => exact absurd hc hcalls
  | cons call calls =>
    cases call with
    | onDataComplete =>
      have hpopped : Booked { s with calls := calls } := by
        obtain ⟨h1, h2, h3, h4, h5, h6, h7, h8, h9, h10⟩ := h
        refine ⟨h1, h2, h3, ?_, ?_, h6, h7, h8, h9, h10⟩
        all_goals grind
      obtain ⟨t, ht, hb⟩ := hpopped.unwind
      exact ⟨t, by simp [Drainers.clientReturns, hc, ht], hb⟩
    | onDataAvailable d isDestroyed =>
      cases isDestroyed with
      | true =>
        have hpopped : Booked { s with calls := calls } := by
          obtain ⟨h1, h2, h3, h4, h5, h6, h7, h8, h9, h10⟩ := h
          refine ⟨h1, h2, h3, ?_, ?_, h6, h7, h8, h9, h10⟩
          all_goals grind
        obtain ⟨t, ht, hb⟩ := hpopped.unwind
        exact ⟨t, by simp [Drainers.clientReturns, hc, ht], hb⟩
      | false =>
        obtain ⟨drainer, hd, hsent⟩ := Option.map_eq_some_iff.mp ((h.inClient d).mp (by simp [hc]))
        obtain ⟨hw, hs⟩ := h.reading d drainer hd hsent
        have hpopped : Booked { s with
            calls := calls
            drainers := s.drainers.insert d { drainer with destructionSentinel := false } } := by
          obtain ⟨h1, h2, h3, h4, h5, h6, h7, h8, h9, h10⟩ := h
          refine ⟨h1, ?_, ?_, ?_, ?_, ?_, ?_, ?_, h9, h10⟩
          all_goals grind
        obtain ⟨t, ht, hb, -⟩ := hpopped.waitForData (hmay d calls hc) (Finmap.lookup_insert _) hw rfl hs
        obtain ⟨u, hu, hb'⟩ := hb.unwind
        exact ⟨u, by simp [Drainers.clientReturns, hc, Drainers.update, hd, ht, hu], hb'⟩

theorem create (h : Booked s) : Booked s.create := by
  have hnew := h.fresh s.nextDrainer (Nat.le_refl _)
  obtain ⟨h1, h2, h3, h4, h5, h6, h7, h8, h9, h10⟩ := h
  refine ⟨h1, ?_, ?_, ?_, h5, ?_, ?_, ?_, h9, h10⟩
  all_goals simp only [Drainers.create]
  all_goals grind

/-- A destroyed drainer marks its own client call and no other. -/
private theorem count_destroyed (d d' : DrainerPtr) (calls : List ClientCall) :
    (calls.map (ClientCall.destroyed d)).count (ClientCall.onDataAvailable d' false) =
      if d' = d then 0 else calls.count (ClientCall.onDataAvailable d' false) := by
  induction calls with
  | nil => simp
  | cons call calls ih =>
    cases call with
    | onDataComplete => simpa [ClientCall.destroyed] using ih
    | onDataAvailable d'' isDestroyed =>
      rw [List.map_cons, List.count_cons, List.count_cons, ih]
      simp only [ClientCall.destroyed]
      grind

private theorem mem_destroyed (d d' : DrainerPtr) (calls : List ClientCall) :
    ClientCall.onDataAvailable d' false ∈ calls.map (ClientCall.destroyed d) ↔
      d' ≠ d ∧ ClientCall.onDataAvailable d' false ∈ calls := by
  rw [← List.count_pos_iff, ← List.count_pos_iff, count_destroyed]
  split_ifs <;> simp_all

theorem destroy (h : Booked s) {d : DrainerPtr} {drainer : SocketDrainer} (hd : s.drainers.lookup d = some drainer) :
    ∃ t, s.destroy d = .ok t ∧ Booked t ∧ (t.calls = [] ↔ s.calls = []) ∧ t.dispatching = s.dispatching := by
  have hcount := fun d' => count_destroyed d d' s.calls
  have hmem := fun d' => mem_destroyed d d' s.calls
  by_cases hw : drainer.waitId = 0
  · refine ⟨{ s with
        drainers := s.drainers.erase d
        calls := if drainer.destructionSentinel then s.calls.map (ClientCall.destroyed d) else s.calls },
      by simp [Drainers.destroy, hd, hw], ?_, by simp only; split_ifs <;> simp, rfl⟩
    obtain ⟨h1, h2, h3, h4, h5, h6, h7, h8, h9, h10⟩ := h
    have hzero := h1.unaddressed
    refine ⟨h1, ?_, ?_, ?_, ?_, ?_, ?_, ?_, h9, h10⟩
    all_goals grind
  · obtain ⟨watcher, hlookup, hcontext⟩ := Option.map_eq_some_iff.mp (h.waits d drainer hd hw)
    obtain ⟨waiter, hcancel, hwatching, hwatchers, hfollows, -, -⟩ := h.watching.cancelWait hlookup
    have hrunning := hfollows.running
    have hstarted := hfollows.started
    have hquiet := h.quiet hd hw
    refine ⟨{ s with waiter := waiter, drainers := s.drainers.erase d },
      by simp [Drainers.destroy, hd, hw, hcancel, hquiet], ?_, Iff.rfl, rfl⟩
    obtain ⟨h1, h2, h3, h4, h5, h6, h7, h8, h9, h10⟩ := h
    refine ⟨hwatching, ?_, ?_, ?_, h5, ?_, ?_, ?_, ?_, ?_⟩
    all_goals simp only [hwatchers]
    all_goals grind

theorem beginShutdown (h : Booked s) : Booked { s with waiter.loop := s.waiter.loop.beginShutdown } := by
  obtain ⟨h1, h2, h3, h4, h5, h6, h7, h8, h9, h10⟩ := h
  exact ⟨h1.beginShutdown, h2, h3, h4, h5, h6, h7, h8, h9, h10⟩

/-- Nothing is registered any more, so no watcher is alive and no drainer waits. -/
theorem finishDestruction (h : Booked s) (hdisp : s.dispatching = none) (hr : s.waiter.loop.loop.registered = ∅) :
    s.finishDestruction = .ok { s with waiter.loop.current := false } ∧ s.waiter.watchers = ∅ ∧
      ∀ d drainer, s.drainers.lookup d = some drainer → drainer.waitId = 0 := by
  have hset := h.watching.registry.settled (h.idle hdisp)
  have hempty := hset.handlers_empty hr
  have hwatchers : s.waiter.watchers = ∅ := by
    refine eq_empty_of_lookup _ fun id => ?_
    cases hw : s.waiter.watchers.lookup id with
    | none => rfl
    | some watcher =>
      obtain ⟨r, rec, hk, -⟩ := h.watching.registered id watcher hw
      simp [hempty] at hk
  refine ⟨by simp [Drainers.finishDestruction, MessageLoop.finishDestruction, hempty], hwatchers, ?_⟩
  intro d drainer hd
  by_contra hw
  have := h.waits d drainer hd hw
  simp [hwatchers] at this

end Booked

/-- Once the loop is gone no drainer waits, so destroying one does not reach for the loop. -/
structure Released (s : Drainers) : Prop where
  calls : s.calls = []
  detached : s.waiter.loop.current = false
  watchers : s.waiter.watchers = ∅
  waits : ∀ d drainer, s.drainers.lookup d = some drainer → drainer.waitId = 0

theorem Released.destroy {s : Drainers} (h : Released s) {d : DrainerPtr} {drainer : SocketDrainer}
    (hd : s.drainers.lookup d = some drainer) :
    s.destroy d = .ok { s with drainers := s.drainers.erase d } ∧
      Released { s with drainers := s.drainers.erase d } := by
  obtain ⟨h1, h2, h3, h4⟩ := h
  refine ⟨by simp [Drainers.destroy, hd, h4 d drainer hd, h1], h1, h2, h3, fun d' drainer' hd' => ?_⟩
  exact h4 d' drainer' (by grind)

theorem Released.create {s : Drainers} (h : Released s) : Released s.create := by
  obtain ⟨h1, h2, h3, h4⟩ := h
  refine ⟨h1, h2, h3, fun d drainer hd => ?_⟩
  simp only [Drainers.create] at hd
  grind

/-- The books while there is a loop, and what is left of them when there is none. -/
def Kempt (s : Drainers) : Prop := (Booked s ∧ (s.calls = [] → s.dispatching = none)) ∨ Released s

theorem Kempt.step {s : Drainers} (h : Kempt s) (a : DrainerAct) (he : drainersMachine.Enabled s a)
    (ht : WaitsInTime s a) : OrUnhandled (drainersMachine.step s a) Kempt := by
  rcases h with ⟨hb, hrest⟩ | hr
  · cases a with
    | create => exact .inl ⟨_, rfl, .inl ⟨hb.create, hrest⟩⟩
    | start d source read =>
      obtain ⟨-, hs, drainer, hd, hw, hc⟩ := he
      rcases hb.start ht hd hw hc hs with ⟨t, hstart, hb', hcalls, hdisp⟩ | herr
      · exact .inl ⟨t, hstart, .inl ⟨hb', fun hnil => hdisp.trans (hrest (hcalls hnil))⟩⟩
      · exact .inr herr
    | destroy d =>
      obtain ⟨drainer, hd⟩ := he
      obtain ⟨t, ht, hb', hcalls, hdisp⟩ := hb.destroy hd
      exact .inl ⟨t, ht, .inl ⟨hb', fun hnil => hdisp.trans (hrest (hcalls.mp hnil))⟩⟩
    | clientReturns =>
      obtain ⟨t, ht, hb'⟩ := hb.clientReturns he ht
      exact .inl ⟨t, ht, .inl hb'⟩
    | dispatch record status read =>
      obtain ⟨hcalls, -, hr, -⟩ := he
      exact (hb.dispatch hr (hrest hcalls) ht).imp_left fun ⟨t, ht, hb'⟩ => ⟨t, ht, .inl hb'⟩
    | beginShutdown => exact .inl ⟨_, rfl, .inl ⟨hb.beginShutdown, hrest⟩⟩
    | finishDestruction =>
      obtain ⟨hcalls, -, -, hr⟩ := he
      obtain ⟨ht, hwatchers, hwaits⟩ := hb.finishDestruction (hrest hcalls) hr
      exact .inl ⟨_, ht, .inr ⟨hcalls, rfl, hwatchers, hwaits⟩⟩
  · cases a with
    | create => exact .inl ⟨_, rfl, .inr hr.create⟩
    | destroy d =>
      obtain ⟨drainer, hd⟩ := he
      obtain ⟨ht, hr'⟩ := hr.destroy hd
      exact .inl ⟨_, ht, .inr hr'⟩
    | clientReturns => exact absurd hr.calls he
    | start => exact absurd he.1 (by simp [hr.detached])
    | dispatch | beginShutdown | finishDestruction => exact absurd he.2.1 (by simp [hr.detached])

/-- In every run that begins no wait once shutdown has begun, and fewer than 2^64 in all, no drainer
waits and no `HandleWatcher` is left when the loop is gone, and nothing reaches for the loop after it. -/
theorem no_wait_survives_in_time {acts : List DrainerAct} {result : Except Fault Drainers}
    (hrun : (drainersMachine.restrict WaitsInTime).Run {} acts result) :
    result = .error (.dcheck "Unhandled mx_status_t") ∨ ∃ t, result = .ok t ∧
      (t.waiter.loop.current = false → t.waiter.watchers = ∅ ∧
        ∀ d drainer, t.drainers.lookup d = some drainer → drainer.waitId = 0) := by
  have hstep (s : Drainers) (a : DrainerAct) (hs : Kempt s)
      (he : (drainersMachine.restrict WaitsInTime).Enabled s a) :
      (∃ t, drainersMachine.step s a = .ok t ∧ Kempt t) ∨
        ∃ e, drainersMachine.step s a = .error e ∧ e = .dcheck "Unhandled mx_status_t" :=
    (hs.step a he.1 he.2).imp_right fun herr => ⟨_, herr, rfl⟩
  rcases hrun.safe_or (E := fun e => e = .dcheck "Unhandled mx_status_t") hstep (.inl ⟨.init, fun _ => rfl⟩) with
    ⟨t, rfl, ⟨hb, -⟩ | hr⟩ | ⟨e, rfl, rfl⟩
  · exact .inr ⟨t, rfl, fun hgone => absurd hgone (by simp [hb.watching.registry.attached])⟩
  · exact .inr ⟨t, rfl, fun _ => ⟨hr.watchers, hr.waits⟩⟩
  · exact .inl rfl

private def shouldWait : ReadResult := ⟨.errShouldWait, []⟩

/-- Two drainers wait when the loop is destroyed. The first finds a byte and is destroyed by its
client, the second finds that its peer has closed. -/
theorem no_wait_survives_in_time_two_drainers :
    ∃ t, drainersMachine.Run {} [.create, .create, .start 0 5 shouldWait, .start 1 6 shouldWait, .beginShutdown,
        .dispatch 0 .errCanceled ⟨.ok, [7]⟩, .destroy 0, .clientReturns,
        .dispatch 1 .errCanceled ⟨.errPeerClosed, []⟩, .clientReturns, .finishDestruction, .destroy 1] (.ok t) ∧
      t.waiter.watchers = ∅ := by
  have hrun : (drainersMachine.restrict WaitsInTime).Run {} [.create, .create, .start 0 5 shouldWait,
      .start 1 6 shouldWait, .beginShutdown, .dispatch 0 .errCanceled ⟨.ok, [7]⟩, .destroy 0, .clientReturns,
      .dispatch 1 .errCanceled ⟨.errPeerClosed, []⟩, .clientReturns, .finishDestruction, .destroy 1] (.ok _) :=
    .step ⟨trivial, trivial⟩ rfl (.step ⟨trivial, trivial⟩ rfl
      (.step ⟨⟨rfl, by decide, _, rfl, rfl, rfl⟩, fun _ => ⟨rfl, by decide⟩⟩ rfl
        (.step ⟨⟨rfl, by decide, _, rfl, rfl, rfl⟩, fun _ => ⟨rfl, by decide⟩⟩ rfl
          (.step ⟨⟨rfl, rfl, rfl⟩, trivial⟩ rfl
            (.step ⟨⟨rfl, rfl, by decide, fun _ => rfl⟩, nofun⟩ rfl (.step ⟨⟨_, rfl⟩, trivial⟩ rfl
              (.step ⟨nofun, nofun⟩ rfl (.step ⟨⟨rfl, rfl, by decide, fun _ => rfl⟩, nofun⟩ rfl
                (.step ⟨nofun, nofun⟩ rfl (.step ⟨⟨rfl, rfl, rfl, by decide⟩, trivial⟩ rfl
                  (.step ⟨⟨_, rfl⟩, trivial⟩ rfl (.nil _))))))))))))
  rcases no_wait_survives_in_time hrun with herr | ⟨t, ht, hend⟩
  · cases herr
  · cases ht
    exact ⟨_, hrun.unrestrict, (hend rfl).1⟩

/-- A waiting drainer whose socket stays open waits again when it is told `MX_ERR_CANCELED`. When it
is destroyed after the loop, its watcher reaches for the loop. -/
theorem canceled_drainer_waits_again :
    ¬ ∀ acts result, drainersMachine.Run {} acts result → result ≠ .error .nullLoop ∧
      ∀ t, result = .ok t → t.waiter.loop.current = false → t.waiter.watchers = ∅ ∧
        ∀ d drainer, t.drainers.lookup d = some drainer → drainer.waitId = 0 := by
  intro hnoneWaits
  have hrun : drainersMachine.Run {} [.create, .start 0 5 shouldWait, .beginShutdown,
      .dispatch 0 .errCanceled shouldWait, .finishDestruction, .destroy 0] (.error .nullLoop) :=
    .step trivial rfl (.step ⟨rfl, by decide, _, rfl, rfl, rfl⟩ rfl (.step ⟨rfl, rfl, rfl⟩ rfl
      (.step ⟨rfl, rfl, by decide, fun _ => rfl⟩ rfl (.step ⟨rfl, rfl, rfl, by decide⟩ rfl
        (.fault ⟨_, rfl⟩ rfl)))))
  exact (hnoneWaits _ _ hrun).1 rfl

end Mtl.Socket
