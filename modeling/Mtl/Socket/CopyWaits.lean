import Mtl.Socket.OwnerSteps
import Mtl.Socket.WaitSteps

/-! The waits of copies over the default waiter. While keys are left the copies among the owners run as
`copyMachine`, where a wait is one member of `registered`. -/
namespace Mtl.Socket
open Foundation Tasks Waiter

/-- The copies of `s`, with what is registered for them, and their tasks as long as the loop runs tasks. -/
structure Shows (s : Owners) (k : Copies) : Prop where
  queue : k.queue = { delegate := true }
  shutDown : k.loop.shutDown = s.waiter.loop.loop.shutDown
  nextCopy : k.nextCopy = s.nextCopy
  handlers : ∀ c, k.handlers.lookup c = (s.copies.lookup c).map Copy.handler
  tasks : k.loop.shutDown = false → (closures k.queue k.loop).Perm s.posted
  registered : ∀ c, s.waiter.Awaits (.copy c) → c ∈ k.registered
  waiting : ∀ c ∈ k.registered, ∃ copy, s.copies.lookup c = some copy ∧ copy.waitId ≠ 0

namespace Shows
variable {s t : Owners} {k : Copies} {c : CopyId} {copy : Copy}

theorem init : ∃ k, Copies.initDelegate {} = .ok k ∧ Shows {} k := by
  refine ⟨_, rfl, rfl, rfl, rfl, fun c => rfl, fun _ => .refl _, ?_, by simp⟩
  rintro c ⟨key, rec, watcher, -, -, hw, -⟩
  cases hw

theorem tells (h : Shows s k) {told : List ClientEvent} (ht : Owners.Tells told s t) : Shows t k := by
  refine ⟨h.queue, h.shutDown.trans ht.shutDown.symm, h.nextCopy.trans ht.nextCopy.symm, ?_, ?_,
    fun c hc => h.registered c (ht.awaits c hc), ?_⟩
  · rw [ht.copies]
    exact h.handlers
  · rw [ht.posted]
    exact h.tasks
  · rw [ht.copies]
    exact h.waiting

/-- A copy that does not wait is updated in place. -/
theorem update (h : Shows s k) (hc : c ∉ k.registered) (copy : Copy) :
    Shows { s with copies := s.copies.insert c copy } { k with handlers := k.handlers.insert c copy.handler } := by
  refine ⟨h.queue, h.shutDown, h.nextCopy, fun c' => ?_, h.tasks, h.registered, fun c' hc' => ?_⟩
  · rw [lookup_insert_eq, lookup_insert_eq]
    split_ifs with heq
    · rfl
    · exact h.handlers c'
  · rw [lookup_insert_eq, if_neg]
    · exact h.waiting c' hc'
    · rintro rfl
      exact hc hc'

theorem post (h : Shows s k) (task : CopyTask) :
    ∃ l, k.post task TimePoint.epoch = .ok l ∧ Shows { s with posted := task :: s.posted } l := by
  cases hs : k.loop.shutDown with
  | false =>
    have hadd := IncomingTaskQueue.addTask_running (q := k.queue) (by rw [h.queue]) (by rw [h.queue]) hs task
      TimePoint.epoch
    have hlast : closures k.queue (k.loop.accept task TimePoint.epoch) = closures k.queue k.loop ++ [task] := by
      simp [closures, TaskLoop.accept, TaskRecord.of]
    refine ⟨{ k with loop := k.loop.accept task TimePoint.epoch }, by simp [Copies.post, hadd], h.queue, h.shutDown,
      h.nextCopy, h.handlers, fun _ => ?_, h.registered, h.waiting⟩
    rw [hlast]
    exact (List.perm_append_singleton _ _).trans ((h.tasks hs).cons task)
  | true =>
    have hadd := IncomingTaskQueue.addTask_shuttingDown (q := k.queue) (by rw [h.queue]) (by rw [h.queue]) hs task
      TimePoint.epoch
    refine ⟨{ k with loop := k.loop.refuse task TimePoint.epoch }, by simp [Copies.post, hadd], h.queue, h.shutDown,
      h.nextCopy, h.handlers, fun hrun => ?_, h.registered, h.waiting⟩
    exact absurd (hs.symm.trans hrun) (by simp)

/-- A wait is registered for its copy unless the loop shuts down. -/
theorem asyncWait (h : Shows s k) {waitOf : Owner → Option WaitId} (ha : Attended s.waiter waitOf)
    (hcopy : s.copies.lookup c = some copy) {handle : MxHandle} {signals : MxSignals} {id : WaitId}
    (hu : s.asyncWait (.copy c) handle signals = .ok (t, id)) :
    Shows { t with copies := t.copies.insert c { copy with waitId := id } } (k.asyncWait c) := by
  obtain ⟨waiter, hwait, rfl⟩ := Owners.asyncWait_eq hu
  obtain ⟨rfl, hshut, -⟩ := DefaultWaiter.asyncWait_eq hwait
  have hid : s.waiter.nextWatcher ≠ 0 := Nat.pos_iff_ne_zero.mp ha.first
  have hhandlers (c' : CopyId) : k.handlers.lookup c' =
      ((s.copies.insert c { copy with waitId := s.waiter.nextWatcher }).lookup c').map Copy.handler := by
    rw [lookup_insert_eq, h.handlers c']
    split_ifs with heq
    · rw [heq, hcopy]
      rfl
    · rfl
  have hwaiting {c' : CopyId} (hc' : c' = c ∨ c' ∈ k.registered) : ∃ copy',
      (s.copies.insert c { copy with waitId := s.waiter.nextWatcher }).lookup c' = some copy' ∧ copy'.waitId ≠ 0 := by
    rw [lookup_insert_eq]
    split_ifs with heq
    · exact ⟨_, rfl, hid⟩
    · exact h.waiting c' (hc'.resolve_left heq)
  cases hs : k.loop.shutDown with
  | false =>
    have hk : k.asyncWait c = { k with registered := insert c k.registered } := by simp [Copies.asyncWait, hs]
    rw [hk]
    refine ⟨h.queue, h.shutDown.trans hshut.symm, h.nextCopy, hhandlers, h.tasks, fun c' hc' => ?_,
      fun c' hc' => hwaiting (Finset.mem_insert.mp hc')⟩
    rcases DefaultWaiter.awaits_of_asyncWait hwait hc' with heq | hold
    · cases heq
      exact Finset.mem_insert_self _ _
    · exact Finset.mem_insert_of_mem (h.registered c' hold)
  | true =>
    have hk : k.asyncWait c = k := by simp [Copies.asyncWait, hs]
    rw [hk]
    have hdown : s.waiter.loop.loop.shutDown = true := h.shutDown.symm.trans hs
    exact ⟨h.queue, h.shutDown.trans hshut.symm, h.nextCopy, hhandlers, h.tasks,
      fun c' hc' => h.registered c' (ha.awaits_refused hdown hwait hc'), fun c' hc' => hwaiting (.inr hc')⟩

/-- The end of a step of a copy that did not wait. -/
theorem proceed (h : Shows s k) {waitOf : Owner → Option WaitId} (ha : Attended s.waiter waitOf)
    (hc : c ∉ k.registered) {step : CopyStep} (hp : s.proceed c step = .ok t) :
    ∃ l, k.proceed c step = .ok l ∧ Shows t l := by
  cases step with
  | postReady =>
    cases hp
    exact h.post (.onHandleReady c)
  | postFill =>
    cases hp
    exact h.post (.fillBuffer c)
  | asyncWait signals =>
    unfold Owners.proceed at hp
    simp only at hp
    split at hp
    · cases hp
    · next copy hcopy =>
      obtain ⟨⟨u, id⟩, hwait, hp⟩ := of_bind_ok hp
      have hshows := h.asyncWait ha hcopy hwait
      cases hp
      exact ⟨_, rfl, hshows⟩
  | sendCallback value =>
    cases hp
    refine ⟨_, rfl, h.queue, h.shutDown, h.nextCopy, fun c' => ?_, h.tasks, h.registered, fun c' hc' => ?_⟩
    · rw [lookup_erase_eq, lookup_erase_eq]
      split_ifs with heq
      · rfl
      · exact h.handlers c'
    · rw [lookup_erase_eq, if_neg]
      · exact h.waiting c' hc'
      · rintro rfl
        exact hc hc'

theorem resume (h : Shows s k) {waitOf : Owner → Option WaitId} (ha : Attended s.waiter waitOf) (hc : c ∉ k.registered)
    {f : CopyHandler → Except Fault (CopyHandler × CopyStep)} (hr : s.resume c f = .ok t) :
    ∃ l, k.resume c f = .ok l ∧ Shows t l := by
  obtain ⟨copy, handler, step, hcopy, hf, hp⟩ := Owners.resume_eq hr
  have hl : k.handlers.lookup c = some copy.handler := by rw [h.handlers, hcopy, Option.map_some]
  obtain ⟨l, hl', hshows⟩ := (h.update hc { copy with handler := handler }).proceed ha hc hp
  exact ⟨l, by simp [Copies.resume, hl, hf, hl'], hshows⟩

theorem startCopy (h : Shows s k) (hfresh : s.copies.lookup s.nextCopy = none) (kind : CopyKind) (socket : MxHandle) :
    ∃ l, k.start kind = .ok l ∧ Shows (s.startCopy kind socket) l := by
  have hc : s.nextCopy ∉ k.registered := by
    intro hmem
    obtain ⟨copy, hcopy, -⟩ := h.waiting _ hmem
    rw [hfresh] at hcopy
    cases hcopy
  have hnew (handler : CopyHandler) : Shows
      { s with nextCopy := s.nextCopy + 1, copies := s.copies.insert s.nextCopy ⟨handler, socket, 0⟩ }
      { k with nextCopy := s.nextCopy + 1, handlers := k.handlers.insert s.nextCopy handler } := by
    obtain ⟨h1, h2, -, h4, h5, h6, h7⟩ := h.update hc ⟨handler, socket, 0⟩
    exact ⟨h1, h2, rfl, h4, h5, h6, h7⟩
  cases kind with
  | toFile =>
    rw [Copies.start, h.nextCopy]
    exact (hnew (.toFile {})).post (.onHandleReady s.nextCopy)
  | fromFile =>
    rw [Copies.start, h.nextCopy]
    exact (hnew (.fromFile {})).post (.fillBuffer s.nextCopy)

/-- A task is one of the accepted ones. -/
theorem takeTask (h : Shows s k) (hs : k.loop.shutDown = false) {task : CopyTask} (htask : task ∈ s.posted) :
    ∃ i record, k.loop.accepted[i]? = some record ∧ record.task = task ∧ i < k.loop.accepted.length ∧
      Shows { s with posted := s.posted.erase task } { k with loop := k.loop.handle i } := by
  have hmem : task ∈ k.loop.accepted.map TaskRecord.task := by
    have hmem := (h.tasks hs).mem_iff.mpr htask
    rwa [closures, h.queue, List.map_nil, List.nil_append] at hmem
  obtain ⟨record, hrecord, rfl⟩ := List.mem_map.mp hmem
  obtain ⟨i, hi, rfl⟩ := List.getElem_of_mem hrecord
  refine ⟨i, _, List.getElem?_eq_getElem hi, rfl, hi, h.queue, h.shutDown, h.nextCopy, h.handlers, fun hs' => ?_,
    h.registered, h.waiting⟩
  have hperm := (closures_handle k.queue hi).symm.trans ((h.tasks hs).trans (List.perm_cons_erase htask))
  exact hperm.cons_inv

theorem runTask (h : Shows s k) (hb : WaitBooks none s) (hs : s.waiter.loop.loop.shutDown = false) {task : CopyTask}
    (htask : task ∈ s.posted) {io : IoResults} (ht : s.runTask task io = .ok t) :
    ∃ i l, i < k.loop.accepted.length ∧ k.runTask i io = .ok l ∧ Shows t l := by
  obtain ⟨i, record, hrecord, rfl, hi, hshows⟩ := h.takeTask (h.shutDown.trans hs) htask
  have hidle {c : CopyId} (hc : record.task.copy = some c) : c ∉ k.registered := by
    intro hmem
    obtain ⟨copy, hcopy, -, hid, -⟩ := hb.takeTask htask hc
    obtain ⟨copy', hcopy', hid'⟩ := h.waiting c hmem
    rw [hcopy] at hcopy'
    cases hcopy'
    exact hid' hid
  cases hkind : record.task with
  | onHandleReady c =>
    rw [hkind] at ht hidle hshows
    obtain ⟨l, hl, hshows'⟩ := hshows.resume hb.attended (hidle rfl) ht
    exact ⟨i, l, hi, by simpa [Copies.runTask, hrecord, hkind] using hl, hshows'⟩
  | fillBuffer c =>
    rw [hkind] at ht hidle hshows
    obtain ⟨l, hl, hshows'⟩ := hshows.resume hb.attended (hidle rfl) ht
    exact ⟨i, l, hi, by simpa [Copies.runTask, hrecord, hkind] using hl, hshows'⟩
  | other =>
    rw [hkind] at ht hshows
    cases ht
    exact ⟨i, _, hi, by simp [Copies.runTask, hrecord, hkind], hshows⟩

/-- The completion of the one wait of a copy. -/
theorem completeWait (h : Shows s k) {waitOf : Owner → Option WaitId} (ha : Attended s.waiter waitOf)
    (hgone : ¬ s.waiter.Awaits (.copy c)) {result : MxStatus} {io : IoResults}
    (hw : s.copyWaitComplete c result io = .ok t) : ∃ l, k.completeWait c result io = .ok l ∧ Shows t l := by
  unfold Owners.copyWaitComplete at hw
  split at hw
  · cases hw
  · next copy hcopy =>
    have htaken : Shows { s with copies := s.copies.insert c { copy with waitId := 0 } }
        { k with registered := k.registered.erase c } := by
      refine ⟨h.queue, h.shutDown, h.nextCopy, fun c' => ?_, h.tasks, fun c' hc' => ?_, fun c' hc' => ?_⟩
      · rw [lookup_insert_eq, h.handlers c']
        split_ifs with heq
        · rw [heq, hcopy]
          rfl
        · rfl
      · refine Finset.mem_erase.mpr ⟨?_, h.registered c' hc'⟩
        rintro rfl
        exact hgone hc'
      · obtain ⟨hne, hmem⟩ := Finset.mem_erase.mp hc'
        rw [lookup_insert_eq, if_neg hne]
        exact h.waiting c' hmem
    exact htaken.resume ha (Finset.notMem_erase c k.registered) hw

/-- A dispatch for a copy completes its wait, and any other is not seen. -/
theorem dispatch (h : Shows s k) (hs : Settled s) (hcalls : s.calls = []) {record : RecordPtr}
    (hr : record ∈ s.waiter.loop.loop.registered) {status : MxStatus}
    (hstatus : s.waiter.loop.loop.shutDown = true → status = .errCanceled) {read : ReadResult} {io : IoResults}
    (ht : s.dispatch record status read io = .ok t) : ∃ bs l, copyMachine.Run k bs (.ok l) ∧ Shows t l := by
  obtain ⟨⟨u, owner⟩, hu, ht⟩ := of_bind_ok ht
  obtain ⟨htells, -, htaken⟩ := Owners.dispatchEnter_tells hu
  have hshows := h.tells htells
  rcases owner with _ | (d | c)
  · cases ht
    exact ⟨[], k, .nil k, hshows⟩
  · obtain ⟨w, hw, ht⟩ := of_bind_ok ht
    exact ⟨[], k, .nil k, (hshows.tells (Owners.waitComplete_tells hw)).tells (Owners.unwind_tells ht)⟩
  · obtain ⟨w, hw, ht⟩ := of_bind_ok ht
    obtain ⟨rec, hrec, hne, hcontext, hwatchers⟩ := htaken _ rfl
    obtain ⟨watcher, hwatcher, hcopy⟩ := Option.map_eq_some_iff.mp hcontext
    have hidle := hs.settled hcalls
    have hattended := hs.books.attended
    have hawaits : s.waiter.Awaits (.copy c) := by
      obtain ⟨rec', hrec', hk, -⟩ := hattended.holds.registry.dispatchEnter_eq (hs.books.turn.idle hidle) hr status
      cases hrec.symm.trans hrec'
      exact ⟨rec.key, rec, watcher, Option.bind_eq_some_iff.mpr ⟨record, hk, hrec⟩, hne, hwatcher, hcopy⟩
    have hgone : ¬ u.waiter.Awaits (.copy c) := by
      rintro ⟨key, rec', watcher', -, -, hwatcher', hcopy'⟩
      rw [hwatchers, lookup_erase_eq] at hwatcher'
      split_ifs at hwatcher' with heq
      have hid := hattended.context _ watcher hwatcher
      rw [hcopy, ← hcopy', hattended.context _ watcher' hwatcher'] at hid
      exact heq (Option.some.inj hid)
    obtain ⟨waitOf, hattended'⟩ : ∃ waitOf, Attended u.waiter waitOf := by
      rcases hs.books.dispatchEnter hidle hr status with ⟨v, hv, -⟩ | ⟨waiter, id, watcher', hv, -, -, -, -, -, hv', -⟩
      · cases hu.symm.trans hv
      · obtain ⟨rfl, -⟩ := Prod.mk.inj (Except.ok.inj (hu.symm.trans hv))
        exact ⟨_, hv'⟩
    obtain ⟨l, hl, hshows'⟩ := hshows.completeWait hattended' hgone hw
    have henabled : copyMachine.Enabled k (.completeWait c status io) :=
      ⟨h.registered c hawaits, fun hdown => hstatus (h.shutDown.symm.trans hdown)⟩
    exact ⟨[.completeWait c status io], l, .single henabled hl, hshows'.tells (Owners.unwind_tells ht)⟩

/-- While the loop runs, a wait in `registered` is the one watcher of its copy. -/
theorem registered_iff (h : Shows s k) (hs : Settled s) (hrun : s.waiter.loop.loop.shutDown = false) (c : CopyId) :
    c ∈ k.registered ↔
      ∃! id, ∃ watcher, s.waiter.watchers.lookup id = some watcher ∧ watcher.context = .copy c := by
  have hattended := hs.books.attended
  constructor
  · intro hc
    obtain ⟨copy, hcopy, hid⟩ := h.waiting c hc
    exact (hattended.unique (waitIds_copy hcopy)).mp hid
  · rintro ⟨id, ⟨watcher, hw, hcontext⟩, -⟩
    obtain ⟨r, hk⟩ := Option.ne_none_iff_exists'.mp (hattended.waits_registered hrun hw)
    obtain ⟨rec, hrec, -⟩ := Option.map_eq_some_iff.mp (hattended.holds.registry.keyed _ r hk)
    obtain rfl : rec.handler = id := hattended.holds.own _ r rec id hk hrec (Attended.held_of_lookup hw)
    refine h.registered c ⟨watcher.key, rec, watcher, Option.bind_eq_some_iff.mpr ⟨r, hk, hrec⟩, ?_, hw, hcontext⟩
    exact Nat.pos_iff_ne_zero.mp (hattended.made _ watcher hw).1

end Shows

/-- While keys are left the copies of the owners run as those of `copyMachine`, shutdown included. -/
theorem copies_simulated : (ownersMachine.restrict fun s a => s.waiter.loop.KeysLeft a.adds).Simulates copyMachine
    fun s k => Settled s ∧ Shows s k := by
  rintro s k a t ⟨hs, h⟩ ⟨he, hkeys⟩ ht
  have hsettled : Settled t := by
    rcases hs.step a he hkeys with ⟨t', ht', h'⟩ | ⟨-, herr⟩
    · cases ht.symm.trans ht'
      exact h'
    · cases ht.symm.trans herr
  have hunseen {told : List ClientEvent} (htells : Owners.Tells told s t) :
      ∃ bs l, copyMachine.Run k bs (.ok l) ∧ Settled t ∧ Shows t l := ⟨[], k, .nil k, hsettled, h.tells htells⟩
  cases a with
  | createDrainer =>
    cases ht
    have htells : Owners.Tells [] s s.createDrainer := ⟨rfl, rfl, rfl, rfl, rfl, fun _ hc => hc⟩
    exact hunseen htells
  | start d source read => exact hunseen (Owners.start_tells ht)
  | destroy d => exact hunseen (Owners.destroy_tells ht)
  | startCopy kind socket =>
    obtain ⟨l, hl, hshows⟩ := h.startCopy (hs.books.copies.fresh _ (Nat.le_refl _)) kind socket
    cases ht
    exact ⟨[.start kind], l, .single trivial hl, hsettled, hshows⟩
  | runTask task io =>
    obtain ⟨-, hrun, htask, -⟩ := he
    obtain ⟨i, l, hi, hl, hshows⟩ := h.runTask hs.books hrun htask ht
    exact ⟨[.runTask i io], l, .single ⟨hi, h.shutDown.trans hrun⟩ hl, hsettled, hshows⟩
  | dispatch record status read io =>
    obtain ⟨hcalls, hr, hstatus⟩ := he
    obtain ⟨bs, l, hbs, hshows⟩ := h.dispatch hs hcalls hr hstatus ht
    exact ⟨bs, l, hbs, hsettled, hshows⟩
  | callReturns => exact hunseen (Owners.callReturns_tells ht)
  | addOther req => exact hunseen (Owners.addOther_tells ht)
  | removeOther key => exact hunseen (Owners.removeOther_tells ht)
  | beginShutdown =>
    obtain ⟨-, hrun⟩ := he
    cases ht
    refine ⟨[.beginShutdown], _, .single ⟨?_, h.shutDown.trans hrun⟩ rfl, hsettled, h.queue, rfl, h.nextCopy,
      h.handlers, fun hs => ?_, h.registered, h.waiting⟩
    · rw [h.queue]
    · cases hs

/-- Every run of the owners whose keys last is a run of their copies, and the waits of these are those that
`copyMachine` completes. -/
theorem owners_run_copies {acts : List OwnerAct} {s : Owners}
    (hrun : (ownersMachine.restrict fun s a => s.waiter.loop.KeysLeft a.adds).Run {} acts (.ok s)) :
    ∃ bs k, copyMachine.Run {} bs (.ok k) ∧ Shows s k ∧ (s.waiter.loop.loop.shutDown = false → ∀ c,
      (c ∈ k.registered ↔
        ∃! id, ∃ watcher, s.waiter.watchers.lookup id = some watcher ∧ watcher.context = .copy c)) := by
  obtain ⟨k₀, hinit, hshows⟩ := Shows.init
  obtain ⟨bs, k, hbs, hs, h⟩ := copies_simulated.run hrun ⟨.init, hshows⟩
  exact ⟨.initDelegate :: bs, k, .step ⟨rfl, rfl⟩ hinit hbs, h, fun hrun c => h.registered_iff hs hrun c⟩

end Mtl.Socket
