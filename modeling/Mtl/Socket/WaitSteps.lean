import Mtl.Socket.WaitBooks

/-! Every step of the owners of waits keeps the books. Nothing but an unexpected status of a read stops
one. -/
namespace Mtl.Socket
open Foundation Tasks Waiter

/-- A status that `ReadData` handles. -/
def ReadResult.Expected (read : ReadResult) : Prop :=
  read.status = .ok ∨ read.status = .errShouldWait ∨ read.status = .errPeerClosed ∨ read.status = .errBadState

/-- `P` holds afterwards, unless a drainer read something unexpected. -/
def OrUnexpected (expected : Prop) (out : Except Fault Owners) (P : Owners → Prop) : Prop :=
  (∃ t, out = .ok t ∧ P t) ∨ (¬ expected ∧ out = .error (.dcheck "Unhandled mx_status_t"))

/-- A part of a step, which may end in user code. -/
def Owners.Within (s t : Owners) : Prop := (t.calls = [] → s.calls = []) ∧ t.dispatching = s.dispatching

/-- Between steps a dispatch is in progress only around user code. -/
structure Settled (s : Owners) : Prop where
  books : WaitBooks none s
  settled : s.calls = [] → s.dispatching = none

/-- A copy does not wait for an invalid handle. -/
theorem CopyHandler.not_waits {h h' : CopyHandler} {io : IoResults} {step : CopyStep} (hio : io.Refused)
    (heq : h.onHandleReady .ok io = .ok (h', step)) : step.waits = false := by
  obtain ⟨hread, hwrite⟩ := hio
  cases h with
  | toFile h =>
    cases hw : h.waiting with
    | true =>
      simp [onHandleReady, CopyToFileHandler.onHandleReady, hread, CopyToFileHandler.afterRead, sendCallback, hw] at heq
    | false =>
      simp only [onHandleReady, CopyToFileHandler.onHandleReady, hread, CopyToFileHandler.afterRead, sendCallback,
        hw] at heq
      cases heq
      rfl
  | fromFile h =>
    cases hw : h.waiting with
    | true => simp [onHandleReady, CopyFromFileHandler.onHandleReady, hwrite, sendCallback, hw] at heq
    | false =>
      simp only [onHandleReady, CopyFromFileHandler.onHandleReady, hwrite, sendCallback, hw] at heq
      cases heq
      rfl

theorem CopyHandler.fill_not_waits {h h' : CopyHandler} {c : CopyId} {io : IoResults} {step : CopyStep}
    (hio : io.Refused) (heq : h.fillBuffer c io = .ok (h', step)) : step.waits = false := by
  cases h with
  | toFile h => cases heq
  | fromFile h =>
    have hsend (value : Bool) (next : CopyStep) (hnext : sendCallback h.waiting value = .ok next) :
        next.waits = false := by
      unfold sendCallback at hnext
      split_ifs at hnext
      cases hnext
      rfl
    simp only [fillBuffer, CopyFromFileHandler.fillBuffer] at heq
    cases hread : io.fileRead with
    | none =>
      cases hs : sendCallback h.waiting false with
      | error e => simp [hread, hs] at heq
      | ok next =>
        simp only [hread, hs] at heq
        cases heq
        exact hsend false next hs
    | some bytes =>
      cases bytes with
      | nil =>
        cases hs : sendCallback h.waiting true with
        | error e => simp [hread, hs] at heq
        | ok next =>
          simp only [hread, hs] at heq
          cases heq
          exact hsend true next hs
      | cons b bytes =>
        rw [hread] at heq
        let filled := { h with buffer := b :: bytes, bufferOffset := 0, bufferEnd := (b :: bytes).length }
        exact not_waits (h := .fromFile filled) hio heq

namespace WaitBooks
variable {s : Owners} {inHand : Option DrainerPtr} {d : DrainerPtr} {drainer : SocketDrainer} {c : CopyId} {copy : Copy}

theorem init : WaitBooks none {} := by
  refine ⟨?_, .init, ⟨fun _ => rfl, by simp⟩, .init, .init, .init⟩
  have hnone : waitIds ∅ ∅ = fun _ => none := by
    funext owner
    cases owner <;> rfl
  rw [hnone]
  exact .init

/-! ## Drainers -/

/-- A drainer that waits is not in its client. -/
theorem quiet (h : WaitBooks inHand s) (hd : s.drainers.lookup d = some drainer) (hw : drainer.waitId ≠ 0) :
    drainer.destructionSentinel = false := by
  cases hc : drainer.destructionSentinel with
  | false => rfl
  | true => exact absurd (h.drainers.reading d drainer hd hc) hw

theorem waitForData (h : WaitBooks (some d) s) (hn : s.waiter.loop.KeysLeft 1) (hd : s.drainers.lookup d = some drainer)
    (hw : drainer.waitId = 0) (hc : drainer.destructionSentinel = false) (hs : drainer.source ≠ 0) :
    ∃ t, s.waitForData d = .ok t ∧ WaitBooks none t ∧ s.Within t := by
  have ho : waitIds s.drainers s.copies (.drainer d) = some 0 := by rw [waitIds_drainer hd, hw]
  obtain ⟨loop, watcher, hwait, hattended, hsame⟩ :=
    h.attended.asyncWait hn hs SocketDrainer.waitSignals mxTimeInfinite 0 ho
  have hfirst := Nat.pos_iff_ne_zero.mp h.attended.first
  refine ⟨{ s with
      waiter := ⟨loop, s.waiter.watchers.insert s.waiter.nextWatcher watcher, s.waiter.nextWatcher + 1⟩
      waits := .begun s.waiter.nextWatcher :: s.waits
      drainers := s.drainers.insert d { drainer with waitId := s.waiter.nextWatcher } }, ?_,
    ⟨?_, h.ledger.begin h.attended.first h.attended.fresh, h.turn.same hsame, h.drainers.update hd hc hc fun _ => hs,
      h.streams.move hd ?_ ?_, h.copies⟩, id, rfl⟩
  · simp [Owners.waitForData, hd, hw, Owners.asyncWait, hwait, Owners.updateDrainer]
  · rw [waitIds_insert_drainer]
    exact hattended
  · intro d' hne
    simp [Ne.symm hne]
  · simp [hfirst]

theorem readData (h : WaitBooks (some d) s) (hn : s.waiter.loop.KeysLeft 1) (hd : s.drainers.lookup d = some drainer)
    (hw : drainer.waitId = 0) (hc : drainer.destructionSentinel = false) {read : ReadResult}
    (hs : drainer.source = 0 → read.status = .errBadHandle) :
    OrUnexpected read.Expected (s.readData d read) fun t => WaitBooks none t ∧ s.Within t := by
  cases hread : read.status with
  | ok =>
    have hsource : drainer.source ≠ 0 := by
      intro hzero
      rw [hs hzero] at hread
      cases hread
    refine .inl ⟨{ s with
        drainers := s.drainers.insert d { drainer with destructionSentinel := true }
        calls := .onDataAvailable d false :: s.calls
        clients := .onDataAvailable d (s.startOf d) read.bytes :: .read d (s.startOf d) read.bytes :: s.clients }, ?_,
      ⟨?_, h.ledger, h.turn, h.drainers.enter hd hc hw hsource, h.streams.chunk hd rfl read.bytes, h.copies⟩, by simp,
      rfl⟩
    · simp [Owners.readData, hd, SocketDrainer.readData, hread, Owners.updateDrainer]
    · rw [waitIds_same hd { drainer with destructionSentinel := true } rfl]
      exact h.attended
  | errShouldWait =>
    have hsource : drainer.source ≠ 0 := by
      intro hzero
      rw [hs hzero] at hread
      cases hread
    obtain ⟨t, ht, hbooks⟩ := h.waitForData hn hd hw hc hsource
    exact .inl ⟨t, by simp [Owners.readData, hd, SocketDrainer.readData, hread, ht], hbooks⟩
  | errPeerClosed | errBadState =>
    refine .inl ⟨{ s with
        calls := .onDataComplete :: s.calls
        clients := .onDataComplete d (s.startOf d) :: .readEnd d (s.startOf d) :: s.clients }, ?_,
      ⟨h.attended, h.ledger, h.turn, (DrainerBooks.other_iff (by simp)).mpr h.drainers, h.streams.complete hd hw hc,
        h.copies⟩, by simp, rfl⟩
    simp [Owners.readData, hd, SocketDrainer.readData, hread]
  | errBadHandle | errTimedOut | errCanceled | other =>
    exact .inr ⟨by simp [ReadResult.Expected, hread], by simp [Owners.readData, hd, SocketDrainer.readData, hread]⟩

theorem start (h : WaitBooks none s) (hn : s.waiter.loop.KeysLeft 1) (hd : s.drainers.lookup d = some drainer)
    (hw : drainer.waitId = 0) (hc : drainer.destructionSentinel = false) {source : MxHandle} {read : ReadResult}
    (hs : source = 0 → read.status = .errBadHandle) :
    OrUnexpected read.Expected (s.start d source read) fun t => WaitBooks none t ∧ s.Within t := by
  let u : Owners := { s with
    drainers := s.drainers.insert d { drainer with source := source }
    startOf := Function.update s.startOf d s.nextStart
    nextStart := s.nextStart + 1
    clients := .started d s.nextStart :: s.clients }
  have hstarted : WaitBooks (some d) u := by
    refine ⟨?_, h.ledger, h.turn, h.drainers.update hd hc hc fun hne => absurd hw hne,
      h.streams.start hd h.drainers.fresh hw hc, h.copies⟩
    change Attended s.waiter (waitIds (s.drainers.insert d { drainer with source := source }) s.copies)
    rw [waitIds_same hd { drainer with source := source } rfl]
    exact h.attended
  have heq : s.start d source read = u.readData d read := by simp [Owners.start, Owners.updateDrainer, hd, u]
  rw [heq]
  exact hstarted.readData hn (Finmap.lookup_insert _) hw hc hs

theorem create (h : WaitBooks none s) : WaitBooks none s.createDrainer := by
  have hnew := h.drainers.fresh s.nextDrainer (Nat.le_refl _)
  refine ⟨?_, h.ledger, h.turn, h.drainers.create, h.streams.create (by simp), h.copies⟩
  rw [Owners.createDrainer, waitIds_insert_drainer]
  exact h.attended.owner (.inl (by rw [waitIds, hnew, Option.map_none])) (.inr rfl)

theorem destroy (h : WaitBooks none s) (hd : s.drainers.lookup d = some drainer) :
    ∃ t, s.destroy d = .ok t ∧ WaitBooks none t ∧ (t.calls = [] ↔ s.calls = []) ∧ t.dispatching = s.dispatching := by
  have hborn := h.drainers.born hd
  by_cases hw : drainer.waitId = 0
  · refine ⟨{ s with
        drainers := s.drainers.erase d
        calls := if drainer.destructionSentinel then s.calls.map (UserCall.destroyed d) else s.calls
        clients := .destroyed d :: s.clients }, by simp [Owners.destroy, hd, hw],
      ⟨?_, h.ledger, h.turn, h.drainers.destroy hd, h.streams.destroy hd hborn, h.copies⟩, ?_, rfl⟩
    · rw [waitIds_erase_drainer]
      exact h.attended.owner (.inr (by rw [waitIds_drainer hd, hw])) (.inl rfl)
    · simp only
      split_ifs <;> simp
  · obtain ⟨watcher, hlookup, hcontext⟩ := Option.map_eq_some_iff.mp (h.attended.waits _ _ (waitIds_drainer hd) hw)
    obtain ⟨loop, hdelete, hattended, hsame, -⟩ := h.attended.deleteWatcher hlookup (.inl rfl)
    have hquiet := h.quiet hd hw
    have hmarked := h.drainers.destroy hd
    rw [hquiet] at hmarked
    refine ⟨{ s with
        waiter := { s.waiter with loop := loop, watchers := s.waiter.watchers.erase drainer.waitId }
        waits := .cancelled drainer.waitId :: s.waits
        drainers := s.drainers.erase d
        clients := .destroyed d :: s.clients }, ?_,
      ⟨?_, h.ledger.finish hlookup (.inr rfl), h.turn.same hsame, hmarked, h.streams.destroy hd hborn, h.copies⟩,
      Iff.rfl, rfl⟩
    · simp [Owners.destroy, hd, hw, Owners.cancelWait, DefaultWaiter.cancelWait, hdelete, hquiet]
    · rw [waitIds_erase_drainer, ← hcontext]
      exact hattended

/-! ## Copies -/

/-- A copy goes on from a state whose books do without it. -/
theorem resume (h : WaitBooks none { s with copies := s.copies.erase c }) (hn : s.waiter.loop.KeysLeft 1)
    (hcopy : s.copies.lookup c = some copy) (hborn : c < s.nextCopy) (hnone : tasksOf c s.posted = 0)
    (hid : copy.waitId = 0) {f : CopyHandler → Except Fault (CopyHandler × CopyStep)} {handler : CopyHandler}
    {step : CopyStep} (hsteps : copy.handler.kind.Steps (f copy.handler) handler step)
    (hs : step.waits = true → copy.socket ≠ 0) :
    ∃ t, s.resume c f = .ok t ∧ WaitBooks none t ∧ s.Within t := by
  obtain ⟨hattended, hledger, hturn, hdrainers, hstreams, hcopies⟩ := h
  change Attended s.waiter (waitIds s.drainers (s.copies.erase c)) at hattended
  have hwaiting := hsteps.waiting
  have hfill := CopyBooks.filled_none hnone
  have hwithout : waitIds s.drainers (s.copies.erase c) (.copy c) = none := by
    rw [waitIds, Finmap.lookup_erase, Option.map_none]
  have howner : Attended s.waiter (Function.update (waitIds s.drainers (s.copies.erase c)) (.copy c) (some 0)) :=
    hattended.owner (.inl hwithout) (.inr rfl)
  have hidle : Attended s.waiter (waitIds s.drainers (s.copies.insert c { copy with handler := handler })) := by
    rw [← insert_erase, waitIds_insert_copy, hid]
    exact howner
  have hpost (task : CopyTask) (htask : task.copy = some c) (hw : step.waits = false)
      (hkind : task = .fillBuffer c → handler.kind = .fromFile) :
      WaitBooks none { s with
        copies := s.copies.insert c { copy with handler := handler }
        posted := task :: s.posted } := by
    refine ⟨hidle, hledger, hturn, hdrainers, hstreams, ?_⟩
    rw [← insert_erase]
    exact hcopies.post hborn hnone htask (hwaiting.trans hw) hid hkind hfill
  have hresume :
      s.resume c f = { s with copies := s.copies.insert c { copy with handler := handler } }.proceed c step := by
    simp [Owners.resume, hcopy, hsteps.eq]
  rw [hresume]
  cases step with
  | postReady => exact ⟨_, rfl, hpost (.onHandleReady c) rfl rfl (by simp), id, rfl⟩
  | postFill =>
    exact ⟨_, rfl, hpost (.fillBuffer c) rfl rfl (fun _ => hsteps.same.trans (hsteps.fills rfl)), id, rfl⟩
  | asyncWait signals =>
    have hfirst := Nat.pos_iff_ne_zero.mp hattended.first
    obtain ⟨loop, watcher, hwait, hwaits, hsame⟩ :=
      howner.asyncWait hn (hs rfl) signals mxTimeInfinite 0 (Function.update_self _ _ _)
    rw [Function.update_idem] at hwaits
    refine ⟨{ s with
        waiter := ⟨loop, s.waiter.watchers.insert s.waiter.nextWatcher watcher, s.waiter.nextWatcher + 1⟩
        waits := .begun s.waiter.nextWatcher :: s.waits
        copies := s.copies.insert c { copy with handler := handler, waitId := s.waiter.nextWatcher } }, ?_,
      ⟨?_, hledger.begin hattended.first hattended.fresh, hturn.same hsame, hdrainers, hstreams, ?_⟩, id, rfl⟩
    · simp [Owners.proceed, Owners.asyncWait, hwait, Finmap.insert_insert]
    · rw [← insert_erase s.copies, waitIds_insert_copy]
      exact hwaits
    · rw [← insert_erase s.copies]
      exact hcopies.wait hborn hnone (iff_of_true hwaiting hfirst) (fun _ => hs rfl) hfill
  | sendCallback value =>
    refine ⟨{ s with copies := s.copies.erase c, calls := .callback :: s.calls },
      by simp [Owners.proceed, erase_insert_self],
      ⟨hattended, hledger, hturn, (DrainerBooks.other_iff (by simp)).mpr hdrainers, hstreams, hcopies⟩, by simp, rfl⟩

theorem startCopy (h : WaitBooks none s) (kind : CopyKind) (socket : MxHandle) :
    WaitBooks none (s.startCopy kind socket) := by
  have hnew := h.copies.fresh s.nextCopy (Nat.le_refl _)
  have hnone : tasksOf s.nextCopy s.posted = 0 := by
    have hone := h.copies.one s.nextCopy
    rw [hnew, if_pos rfl] at hone
    omega
  have hfresh : CopyBooks s.copies (s.nextCopy + 1) s.posted :=
    ⟨fun c hc => h.copies.fresh c (Nat.le_of_succ_le hc), h.copies.waiting, h.copies.socket, h.copies.one, h.copies.fills⟩
  have hattended (handler : CopyHandler) :
      Attended s.waiter (waitIds s.drainers (s.copies.insert s.nextCopy ⟨handler, socket, 0⟩)) := by
    rw [waitIds_insert_copy]
    exact h.attended.owner (.inl (by rw [waitIds, hnew, Option.map_none])) (.inr rfl)
  cases kind with
  | toFile =>
    exact ⟨hattended _, h.ledger, h.turn, h.drainers, h.streams,
      hfresh.post (Nat.lt_succ_self _) hnone rfl rfl rfl (by simp) (CopyBooks.filled_none hnone)⟩
  | fromFile =>
    exact ⟨hattended _, h.ledger, h.turn, h.drainers, h.streams,
      hfresh.post (Nat.lt_succ_self _) hnone rfl rfl rfl (fun _ => rfl) (CopyBooks.filled_none hnone)⟩

/-- A task is taken with the copy that it is for. -/
theorem takeTask (h : WaitBooks none s) {task : CopyTask} (htask : task ∈ s.posted) (hc : task.copy = some c) :
    ∃ copy, s.copies.lookup c = some copy ∧ c < s.nextCopy ∧ copy.waitId = 0 ∧ copy.handler.waiting = false ∧
      (task = .fillBuffer c → copy.handler.kind = .fromFile) ∧ tasksOf c (s.posted.erase task) = 0 ∧
      WaitBooks none { s with posted := s.posted.erase task, copies := s.copies.erase c } := by
  have hone := h.copies.one c
  have hcount : 0 < tasksOf c s.posted := List.countP_pos_iff.mpr ⟨task, htask, by simp [hc]⟩
  have herase (c' : CopyId) :
      tasksOf c' (s.posted.erase task) = tasksOf c' s.posted - if task.copy = some c' then 1 else 0 := by
    rw [tasksOf, List.countP_erase]
    simp [htask, tasksOf]
  have hleft := herase c
  rw [if_pos hc] at hleft
  obtain ⟨copy, hcopy⟩ : ∃ copy, s.copies.lookup c = some copy := by
    refine Option.ne_none_iff_exists'.mp fun hnone => ?_
    rw [hnone, if_pos rfl] at hone
    omega
  have hborn := h.copies.born hcopy
  rw [hcopy, Option.map_some, if_neg (Option.some_ne_none copy)] at hone
  have hwaiting : copy.handler.waiting = false := by
    cases hw : copy.handler.waiting with
    | false => rfl
    | true =>
      rw [hw, if_pos rfl] at hone
      omega
  have hid : copy.waitId = 0 := by
    by_contra hne
    have := (h.copies.waiting c copy hcopy).mpr hne
    rw [hwaiting] at this
    cases this
  have hnone : tasksOf c (s.posted.erase task) = 0 := by
    have : tasksOf c s.posted ≤ 1 := Nat.le_trans (Nat.le_add_right _ _) hone
    omega
  have htaken : CopyBooks s.copies s.nextCopy (s.posted.erase task) := by
    refine ⟨h.copies.fresh, h.copies.waiting, h.copies.socket, fun c' => ?_,
      fun c' copy' hmem => h.copies.fills c' copy' (List.mem_of_mem_erase hmem)⟩
    have := h.copies.one c'
    rw [herase c']
    omega
  refine ⟨copy, hcopy, hborn, hid, hwaiting, ?_, hnone, ?_, h.ledger, h.turn, h.drainers, h.streams, htaken.finish hnone⟩
  · rintro rfl
    exact h.copies.fills c copy htask hcopy
  · rw [waitIds_erase_copy]
    exact h.attended.owner (.inr (by rw [waitIds_copy hcopy, hid])) (.inl rfl)

theorem runTask (h : WaitBooks none s) (hn : s.waiter.loop.KeysLeft 1) {task : CopyTask} (htask : task ∈ s.posted)
    {io : IoResults} (hio : ∀ c copy, task.copy = some c → s.copies.lookup c = some copy → copy.socket = 0 → io.Refused) :
    ∃ t, s.runTask task io = .ok t ∧ WaitBooks none t ∧ s.Within t := by
  cases task with
  | onHandleReady c =>
    obtain ⟨copy, hcopy, hborn, hid, hw, -, hnone, hbooks⟩ := h.takeTask (c := c) htask rfl
    obtain ⟨handler, step, hsteps, -⟩ := copy.handler.onHandleReady_steps hw .ok io
    refine hbooks.resume (s := { s with posted := s.posted.erase (.onHandleReady c) }) hn hcopy hborn hnone hid hsteps ?_
    intro hwaits hzero
    rw [CopyHandler.not_waits (hio c copy rfl hcopy hzero) hsteps.eq] at hwaits
    cases hwaits
  | fillBuffer c =>
    obtain ⟨copy, hcopy, hborn, hid, hw, hkind, hnone, hbooks⟩ := h.takeTask (c := c) htask rfl
    obtain ⟨handler, step, hsteps⟩ := copy.handler.fillBuffer_steps hw (hkind rfl) c io
    refine hbooks.resume (s := { s with posted := s.posted.erase (.fillBuffer c) }) hn hcopy hborn hnone hid hsteps ?_
    intro hwaits hzero
    rw [CopyHandler.fill_not_waits (hio c copy rfl hcopy hzero) hsteps.eq] at hwaits
    cases hwaits
  | other =>
    refine ⟨_, rfl, ⟨h.attended, h.ledger, h.turn, h.drainers, h.streams, h.copies.fresh, h.copies.waiting,
      h.copies.socket, fun c => ?_, fun c copy hmem => h.copies.fills c copy (List.mem_of_mem_erase hmem)⟩, id, rfl⟩
    have hsub : tasksOf c (s.posted.erase .other) ≤ tasksOf c s.posted := List.erase_sublist.countP_le
    exact Nat.le_trans (Nat.add_le_add_right hsub _) (h.copies.one c)

/-! ## The loop -/

/-- A dispatch up to its callback: user code, or the `WaitComplete` of a live owner, which still has
the id of the watcher that is gone. -/
theorem dispatchEnter (h : WaitBooks none s) (hd : s.dispatching = none) {record : RecordPtr}
    (hr : record ∈ s.waiter.loop.loop.registered) (status : MxStatus) :
    (∃ t, s.dispatchEnter record status = .ok (t, none) ∧ WaitBooks none t ∧ t.calls ≠ []) ∨
      ∃ waiter id watcher, s.dispatchEnter record status = .ok ({ s with
          waiter := waiter
          dispatching := some (record, status)
          waits := .called id :: s.waits }, some watcher.context) ∧
        id ≠ 0 ∧ s.waiter.watchers.lookup id = some watcher ∧ waiter.watchers.lookup id = none ∧
        waiter.loop.handlers.lookup watcher.key = none ∧
        waitIds s.drainers s.copies watcher.context = some id ∧
        Attended waiter (Function.update (waitIds s.drainers s.copies) watcher.context (some 0)) ∧
        Ledger waiter.watchers waiter.nextWatcher (.called id :: s.waits) ∧
        CallbackTurn (some (record, status)) waiter.loop ∧
        waiter.loop.additions = s.waiter.loop.additions ∧ waiter.loop.loop.shutDown = s.waiter.loop.loop.shutDown := by
  obtain ⟨loop, rec, henter, hcase⟩ := h.attended.dispatch (h.turn.idle hd) hr status
  rcases hcase with ⟨hother, hattended, hturn, -⟩ |
    ⟨loop', watcher, hne, hw, hcall, hgone, hattended, hturn, hcount, hshut⟩
  · refine .inl ⟨{ s with
        waiter.loop := loop
        dispatching := some (record, status)
        calls := .other :: s.calls }, by simp [Owners.dispatchEnter, henter, hother],
      ⟨hattended, h.ledger, hturn, (DrainerBooks.other_iff (by simp)).mpr h.drainers, h.streams, h.copies⟩, by simp⟩
  · exact .inr ⟨_, rec.handler, watcher, by simp [Owners.dispatchEnter, henter, hne, hcall], hne, hw,
      Finmap.lookup_erase _ _, hgone, h.attended.context _ watcher hw, hattended, h.ledger.finish hw (.inl rfl), hturn,
      hcount, hshut⟩

/-- With no user code left the dispatch ends. -/
theorem unwind (h : WaitBooks none s) : ∃ t, s.unwind = .ok t ∧ Settled t := by
  cases hcalls : s.calls with
  | cons call calls => exact ⟨s, by simp [Owners.unwind, hcalls], h, by simp [hcalls]⟩
  | nil =>
    cases hd : s.dispatching with
    | none => exact ⟨s, by simp [Owners.unwind, hcalls, hd], h, fun _ => hd⟩
    | some turn =>
      obtain ⟨record, status⟩ := turn
      obtain ⟨loop, hexit, hattended, hturn, -⟩ := h.attended.dispatchExit (hd ▸ h.turn)
      exact ⟨{ s with waiter.loop := loop, dispatching := none }, by simp [Owners.unwind, hcalls, hd, hexit],
        ⟨hattended, h.ledger, hturn, h.drainers, h.streams, h.copies⟩, fun _ => rfl⟩

/-- `WaitComplete` of a drainer takes it in hand. -/
theorem drainerCompleted (h : WaitBooks none s) (hd : s.drainers.lookup d = some drainer) (hid : drainer.waitId ≠ 0)
    {waiter : DefaultWaiter Owner} {dispatching : Option (RecordPtr × MxStatus)} {waits : List WaitEvent}
    (hattended : Attended waiter (Function.update (waitIds s.drainers s.copies) (.drainer d) (some 0)))
    (hledger : Ledger waiter.watchers waiter.nextWatcher waits) (hturn : CallbackTurn dispatching waiter.loop) :
    WaitBooks (some d) { s with
      waiter := waiter
      dispatching := dispatching
      waits := waits
      drainers := s.drainers.insert d { drainer with waitId := 0 } } := by
  have hquiet := h.quiet hd hid
  refine ⟨?_, hledger, hturn, h.drainers.update hd hquiet hquiet (by simp), h.streams.move hd ?_ ?_, h.copies⟩
  · change Attended waiter (waitIds (s.drainers.insert d { drainer with waitId := 0 }) s.copies)
    rw [waitIds_insert_drainer]
    exact hattended
  · intro d' hne
    simp [Ne.symm hne]
  · simp [hid]

/-- `WaitComplete` of a copy takes it out of the books, where it has no task. -/
theorem copyCompleted (h : WaitBooks none s) (hc : s.copies.lookup c = some copy) (hid : copy.waitId ≠ 0)
    {waiter : DefaultWaiter Owner} {dispatching : Option (RecordPtr × MxStatus)} {waits : List WaitEvent}
    (hattended : Attended waiter (Function.update (waitIds s.drainers s.copies) (.copy c) (some 0)))
    (hledger : Ledger waiter.watchers waiter.nextWatcher waits) (hturn : CallbackTurn dispatching waiter.loop) :
    tasksOf c s.posted = 0 ∧ WaitBooks none { s with
      waiter := waiter
      dispatching := dispatching
      waits := waits
      copies := s.copies.erase c } := by
  have hwaiting := (h.copies.waiting c copy hc).mpr hid
  have hnone : tasksOf c s.posted = 0 := by
    have hone := h.copies.one c
    rw [hc, Option.map_some, hwaiting, if_pos rfl, if_neg (Option.some_ne_none copy)] at hone
    omega
  refine ⟨hnone, ?_, hledger, hturn, h.drainers, h.streams, h.copies.finish hnone⟩
  have hgone := hattended.owner (.inr (Function.update_self _ _ _)) (.inl rfl)
  rw [Function.update_idem] at hgone
  change Attended waiter (waitIds s.drainers (s.copies.erase c))
  rw [waitIds_erase_copy]
  exact hgone

theorem dispatch (h : WaitBooks none s) (hn : s.waiter.loop.KeysLeft 1) (hd : s.dispatching = none) {record : RecordPtr}
    (hr : record ∈ s.waiter.loop.loop.registered) (status : MxStatus) (read : ReadResult) (io : IoResults) :
    OrUnexpected read.Expected (s.dispatch record status read io) Settled := by
  rcases h.dispatchEnter hd hr status with ⟨t, ht, hbooks, hcalls⟩ |
    ⟨waiter, id, watcher, henter, hid, hw, -, -, hwaits, hattended, hledger, hturn, hcount, -⟩
  · exact .inl ⟨t, by simp [Owners.dispatch, ht], hbooks, fun hnil => absurd hnil hcalls⟩
  · have hn' : waiter.loop.KeysLeft 1 := by
      rw [MessageLoop.KeysLeft, hcount]
      exact hn
    cases howner : watcher.context with
    | drainer d =>
      rw [howner] at hwaits hattended
      obtain ⟨drainer, hdrainer, rfl⟩ := Option.map_eq_some_iff.mp hwaits
      have hsource : drainer.source = 0 → read.status = .errBadHandle :=
        fun hzero => absurd hzero (h.drainers.sourced d drainer hdrainer (.inr hid))
      have hquiet := h.quiet hdrainer hid
      have hread := (h.drainerCompleted hdrainer hid hattended hledger hturn).readData hn' (Finmap.lookup_insert _) rfl
        hquiet hsource
      have heq : s.dispatch record status read io = Owners.readData { s with
          waiter := waiter
          dispatching := some (record, status)
          waits := .called drainer.waitId :: s.waits
          drainers := s.drainers.insert d { drainer with waitId := 0 } } d read >>= Owners.unwind := by
        rw [Owners.dispatch, henter, ok_bind, howner]
        simp [Owners.waitComplete, Owners.updateDrainer, hdrainer]
      rw [heq]
      rcases hread with ⟨t, ht, hbooks, -⟩ | ⟨hread, herr⟩
      · obtain ⟨u, hu, hsettled⟩ := hbooks.unwind
        exact .inl ⟨u, by rw [ht, ok_bind, hu], hsettled⟩
      · exact .inr ⟨hread, by rw [herr, error_bind]⟩
    | copy c =>
      rw [howner] at hwaits hattended
      obtain ⟨copy, hcopy, rfl⟩ := Option.map_eq_some_iff.mp hwaits
      obtain ⟨hnone, hbooks⟩ := h.copyCompleted hcopy hid hattended hledger hturn
      let u : Owners := { s with
        waiter := waiter
        dispatching := some (record, status)
        waits := .called copy.waitId :: s.waits
        copies := s.copies.insert c { copy with waitId := 0 } }
      have hcompleted : WaitBooks none { u with copies := u.copies.erase c } := by
        change WaitBooks none { u with copies := (s.copies.insert c { copy with waitId := 0 }).erase c }
        rw [erase_insert_self]
        exact hbooks
      obtain ⟨handler, step, hsteps, -⟩ := copy.handler.waitComplete_steps status io
      obtain ⟨t, ht, hkept, -⟩ := hcompleted.resume hn' (Finmap.lookup_insert _) (h.copies.born hcopy) hnone rfl hsteps
        fun _ => h.copies.socket c copy hcopy hid
      obtain ⟨v, hv, hsettled⟩ := hkept.unwind
      have heq :
          s.dispatch record status read io = u.resume c (CopyHandler.waitComplete status io) >>= Owners.unwind := by
        rw [Owners.dispatch, henter, ok_bind, howner]
        simp [Owners.copyWaitComplete, hcopy, u]
      exact .inl ⟨v, by rw [heq, ht, ok_bind, hv], hsettled⟩

theorem callReturns (h : WaitBooks none s) (hn : s.waiter.loop.KeysLeft 1) :
    ∃ t, s.callReturns = .ok t ∧ (s.calls ≠ [] → Settled t) := by
  cases hcalls : s.calls with
  | nil => exact ⟨s, by simp [Owners.callReturns, hcalls], fun hne => absurd rfl hne⟩
  | cons call calls =>
    have hdrainers := h.drainers
    rw [hcalls] at hdrainers
    have hother (hcall : ∀ d, call ≠ .onDataAvailable d false) : WaitBooks none { s with calls := calls } :=
      ⟨h.attended, h.ledger, h.turn, (DrainerBooks.other_iff hcall).mp hdrainers, h.streams, h.copies⟩
    cases call with
    | onDataComplete | callback | other =>
      obtain ⟨t, ht, hsettled⟩ := (hother (by simp)).unwind
      exact ⟨t, by simp [Owners.callReturns, hcalls, ht], fun _ => hsettled⟩
    | onDataAvailable d isDestroyed =>
      cases isDestroyed with
      | true =>
        obtain ⟨t, ht, hsettled⟩ := (hother (by simp)).unwind
        exact ⟨t, by simp [Owners.callReturns, hcalls, ht], fun _ => hsettled⟩
      | false =>
        obtain ⟨drainer, hd, hw, hc, hs, hleft⟩ := hdrainers.leave
        let u : Owners := { s with
          calls := calls
          drainers := s.drainers.insert d { drainer with destructionSentinel := false } }
        have hbooks : WaitBooks (some d) u := by
          refine ⟨?_, h.ledger, h.turn, hleft, h.streams.move hd ?_ ?_, h.copies⟩
          · change Attended s.waiter
              (waitIds (s.drainers.insert d { drainer with destructionSentinel := false }) s.copies)
            rw [waitIds_same hd { drainer with destructionSentinel := false } rfl]
            exact h.attended
          · intro d' hne
            simp [Ne.symm hne]
          · simp [hc]
        obtain ⟨t, ht, hwait, -⟩ := hbooks.waitForData hn (Finmap.lookup_insert _) hw rfl hs
        obtain ⟨v, hv, hsettled⟩ := hwait.unwind
        exact ⟨v, by simp [Owners.callReturns, hcalls, Owners.updateDrainer, hd, ht, u, hv], fun _ => hsettled⟩

end WaitBooks

namespace Settled
variable {s : Owners}

theorem init : Settled {} := ⟨.init, fun _ => rfl⟩

theorem addOther (h : Settled s) (hn : s.waiter.loop.KeysLeft 1) (req : AddRequest) :
    ∃ loop, s.addOther req = .ok { s with waiter.loop := loop } ∧ Settled { s with waiter.loop := loop } ∧
      loop.additions = s.waiter.loop.additions + 1 ∧ loop.loop.shutDown = s.waiter.loop.loop.shutDown := by
  obtain ⟨loop, hadd, hattended, hsame, hcount⟩ := h.books.attended.addOther hn { req with handler := 0 } rfl
  refine ⟨loop, by simp [Owners.addOther, hadd], ⟨?_, h.settled⟩, hcount, hsame.shutDown⟩
  exact ⟨hattended, h.books.ledger, h.books.turn.same hsame, h.books.drainers, h.books.streams, h.books.copies⟩

theorem removeOther (h : Settled s) {key : HandlerKey}
    (hkey : ∀ id watcher, s.waiter.watchers.lookup id = some watcher → watcher.key ≠ key) :
    ∃ t, s.removeOther key = .ok t ∧ Settled t := by
  obtain ⟨loop, hremove, hattended, hsame⟩ := h.books.attended.removeOther hkey
  refine ⟨{ s with waiter.loop := loop }, by simp [Owners.removeOther, hremove], ⟨?_, h.settled⟩⟩
  exact ⟨hattended, h.books.ledger, h.books.turn.same hsame, h.books.drainers, h.books.streams, h.books.copies⟩

theorem within {t : Owners} (h : Settled s) (hbooks : WaitBooks none t) (hin : s.Within t) : Settled t :=
  ⟨hbooks, fun hnil => hin.2.trans (h.settled (hin.1 hnil))⟩

end Settled

/-- The read that a drainer may make in a step. -/
def OwnerAct.read : OwnerAct → Option ReadResult
  | .start _ _ read | .dispatch _ _ read _ => some read
  | _ => none

def OwnerAct.ReadsExpected (a : OwnerAct) : Prop := ∀ read, a.read = some read → read.Expected

theorem Settled.step {s : Owners} (h : Settled s) (a : OwnerAct) (he : ownersMachine.Enabled s a)
    (hn : s.waiter.loop.KeysLeft a.adds) : OrUnexpected a.ReadsExpected (ownersMachine.step s a) Settled := by
  have hreads {read : ReadResult} (hread : ¬ read.Expected) (ha : a.read = some read) : ¬ a.ReadsExpected :=
    fun hall => hread (hall read ha)
  cases a with
  | createDrainer => exact .inl ⟨_, rfl, h.books.create, h.settled⟩
  | start d source read =>
    obtain ⟨hs, drainer, hd, hw, hc⟩ := he
    rcases h.books.start hn hd hw hc hs with ⟨t, ht, hbooks, hin⟩ | ⟨hread, herr⟩
    · exact .inl ⟨t, ht, h.within hbooks hin⟩
    · exact .inr ⟨hreads hread rfl, herr⟩
  | destroy d =>
    obtain ⟨drainer, hd⟩ := he
    obtain ⟨t, ht, hbooks, hcalls, hdisp⟩ := h.books.destroy hd
    exact .inl ⟨t, ht, h.within hbooks ⟨hcalls.mp, hdisp⟩⟩
  | startCopy kind socket =>
    refine .inl ⟨_, rfl, h.within (h.books.startCopy kind socket) ?_⟩
    cases kind <;> exact ⟨id, rfl⟩
  | runTask task io =>
    obtain ⟨-, -, htask, hio⟩ := he
    obtain ⟨t, ht, hbooks, hin⟩ := h.books.runTask hn htask hio
    exact .inl ⟨t, ht, h.within hbooks hin⟩
  | dispatch record status read io =>
    obtain ⟨hcalls, hr, -⟩ := he
    rcases h.books.dispatch hn (h.settled hcalls) hr status read io with hok | ⟨hread, herr⟩
    · exact .inl hok
    · exact .inr ⟨hreads hread rfl, herr⟩
  | callReturns =>
    obtain ⟨t, ht, hsettled⟩ := h.books.callReturns hn
    exact .inl ⟨t, ht, hsettled he⟩
  | addOther req =>
    obtain ⟨loop, hadd, hsettled, -⟩ := h.addOther hn req
    exact .inl ⟨_, hadd, hsettled⟩
  | removeOther key => exact .inl (h.removeOther he)
  | beginShutdown =>
    refine .inl ⟨_, rfl, ⟨h.books.attended.beginShutdown, h.books.ledger, ⟨h.books.turn.idle, h.books.turn.running⟩,
      h.books.drainers, h.books.streams, h.books.copies⟩, h.settled⟩

/-- Every state of every run whose keys last. -/
theorem Settled.of_run {C : Owners → OwnerAct → Prop} (hkeys : ∀ s a, C s a → s.waiter.loop.KeysLeft a.adds)
    {acts : List OwnerAct} {result : Except Fault Owners} (hrun : (ownersMachine.restrict C).Run {} acts result) :
    (∃ s, result = .ok s ∧ Settled s) ∨
      ((∃ s a, C s a ∧ ¬ a.ReadsExpected) ∧ result = .error (.dcheck "Unhandled mx_status_t")) := by
  have hstep (s : Owners) (a : OwnerAct) (hs : Settled s) (he : (ownersMachine.restrict C).Enabled s a) :
      (∃ t, ownersMachine.step s a = .ok t ∧ Settled t) ∨ ∃ e, ownersMachine.step s a = .error e ∧
        ((∃ s a, C s a ∧ ¬ a.ReadsExpected) ∧ e = .dcheck "Unhandled mx_status_t") := by
    rcases hs.step a he.1 (hkeys s a he.2) with hok | ⟨hread, herr⟩
    · exact .inl hok
    · exact .inr ⟨_, herr, ⟨s, a, he.2, hread⟩, rfl⟩
  rcases hrun.safe_or hstep .init with hok | ⟨e, rfl, hread, rfl⟩
  · exact .inl hok
  · exact .inr ⟨hread, rfl⟩

/-! ## The key after the last one -/

/-- Runs of the owners on a loop that keeps running, without a bound on its keys. -/
def runningOwners : Machine Owners OwnerAct Fault :=
  ownersMachine.restrict fun s a => s.waiter.loop.loop.shutDown = false ∧ a.ReadsExpected

/-- One drainer on a loop that others use. -/
private def oneDrainer (loop : MessageLoop) : Owners := { Owners.createDrainer {} with waiter.loop := loop }

private def otherRequest : AddRequest := { someRequest with handler := 0 }

/-- Another user of the loop adds a handler and removes it again, over and over. -/
private theorem repeated_others (n : Nat) (hn : n < 2^64) :
    ∃ acts loop, runningOwners.Run {} acts (.ok (oneDrainer loop)) ∧ Settled (oneDrainer loop) ∧ loop.additions = n ∧
      loop.loop.shutDown = false := by
  induction n with
  | zero =>
    have hrun : runningOwners.Run {} [.createDrainer] (.ok (oneDrainer {})) :=
      .single ⟨trivial, rfl, fun _ hread => by cases hread⟩ rfl
    exact ⟨_, {}, hrun, ⟨WaitBooks.init.create, fun _ => rfl⟩, rfl, rfl⟩
  | succ n ih =>
    obtain ⟨acts, loop, hrun, hsettled, hcount, hs⟩ := ih (by omega)
    have hkeys : loop.KeysLeft 1 := by
      rw [MessageLoop.KeysLeft, hcount]
      exact hn
    have hreg : Registry loop.additions loop := hsettled.books.attended.holds.registry
    obtain ⟨hremove, -⟩ := hreg.remove_added (hsettled.books.turn.idle rfl) hkeys otherRequest
    have hadd : (oneDrainer loop).addOther otherRequest = .ok (oneDrainer (loop.registered otherRequest)) :=
      congrArg (· >>= _) (hreg.addHandler_registered hs hkeys otherRequest)
    have hremove' : (oneDrainer (loop.registered otherRequest)).removeOther loop.nextHandlerKey =
        .ok (oneDrainer ((loop.registered otherRequest).cancelled loop.nextHandlerKey loop.nextRecord)) :=
      congrArg (· >>= _) hremove
    have hfree : ownersMachine.Enabled (oneDrainer (loop.registered otherRequest)) (.removeOther loop.nextHandlerKey) := by
      intro id watcher hw
      cases hw
    obtain ⟨loop', hadd', hsettled', -⟩ := hsettled.addOther hkeys otherRequest
    rw [← Except.ok.inj (hadd.symm.trans hadd')] at hsettled'
    obtain ⟨t, ht, hsettled''⟩ := hsettled'.removeOther hfree
    cases hremove'.symm.trans ht
    have hnext : runningOwners.Run (oneDrainer loop) [.addOther otherRequest, .removeOther loop.nextHandlerKey] (.ok _) :=
      .step ⟨trivial, hs, fun _ hread => by cases hread⟩ hadd
        (.single ⟨hfree, hs, fun _ hread => by cases hread⟩ hremove')
    exact ⟨_, _, hrun.append hnext, hsettled'', congrArg (· + 1) hcount, hs⟩

/-- After 2^64 - 1 handlers of others a drainer waits under key 0. -/
theorem wrapped_wait :
    ∃ acts s, runningOwners.Run {} acts (.ok s) ∧ s.calls = [] ∧ s.waiter.loop.loop.shutDown = false ∧
      s.drainers.lookup 0 = some ⟨5, 1, false⟩ ∧ s.waiter.watchers.lookup 1 = some ⟨0, 5, .drainer 0⟩ ∧
      s.waiter.loop.currentHandler = none ∧
      ∃ r rec, r ∈ s.waiter.loop.loop.registered ∧ s.waiter.loop.handlers.lookup 0 = some r ∧
        s.waiter.loop.records.lookup r = some rec ∧ rec.handler = 1 ∧ rec.object = 5 := by
  obtain ⟨n, hn⟩ : ∃ n, n = 2^64 - 1 := ⟨_, rfl⟩
  obtain ⟨acts, loop, hrun, hsettled, hcount, hs⟩ := repeated_others n (by omega)
  let req : AddRequest := ⟨1, 5, SocketDrainer.waitSignals, timeoutDelta mxTimeInfinite, 0, by decide⟩
  have hreg : Registry loop.additions loop := hsettled.books.attended.holds.registry
  obtain ⟨hzero, hadd⟩ := hreg.addHandler_wrapped hs (by omega) req
  have hidle : loop.currentHandler = none := hsettled.books.turn.idle rfl
  let s : Owners := { oneDrainer loop with
    waiter := ⟨loop.registered req, (∅ : Finmap _).insert 1 ⟨0, 5, .drainer 0⟩, 2⟩
    drainers := (((∅ : Finmap _).insert 0 {}).insert 0 { source := 5 }).insert 0 { source := 5, waitId := 1 }
    startOf := Function.update (fun _ => 0) 0 1
    nextStart := 2
    waits := [.begun 1]
    clients := [.started 0 1] }
  have hstart : ownersMachine.step (oneDrainer loop) (.start 0 5 ⟨.errShouldWait, []⟩) = .ok s := by
    simp [ownersMachine, oneDrainer, Owners.start, Owners.updateDrainer, Owners.createDrainer, Owners.readData,
      SocketDrainer.readData, Owners.waitForData, Owners.asyncWait, DefaultWaiter.asyncWait, hreg.attached, hadd, req, s]
  have hexpected : (OwnerAct.start 0 5 ⟨.errShouldWait, []⟩).ReadsExpected := by
    rintro read ⟨⟩
    exact .inr (.inl rfl)
  have hnext : runningOwners.Run (oneDrainer loop) [.start 0 5 ⟨.errShouldWait, []⟩] (.ok s) :=
    .single ⟨⟨fun hzero => absurd hzero (by decide), {}, rfl, rfl, rfl⟩, hs, hexpected⟩ hstart
  refine ⟨_, s, hrun.append hnext, rfl, hs,
    Finmap.lookup_insert _, Finmap.lookup_insert _, hidle, loop.nextRecord, req.record 0, Finset.mem_insert_self _ _, ?_,
    ?_, rfl, rfl⟩
  · change (loop.handlers.insert loop.nextHandlerKey loop.nextRecord).lookup 0 = some loop.nextRecord
    rw [hzero, Finmap.lookup_insert]
  · change (loop.records.insert loop.nextRecord (req.record loop.nextHandlerKey)).lookup loop.nextRecord = _
    rw [hzero, Finmap.lookup_insert]

end Mtl.Socket
