import Mtl.Socket.Files

/-! `CopyToFileHandler` on a loop that keeps running. What the socket, the file and the waits answer is
the environment's choice. -/
namespace Mtl.Socket
open Foundation

/-- What the handler does. `taken` is how many of the bytes `WriteFileDescriptor` wrote; it fails if
some are left. -/
inductive ToFileEvent where
  | read (result : ReadResult)
  | write (bytes : List UInt8) (taken : Nat)
  | waited (result : MxStatus)
  | deleted
  | callback (value : Bool)

/-- A copy with its posted tasks, its outstanding waits and what it did, the last thing first. -/
structure ToFile where
  live : Bool := true
  handler : CopyToFileHandler := {}
  tasks : Nat := 1
  waits : Nat := 0
  log : List ToFileEvent := []

namespace ToFile

def note (s : ToFile) (e : ToFileEvent) : ToFile := { s with log := e :: s.log }

def proceed (s : ToFile) (h : CopyToFileHandler) : CopyStep → ToFile
  | .postReady | .postFill => { s with handler := h, tasks := s.tasks + 1 }
  | .asyncWait _ => { s with handler := h, waits := s.waits + 1 }
  | .sendCallback value => ({ s with handler := h, live := false }.note .deleted).note (.callback value)

/-- The system calls that `OnHandleReady(result)` makes. -/
def observe (s : ToFile) (result : MxStatus) (read : ReadResult) (taken : Nat) : ToFile :=
  if result ≠ .ok then s
  else if read.status ≠ .ok then s.note (.read read)
  else (s.note (.read read)).note (.write read.bytes taken)

/-- `OnHandleReady`, or `WaitComplete`, which calls it. -/
def ready (s : ToFile) (result : MxStatus) (read : ReadResult) (taken : Nat)
    (step : CopyToFileHandler → MxStatus → ReadResult → Nat → Except Fault (CopyToFileHandler × CopyStep)) :
    Except Fault ToFile :=
  if s.live = false then .error (.useAfterFree 0) else do
    let (h, next) ← step s.handler result read taken
    return (s.observe result read taken).proceed h next

end ToFile

inductive ToFileAct where
  | onHandleReady (read : ReadResult) (taken : Nat)
  | waitComplete (result : MxStatus) (read : ReadResult) (taken : Nat)

/-- Each wait that was begun is one registration of the default waiter, whose key lasts: it is completed once. -/
def toFileMachine : Machine ToFile ToFileAct Fault where
  Enabled s
    | .onHandleReady read _ => 0 < s.tasks ∧ read.Fits
    | .waitComplete _ read _ => 0 < s.waits ∧ read.Fits
  step s
    | .onHandleReady read taken =>
      { s with tasks := s.tasks - 1 }.ready .ok read taken CopyToFileHandler.onHandleReady
    | .waitComplete result read taken =>
      ({ s with waits := s.waits - 1 }.note (.waited result)).ready result read taken CopyToFileHandler.waitComplete

/-! ## The account of the chunks -/

/-- The chunks that were read, in order. -/
def chunks : List ToFileEvent → List (List UInt8)
  | [] => []
  | .read result :: log => if result.status = .ok then chunks log ++ [result.bytes] else chunks log
  | _ :: log => chunks log

namespace ToFileEvent

def FailsWrite : ToFileEvent → Prop
  | .write bytes taken => taken < bytes.length
  | _ => False

/-- A read or a wait reports that the peer is gone. -/
def Closes : ToFileEvent → Prop
  | .read result => result.status = .errPeerClosed
  | .waited result => result = .errPeerClosed
  | _ => False

/-- The end of the copy. -/
def IsEnd : ToFileEvent → Prop
  | .deleted | .callback _ => True
  | _ => False

end ToFileEvent

namespace ToFile

/-- The file holds the chunks; of the last one, a write that failed may have left out the end. -/
structure Copied (s : ToFile) : Prop where
  whole : (∀ e ∈ s.log, ¬ e.FailsWrite) → s.handler.destination = (chunks s.log).flatten
  cut : (∃ e ∈ s.log, e.FailsWrite) → ∃ front last taken, chunks s.log = front ++ [last] ∧
    s.handler.destination = front.flatten ++ last.take taken

/-- Nothing has ended the copy so far. -/
def Quiet (s : ToFile) : Prop := ∀ e ∈ s.log, ¬ e.IsEnd ∧ ¬ e.FailsWrite

/-- A live handler, which goes on in one way. -/
structure GoesOn (s : ToFile) : Prop where
  live : s.live = true
  once : s.tasks = 1 ∧ s.waits = 0 ∧ s.handler.waiting = false ∨ s.tasks = 0 ∧ s.waits = 1
  quiet : s.Quiet

/-- A handler in a step, with nothing else pending, that is told `result`. -/
structure InStep (s : ToFile) (result : MxStatus) : Prop where
  live : s.live = true
  alone : s.tasks = 0 ∧ s.waits = 0
  idle : s.handler.waiting = false
  quiet : s.Quiet
  told : result = .ok ∨ s.log.head? = some (.waited result)

/-- The handler is gone, nothing can reach it, and its one call came last and told the truth. -/
structure Ended (s : ToFile) : Prop where
  dead : s.live = false
  alone : s.tasks = 0 ∧ s.waits = 0
  report : ∃ value log, s.log = .callback value :: .deleted :: log ∧ (∀ e ∈ log, ¬ e.IsEnd) ∧
    (value = true ↔ (∃ e, log.head? = some e ∧ e.Closes) ∧ ∀ e ∈ log, ¬ e.FailsWrite)

variable {s : ToFile} {result : MxStatus} {read : ReadResult} {taken : Nat}

theorem Quiet.cons (h : s.Quiet) {e : ToFileEvent} (he : ¬ e.IsEnd ∧ ¬ e.FailsWrite) : (s.note e).Quiet := by
  intro e' he'
  rcases List.mem_cons.mp he' with rfl | he'
  · exact he
  · exact h e' he'

theorem Copied.start : Copied {} := ⟨fun _ => rfl, by simp⟩

theorem GoesOn.start : GoesOn {} := ⟨rfl, .inl ⟨rfl, rfl, rfl⟩, fun e he => absurd he (by simp)⟩

/-- The handler is deleted and reports what ended the copy. -/
theorem Ended.report_of (halone : s.tasks = 0 ∧ s.waits = 0) (hend : ∀ e ∈ s.log, ¬ e.IsEnd) {value : Bool}
    (htruth : value = true ↔ (∃ e, s.log.head? = some e ∧ e.Closes) ∧ ∀ e ∈ s.log, ¬ e.FailsWrite)
    (h : CopyToFileHandler) : Ended (s.proceed h (.sendCallback value)) :=
  ⟨rfl, halone, value, s.log, rfl, hend, htruth⟩

/-- A chunk that was written as a whole. -/
theorem InStep.wrote (h : s.InStep .ok) (hc : Copied s) (hread : read.status = .ok) (htaken : read.bytes.length ≤ taken) :
    ∃ t, s.ready .ok read taken CopyToFileHandler.onHandleReady = .ok t ∧ Copied t ∧ GoesOn t := by
  have hquiet : ((s.note (.read read)).note (.write read.bytes taken)).Quiet :=
    (h.quiet.cons ⟨id, id⟩).cons ⟨id, Nat.not_lt.mpr htaken⟩
  have hchunks : chunks (.write read.bytes taken :: .read read :: s.log) = chunks s.log ++ [read.bytes] := if_pos hread
  refine ⟨((s.note (.read read)).note (.write read.bytes taken)).proceed
      { s.handler with destination := s.handler.destination ++ read.bytes.take taken } .postReady, ?_, ⟨?_, ?_⟩, h.live,
    .inl ⟨?_, h.alone.2, h.idle⟩, hquiet⟩
  · simp [ready, h.live, CopyToFileHandler.onHandleReady, hread, Nat.not_lt.mpr htaken, observe]
  · intro _
    have hwhole := hc.whole fun e he => (h.quiet e he).2
    simp only [proceed, note, hchunks, hwhole, List.take_of_length_le htaken, List.flatten_append, List.flatten_singleton]
  · rintro ⟨e, he, hfails⟩
    exact absurd hfails (hquiet e he).2
  · simp [proceed, note, h.alone.1]

/-- A chunk of which only a part was written. -/
theorem InStep.cut (h : s.InStep .ok) (hc : Copied s) (hread : read.status = .ok) (htaken : taken < read.bytes.length) :
    ∃ t, s.ready .ok read taken CopyToFileHandler.onHandleReady = .ok t ∧ Copied t ∧ Ended t := by
  have hchunks : chunks (.write read.bytes taken :: .read read :: s.log) = chunks s.log ++ [read.bytes] := if_pos hread
  have hfails : ToFileEvent.FailsWrite (.write read.bytes taken) := htaken
  refine ⟨((s.note (.read read)).note (.write read.bytes taken)).proceed
      { s.handler with destination := s.handler.destination ++ read.bytes.take taken } (.sendCallback false),
    ?_, ⟨?_, ?_⟩, Ended.report_of (s := (s.note (.read read)).note (.write read.bytes taken)) h.alone ?_ ?_ _⟩
  · simp [ready, h.live, CopyToFileHandler.onHandleReady, hread, htaken, observe, sendCallback, h.idle]
  · intro hnone
    exact absurd hfails (hnone _ (by simp [proceed, note]))
  · intro _
    have hwhole := hc.whole fun e he => (h.quiet e he).2
    exact ⟨chunks s.log, read.bytes, taken, hchunks, by simp [proceed, note, hwhole]⟩
  · simp only [note, List.forall_mem_cons]
    exact ⟨id, id, fun e he => (h.quiet e he).1⟩
  · refine iff_of_false (by decide) fun htruth => htruth.2 _ ?_ hfails
    simp [note]

/-- When there was nothing to write, the last thing that happened is the status that counts. -/
theorem InStep.observed (h : s.InStep result) (hnot : ¬ (result = .ok ∧ read.status = .ok)) (taken : Nat) :
    (∃ e, (s.observe result read taken).log.head? = some e ∧
      (e.Closes ↔ (if result = .ok then read.status else result) = .errPeerClosed)) ∧
    (s.observe result read taken).Quiet ∧ chunks (s.observe result read taken).log = chunks s.log := by
  by_cases hok : result = .ok
  · have hread : read.status ≠ .ok := fun hread => hnot ⟨hok, hread⟩
    have hobserve : s.observe result read taken = s.note (.read read) := by
      rw [observe, if_neg (not_not.mpr hok), if_pos hread]
    rw [hobserve, if_pos hok]
    exact ⟨⟨_, rfl, Iff.rfl⟩, h.quiet.cons ⟨id, id⟩, if_neg hread⟩
  · have hobserve : s.observe result read taken = s := if_pos hok
    rw [hobserve, if_neg hok]
    exact ⟨⟨_, h.told.resolve_left hok, Iff.rfl⟩, h.quiet, rfl⟩

theorem observe_same (s : ToFile) (result : MxStatus) (read : ReadResult) (taken : Nat) :
    (s.observe result read taken).live = s.live ∧ (s.observe result read taken).handler = s.handler ∧
      (s.observe result read taken).tasks = s.tasks ∧ (s.observe result read taken).waits = s.waits := by
  unfold observe
  split_ifs <;> exact ⟨rfl, rfl, rfl, rfl⟩

/-- A step with nothing to write ends the copy with the truth, or waits. -/
theorem InStep.unread (h : s.InStep result) (hc : Copied s) (hnot : ¬ (result = .ok ∧ read.status = .ok)) :
    ∃ t, s.ready result read taken CopyToFileHandler.onHandleReady = .ok t ∧ Copied t ∧ (GoesOn t ∨ Ended t) := by
  obtain ⟨⟨e, hlast, hcloses⟩, hquiet, hchunks⟩ := h.observed hnot taken
  obtain ⟨hlive, hhandler, htasks, hwaits⟩ := observe_same s result read taken
  have hwhole := hc.whole fun e he => (h.quiet e he).2
  have hcopied (waiting : Bool) (u : ToFile) (hu : u.handler = { s.handler with waiting := waiting })
      (hlog : chunks u.log = chunks s.log) (hclean : ∀ e ∈ u.log, ¬ e.FailsWrite) : Copied u := by
    refine ⟨fun _ => by rw [hu, hlog, ← hwhole], ?_⟩
    rintro ⟨e, he, hfails⟩
    exact absurd hfails (hclean e he)
  have hend (value : Bool) (htruth : value = true ↔ (if result = .ok then read.status else result) = .errPeerClosed) :
      Copied ((s.observe result read taken).proceed s.handler (.sendCallback value)) ∧
        Ended ((s.observe result read taken).proceed s.handler (.sendCallback value)) := by
    constructor
    · refine hcopied s.handler.waiting _ rfl hchunks ?_
      simp only [proceed, note, List.forall_mem_cons]
      exact ⟨id, id, fun e he => (hquiet e he).2⟩
    · refine Ended.report_of ⟨htasks.trans h.alone.1, hwaits.trans h.alone.2⟩ (fun e he => (hquiet e he).1) ?_ _
      rw [htruth, ← hcloses]
      constructor
      · exact fun hc => ⟨⟨e, hlast, hc⟩, fun e he => (hquiet e he).2⟩
      · rintro ⟨⟨e', hlast', hc⟩, -⟩
        rwa [Option.some.inj (hlast.symm.trans hlast')]
  have hready (next : CopyToFileHandler × CopyStep)
      (hnext : s.handler.afterRead (if result = .ok then read.status else result) = .ok next) :
      s.ready result read taken CopyToFileHandler.onHandleReady =
        .ok ((s.observe result read taken).proceed next.1 next.2) := by
    simp [ready, h.live, CopyToFileHandler.onHandleReady, hnot, hnext]
  cases hstatus : (if result = .ok then read.status else result) with
  | errPeerClosed =>
    obtain ⟨hcopied', hended⟩ := hend true (by simp [hstatus])
    exact ⟨_, hready (s.handler, .sendCallback true) (by simp [hstatus, CopyToFileHandler.afterRead, sendCallback, h.idle]),
      hcopied', .inr hended⟩
  | errShouldWait =>
    refine ⟨_, hready ({ s.handler with waiting := true }, .asyncWait {.socketReadable, .socketPeerClosed})
      (by simp [hstatus, CopyToFileHandler.afterRead]), hcopied true _ rfl hchunks (fun e he => (hquiet e he).2), .inl ?_⟩
    exact ⟨hlive.trans h.live, .inr ⟨htasks.trans h.alone.1, by simp [proceed, hwaits, h.alone.2]⟩, hquiet⟩
  | ok | errBadHandle | errBadState | errTimedOut | errCanceled | other =>
    obtain ⟨hcopied', hended⟩ := hend false (by simp [hstatus])
    exact ⟨_, hready (s.handler, .sendCallback false) (by simp [hstatus, CopyToFileHandler.afterRead, sendCallback, h.idle]),
      hcopied', .inr hended⟩

/-- `OnHandleReady` in any case. -/
theorem InStep.ready (h : s.InStep result) (hc : Copied s) (read : ReadResult) (taken : Nat) :
    ∃ t, s.ready result read taken CopyToFileHandler.onHandleReady = .ok t ∧ Copied t ∧ (GoesOn t ∨ Ended t) := by
  by_cases hboth : result = .ok ∧ read.status = .ok
  · obtain ⟨rfl, hread⟩ := hboth
    by_cases htaken : taken < read.bytes.length
    · obtain ⟨t, ht, hc', hend⟩ := h.cut hc hread htaken
      exact ⟨t, ht, hc', .inr hend⟩
    · obtain ⟨t, ht, hc', hon⟩ := h.wrote hc hread (Nat.not_lt.mp htaken)
      exact ⟨t, ht, hc', .inl hon⟩
  · exact h.unread hc hboth

/-- `WaitComplete` clears `wait_id_` and goes on as `OnHandleReady`. -/
theorem ready_waitComplete (s : ToFile) (result : MxStatus) (read : ReadResult) (taken : Nat) :
    s.ready result read taken CopyToFileHandler.waitComplete =
      ({ s with handler := { s.handler with waiting := false } } : ToFile).ready result read taken
        CopyToFileHandler.onHandleReady := by
  have hobserve (h : CopyToFileHandler) (next : CopyStep) :
      (({ s with handler := { s.handler with waiting := false } } : ToFile).observe result read taken).proceed h next =
        (s.observe result read taken).proceed h next := by
    unfold observe
    cases next <;> split_ifs <;> rfl
  simp only [ToFile.ready, CopyToFileHandler.waitComplete]
  cases CopyToFileHandler.onHandleReady { s.handler with waiting := false } result read taken with
  | error e => rfl
  | ok next => simp only [ok_bind, hobserve]

/-- Every step keeps the account and goes on in one way, or ends the copy. -/
theorem Copied.step (hc : Copied s) (hs : GoesOn s ∨ Ended s) (a : ToFileAct) (he : toFileMachine.Enabled s a) :
    ∃ t, toFileMachine.step s a = .ok t ∧ Copied t ∧ (GoesOn t ∨ Ended t) := by
  rcases hs with hon | hend
  · cases a with
    | onHandleReady read taken =>
      obtain ⟨htasks, hwaits, hidle⟩ := hon.once.resolve_right fun h => absurd he.1 (by simp [h.1])
      exact InStep.ready (s := { s with tasks := s.tasks - 1 })
        ⟨hon.live, ⟨by simp [htasks], hwaits⟩, hidle, hon.quiet, .inl rfl⟩ ⟨hc.whole, hc.cut⟩ read taken
    | waitComplete result read taken =>
      obtain ⟨htasks, hwaits⟩ := hon.once.resolve_left fun h => absurd he.1 (by simp [h.2.1])
      let u : ToFile :=
        { { s with waits := s.waits - 1 }.note (.waited result) with handler := { s.handler with waiting := false } }
      have hquiet : u.Quiet := Quiet.cons (s := s) hon.quiet ⟨id, id⟩
      have hcopied : Copied u := by
        refine ⟨fun _ => hc.whole fun e he => (hon.quiet e he).2, ?_⟩
        rintro ⟨e, he, hfails⟩
        exact absurd hfails (hquiet e he).2
      have hin : u.InStep result := ⟨hon.live, ⟨htasks, by simp [u, note, hwaits]⟩, rfl, hquiet, .inr rfl⟩
      obtain ⟨t, ht, hend⟩ := hin.ready hcopied read taken
      exact ⟨t, (ready_waitComplete _ result read taken).trans ht, hend⟩
  · cases a with
    | onHandleReady => exact absurd he.1 (by simp [hend.alone.1])
    | waitComplete => exact absurd he.1 (by simp [hend.alone.2])

end ToFile

/-- A copy to a file with any results of its reads, writes and waits. The file holds what was read, up to
the end of a chunk whose write failed; a live handler goes on in exactly one way; and one that is gone made
its one call last, and said true exactly if the peer's end was seen and no write had failed. -/
theorem copy_to_file_truthful {acts : List ToFileAct} {result : Except Fault ToFile}
    (hrun : toFileMachine.Run {} acts result) :
    ∃ s, result = .ok s ∧
      ((∀ e ∈ s.log, ¬ e.FailsWrite) → s.handler.destination = (chunks s.log).flatten) ∧
      ((∃ e ∈ s.log, e.FailsWrite) → ∃ front last taken, chunks s.log = front ++ [last] ∧
        s.handler.destination = front.flatten ++ last.take taken) ∧
      (s.live = true → s.tasks + s.waits = 1 ∧ ∀ e ∈ s.log, ¬ e.IsEnd) ∧
      (s.live = false → s.tasks + s.waits = 0 ∧ ∃ value log, s.log = .callback value :: .deleted :: log ∧
        (∀ e ∈ log, ¬ e.IsEnd) ∧
        (value = true ↔ (∃ e, log.head? = some e ∧ e.Closes) ∧ ∀ e ∈ log, ¬ e.FailsWrite)) := by
  obtain ⟨s, rfl, hc, hs⟩ := hrun.safe (I := fun s => ToFile.Copied s ∧ (ToFile.GoesOn s ∨ ToFile.Ended s))
    (fun s a h he => h.1.step h.2 a he) ⟨.start, .inl .start⟩
  refine ⟨s, rfl, hc.whole, hc.cut, fun hlive => ?_, fun hdead => ?_⟩
  · have hon : ToFile.GoesOn s := hs.resolve_right fun h => absurd (hlive.symm.trans h.dead) (by decide)
    refine ⟨?_, fun e he => (hon.quiet e he).1⟩
    rcases hon.once with ⟨htasks, hwaits, -⟩ | ⟨htasks, hwaits⟩ <;> rw [htasks, hwaits]
  · have hend : ToFile.Ended s := hs.resolve_left fun h => absurd (hdead.symm.trans h.live) (by decide)
    exact ⟨by rw [hend.alone.1, hend.alone.2], hend.report⟩

/-- A chunk, a wait that the peer's close ends, and a second read that finds it closed. -/
theorem copy_to_file_truthful_close :
    ∃ s, toFileMachine.Run {} [.onHandleReady ⟨.ok, [7, 9]⟩ 2, .onHandleReady ⟨.errShouldWait, []⟩ 0,
        .waitComplete .ok ⟨.errPeerClosed, []⟩ 0] (.ok s) ∧
      s.live = false ∧ s.handler.destination = [7, 9] ∧ s.tasks + s.waits = 0 := by
  have hrun : toFileMachine.Run {} [.onHandleReady ⟨.ok, [7, 9]⟩ 2, .onHandleReady ⟨.errShouldWait, []⟩ 0,
      .waitComplete .ok ⟨.errPeerClosed, []⟩ 0] (.ok _) :=
    .step ⟨by decide, fun _ => by decide⟩ rfl (.step ⟨by decide, fun h => absurd h (by decide)⟩ rfl
      (.step ⟨by decide, fun h => absurd h (by decide)⟩ rfl (.nil _)))
  obtain ⟨s, hs, hwhole, -, -, hdead⟩ := copy_to_file_truthful hrun
  cases hs
  refine ⟨_, hrun, rfl, ?_, (hdead rfl).1⟩
  exact hwhole (by simp [ToFile.proceed, ToFile.observe, ToFile.note, ToFileEvent.FailsWrite])

end Mtl.Socket
