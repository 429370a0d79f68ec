import Mtl.Foundation.History
import Mtl.Socket.Files

/-! `CopyFromFileHandler` against any file, socket and waiter, on a loop that keeps running: what it
writes and what it reports. -/
namespace Mtl.Socket
open Foundation

/-- A closure that the handler posted; it holds the raw `this`. -/
inductive FromFileTask where
  | fillBuffer | onHandleReady
  deriving DecidableEq

/-- What the handler was told and did; a write has the window that it was made from. -/
inductive FromFileEvent where
  | read (result : Option (List UInt8))
  | write (bufferOffset bufferEnd : Nat) (result : WriteResult)
  | waited (result : MxStatus)
  | deleted
  | callback (value : Bool)

/-- The copy of one file: what is left of it, what was read and what the socket accepted. The members
of a deleted handler are as it left them. -/
structure FromFile where
  unread : List UInt8
  taken : List UInt8 := []
  handler : CopyFromFileHandler
  live : Bool := true
  tasks : List FromFileTask := [.fillBuffer]
  waits : Nat := 0
  accepted : List UInt8 := []
  log : List FromFileEvent := []

/-- The `bytes_written` that count. -/
def WriteResult.written (result : WriteResult) : Nat := if result.status = .ok then result.accepted else 0

/-- The members as `FillBuffer` sets them. -/
def CopyFromFileHandler.filled (h : CopyFromFileHandler) (bytes : List UInt8) : CopyFromFileHandler :=
  { h with buffer := bytes, bufferOffset := 0, bufferEnd := bytes.length }

namespace FromFile

/-- The constructor leaves `buffer_offset_` and `buffer_end_` as they are. -/
def start (file buffer : List UInt8) (bufferOffset bufferEnd : Nat) : FromFile :=
  { unread := file, handler := { buffer := buffer, bufferOffset := bufferOffset, bufferEnd := bufferEnd } }

def note (s : FromFile) (e : FromFileEvent) : FromFile := { s with log := e :: s.log }

def proceed (s : FromFile) (h : CopyFromFileHandler) : CopyStep → FromFile
  | .postFill => { s with handler := h, tasks := s.tasks ++ [.fillBuffer] }
  | .postReady => { s with handler := h, tasks := s.tasks ++ [.onHandleReady] }
  | .asyncWait _ => { s with handler := h, waits := s.waits + 1 }
  | .sendCallback value => ({ s with handler := h, live := false }.note .deleted).note (.callback value)

/-- `destination_.write` of the window of `h`. -/
def write (s : FromFile) (h : CopyFromFileHandler) (result : WriteResult) : FromFile :=
  { s with accepted := s.accepted ++ h.pending.take result.written }.note (.write h.bufferOffset h.bufferEnd result)

def fillBuffer (s : FromFile) (read : Option (List UInt8)) (write : WriteResult) : Except Fault FromFile :=
  if s.live = false then .error (.useAfterFree 0) else do
    let bytes := read.getD []
    let s := { s with unread := s.unread.drop bytes.length, taken := s.taken ++ bytes }.note (.read read)
    let (h, next) ← s.handler.fillBuffer read write
    let s := if bytes = [] then s else s.write (s.handler.filled bytes) write
    return s.proceed h next

/-- `OnHandleReady`, or `WaitComplete`, which calls it. -/
def ready (s : FromFile) (result : MxStatus) (write : WriteResult)
    (step : CopyFromFileHandler → MxStatus → WriteResult → Except Fault (CopyFromFileHandler × CopyStep)) :
    Except Fault FromFile :=
  if s.live = false then .error (.useAfterFree 0) else do
    let (h, next) ← step s.handler result write
    let s := if result = .ok then s.write s.handler write else s
    return s.proceed h next

/-- The choices `ReadFileDescriptor` has. -/
def CanRead (s : FromFile) : Option (List UInt8) → Prop
  | none => True
  | some bytes => bytes <+: s.unread ∧ bytes.length ≤ bufferSize ∧ (bytes = [] → s.unread = [])

end FromFile

/-- The choices a `write` of the window of `h` has. -/
def CopyFromFileHandler.CanWrite (h : CopyFromFileHandler) (result : WriteResult) : Prop :=
  result.status = .ok → result.accepted ≤ h.bufferEnd - h.bufferOffset

inductive FromFileAct where
  | fillBuffer (read : Option (List UInt8)) (write : WriteResult)
  | onHandleReady (write : WriteResult)
  | waitComplete (result : MxStatus) (write : WriteResult)

/-- Each wait that was begun is one registration of the default waiter, whose key lasts: it is completed once. -/
def fromFileMachine : Machine FromFile FromFileAct Fault where
  Enabled s
    | .fillBuffer read write => .fillBuffer ∈ s.tasks ∧ s.CanRead read ∧ (s.handler.filled (read.getD [])).CanWrite write
    | .onHandleReady write => .onHandleReady ∈ s.tasks ∧ s.handler.CanWrite write
    | .waitComplete _ write => 0 < s.waits ∧ s.handler.CanWrite write
  step s
    | .fillBuffer read write => { s with tasks := s.tasks.erase .fillBuffer }.fillBuffer read write
    | .onHandleReady write =>
      { s with tasks := s.tasks.erase .onHandleReady }.ready .ok write CopyFromFileHandler.onHandleReady
    | .waitComplete result write =>
      ({ s with waits := s.waits - 1 }.note (.waited result)).ready result write CopyFromFileHandler.waitComplete

/-! ## The account of the bytes -/

/-- What the last `FillBuffer` read, and how much of it was accepted since. -/
def window : List FromFileEvent → Option (List UInt8 × Nat)
  | [] => none
  | .read (some bytes) :: log => if bytes = [] then window log else some (bytes, 0)
  | .write _ _ result :: log => (window log).map fun (bytes, accepted) => (bytes, accepted + result.written)
  | _ :: log => window log

/-- A write is made from a window that is not empty and that is all that is left of the last
`FillBuffer`. -/
def WroteFilled : FromFileEvent → List FromFileEvent → Prop
  | .write bufferOffset bufferEnd _, past => bufferOffset < bufferEnd ∧ bufferEnd ≤ bufferSize ∧
    ∃ bytes, window past = some (bytes, bufferOffset) ∧ bufferEnd = bytes.length
  | _, _ => True

/-- Would-block is no error. -/
def FromFileEvent.IsError : FromFileEvent → Prop
  | .read result => result = none
  | .write _ _ result => result.status ≠ .ok ∧ result.status ≠ .errShouldWait
  | .waited result => result ≠ .ok ∧ result ≠ .errShouldWait
  | _ => False

/-- The end of the copy. -/
def FromFileEvent.IsEnd : FromFileEvent → Prop
  | .deleted | .callback _ => True
  | _ => False

/-- The bytes in `buffer_[buffer_offset_..buffer_end_)`, none before the first `FillBuffer`. -/
def FromFile.held (s : FromFile) : List UInt8 :=
  match window s.log with
  | none => []
  | some _ => s.handler.pending

structure Accounted (file : List UInt8) (s : FromFile) : Prop where
  stream : s.taken ++ s.unread = file
  bytes : s.accepted ++ s.held = s.taken
  writes : EveryPast WroteFilled s.log
  filled : ∀ bytes accepted, window s.log = some (bytes, accepted) → s.handler.buffer = bytes ∧
    s.handler.bufferOffset = accepted ∧ s.handler.InBounds ∧ s.handler.bufferEnd ≤ bufferSize

/-- How a live handler goes on, which is in one way. -/
def FromFile.ContinuesBy (s : FromFile) : CopyStep → Prop
  | .postFill => s.tasks = [.fillBuffer] ∧ s.waits = 0 ∧ s.handler.waiting = false ∧ s.held = []
  | .postReady => s.tasks = [.onHandleReady] ∧ s.waits = 0 ∧ s.handler.waiting = false ∧ s.held ≠ []
  | .asyncWait _ => s.tasks = [] ∧ s.waits = 1 ∧ s.held ≠ []
  | .sendCallback _ => False

/-- Nothing has ended the copy so far. -/
def FromFile.Quiet (s : FromFile) : Prop := ∀ e ∈ s.log, ¬ e.IsError ∧ ¬ e.IsEnd ∧ e ≠ .read (some [])

structure Continues (s : FromFile) : Prop where
  live : s.live = true
  next : ∃ step, s.ContinuesBy step
  quiet : s.Quiet

/-- The handler is gone, nothing can reach it, and the last thing it did was its one call. -/
structure Reported (file : List UInt8) (s : FromFile) : Prop where
  dead : s.live = false
  alone : s.tasks = [] ∧ s.waits = 0
  report : ∃ value log, s.log = .callback value :: .deleted :: log ∧ (∀ e ∈ log, ¬ e.IsEnd) ∧
    (value = true ↔ .read (some []) ∈ log ∧ (∀ e ∈ log, ¬ e.IsError) ∧ s.accepted = file)

/-! ## Its steps -/

section Steps
variable {file : List UInt8} {s : FromFile} {result : MxStatus}

theorem Accounted.start (file buffer : List UInt8) (bufferOffset bufferEnd : Nat) :
    Accounted file (.start file buffer bufferOffset bufferEnd) := by
  refine ⟨rfl, rfl, everyPast_nil, ?_⟩
  intro bytes accepted h
  cases h

theorem Continues.start (file buffer : List UInt8) (bufferOffset bufferEnd : Nat) :
    Continues (.start file buffer bufferOffset bufferEnd) :=
  ⟨rfl, ⟨.postFill, rfl, rfl, rfl, rfl⟩, fun e he => absurd he (by simp [FromFile.start])⟩

/-- The window of a handler that was filled. -/
theorem Accounted.held_eq (h : Accounted file s) (hs : s.held ≠ []) :
    s.held = s.handler.pending ∧ s.handler.InBounds ∧ s.handler.bufferEnd ≤ bufferSize ∧
      window s.log = some (s.handler.buffer, s.handler.bufferOffset) := by
  cases hw : window s.log with
  | none => exact absurd (by simp [FromFile.held, hw]) hs
  | some w =>
    obtain ⟨hbuf, hoff, hb, hend⟩ := h.filled w.1 w.2 hw
    exact ⟨by simp [FromFile.held, hw], hb, hend, by rw [hbuf, hoff]⟩

/-- A `write` takes what it wrote off the window. -/
theorem Accounted.wrote (h : Accounted file s) (hs : s.held ≠ []) {result : WriteResult}
    (hcan : s.handler.CanWrite result) (waiting : Bool) :
    ∃ t : FromFile, t = { s.write s.handler result with
        handler := { s.handler with bufferOffset := s.handler.bufferOffset + result.written, waiting := waiting } } ∧
      Accounted file t ∧ t.held = s.held.drop result.written := by
  obtain ⟨hheld, hb, hend, hwindow⟩ := h.held_eq hs
  have hle : result.written ≤ s.handler.pending.length := by
    have := hb.length_pending
    rw [WriteResult.written]
    split_ifs with hok
    · have := hcan hok
      omega
    · exact Nat.zero_le _
  obtain ⟨hb', hp', -⟩ := hb.advance hle
  have hwindow' : window ((.write s.handler.bufferOffset s.handler.bufferEnd result) :: s.log) =
      some (s.handler.buffer, s.handler.bufferOffset + result.written) := by
    simp only [window, hwindow, Option.map_some]
  refine ⟨_, rfl, ⟨h.stream, ?_, ?_, ?_⟩, ?_⟩
  · have hbytes := h.bytes
    rw [hheld] at hbytes
    simp only [FromFile.held, FromFile.write, FromFile.note, hwindow']
    rw [List.append_assoc, ← hbytes]
    exact congrArg (s.accepted ++ ·) ((congrArg (_ ++ ·) hp').trans (List.take_append_drop _ _))
  · simp only [FromFile.write, FromFile.note]
    rw [everyPast_cons]
    refine ⟨⟨?_, hend, s.handler.buffer, hwindow, hb.filled⟩, h.writes⟩
    have hlen := hb.length_pending
    have hpos : 0 < s.handler.pending.length := List.length_pos_iff.mpr (hheld ▸ hs)
    omega
  · simp only [FromFile.write, FromFile.note, hwindow']
    rintro bytes accepted ⟨⟩
    exact ⟨rfl, rfl, ⟨hb'.offset, hb'.filled⟩, hend⟩
  · rw [hheld]
    simp only [FromFile.held, FromFile.write, FromFile.note, hwindow']
    exact hp'

/-- The handler is deleted and reports. -/
theorem Accounted.report (h : Accounted file s) (value : Bool) :
    Accounted file (s.proceed s.handler (.sendCallback value)) := by
  refine ⟨h.stream, h.bytes, ?_, h.filled⟩
  simp only [FromFile.proceed, FromFile.note]
  rw [everyPast_cons, everyPast_cons]
  exact ⟨trivial, trivial, h.writes⟩

/-- An error ends the copy with `false`. -/
theorem Reported.failed (ht : s.tasks = []) (hw : s.waits = 0) (hend : ∀ e ∈ s.log, ¬ e.IsEnd)
    {e : FromFileEvent} (hmem : e ∈ s.log) (he : e.IsError) :
    Reported file (s.proceed s.handler (.sendCallback false)) := by
  refine ⟨rfl, ⟨ht, hw⟩, false, s.log, rfl, hend, ?_⟩
  constructor
  · intro h
    cases h
  · rintro ⟨-, hok, -⟩
    exact absurd he (hok e hmem)

theorem proceed_handler (h h' : CopyFromFileHandler) (step : CopyStep) :
    ({ s with handler := h' } : FromFile).proceed h step = s.proceed h step := by
  cases step <;> rfl

/-- A handler that is told `result` in a step with nothing else pending. Only a wait may have failed
before. -/
structure Resumes (s : FromFile) (result : MxStatus) : Prop where
  live : s.live = true
  alone : s.tasks = [] ∧ s.waits = 0
  idle : s.handler.waiting = false
  held : s.held ≠ []
  quiet : ∀ e ∈ s.log, ¬ e.IsEnd ∧ e ≠ .read (some [])
  errors : ∀ e ∈ s.log, e.IsError → e = .waited result
  told : result = .ok ∨ .waited result ∈ s.log

theorem CopyFromFileHandler.onHandleReady_waits (h : CopyFromFileHandler) {result : MxStatus} {write : WriteResult}
    (hs : (if result = .ok then write.status else result) = .errShouldWait) :
    h.onHandleReady result write =
      .ok ({ h with waiting := true }, .asyncWait {.socketWritable, .socketPeerClosed}) := by
  have hnot : ¬ (result = .ok ∧ write.status = .ok) := by
    rintro ⟨hok, hwrote⟩
    rw [if_pos hok, hwrote] at hs
    cases hs
  simp only [onHandleReady, if_neg hnot, hs]

theorem CopyFromFileHandler.onHandleReady_fails {h : CopyFromFileHandler} (hidle : h.waiting = false) {result : MxStatus}
    {write : WriteResult} (hnot : ¬ (result = .ok ∧ write.status = .ok))
    (hs : (if result = .ok then write.status else result) ≠ .errShouldWait) :
    h.onHandleReady result write = .ok (h, .sendCallback false) := by
  simp only [onHandleReady, if_neg hnot]
  cases hstatus : (if result = .ok then write.status else result) with
  | errShouldWait => exact absurd hstatus hs
  | ok | errBadHandle | errBadState | errTimedOut | errCanceled | errPeerClosed | other => simp [sendCallback, hidle]

/-- The continuation that is chosen after a write. -/
theorem Accounted.wait (h : Accounted file s) (hr : Resumes s result) (hclean : ∀ e ∈ s.log, ¬ e.IsError)
    (signals : MxSignals) :
    Accounted file (s.proceed { s.handler with waiting := true } (.asyncWait signals)) ∧
      Continues (s.proceed { s.handler with waiting := true } (.asyncWait signals)) := by
  refine ⟨⟨h.stream, h.bytes, h.writes, ?_⟩, hr.live, ⟨.asyncWait ∅, hr.alone.1, ?_, hr.held⟩, ?_⟩
  · intro bytes accepted hwindow
    obtain ⟨hbuf, hoff, hb, hend⟩ := h.filled bytes accepted hwindow
    exact ⟨hbuf, hoff, ⟨hb.offset, hb.filled⟩, hend⟩
  · simp [FromFile.proceed, hr.alone.2]
  · intro e he
    exact ⟨hclean e he, hr.quiet e he⟩

/-- A write that was accepted, all of the window or not. -/
theorem Accounted.send (h : Accounted file s) (hr : Resumes s .ok) (hclean : ∀ e ∈ s.log, ¬ e.IsError)
    {write : WriteResult} (hcan : s.handler.CanWrite write) (hwrote : write.status = .ok) :
    ∃ t, s.ready .ok write CopyFromFileHandler.onHandleReady = .ok t ∧ Accounted file t ∧ Continues t := by
  have hwritten : write.written = write.accepted := if_pos hwrote
  obtain ⟨t, rfl, hacc, hheld⟩ := h.wrote hr.held hcan false
  obtain ⟨hpending, hb, -, -⟩ := h.held_eq hr.held
  have hlen := hb.length_pending
  rw [hwritten] at hacc hheld
  have hquiet : ∀ e ∈ (s.write s.handler write).log, ¬ e.IsError ∧ ¬ e.IsEnd ∧ e ≠ .read (some []) := by
    intro e he
    rcases List.mem_cons.mp he with rfl | he
    · exact ⟨fun herr => herr.1 hwrote, id, by simp⟩
    · exact ⟨hclean e he, hr.quiet e he⟩
  refine ⟨(s.write s.handler write).proceed
      { s.handler with bufferOffset := s.handler.bufferOffset + write.accepted, waiting := false } _,
    by simp [FromFile.ready, hr.live, CopyFromFileHandler.onHandleReady, hwrote, hr.idle]; rfl, ?_⟩
  have hle := hcan hwrote
  split_ifs with hend
  · refine ⟨⟨hacc.stream, hacc.bytes, hacc.writes, hacc.filled⟩, hr.live, ⟨.postFill, ?_, hr.alone.2, rfl, ?_⟩, hquiet⟩
    · simp [FromFile.proceed, FromFile.write, FromFile.note, hr.alone.1]
    · refine hheld.trans (List.drop_eq_nil_of_le ?_)
      rw [hpending]
      omega
  · refine ⟨⟨hacc.stream, hacc.bytes, hacc.writes, hacc.filled⟩, hr.live, ⟨.postReady, ?_, hr.alone.2, rfl, ?_⟩, hquiet⟩
    · simp [FromFile.proceed, FromFile.write, FromFile.note, hr.alone.1]
    · intro hnone
      have := List.drop_eq_nil_iff.mp (hheld.symm.trans hnone)
      rw [hpending] at this
      omega

/-- A write that was not accepted leaves the account as it is. -/
theorem Accounted.refused (h : Accounted file s) (hr : Resumes s result) {write : WriteResult}
    (hwrote : write.status ≠ .ok) (hcan : s.handler.CanWrite write) :
    Accounted file (s.write s.handler write) ∧ (s.write s.handler write).held = s.held := by
  have hnone : write.written = 0 := if_neg hwrote
  have hsame : { s.handler with bufferOffset := s.handler.bufferOffset + write.written, waiting := false } = s.handler := by
    rw [hnone, ← hr.idle]
    rfl
  obtain ⟨t, rfl, hacc, hheld⟩ := h.wrote hr.held hcan false
  rw [hsame] at hacc hheld
  rw [hnone, List.drop_zero] at hheld
  exact ⟨hacc, hheld⟩

/-- `OnHandleReady` with something to write. -/
theorem Accounted.ready (h : Accounted file s) (hr : Resumes s result) {write : WriteResult}
    (hcan : s.handler.CanWrite write) :
    ∃ t, s.ready result write CopyFromFileHandler.onHandleReady = .ok t ∧ Accounted file t ∧
      (Continues t ∨ Reported file t) := by
  have hclean (hfine : result = .ok ∨ result = .errShouldWait) : ∀ e ∈ s.log, ¬ e.IsError := by
    intro e he herr
    obtain rfl := hr.errors e he herr
    rcases hfine with rfl | rfl
    · exact herr.1 rfl
    · exact herr.2 rfl
  by_cases hok : result = .ok
  · subst hok
    by_cases hwrote : write.status = .ok
    · obtain ⟨t, ht, hacc, hcont⟩ := h.send hr (hclean (.inl rfl)) hcan hwrote
      exact ⟨t, ht, hacc, .inl hcont⟩
    have hstep : (if MxStatus.ok = .ok then write.status else .ok) = write.status := if_pos rfl
    obtain ⟨hacc, hheld⟩ := h.refused hr hwrote hcan
    by_cases hwait : write.status = .errShouldWait
    · have hclean' : ∀ e ∈ (s.write s.handler write).log, ¬ e.IsError := by
        intro e he
        rcases List.mem_cons.mp he with rfl | he
        · exact fun herr => herr.2 hwait
        · exact hclean (.inl rfl) e he
      have hr' : Resumes (s.write s.handler write) .ok := by
        refine ⟨hr.live, hr.alone, hr.idle, hheld ▸ hr.held, ?_, fun e he herr => absurd herr (hclean' e he), .inl rfl⟩
        intro e he
        rcases List.mem_cons.mp he with rfl | he
        · exact ⟨id, by simp⟩
        · exact hr.quiet e he
      obtain ⟨hacc', hcont⟩ := hacc.wait hr' hclean' {.socketWritable, .socketPeerClosed}
      refine ⟨_, ?_, hacc', .inl hcont⟩
      simp only [FromFile.ready, hr.live, s.handler.onHandleReady_waits (hstep.trans hwait)]
      rfl
    · refine ⟨_, ?_, hacc.report false, .inr (.failed hr.alone.1 hr.alone.2 ?_ List.mem_cons_self ⟨hwrote, hwait⟩)⟩
      · simp only [FromFile.ready, hr.live, CopyFromFileHandler.onHandleReady_fails hr.idle
          (fun hboth => hwrote hboth.2) (hstep ▸ hwait)]
        rfl
      · intro e he
        rcases List.mem_cons.mp he with rfl | he
        · exact id
        · exact (hr.quiet e he).1
  · have hstep : (if result = .ok then write.status else result) = result := if_neg hok
    by_cases hwait : result = .errShouldWait
    · obtain ⟨hacc, hcont⟩ := h.wait hr (hclean (.inr hwait)) {.socketWritable, .socketPeerClosed}
      refine ⟨_, ?_, hacc, .inl hcont⟩
      simp only [FromFile.ready, hr.live, s.handler.onHandleReady_waits (hstep.trans hwait), if_neg hok]
      rfl
    · refine ⟨_, ?_, h.report false, .inr (.failed hr.alone.1 hr.alone.2 (fun e he => (hr.quiet e he).1)
        (hr.told.resolve_left hok) ⟨hok, hwait⟩)⟩
      simp only [FromFile.ready, hr.live, CopyFromFileHandler.onHandleReady_fails hr.idle
        (fun hboth => hok hboth.1) (hstep ▸ hwait), if_neg hok]
      rfl

/-- The handler that a step works on is the one it leaves, whatever was in its place before. -/
theorem ready_waitComplete (result : MxStatus) (write : WriteResult) :
    s.ready result write CopyFromFileHandler.waitComplete =
      ({ s with handler := { s.handler with waiting := false } } : FromFile).ready result write
        CopyFromFileHandler.onHandleReady := by
  simp only [FromFile.ready, CopyFromFileHandler.waitComplete]
  cases CopyFromFileHandler.onHandleReady { s.handler with waiting := false } result write with
  | error e => rfl
  | ok next =>
    by_cases hok : result = .ok
    · simp only [if_pos hok, ok_bind]
      rw [← proceed_handler (s := s.write s.handler write) next.1 { s.handler with waiting := false }]
      rfl
    · simp only [if_neg hok, ok_bind]
      rw [← proceed_handler (s := s) next.1 { s.handler with waiting := false }]

/-- The state in which `FillBuffer` calls `OnHandleReady`. -/
def FromFile.refilled (s : FromFile) (bytes : List UInt8) : FromFile :=
  { s with
    unread := s.unread.drop bytes.length
    taken := s.taken ++ bytes
    handler := s.handler.filled bytes }.note (.read (some bytes))

theorem fillBuffer_ready {bytes : List UInt8} (hb : bytes ≠ []) (write : WriteResult) :
    s.fillBuffer (some bytes) write =
      (s.refilled bytes).ready .ok write CopyFromFileHandler.onHandleReady := by
  cases bytes with
  | nil => exact absurd rfl hb
  | cons b bytes =>
    have hfill : s.handler.fillBuffer (some (b :: bytes)) write =
      (s.handler.filled (b :: bytes)).onHandleReady .ok write := rfl
    simp only [FromFile.fillBuffer, FromFile.ready, FromFile.refilled, FromFile.note, Option.getD_some, hfill]
    cases (s.handler.filled (b :: bytes)).onHandleReady .ok write with
    | error e => rfl
    | ok next =>
      simp only [ok_bind, if_neg hb, if_true]
      cases next.2 <;> rfl

/-- A successful `ReadFileDescriptor` refills the window once all of it was accepted. -/
theorem Accounted.fill (h : Accounted file s) (hs : s.held = []) {bytes : List UInt8} (hb : bytes ≠ [])
    (hread : s.CanRead (some bytes)) :
    Accounted file (s.refilled bytes) ∧ (s.refilled bytes).held = bytes := by
  obtain ⟨⟨rest, hrest⟩, hsize, -⟩ := hread
  have hwindow : window (.read (some bytes) :: s.log) = some (bytes, 0) := by
    simp only [window, if_neg hb]
  have hpending : (s.handler.filled bytes).pending = bytes := by
    simp [CopyFromFileHandler.filled, CopyFromFileHandler.pending]
  refine ⟨⟨?_, ?_, ?_, ?_⟩, ?_⟩
  · have hstream := h.stream
    rw [← hrest] at hstream
    simp only [FromFile.refilled, FromFile.note, ← hrest, List.drop_left]
    rw [List.append_assoc]
    exact hstream
  · have hbytes := h.bytes
    rw [hs, List.append_nil] at hbytes
    simp only [FromFile.held, FromFile.refilled, FromFile.note, hwindow, hpending, hbytes]
  · simp only [FromFile.refilled, FromFile.note]
    rw [everyPast_cons]
    exact ⟨trivial, h.writes⟩
  · simp only [FromFile.refilled, FromFile.note, hwindow]
    rintro _ _ ⟨⟩
    exact ⟨rfl, rfl, ⟨Nat.zero_le _, rfl⟩, hsize⟩
  · simp only [FromFile.held, FromFile.refilled, FromFile.note, hwindow, hpending]

/-- A handler whose window is empty, in a step with nothing else pending. -/
structure Refills (s : FromFile) : Prop where
  live : s.live = true
  alone : s.tasks = [] ∧ s.waits = 0
  idle : s.handler.waiting = false
  held : s.held = []
  quiet : s.Quiet

theorem Refills.fillBuffer_eq (hf : Refills s) {read : Option (List UInt8)} (hread : read = none ∨ read = some [])
    (write : WriteResult) :
    s.fillBuffer read write = .ok ((s.note (.read read)).proceed s.handler (.sendCallback (decide (read ≠ none)))) := by
  have hnone : read.getD [] = [] := by
    rcases hread with rfl | rfl <;> rfl
  have hfill : s.handler.fillBuffer read write = .ok (s.handler, .sendCallback (decide (read ≠ none))) := by
    rcases hread with rfl | rfl <;> simp [CopyFromFileHandler.fillBuffer, sendCallback, hf.idle]
  simp [FromFile.fillBuffer, FromFile.note, FromFile.proceed, hf.live, hnone, hfill]

/-- `ReadFileDescriptor` failed, or found the end of the file. -/
theorem Accounted.finish (h : Accounted file s) (hf : Refills s) {read : Option (List UInt8)}
    (hread : read = none ∨ read = some []) (hend : s.CanRead read) (write : WriteResult) :
    ∃ t, s.fillBuffer read write = .ok t ∧ Accounted file t ∧ Reported file t := by
  have hwindow : window (.read read :: s.log) = window s.log := by
    rcases hread with rfl | rfl <;> rfl
  have hacc : Accounted file (s.note (.read read)) := by
    refine ⟨h.stream, ?_, ?_, ?_⟩
    · simpa only [FromFile.held, FromFile.note, hwindow] using h.bytes
    · simp only [FromFile.note]
      rw [everyPast_cons]
      exact ⟨trivial, h.writes⟩
    · simpa only [FromFile.note, hwindow] using h.filled
  refine ⟨_, hf.fillBuffer_eq hread write, hacc.report _, rfl, hf.alone, decide (read ≠ none), .read read :: s.log, rfl,
    ?_, ?_⟩
  · intro e he
    rcases List.mem_cons.mp he with rfl | he
    · exact id
    · exact (hf.quiet e he).2.1
  · rcases hread with rfl | rfl
    · refine iff_of_false (by simp) fun hall => hall.2.1 _ List.mem_cons_self rfl
    · refine iff_of_true (by simp) ⟨List.mem_cons_self, ?_, ?_⟩
      · intro e he
        rcases List.mem_cons.mp he with rfl | he
        · simp [FromFileEvent.IsError]
        · exact (hf.quiet e he).1
      · have hstream := h.stream
        have hbytes := h.bytes
        rw [hend.2.2 rfl, List.append_nil] at hstream
        rw [hf.held, List.append_nil] at hbytes
        exact hbytes.trans hstream

/-- `FillBuffer` with something to write goes on as `OnHandleReady`. -/
theorem Accounted.refill (h : Accounted file s) (hf : Refills s) {bytes : List UInt8} (hb : bytes ≠ [])
    (hread : s.CanRead (some bytes)) : Accounted file (s.refilled bytes) ∧ Resumes (s.refilled bytes) .ok := by
  obtain ⟨hacc, hheld⟩ := h.fill hf.held hb hread
  have hquiet : ∀ e ∈ (s.refilled bytes).log, ¬ e.IsError ∧ ¬ e.IsEnd ∧ e ≠ .read (some []) := by
    intro e he
    rcases List.mem_cons.mp he with rfl | he
    · exact ⟨by simp [FromFileEvent.IsError], id, by simpa using hb⟩
    · exact hf.quiet e he
  exact ⟨hacc, hf.live, hf.alone, hf.idle, by rw [hheld]; exact hb, fun e he => (hquiet e he).2,
    fun e he herr => absurd herr (hquiet e he).1, .inl rfl⟩

/-- `WaitComplete` goes on as `OnHandleReady`. -/
theorem Accounted.wake (h : Accounted file s) (hc : Continues s) {signals : MxSignals}
    (hnext : s.ContinuesBy (.asyncWait signals)) (result : MxStatus) :
    Accounted file { { s with waits := s.waits - 1 }.note (.waited result) with
      handler := { s.handler with waiting := false } } ∧
    Resumes { { s with waits := s.waits - 1 }.note (.waited result) with
      handler := { s.handler with waiting := false } } result := by
  obtain ⟨ht, hw, hheld⟩ := hnext
  refine ⟨⟨h.stream, h.bytes, ?_, ?_⟩, hc.live, ⟨ht, by simp [FromFile.note, hw]⟩, rfl, hheld, ?_, ?_,
    .inr List.mem_cons_self⟩
  · simp only [FromFile.note]
    rw [everyPast_cons]
    exact ⟨trivial, h.writes⟩
  · intro bytes accepted hwindow
    obtain ⟨hbuf, hoff, hb, hend⟩ := h.filled bytes accepted hwindow
    exact ⟨hbuf, hoff, ⟨hb.offset, hb.filled⟩, hend⟩
  · intro e he
    rcases List.mem_cons.mp he with rfl | he
    · exact ⟨id, by simp⟩
    · exact (hc.quiet e he).2
  · intro e he herr
    rcases List.mem_cons.mp he with rfl | he
    · rfl
    · exact absurd herr (hc.quiet e he).1

/-- What a step of a live handler comes to: `OnHandleReady` with something to write, or the end of the
reading. -/
theorem Accounted.step_cases (h : Accounted file s) (hc : Continues s) {a : FromFileAct}
    (he : fromFileMachine.Enabled s a) :
    (∃ u result write, Accounted file u ∧ Resumes u result ∧ u.handler.CanWrite write ∧
      fromFileMachine.step s a = u.ready result write CopyFromFileHandler.onHandleReady) ∨
    ∃ u read write, Accounted file u ∧ Refills u ∧ (read = none ∨ read = some []) ∧ u.CanRead read ∧
      fromFileMachine.step s a = u.fillBuffer read write := by
  obtain ⟨next, hnext⟩ := hc.next
  -- taking a task leaves the account as it is
  have htask (tasks : List FromFileTask) : Accounted file { s with tasks := tasks } :=
    ⟨h.stream, h.bytes, h.writes, h.filled⟩
  cases a with
  | fillBuffer read write =>
    obtain ⟨hmem, hread, hcan⟩ := he
    cases next with
    | postFill =>
      obtain ⟨ht, hw, hidle, hheld⟩ := hnext
      have hf : Refills { s with tasks := s.tasks.erase .fillBuffer } :=
        ⟨hc.live, ⟨by simp [ht], hw⟩, hidle, hheld, hc.quiet⟩
      by_cases hnone : read = none ∨ read = some []
      · exact .inr ⟨_, read, write, htask _, hf, hnone, hread, rfl⟩
      · obtain ⟨bytes, rfl⟩ := Option.ne_none_iff_exists'.mp fun hr => hnone (.inl hr)
        have hb : bytes ≠ [] := fun hb => hnone (.inr (by rw [hb]))
        obtain ⟨hacc, hr⟩ := (htask _).refill hf hb hread
        exact .inl ⟨_, .ok, write, hacc, hr, hcan, fillBuffer_ready hb write⟩
    | postReady => simp [hnext.1] at hmem
    | asyncWait => simp [hnext.1] at hmem
    | sendCallback => exact hnext.elim
  | onHandleReady write =>
    obtain ⟨hmem, hcan⟩ := he
    cases next with
    | postReady =>
      obtain ⟨ht, hw, hidle, hheld⟩ := hnext
      exact .inl ⟨_, .ok, write, htask (s.tasks.erase .onHandleReady), ⟨hc.live, ⟨by simp [ht], hw⟩, hidle, hheld,
        fun e he => (hc.quiet e he).2, fun e he herr => absurd herr (hc.quiet e he).1, .inl rfl⟩, hcan, rfl⟩
    | postFill => simp [hnext.1] at hmem
    | asyncWait => simp [hnext.1] at hmem
    | sendCallback => exact hnext.elim
  | waitComplete result write =>
    obtain ⟨hpos, hcan⟩ := he
    cases next with
    | asyncWait signals =>
      obtain ⟨hacc, hr⟩ := h.wake hc hnext result
      exact .inl ⟨_, result, write, hacc, hr, hcan, ready_waitComplete result write⟩
    | postFill | postReady =>
      have := hnext.2.1
      omega
    | sendCallback => exact hnext.elim

/-- A handler that reported takes no step. -/
theorem Reported.stuck (hr : Reported file s) (a : FromFileAct) : ¬ fromFileMachine.Enabled s a := by
  intro he
  cases a with
  | fillBuffer | onHandleReady =>
    have := he.1
    simp [hr.alone.1] at this
  | waitComplete =>
    have := he.1
    have := hr.alone.2
    omega

/-- Every step keeps the account and goes on in one way, or reports. -/
theorem Accounted.step (h : Accounted file s) (hs : Continues s ∨ Reported file s) (a : FromFileAct)
    (he : fromFileMachine.Enabled s a) :
    ∃ t, fromFileMachine.step s a = .ok t ∧ Accounted file t ∧ (Continues t ∨ Reported file t) := by
  rcases hs with hc | hr
  · rcases h.step_cases hc he with ⟨u, result, write, hacc, hr, hcan, hstep⟩ | ⟨u, read, write, hacc, hf, hnone, hread, hstep⟩
    · rw [hstep]
      exact hacc.ready hr hcan
    · obtain ⟨t, ht, hacc', hend⟩ := hacc.finish hf hnone hread write
      exact ⟨t, hstep.trans ht, hacc', .inr hend⟩
  · exact absurd he (hr.stuck a)

end Steps

/-- A copy of any file with any results of its reads, writes and waits. Each write was made from a
window left of the last `FillBuffer`, every byte that was read is accepted or held, a live handler
goes on in exactly one way, and one that is gone made its one call last, with the truth. -/
theorem copy_from_file_truthful (file buffer : List UInt8) (bufferOffset bufferEnd : Nat) {acts : List FromFileAct}
    {result : Except Fault FromFile}
    (hrun : fromFileMachine.Run (.start file buffer bufferOffset bufferEnd) acts result) :
    ∃ s, result = .ok s ∧ EveryPast WroteFilled s.log ∧
      s.taken ++ s.unread = file ∧ s.accepted ++ s.held = s.taken ∧
      (s.live = true → s.tasks.length + s.waits = 1 ∧ ∀ e ∈ s.log, ¬ e.IsEnd) ∧
      (s.live = false → s.tasks.length + s.waits = 0 ∧
        ∃ value log, s.log = .callback value :: .deleted :: log ∧ (∀ e ∈ log, ¬ e.IsEnd) ∧
          (value = true ↔ .read (some []) ∈ log ∧ (∀ e ∈ log, ¬ e.IsError) ∧ s.accepted = file)) := by
  obtain ⟨s, rfl, hacc, hs⟩ := hrun.safe (I := fun s => Accounted file s ∧ (Continues s ∨ Reported file s))
    (fun s a h he => h.1.step h.2 a he) ⟨.start _ _ _ _, .inl (.start _ _ _ _)⟩
  refine ⟨s, rfl, hacc.writes, hacc.stream, hacc.bytes, ?_, ?_⟩
  · intro hlive
    have hc : Continues s := hs.resolve_right fun hr => absurd (hlive.symm.trans hr.dead) (by decide)
    refine ⟨?_, fun e he => (hc.quiet e he).2.1⟩
    obtain ⟨next, hnext⟩ := hc.next
    cases next with
    | postFill | postReady => simp [hnext.1, hnext.2.1]
    | asyncWait => simp [hnext.1, hnext.2.1]
    | sendCallback => exact hnext.elim
  · intro hdead
    have hr : Reported file s := hs.resolve_left fun hc => absurd (hdead.symm.trans hc.live) (by decide)
    exact ⟨by simp [hr.alone.1, hr.alone.2], hr.report⟩

/-- A file of two bytes: a short write, an empty one, a wait, and the end of the file. -/
theorem copy_from_file_truthful_short_writes :
    ∃ s, fromFileMachine.Run (.start [7, 9] [0] 3 5) [.fillBuffer (some [7, 9]) ⟨.ok, 1⟩, .onHandleReady ⟨.ok, 0⟩,
        .onHandleReady ⟨.errShouldWait, 0⟩, .waitComplete .ok ⟨.ok, 1⟩, .fillBuffer (some []) ⟨.ok, 0⟩] (.ok s) ∧
      s.live = false ∧ s.accepted = [7, 9] ∧ s.taken ++ s.unread = [7, 9] ∧ EveryPast WroteFilled s.log := by
  have hrun : fromFileMachine.Run (.start [7, 9] [0] 3 5) [.fillBuffer (some [7, 9]) ⟨.ok, 1⟩,
      .onHandleReady ⟨.ok, 0⟩, .onHandleReady ⟨.errShouldWait, 0⟩, .waitComplete .ok ⟨.ok, 1⟩,
      .fillBuffer (some []) ⟨.ok, 0⟩] (.ok _) :=
    .step ⟨by decide, ⟨List.prefix_rfl, by decide, by simp⟩, fun _ => by decide⟩ rfl
      (.step ⟨by decide, fun _ => by decide⟩ rfl (.step ⟨by decide, fun _ => by decide⟩ rfl
        (.step ⟨by decide, fun _ => by decide⟩ rfl
          (.step ⟨by decide, ⟨List.nil_prefix, by decide, fun _ => rfl⟩, fun _ => by decide⟩ rfl (.nil _)))))
  obtain ⟨s, hs, hwrites, hstream, -⟩ := copy_from_file_truthful _ _ _ _ hrun
  cases hs
  exact ⟨_, hrun, rfl, rfl, hstream, hwrites⟩

end Mtl.Socket
