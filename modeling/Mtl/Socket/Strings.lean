import Mtl.Socket.Drains

/-! Strings through a blocking copy: `BlockingCopyFromString` in one thread and
`BlockingCopyToString` in another, over a socket of any capacity. -/
namespace Mtl.Socket
open Foundation

/-- The locals of `BlockingCopyFromString`: `ptr` counts from the start of the source. -/
structure StringWriter where
  ptr : Nat := 0
  toWrite : Nat

namespace StringWriter

/-- The bytes that the next `write` offers. -/
def offered (w : StringWriter) (source : List UInt8) : List UInt8 := (source.drop w.ptr).take w.toWrite

/-- The loop's body after `destination.write`. -/
def afterWrite (w : StringWriter) (write : WriteResult) : StringWriter × BlockingStep :=
  match write.status with
  | .ok =>
    if write.accepted = w.toWrite then (w, .ret true)
    else ({ ptr := w.ptr + write.accepted, toWrite := w.toWrite - write.accepted }, .loop)
  | .errShouldWait => (w, .waitOne {.socketWritable, .socketPeerClosed})
  | status => (w, .ret (status = .errPeerClosed))

/-- The loop's body after `destination.wait_one`. -/
def afterWait (result : MxStatus) : BlockingStep :=
  if result ≠ .ok then .ret (result = .errPeerClosed) else .loop

end StringWriter

/-- The callback of `BlockingCopyToString`, whose `num_bytes` is a `uint32_t`: the string, and what
the callback returned. -/
def appendBytes (out buffer : List UInt8) : List UInt8 × Nat :=
  let numBytes := (UInt32.ofNat buffer.length).toNat
  (out ++ buffer.take numBytes, numBytes)

/-- A `write` of no bytes is accepted whatever the socket holds. -/
def ByteFifo.writeAny (f : ByteFifo) (capacity : Nat) (bytes : List UInt8) (n : Nat) : ByteFifo × WriteResult :=
  if bytes = [] then (f, ⟨.ok, 0⟩) else f.write capacity bytes n

/-- The two threads and the socket between them. `sent` is how many bytes the writes have accepted;
`cleared` says whether `BlockingCopyToString` has begun. -/
structure StringCopy where
  writer : StringWriter
  writerNext : BlockingStep := .loop
  sent : Nat := 0
  socket : ByteFifo := {}
  out : List UInt8
  cleared : Bool := false
  readerNext : BlockingStep := .loop

/-- One system call of a thread, with the kernel's choices, or what follows it. -/
inductive StringAct where
  | write (n : Nat)
  | writerWakes
  | closeWriter
  | clear
  | read (n : Nat)
  | readerWakes

namespace StringCopy

/-- `out` has some previous content. -/
def start (source previous : List UInt8) : StringCopy := { writer := { toWrite := source.length }, out := previous }

def write (s : StringCopy) (source : List UInt8) (capacity n : Nat) : StringCopy :=
  let (socket, write) := s.socket.writeAny capacity (s.writer.offered source) n
  let (writer, next) := s.writer.afterWrite write
  { s with socket := socket, writer := writer, writerNext := next, sent := s.sent + write.accepted }

/-- The socket is a parameter of `BlockingDrainFrom` and is closed when that returns. -/
def read (s : StringCopy) (n : Nat) : StringCopy :=
  let (socket, read) := s.socket.read n
  let (out, written) := if read.status = .ok then appendBytes s.out read.bytes else (s.out, 0)
  match BlockingDrain.afterRead read written with
  | .ret value => { s with
      socket := { socket with readerClosed := true }
      out := out
      readerNext := .ret value }
  | next => { s with socket := socket, out := out, readerNext := next }

end StringCopy

def stringMachine (source : List UInt8) (capacity : Nat) : Machine StringCopy StringAct Fault where
  Enabled s
    | .write n => s.writerNext = .loop ∧
      (s.writer.offered source ≠ [] → s.socket.CanWrite capacity (s.writer.offered source) n)
    | .writerWakes => ∃ signals, s.writerNext = .waitOne signals ∧
      ByteFifo.Asserted (s.socket.writerSignals capacity) signals
    | .closeWriter => (∃ value, s.writerNext = .ret value) ∧ s.socket.writer = .opened
    | .clear => s.cleared = false
    | .read n => s.cleared = true ∧ s.readerNext = .loop ∧ s.socket.CanRead n
    | .readerWakes => ∃ signals, s.readerNext = .waitOne signals ∧ ByteFifo.Asserted s.socket.readerSignals signals
  step s
    | .write n => .ok (s.write source capacity n)
    | .writerWakes => .ok { s with writerNext := StringWriter.afterWait .ok }
    | .closeWriter => .ok { s with socket.writer := .closed }
    | .clear => .ok { s with out := [], cleared := true }
    | .read n => .ok (s.read n)
    | .readerWakes => .ok { s with readerNext := BlockingDrain.afterWait .ok }

/-- What the writer's position says of the rest. -/
def StringCopy.WriterAt (source : List UInt8) (s : StringCopy) : BlockingStep → Prop
  | .loop => s.writer = ⟨s.sent, source.length - s.sent⟩ ∧ s.socket.writer = .opened
  | .waitOne signals => s.writer = ⟨s.sent, source.length - s.sent⟩ ∧ s.socket.writer = .opened ∧
    signals = {.socketWritable, .socketPeerClosed} ∧ s.sent < source.length
  | .ret value => value = true ∧ s.sent = source.length ∧ s.socket.writer ≠ .shutdown

def StringCopy.ReaderAt (s : StringCopy) : BlockingStep → Prop
  | .loop => s.socket.readerClosed = false
  | .waitOne signals => s.socket.readerClosed = false ∧ s.cleared = true ∧ signals = {.socketReadable, .socketPeerClosed}
  | .ret value => value = true ∧ s.cleared = true ∧ s.socket.queued = [] ∧ s.socket.writer = .closed

/-- Every byte of the string is in `out`, in the socket or yet to be accepted, in order. -/
structure Surviving (source : List UInt8) (s : StringCopy) : Prop where
  bytes : (if s.cleared then s.out else []) ++ s.socket.queued ++ source.drop s.sent = source
  sent : s.sent ≤ source.length
  writer : s.WriterAt source s.writerNext
  reader : s.ReaderAt s.readerNext

namespace StringCopy

/-- The steps left to a blocked or looping thread that move no byte. -/
def writerRank (capacity : Nat) (s : StringCopy) : Nat :=
  match s.writerNext with
  | .loop => 1
  | .waitOne _ => if s.socket.queued.length < capacity then 2 else 0
  | .ret _ => 0

def readerRank (s : StringCopy) : Nat :=
  match s.readerNext with
  | .loop => 1
  | .waitOne _ => if s.socket.queued ≠ [] ∨ s.socket.writer ≠ .opened then 2 else 0
  | .ret _ => 0

/-- Every step moves bytes on, ends a wait or a loop, or is the one that clears or closes. -/
def rank (source : List UInt8) (capacity : Nat) (s : StringCopy) : Nat :=
  3 * (2 * (source.length - s.sent) + s.socket.queued.length) + (if s.socket.writer = .opened then 3 else 0) +
    (if s.cleared then 0 else 1) + s.writerRank capacity + s.readerRank

theorem writerRank_le (capacity : Nat) (s : StringCopy) : s.writerRank capacity ≤ 2 := by
  unfold writerRank
  split
  · omega
  · split_ifs <;> omega
  · omega

theorem readerRank_le (s : StringCopy) : s.readerRank ≤ 2 := by
  unfold readerRank
  split
  · omega
  · split_ifs <;> omega
  · omega

end StringCopy

theorem StringWriter.offered_eq (source : List UInt8) (sent : Nat) :
    StringWriter.offered ⟨sent, source.length - sent⟩ source = source.drop sent := by
  rw [offered, List.take_of_length_le (by simp)]

theorem appendBytes_eq (out buffer : List UInt8) (h : buffer.length ≤ bufferSize) :
    appendBytes out buffer = (out ++ buffer, buffer.length) := by
  have hlen : (UInt32.ofNat buffer.length).toNat = buffer.length :=
    UInt32.toNat_ofNat_of_lt' (show _ < 2^32 by simp only [bufferSize] at h; omega)
  simp [appendBytes, hlen]

namespace Surviving
variable {source : List UInt8} {capacity : Nat} {s : StringCopy}

theorem init (source previous : List UInt8) : Surviving source (.start source previous) :=
  ⟨rfl, Nat.zero_le _, ⟨rfl, rfl⟩, rfl⟩

/-- As long as the writer's end is open the reader goes on. -/
theorem reader_open (h : Surviving source s) (hopen : s.socket.writer = .opened) : s.socket.readerClosed = false := by
  have hreader := h.reader
  cases hn : s.readerNext with
  | loop => exact (hn ▸ hreader : s.ReaderAt .loop)
  | waitOne signals => exact (hn ▸ hreader : s.ReaderAt (.waitOne signals)).1
  | ret value => exact absurd (hopen.symm.trans (hn ▸ hreader : s.ReaderAt (.ret value)).2.2.2) (by decide)

/-- The reader's position is not moved by what the writer does. -/
theorem reader_kept (h : Surviving source s) (hopen : s.socket.writer = .opened) {t : StringCopy}
    (hn : t.readerNext = s.readerNext) (hc : t.cleared = s.cleared)
    (hr : t.socket.readerClosed = s.socket.readerClosed) : t.ReaderAt t.readerNext := by
  have hreader := h.reader
  rw [hn]
  cases hs : s.readerNext with
  | loop => exact hr.trans (hs ▸ hreader : s.ReaderAt .loop)
  | waitOne signals =>
    obtain ⟨h1, h2, h3⟩ := (hs ▸ hreader : s.ReaderAt (.waitOne signals))
    exact ⟨hr.trans h1, hc.trans h2, h3⟩
  | ret value => exact absurd (hopen.symm.trans (hs ▸ hreader : s.ReaderAt (.ret value)).2.2.2) (by decide)

theorem write (h : Surviving source s) (hn : s.writerNext = .loop) {n : Nat}
    (hchoice : s.writer.offered source ≠ [] → s.socket.CanWrite capacity (s.writer.offered source) n) :
    Surviving source (s.write source capacity n) ∧ (s.write source capacity n).rank source capacity < s.rank source capacity := by
  obtain ⟨hwriter, hopen⟩ := (hn ▸ h.writer : s.WriterAt source .loop)
  have hreader := h.reader_open hopen
  have hbytes := h.bytes
  have hsent := h.sent
  have hoffered : s.writer.offered source = source.drop s.sent := by rw [hwriter, StringWriter.offered_eq]
  rw [hoffered] at hchoice
  have hrank : s.writerRank capacity = 1 := by rw [StringCopy.writerRank, hn]
  by_cases hend : s.sent = source.length
  · -- nothing is left: the write of no bytes returns at once
    have hnone : source.drop s.sent = [] := by rw [hend, List.drop_length]
    have heq : s.write source capacity n = { s with writerNext := .ret true } := by
      have hzero : s.writer.toWrite = 0 := by rw [hwriter, hend, Nat.sub_self]
      simp [StringCopy.write, hoffered, hnone, ByteFifo.writeAny, StringWriter.afterWrite, hzero]
    rw [heq]
    refine ⟨⟨hbytes, hsent, ⟨rfl, hend, by simp [hopen]⟩, h.reader⟩, ?_⟩
    simp only [StringCopy.rank, hrank]
    simp [StringCopy.writerRank, StringCopy.readerRank]
  · have hsome : source.drop s.sent ≠ [] := by
      rw [ne_eq, List.drop_eq_nil_iff]
      omega
    by_cases hroom : s.socket.queued.length < capacity
    · obtain ⟨hpos, hle, -⟩ := hchoice hsome hreader hroom
      rw [List.length_drop] at hle
      obtain ⟨next, hnext, hat⟩ : ∃ next, s.write source capacity n = { s with
          socket.queued := s.socket.queued ++ (source.drop s.sent).take n
          writer := (s.writer.afterWrite ⟨.ok, n⟩).1
          writerNext := next
          sent := s.sent + n } ∧ ((next = .loop ∧ (s.writer.afterWrite ⟨.ok, n⟩).1 =
            ⟨s.sent + n, source.length - (s.sent + n)⟩) ∨ (next = .ret true ∧ s.sent + n = source.length)) := by
        refine ⟨(s.writer.afterWrite ⟨.ok, n⟩).2, ?_, ?_⟩
        · simp [StringCopy.write, hoffered, ByteFifo.writeAny, hsome, ByteFifo.write, hreader, Nat.not_le.mpr hroom]
        · rw [hwriter]
          by_cases hall : n = source.length - s.sent
          · exact .inr ⟨by simp [StringWriter.afterWrite, hall], by omega⟩
          · exact .inl ⟨by simp [StringWriter.afterWrite, hall], by simp [StringWriter.afterWrite, hall, Nat.sub_sub]⟩
      have hmoved : (if s.cleared then s.out else []) ++ (s.socket.queued ++ (source.drop s.sent).take n) ++
          source.drop (s.sent + n) = source := by
        rw [← List.drop_drop]
        simpa using hbytes
      rw [hnext]
      refine ⟨⟨hmoved, by simp only; omega, ?_, h.reader_kept hopen rfl rfl rfl⟩, ?_⟩
      · rcases hat with ⟨rfl, hat⟩ | ⟨rfl, hat⟩
        · exact ⟨hat, hopen⟩
        · exact ⟨rfl, hat, by simp [hopen]⟩
      · refine (Nat.add_le_add_left (StringCopy.readerRank_le _) _).trans_lt ?_
        have hloop : StringCopy.writerRank capacity { s with
          socket.queued := s.socket.queued ++ (source.drop s.sent).take n
          writer := (s.writer.afterWrite ⟨.ok, n⟩).1
          writerNext := next
          sent := s.sent + n } ≤ 1 := by
          rcases hat with ⟨rfl, -⟩ | ⟨rfl, -⟩ <;> simp [StringCopy.writerRank]
        simp only [StringCopy.rank, hrank, List.length_append, List.length_take, List.length_drop] at hloop ⊢
        omega
    · have heq : s.write source capacity n = { s with
          writerNext := .waitOne {.socketWritable, .socketPeerClosed} } := by
        simp [StringCopy.write, hoffered, ByteFifo.writeAny, hsome, ByteFifo.write, hreader, Nat.not_lt.mp hroom,
          StringWriter.afterWrite]
      rw [heq]
      refine ⟨⟨hbytes, hsent, ⟨hwriter, hopen, rfl, Nat.lt_of_le_of_ne hsent hend⟩, h.reader⟩, ?_⟩
      simp only [StringCopy.rank, hrank]
      simp [StringCopy.writerRank, StringCopy.readerRank, hroom]

theorem writerWakes (h : Surviving source s) {signals : MxSignals} (hn : s.writerNext = .waitOne signals)
    (ha : ByteFifo.Asserted (s.socket.writerSignals capacity) signals) :
    Surviving source { s with writerNext := .loop } ∧
      StringCopy.rank source capacity { s with writerNext := .loop } < s.rank source capacity := by
  obtain ⟨hwriter, hopen, -, -⟩ := (hn ▸ h.writer : s.WriterAt source (.waitOne signals))
  have hroom := ByteFifo.writable_of_asserted (h.reader_open hopen) ha
  refine ⟨⟨h.bytes, h.sent, ⟨hwriter, hopen⟩, h.reader⟩, ?_⟩
  have hrank : s.writerRank capacity = 2 := by simp [StringCopy.writerRank, hn, hroom]
  simp only [StringCopy.rank, hrank]
  simp [StringCopy.writerRank, StringCopy.readerRank]

theorem closeWriter (h : Surviving source s) {value : Bool} (hn : s.writerNext = .ret value)
    (hopen : s.socket.writer = .opened) :
    Surviving source { s with socket.writer := .closed } ∧
      StringCopy.rank source capacity { s with socket.writer := .closed } < s.rank source capacity := by
  obtain ⟨hvalue, hsent, -⟩ := (hn ▸ h.writer : s.WriterAt source (.ret value))
  refine ⟨⟨h.bytes, h.sent, ?_, h.reader_kept hopen rfl rfl rfl⟩, ?_⟩
  · simp only [hn]
    exact ⟨hvalue, hsent, by simp⟩
  · refine (Nat.add_le_add_left (StringCopy.readerRank_le _) _).trans_lt ?_
    simp only [StringCopy.rank, StringCopy.writerRank, hn, hopen, if_true, reduceCtorEq, if_false]
    omega

theorem clear (h : Surviving source s) (hc : s.cleared = false) :
    Surviving source { s with out := [], cleared := true } ∧
      StringCopy.rank source capacity { s with out := [], cleared := true } < s.rank source capacity := by
  have hbytes := h.bytes
  have hreader := h.reader
  rw [hc] at hbytes
  refine ⟨⟨hbytes, h.sent, h.writer, ?_⟩, ?_⟩
  · cases hn : s.readerNext with
    | loop => exact (hn ▸ hreader : s.ReaderAt .loop)
    | waitOne signals =>
      have := (hn ▸ hreader : s.ReaderAt (.waitOne signals)).2.1
      simp [hc] at this
    | ret value =>
      have := (hn ▸ hreader : s.ReaderAt (.ret value)).2.1
      simp [hc] at this
  · simp [StringCopy.rank, hc, StringCopy.writerRank, StringCopy.readerRank]

/-- A read that finds bytes appends them, and one at the end of the stream returns. -/
theorem read (h : Surviving source s) (hc : s.cleared = true) (hn : s.readerNext = .loop) {n : Nat}
    (hchoice : s.socket.CanRead n) :
    Surviving source (s.read n) ∧ (s.read n).rank source capacity < s.rank source capacity := by
  have hopen := (hn ▸ h.reader : s.ReaderAt .loop)
  have hbytes := h.bytes
  have hwriter := h.writer
  have hrank : s.readerRank = 1 := by rw [StringCopy.readerRank, hn]
  rw [if_pos hc] at hbytes
  by_cases hq : s.socket.queued = []
  · cases hw : s.socket.writer with
    | opened =>
      have heq : s.read n = { s with readerNext := .waitOne {.socketReadable, .socketPeerClosed} } := by
        simp [StringCopy.read, ByteFifo.read, hq, hw, BlockingDrain.afterRead]
      rw [heq]
      refine ⟨⟨by rw [if_pos hc]; exact hbytes, h.sent, hwriter, ⟨hopen, hc, rfl⟩⟩, ?_⟩
      simp only [StringCopy.rank, hrank]
      simp [StringCopy.readerRank, StringCopy.writerRank, hq, hw]
    | shutdown =>
      exfalso
      cases hnext : s.writerNext with
      | loop => exact absurd (hw.symm.trans (hnext ▸ hwriter : s.WriterAt source .loop).2) (by decide)
      | waitOne signals =>
        exact absurd (hw.symm.trans (hnext ▸ hwriter : s.WriterAt source (.waitOne signals)).2.1) (by decide)
      | ret value => exact (hnext ▸ hwriter : s.WriterAt source (.ret value)).2.2 hw
    | closed =>
      have heq : s.read n = { s with socket.readerClosed := true, readerNext := .ret true } := by
        simp [StringCopy.read, ByteFifo.read, hq, hw, BlockingDrain.afterRead]
      rw [heq]
      refine ⟨⟨by rw [if_pos hc]; exact hbytes, h.sent, ?_, ⟨rfl, hc, hq, hw⟩⟩, ?_⟩
      · cases hnext : s.writerNext with
        | loop => exact absurd (hw.symm.trans (hnext ▸ hwriter : s.WriterAt source .loop).2) (by decide)
        | waitOne signals =>
          exact absurd (hw.symm.trans (hnext ▸ hwriter : s.WriterAt source (.waitOne signals)).2.1) (by decide)
        | ret value => exact (hnext ▸ hwriter : s.WriterAt source (.ret value))
      · simp only [StringCopy.rank, hrank]
        simp [StringCopy.readerRank, StringCopy.writerRank]
  · obtain ⟨hpos, hle, hsize⟩ := hchoice hq
    have happend := appendBytes_eq s.out (s.socket.queued.take n) (by rw [List.length_take]; omega)
    have heq : s.read n = { s with socket.queued := s.socket.queued.drop n, out := s.out ++ s.socket.queued.take n } := by
      simp [StringCopy.read, ByteFifo.read, hq, happend, BlockingDrain.afterRead, hn]
    rw [heq]
    refine ⟨⟨?_, h.sent, hwriter, by simp only [hn]; exact hopen⟩, ?_⟩
    · rw [if_pos hc]
      simpa using hbytes
    · have hwrank := StringCopy.writerRank_le capacity { s with
        socket.queued := s.socket.queued.drop n, out := s.out ++ s.socket.queued.take n }
      have hrrank : StringCopy.readerRank { s with
        socket.queued := s.socket.queued.drop n, out := s.out ++ s.socket.queued.take n } = 1 := by
        rw [StringCopy.readerRank]
        simp only [hn]
      simp only [StringCopy.rank, hrank, hrrank, List.length_drop] at hwrank ⊢
      omega

theorem readerWakes (h : Surviving source s) {signals : MxSignals} (hn : s.readerNext = .waitOne signals)
    (ha : ByteFifo.Asserted s.socket.readerSignals signals) :
    Surviving source { s with readerNext := .loop } ∧
      StringCopy.rank source capacity { s with readerNext := .loop } < s.rank source capacity := by
  have hopen := (hn ▸ h.reader : s.ReaderAt (.waitOne signals)).1
  have hready : s.socket.queued ≠ [] ∨ s.socket.writer ≠ .opened := by
    by_contra hnot
    simp only [not_or, not_not] at hnot
    simp [ByteFifo.Asserted, ByteFifo.readerSignals, hnot] at ha
  refine ⟨⟨h.bytes, h.sent, h.writer, hopen⟩, ?_⟩
  have hrank : s.readerRank = 2 := by rw [StringCopy.readerRank, hn, if_pos hready]
  simp only [StringCopy.rank, hrank]
  simp [StringCopy.writerRank, StringCopy.readerRank]

theorem step (h : Surviving source s) (a : StringAct) (he : (stringMachine source capacity).Enabled s a) :
    ∃ t, (stringMachine source capacity).step s a = .ok t ∧ Surviving source t ∧
      t.rank source capacity < s.rank source capacity := by
  cases a with
  | write n => exact ⟨_, rfl, h.write he.1 he.2⟩
  | writerWakes =>
    obtain ⟨signals, hn, ha⟩ := he
    exact ⟨_, rfl, h.writerWakes hn ha⟩
  | closeWriter =>
    obtain ⟨⟨value, hn⟩, hopen⟩ := he
    exact ⟨_, rfl, h.closeWriter hn hopen⟩
  | clear => exact ⟨_, rfl, h.clear he⟩
  | read n => exact ⟨_, rfl, h.read he.1 he.2.1 he.2.2⟩
  | readerWakes =>
    obtain ⟨signals, hn, ha⟩ := he
    exact ⟨_, rfl, h.readerWakes hn ha⟩

end Surviving

/-- A thread that waits for signals none of which is asserted. -/
def StringCopy.WriterBlocked (capacity : Nat) (s : StringCopy) : Prop :=
  ∃ signals, s.writerNext = .waitOne signals ∧ ¬ ByteFifo.Asserted (s.socket.writerSignals capacity) signals

def StringCopy.ReaderBlocked (s : StringCopy) : Prop :=
  ∃ signals, s.readerNext = .waitOne signals ∧ ¬ ByteFifo.Asserted s.socket.readerSignals signals

namespace Surviving
variable {source : List UInt8} {capacity : Nat} {s : StringCopy}

/-- A blocked writer has filled the socket, a blocked reader has emptied it. -/
theorem not_both_blocked (h : Surviving source s) (hcap : 0 < capacity) :
    ¬ (s.WriterBlocked capacity ∧ s.ReaderBlocked) := by
  rintro ⟨⟨signals, hn, ha⟩, signals', hn', ha'⟩
  obtain ⟨-, hopen, rfl, -⟩ := (hn ▸ h.writer : s.WriterAt source (.waitOne signals))
  obtain ⟨hreader, -, rfl⟩ := (hn' ▸ h.reader : s.ReaderAt (.waitOne signals'))
  by_cases hq : s.socket.queued = []
  · refine ha (ByteFifo.asserted_of_mem .socketWritable ?_ (by decide))
    simp [ByteFifo.writerSignals, hreader, hq, hcap]
  · refine ha' (ByteFifo.asserted_of_mem .socketReadable ?_ (by decide))
    simp [ByteFifo.readerSignals, hq]

/-- Until both threads have returned one of them can go on. -/
theorem progress (h : Surviving source s) (hcap : 0 < capacity) :
    (∃ a, (stringMachine source capacity).Enabled s a) ∨ (s.writerNext = .ret true ∧ s.readerNext = .ret true) := by
  cases hc : s.cleared with
  | false => exact .inl ⟨.clear, hc⟩
  | true =>
    cases hn' : s.readerNext with
    | loop => exact .inl ⟨.read 1, hc, hn', s.socket.canRead_one⟩
    | waitOne signals' =>
      left
      by_cases ha' : ByteFifo.Asserted s.socket.readerSignals signals'
      · exact ⟨.readerWakes, signals', hn', ha'⟩
      · cases hn : s.writerNext with
        | loop => exact ⟨.write 1, hn, fun hsome => s.socket.canWrite_one hsome⟩
        | waitOne signals =>
          by_cases ha : ByteFifo.Asserted (s.socket.writerSignals capacity) signals
          · exact ⟨.writerWakes, signals, hn, ha⟩
          · exact absurd ⟨⟨signals, hn, ha⟩, signals', hn', ha'⟩ (h.not_both_blocked hcap)
        | ret value =>
          refine ⟨.closeWriter, ⟨value, hn⟩, ?_⟩
          obtain ⟨-, -, rfl⟩ := (hn' ▸ h.reader : s.ReaderAt (.waitOne signals'))
          have hnot := (hn ▸ h.writer : s.WriterAt source (.ret value)).2.2
          cases hw : s.socket.writer with
          | opened => rfl
          | shutdown => exact absurd hw hnot
          | closed =>
            refine absurd (ByteFifo.asserted_of_mem .socketPeerClosed ?_ (by decide)) ha'
            simp [ByteFifo.readerSignals, hw]
    | ret value' =>
      obtain ⟨rfl, -, -, hclosed⟩ := (hn' ▸ h.reader : s.ReaderAt (.ret value'))
      have hwriter := h.writer
      cases hn : s.writerNext with
      | loop => exact absurd (hclosed.symm.trans (hn ▸ hwriter : s.WriterAt source .loop).2) (by decide)
      | waitOne signals =>
        exact absurd (hclosed.symm.trans (hn ▸ hwriter : s.WriterAt source (.waitOne signals)).2.1) (by decide)
      | ret value =>
        obtain ⟨rfl, -⟩ := (hn ▸ hwriter : s.WriterAt source (.ret value))
        exact .inr ⟨rfl, rfl⟩

end Surviving

/-- From the clearing of `out` on the source is `out`, the queued bytes and those that no write has
accepted, which are the ones at `ptr`. The threads are never both blocked, every run ends after
boundedly many steps, and when both have returned they returned true and `out` is the source. -/
theorem string_survives_copy (source previous : List UInt8) {capacity : Nat} (hcap : 0 < capacity)
    {acts : List StringAct} {result : Except Fault StringCopy}
    (hrun : (stringMachine source capacity).Run (.start source previous) acts result) :
    ∃ s, result = .ok s ∧ acts.length ≤ 6 * source.length + 6 ∧
      (s.cleared = true → s.out ++ s.socket.queued ++ source.drop s.sent = source) ∧
      ((∀ value, s.writerNext ≠ .ret value) → s.writer.offered source = source.drop s.sent) ∧
      ¬ (s.WriterBlocked capacity ∧ s.ReaderBlocked) ∧
      ((∃ a, (stringMachine source capacity).Enabled s a) ∨ (s.writerNext = .ret true ∧ s.readerNext = .ret true)) ∧
      (∀ value value', s.writerNext = .ret value → s.readerNext = .ret value' →
        value = true ∧ value' = true ∧ s.out = source) := by
  obtain ⟨s, rfl, h⟩ := hrun.safe (I := Surviving source) (fun s a h he => by
    obtain ⟨t, ht, hs, -⟩ := h.step a he
    exact ⟨t, ht, hs⟩) (.init source previous)
  have hlen := hrun.length_le (I := Surviving source) (P := fun _ => True) (μ := StringCopy.rank source capacity)
    (fun s a t h _ he hs => by
      obtain ⟨u, hu, hsur, hlt⟩ := h.step a he
      rw [hs] at hu
      cases hu
      exact ⟨hsur, hlt⟩) (.init source previous) (fun _ _ => trivial)
  have hstart : (StringCopy.start source previous).rank source capacity = 6 * source.length + 6 := by
    simp [StringCopy.rank, StringCopy.start, StringCopy.writerRank, StringCopy.readerRank]
    omega
  refine ⟨s, rfl, by omega, ?_, ?_, h.not_both_blocked hcap, h.progress hcap, ?_⟩
  · intro hc
    have hbytes := h.bytes
    rwa [if_pos hc] at hbytes
  · intro hloop
    have hwriter := h.writer
    cases hn : s.writerNext with
    | loop => rw [(hn ▸ hwriter : s.WriterAt source .loop).1, StringWriter.offered_eq]
    | waitOne signals => rw [(hn ▸ hwriter : s.WriterAt source (.waitOne signals)).1, StringWriter.offered_eq]
    | ret value => exact absurd hn (hloop value)
  · intro value value' hn hn'
    obtain ⟨hvalue, hsent, -⟩ := (hn ▸ h.writer : s.WriterAt source (.ret value))
    obtain ⟨hvalue', hc, hq, -⟩ := (hn' ▸ h.reader : s.ReaderAt (.ret value'))
    have hbytes := h.bytes
    rw [if_pos hc, hq, hsent, List.drop_length, List.append_nil, List.append_nil] at hbytes
    exact ⟨hvalue, hvalue', hbytes⟩

/-- Two bytes through a socket that holds one: the writer waits for the reader and the reader for
the writer. -/
theorem string_survives_copy_blocking :
    ∃ s, (stringMachine [7, 0] 1).Run (.start [7, 0] [1]) [.write 1, .write 1, .clear, .read 1, .read 0, .writerWakes,
        .write 1, .readerWakes, .closeWriter, .read 1, .read 0] (.ok s) ∧ s.out = [7, 0] := by
  have hrun : (stringMachine [7, 0] 1).Run (.start [7, 0] [1]) [.write 1, .write 1, .clear, .read 1, .read 0,
      .writerWakes, .write 1, .readerWakes, .closeWriter, .read 1, .read 0] (.ok _) :=
    .step ⟨rfl, fun _ _ _ => by decide⟩ rfl (.step ⟨rfl, fun _ _ h => absurd h (by decide)⟩ rfl (.step rfl rfl
      (.step ⟨rfl, rfl, fun _ => by decide⟩ rfl (.step ⟨rfl, rfl, fun h => absurd rfl h⟩ rfl
        (.step ⟨_, rfl, ByteFifo.asserted_of_mem .socketWritable (by decide) (by decide)⟩ rfl
          (.step ⟨rfl, fun _ _ _ => by decide⟩ rfl
          (.step ⟨_, rfl, ByteFifo.asserted_of_mem .socketReadable (by decide) (by decide)⟩ rfl
          (.step ⟨⟨_, rfl⟩, rfl⟩ rfl (.step ⟨rfl, rfl, fun _ => by decide⟩ rfl
            (.step ⟨rfl, rfl, fun h => absurd rfl h⟩ rfl (.nil _)))))))))))
  obtain ⟨s, hs, -, -, -, -, -, hend⟩ := string_survives_copy [7, 0] [1] (by decide) hrun
  cases hs
  exact ⟨_, hrun, (hend true true rfl rfl).2.2⟩

end Mtl.Socket
