import Mtl.Socket.ByteFifo

/-! File to socket to file: `CopyFromFileDescriptor` at one end and `CopyToFileDescriptor` at the
other, each with one posted task or one wait at any time. -/
namespace Mtl.Socket
open Foundation

/-- `senderNext` and `receiverNext` are how the handlers go on, and a handler that sent its
callback is deleted. `senderCalls` and `receiverCalls` are the values the callbacks got. -/
structure Transfer where
  unread : List UInt8
  sender : CopyFromFileHandler := {}
  senderNext : CopyStep := .postFill
  senderCalls : List Bool := []
  socket : ByteFifo := {}
  receiver : CopyToFileHandler := {}
  receiverNext : CopyStep := .postReady
  receiverCalls : List Bool := []

/-- A task or a completed wait, with the kernel's choices: `n` bytes read from the file, `m`
bytes accepted by or read from the socket. -/
inductive TransferAct where
  | fill (n m : Nat)
  | send (m : Nat)
  | sendReady (m : Nat)
  | receive (m : Nat)
  | receiveReady (m : Nat)

namespace Transfer

def start (file : List UInt8) : Transfer := { unread := file }

/-- The bytes in `buffer_[buffer_offset_..buffer_end_)`, none of them once the handler is gone. -/
def senderBuffer (s : Transfer) : List UInt8 :=
  match s.senderNext with
  | .sendCallback _ => []
  | _ => s.sender.pending

/-- The end of a step of the sender; its deletion closes the socket. -/
def senderDid (s : Transfer) (sender : CopyFromFileHandler) (next : CopyStep) : Transfer :=
  match next with
  | .sendCallback value =>
    { s with
      sender := sender
      senderNext := next
      socket.writer := .closed
      senderCalls := value :: s.senderCalls }
  | _ => { s with sender := sender, senderNext := next }

def receiverDid (s : Transfer) (receiver : CopyToFileHandler) (next : CopyStep) : Transfer :=
  match next with
  | .sendCallback value =>
    { s with
      receiver := receiver
      receiverNext := next
      socket.readerClosed := true
      receiverCalls := value :: s.receiverCalls }
  | _ => { s with receiver := receiver, receiverNext := next }

def fill (s : Transfer) (capacity n m : Nat) : Except Fault Transfer := do
  let chunk := s.unread.take n
  let (socket, write) := if chunk = [] then (s.socket, ⟨.ok, 0⟩) else s.socket.write capacity chunk m
  let (sender, next) ← s.sender.fillBuffer (some chunk) write
  return { s with unread := s.unread.drop n, socket := socket }.senderDid sender next

def send (s : Transfer) (capacity m : Nat)
    (step : CopyFromFileHandler → MxStatus → WriteResult → Except Fault (CopyFromFileHandler × CopyStep)) :
    Except Fault Transfer := do
  let (socket, write) := s.socket.write capacity s.sender.pending m
  let (sender, next) ← step s.sender .ok write
  return { s with socket := socket }.senderDid sender next

/-- Writes to the file do not fail. -/
def receive (s : Transfer) (m : Nat)
    (step : CopyToFileHandler → MxStatus → ReadResult → Nat → Except Fault (CopyToFileHandler × CopyStep)) :
    Except Fault Transfer := do
  let (socket, read) := s.socket.read m
  let (receiver, next) ← step s.receiver .ok read read.bytes.length
  return { s with socket := socket }.receiverDid receiver next

end Transfer

/-- The tasks and waits of the two handlers, in any order. -/
def transferMachine (capacity : Nat) : Machine Transfer TransferAct Fault where
  Enabled s
    | .fill n m => s.senderNext = .postFill ∧
      (s.unread ≠ [] → 0 < n ∧ n ≤ s.unread.length ∧ n ≤ bufferSize ∧
        s.socket.CanWrite capacity (s.unread.take n) m)
    | .send m => s.senderNext = .postReady ∧ s.socket.CanWrite capacity s.sender.pending m
    | .sendReady m => ∃ signals, s.senderNext = .asyncWait signals ∧
      ByteFifo.Asserted (s.socket.writerSignals capacity) signals ∧ s.socket.CanWrite capacity s.sender.pending m
    | .receive m => s.receiverNext = .postReady ∧ s.socket.CanRead m
    | .receiveReady m => ∃ signals, s.receiverNext = .asyncWait signals ∧
      ByteFifo.Asserted s.socket.readerSignals signals ∧ s.socket.CanRead m
  step s
    | .fill n m => s.fill capacity n m
    | .send m => s.send capacity m CopyFromFileHandler.onHandleReady
    | .sendReady m => s.send capacity m CopyFromFileHandler.waitComplete
    | .receive m => s.receive m CopyToFileHandler.onHandleReady
    | .receiveReady m => s.receive m CopyToFileHandler.waitComplete

/-- What the sender's continuation says of the rest of its state. -/
def SenderAt (s : Transfer) : CopyStep → Prop
  | .postFill => s.sender.pending = [] ∧ s.sender.waiting = false ∧ s.socket.writer = .opened ∧
    s.senderCalls = []
  | .postReady => s.sender.pending ≠ [] ∧ s.sender.waiting = false ∧ s.socket.writer = .opened ∧
    s.senderCalls = []
  | .asyncWait signals => signals = {.socketWritable, .socketPeerClosed} ∧ s.sender.pending ≠ [] ∧
    s.socket.writer = .opened ∧ s.senderCalls = []
  | .sendCallback _ => s.unread = [] ∧ s.socket.writer = .closed ∧ s.senderCalls = [true]

def ReceiverAt (s : Transfer) : CopyStep → Prop
  | .postReady => s.receiver.waiting = false ∧ s.socket.readerClosed = false ∧ s.receiverCalls = []
  | .asyncWait signals => signals = {.socketReadable, .socketPeerClosed} ∧
    s.socket.readerClosed = false ∧ s.receiverCalls = []
  | .sendCallback _ => s.socket.queued = [] ∧ s.socket.writer = .closed ∧ s.receiverCalls = [true]
  | .postFill => False

/-- Every byte of the file is in one of four places, in order. -/
structure Conserved (file : List UInt8) (s : Transfer) : Prop where
  bytes : s.receiver.destination ++ s.socket.queued ++ s.senderBuffer ++ s.unread = file
  sender : SenderAt s s.senderNext
  receiver : ReceiverAt s s.receiverNext
  bounds : s.sender.InBounds

/-- How much a continuation may still do without moving a byte. -/
def CopyStep.rank : CopyStep → Nat
  | .postReady | .postFill => 2
  | .asyncWait _ => 1
  | .sendCallback _ => 0

/-- Every step moves bytes on or lowers a continuation. -/
def Transfer.rank (s : Transfer) : Nat :=
  2 * (3 * s.unread.length + 2 * s.senderBuffer.length + s.socket.queued.length) +
    s.senderNext.rank + s.receiverNext.rank

namespace Conserved
variable {file : List UInt8} {capacity : Nat} {s : Transfer}

theorem init (file : List UInt8) : Conserved file (.start file) :=
  ⟨rfl, ⟨rfl, rfl, rfl, rfl⟩, ⟨rfl, rfl, rfl⟩, ⟨Nat.le_refl _, rfl⟩⟩

theorem reader_open (h : Conserved file s) (hopen : s.socket.writer = .opened) :
    s.socket.readerClosed = false := by
  have := h.receiver
  cases hn : s.receiverNext with
  | postReady | asyncWait =>
    rw [hn] at this
    exact this.2.1
  | postFill =>
    rw [hn] at this
    exact this.elim
  | sendCallback =>
    rw [hn] at this
    exact absurd (hopen.symm.trans this.2.1) (by decide)

theorem receiver_kept (h : Conserved file s) (hopen : s.socket.writer = .opened) {t : Transfer}
    (hr : t.receiver = s.receiver) (hc : t.socket.readerClosed = s.socket.readerClosed)
    (hcalls : t.receiverCalls = s.receiverCalls) : ReceiverAt t s.receiverNext := by
  have := h.receiver
  cases hn : s.receiverNext with
  | postReady | asyncWait =>
    rw [hn] at this
    simpa only [ReceiverAt, hr, hc, hcalls] using this
  | postFill =>
    rw [hn] at this
    exact this.elim
  | sendCallback =>
    rw [hn] at this
    exact absurd (hopen.symm.trans this.2.1) (by decide)

/-- A `write` by a sender that holds `bytes`, the next ones of the file. -/
theorem write (h : Conserved file s) (sender : CopyFromFileHandler) (unread : List UInt8) {m : Nat}
    (hbytes : s.receiver.destination ++ s.socket.queued ++ sender.pending ++ unread = file)
    (hp : sender.pending ≠ []) (hw : sender.waiting = false) (hb : sender.InBounds)
    (hopen : s.socket.writer = .opened) (hcalls : s.senderCalls = [])
    (hm : s.socket.CanWrite capacity sender.pending m) :
    ∃ sender' next, sender.onHandleReady .ok (s.socket.write capacity sender.pending m).2 = .ok (sender', next) ∧
      Conserved file ({ s with
        unread := unread, socket := (s.socket.write capacity sender.pending m).1 }.senderDid sender' next) ∧
      ({ s with
        unread := unread, socket := (s.socket.write capacity sender.pending m).1 }.senderDid sender' next).rank ≤
        2 * (3 * unread.length + 2 * sender.pending.length + s.socket.queued.length) + s.receiverNext.rank +
          if s.socket.queued.length < capacity then 0 else 1 := by
  have hreader : s.socket.readerClosed = false := h.reader_open hopen
  have hrecv := h.receiver
  by_cases hroom : s.socket.queued.length < capacity
  · obtain ⟨hpos, hle, -⟩ := hm hreader hroom
    obtain ⟨hb', hp', hend⟩ := hb.advance hle
    have hwrite : s.socket.write capacity sender.pending m =
        ({ s.socket with queued := s.socket.queued ++ sender.pending.take m }, ⟨.ok, m⟩) := by
      simp [ByteFifo.write, hreader, Nat.not_le.mpr hroom]
    rw [hwrite, CopyFromFileHandler.onHandleReady_wrote]
    have hsplit : s.receiver.destination ++ (s.socket.queued ++ sender.pending.take m) ++ sender.pending.drop m ++
        unread = file := by
      rw [← hbytes]
      simp
    refine ⟨_, _, rfl, ?_, ?_⟩
    · by_cases hm : m = sender.pending.length
      · rw [if_pos (hend.mpr hm)]
        have hnone : sender.pending.drop m = [] := by rw [hm, List.drop_length]
        refine ⟨?_, ⟨hp'.trans hnone, hw, hopen, hcalls⟩, h.receiver_kept hopen rfl rfl rfl, hb'⟩
        simpa only [Transfer.senderDid, Transfer.senderBuffer, hp'] using hsplit
      · rw [if_neg (fun he => hm (hend.mp he))]
        have hsome : sender.pending.drop m ≠ [] := by
          rw [ne_eq, List.drop_eq_nil_iff]
          omega
        refine ⟨?_, ⟨hp' ▸ hsome, hw, hopen, hcalls⟩, h.receiver_kept hopen rfl rfl rfl, hb'⟩
        simpa only [Transfer.senderDid, Transfer.senderBuffer, hp'] using hsplit
    · rw [if_pos hroom]
      split
      all_goals
        simp only [Transfer.rank, Transfer.senderDid, Transfer.senderBuffer, hp', CopyStep.rank,
          List.length_append, List.length_take, List.length_drop]
        omega
  · have hwrite : s.socket.write capacity sender.pending m = (s.socket, ⟨.errShouldWait, 0⟩) := by
      simp [ByteFifo.write, hreader, Nat.not_lt.mp hroom]
    rw [hwrite, CopyFromFileHandler.onHandleReady_full]
    refine ⟨_, _, rfl, ⟨?_, ⟨rfl, hp, hopen, hcalls⟩, h.receiver_kept hopen rfl rfl rfl, ⟨hb.offset, hb.filled⟩⟩, ?_⟩
    · exact hbytes
    · rw [if_neg hroom]
      simp only [Transfer.rank, Transfer.senderDid, Transfer.senderBuffer, CopyFromFileHandler.pending,
        CopyStep.rank]
      omega

theorem fill (h : Conserved file s) {n m : Nat} (hs : s.senderNext = .postFill)
    (hn : s.unread ≠ [] → 0 < n ∧ n ≤ s.unread.length ∧ n ≤ bufferSize ∧
      s.socket.CanWrite capacity (s.unread.take n) m) :
    ∃ t, s.fill capacity n m = .ok t ∧ Conserved file t ∧ t.rank < s.rank := by
  have hsender := h.sender
  have hbytes := h.bytes
  rw [hs] at hsender
  obtain ⟨hp, hw, hopen, hcalls⟩ := hsender
  simp only [Transfer.senderBuffer, hs, hp, List.append_nil] at hbytes
  by_cases hu : s.unread = []
  · refine ⟨{ s with unread := [] }.senderDid s.sender (.sendCallback true),
      by simp [Transfer.fill, hu, CopyFromFileHandler.fillBuffer, sendCallback, hw],
      ⟨?_, ?_, ?_, h.bounds⟩, ?_⟩
    · rw [hu, List.append_nil] at hbytes
      simpa [Transfer.senderDid, Transfer.senderBuffer] using hbytes
    · simp [SenderAt, Transfer.senderDid, hcalls]
    · exact h.receiver_kept hopen rfl rfl rfl
    · simp [Transfer.rank, Transfer.senderDid, Transfer.senderBuffer, hs, hp, CopyStep.rank, hu]
  · obtain ⟨hpos, hle, -, hm⟩ := hn hu
    have hchunk : s.unread.take n ≠ [] := by
      simp only [ne_eq, List.take_eq_nil_iff, not_or]
      exact ⟨by omega, hu⟩
    -- What `FillBuffer` leaves for `OnHandleReady`.
    let sender : CopyFromFileHandler :=
      { s.sender with buffer := s.unread.take n, bufferOffset := 0, bufferEnd := (s.unread.take n).length }
    have hp' : sender.pending = s.unread.take n := by
      simp [sender, CopyFromFileHandler.pending]
    have hfill (write : WriteResult) :
        s.sender.fillBuffer (some (s.unread.take n)) write = sender.onHandleReady .ok write := by
      cases hc : s.unread.take n with
      | nil => exact absurd hc hchunk
      | cons b bytes => simp [CopyFromFileHandler.fillBuffer, sender, hc]
    obtain ⟨sender', next, hready, hcons, hrank⟩ := h.write sender (s.unread.drop n)
      (by rw [hp', List.append_assoc, List.take_append_drop]; exact hbytes) (hp' ▸ hchunk) hw
      ⟨Nat.zero_le _, rfl⟩ hopen hcalls (hp' ▸ hm)
    rw [hp'] at hready hcons hrank
    refine ⟨_, by simp [Transfer.fill, hchunk, hfill, hready], hcons, lt_of_le_of_lt hrank ?_⟩
    have hwait : (if s.socket.queued.length < capacity then 0 else 1) ≤ 1 := by split <;> simp
    simp only [Transfer.rank, Transfer.senderBuffer, hs, hp, CopyStep.rank, List.length_take, List.length_drop,
      List.length_nil]
    omega

theorem send (h : Conserved file s) {m : Nat} (hs : s.senderNext = .postReady)
    (hm : s.socket.CanWrite capacity s.sender.pending m) :
    ∃ t, s.send capacity m CopyFromFileHandler.onHandleReady = .ok t ∧ Conserved file t ∧ t.rank < s.rank := by
  have hsender := h.sender
  have hbytes := h.bytes
  rw [hs] at hsender
  obtain ⟨hp, hw, hopen, hcalls⟩ := hsender
  simp only [Transfer.senderBuffer, hs] at hbytes
  obtain ⟨sender', next, hready, hcons, hrank⟩ := h.write _ _ hbytes hp hw h.bounds hopen hcalls hm
  refine ⟨_, by simp [Transfer.send, hready], hcons, lt_of_le_of_lt hrank ?_⟩
  have hwait : (if s.socket.queued.length < capacity then 0 else 1) ≤ 1 := by split <;> simp
  simp only [Transfer.rank, Transfer.senderBuffer, hs, CopyStep.rank]
  omega

/-- A completed wait finds room. -/
theorem sendReady (h : Conserved file s) {m : Nat} {signals : MxSignals} (hs : s.senderNext = .asyncWait signals)
    (ha : ByteFifo.Asserted (s.socket.writerSignals capacity) signals)
    (hm : s.socket.CanWrite capacity s.sender.pending m) :
    ∃ t, s.send capacity m CopyFromFileHandler.waitComplete = .ok t ∧ Conserved file t ∧ t.rank < s.rank := by
  have hsender := h.sender
  have hbytes := h.bytes
  rw [hs] at hsender
  obtain ⟨-, hp, hopen, hcalls⟩ := hsender
  simp only [Transfer.senderBuffer, hs] at hbytes
  have hroom := ByteFifo.writable_of_asserted (h.reader_open hopen) ha
  obtain ⟨sender', next, hready, hcons, hrank⟩ :=
    h.write { s.sender with waiting := false } _ hbytes hp rfl ⟨h.bounds.offset, h.bounds.filled⟩
      hopen hcalls hm
  have hstep : s.sender.waitComplete .ok (s.socket.write capacity s.sender.pending m).2 = .ok (sender', next) :=
    hready
  refine ⟨_, by simp [Transfer.send, hstep]; rfl, hcons, lt_of_le_of_lt hrank ?_⟩
  have hpend : ({ s.sender with waiting := false } : CopyFromFileHandler).pending = s.sender.pending := rfl
  simp only [Transfer.rank, Transfer.senderBuffer, hs, CopyStep.rank, if_pos hroom, hpend]
  omega

theorem sender_kept (h : Conserved file s) {t : Transfer} (hu : t.unread = s.unread) (hs : t.sender = s.sender)
    (hw : t.socket.writer = s.socket.writer) (hcalls : t.senderCalls = s.senderCalls) :
    SenderAt t s.senderNext := by
  have := h.sender
  cases hn : s.senderNext <;> rw [hn] at this <;> simpa only [SenderAt, hu, hs, hw, hcalls] using this

theorem writer_shutdown (h : Conserved file s) : s.socket.writer ≠ .shutdown := by
  have := h.sender
  cases hn : s.senderNext with
  | postFill | postReady | asyncWait =>
    rw [hn] at this
    simp [this.2.2.1]
  | sendCallback =>
    rw [hn] at this
    simp [this.2.1]

/-- A `read` by a receiver that does not wait, or whose wait completed. -/
theorem read (h : Conserved file s) (receiver : CopyToFileHandler) {m : Nat}
    (hdest : receiver.destination = s.receiver.destination) (hw : receiver.waiting = false)
    (hopen : s.socket.readerClosed = false) (hcalls : s.receiverCalls = []) (hm : s.socket.CanRead m) :
    ∃ receiver' next, receiver.onHandleReady .ok (s.socket.read m).2 (s.socket.read m).2.bytes.length =
        .ok (receiver', next) ∧
      Conserved file ({ s with socket := (s.socket.read m).1 }.receiverDid receiver' next) ∧
      ({ s with socket := (s.socket.read m).1 }.receiverDid receiver' next).rank + s.receiverNext.rank ≤
        s.rank + if s.socket.queued = [] ∧ s.socket.writer ≠ .closed then 1 else 0 := by
  have hbytes := h.bytes
  by_cases hq : s.socket.queued = []
  · cases hwr : s.socket.writer with
    | shutdown => exact absurd hwr h.writer_shutdown
    | opened =>
      have hread : s.socket.read m = (s.socket, ⟨.errShouldWait, []⟩) := by simp [ByteFifo.read, hq, hwr]
      rw [hread, CopyToFileHandler.onHandleReady_empty]
      refine ⟨_, _, rfl, ⟨?_, h.sender_kept rfl rfl rfl rfl, ⟨rfl, hopen, hcalls⟩, h.bounds⟩, ?_⟩
      · simpa only [Transfer.receiverDid, Transfer.senderBuffer, hdest] using hbytes
      · rw [if_pos ⟨hq, by simp⟩]
        simp only [Transfer.rank, Transfer.receiverDid, Transfer.senderBuffer, CopyStep.rank]
        omega
    | closed =>
      have hread : s.socket.read m = (s.socket, ⟨.errPeerClosed, []⟩) := by simp [ByteFifo.read, hq, hwr]
      rw [hread, CopyToFileHandler.onHandleReady_closed hw]
      refine ⟨_, _, rfl, ⟨?_, h.sender_kept rfl rfl rfl rfl, ⟨hq, hwr, ?_⟩, h.bounds⟩, ?_⟩
      · simpa only [Transfer.receiverDid, Transfer.senderBuffer, hdest] using hbytes
      · simp [Transfer.receiverDid, hcalls]
      · simp only [Transfer.rank, Transfer.receiverDid, Transfer.senderBuffer, CopyStep.rank]
        omega
  · obtain ⟨hpos, hle, -⟩ := hm hq
    have hread : s.socket.read m =
        ({ s.socket with queued := s.socket.queued.drop m }, ⟨.ok, s.socket.queued.take m⟩) := by
      simp [ByteFifo.read, hq]
    rw [hread, CopyToFileHandler.onHandleReady_wrote]
    refine ⟨_, _, rfl, ⟨?_, h.sender_kept rfl rfl rfl rfl, ⟨hw, hopen, hcalls⟩, h.bounds⟩, ?_⟩
    · rw [← List.take_append_drop m s.socket.queued] at hbytes
      simpa [Transfer.receiverDid, Transfer.senderBuffer, hdest] using hbytes
    · rw [if_neg (fun hc => hq hc.1)]
      simp only [Transfer.rank, Transfer.receiverDid, Transfer.senderBuffer, CopyStep.rank, List.length_drop]
      omega

theorem receive (h : Conserved file s) {m : Nat} (hs : s.receiverNext = .postReady) (hm : s.socket.CanRead m) :
    ∃ t, s.receive m CopyToFileHandler.onHandleReady = .ok t ∧ Conserved file t ∧ t.rank < s.rank := by
  have hrecv := h.receiver
  rw [hs] at hrecv
  obtain ⟨hw, hopen, hcalls⟩ := hrecv
  obtain ⟨receiver', next, hready, hcons, hrank⟩ := h.read s.receiver rfl hw hopen hcalls hm
  refine ⟨_, by simp [Transfer.receive, hready], hcons, ?_⟩
  have hwait : (if s.socket.queued = [] ∧ s.socket.writer ≠ .closed then 1 else 0) ≤ 1 := by split <;> simp
  have hposted : s.receiverNext.rank = 2 := by rw [hs]; rfl
  omega

/-- A completed wait finds bytes or the end. -/
theorem receiveReady (h : Conserved file s) {m : Nat} {signals : MxSignals}
    (hs : s.receiverNext = .asyncWait signals) (ha : ByteFifo.Asserted s.socket.readerSignals signals)
    (hm : s.socket.CanRead m) :
    ∃ t, s.receive m CopyToFileHandler.waitComplete = .ok t ∧ Conserved file t ∧ t.rank < s.rank := by
  have hrecv := h.receiver
  rw [hs] at hrecv
  obtain ⟨-, hopen, hcalls⟩ := hrecv
  obtain ⟨receiver', next, hready, hcons, hrank⟩ :=
    h.read { s.receiver with waiting := false } rfl rfl hopen hcalls hm
  have hstep : s.receiver.waitComplete .ok (s.socket.read m).2 (s.socket.read m).2.bytes.length =
    .ok (receiver', next) := hready
  refine ⟨_, by simp [Transfer.receive, hstep], hcons, ?_⟩
  have hready' : ¬ (s.socket.queued = [] ∧ s.socket.writer ≠ .closed) := by
    rintro ⟨hq, hw⟩
    have hopened : s.socket.writer = .opened := by
      cases hwr : s.socket.writer with
      | opened => rfl
      | closed => exact absurd hwr hw
      | shutdown => exact absurd hwr h.writer_shutdown
    simp [ByteFifo.Asserted, ByteFifo.readerSignals, hq, hopened] at ha
  have hwaited : s.receiverNext.rank = 1 := by rw [hs]; rfl
  rw [if_neg hready'] at hrank
  omega

/-- Every step of the two handlers. -/
theorem step (h : Conserved file s) (a : TransferAct) (he : (transferMachine capacity).Enabled s a) :
    ∃ t, (transferMachine capacity).step s a = .ok t ∧ Conserved file t ∧ t.rank < s.rank := by
  cases a with
  | fill n m => exact h.fill he.1 he.2
  | send m => exact h.send he.1 he.2
  | sendReady m =>
    obtain ⟨signals, hs, ha, hm⟩ := he
    exact h.sendReady hs ha hm
  | receive m => exact h.receive he.1 he.2
  | receiveReady m =>
    obtain ⟨signals, hs, ha, hm⟩ := he
    exact h.receiveReady hs ha hm

/-- The receiver can go on as long as there is something to read or the end to be seen. -/
theorem receiver_enabled (h : Conserved file s) (hq : s.socket.queued ≠ [] ∨ s.socket.writer = .closed)
    (hopen : ∀ value, s.receiverNext ≠ .sendCallback value) :
    ∃ a, (transferMachine capacity).Enabled s a := by
  have hrecv := h.receiver
  cases hn : s.receiverNext with
  | postReady => exact ⟨.receive 1, hn, ByteFifo.canRead_one _⟩
  | postFill =>
    rw [hn] at hrecv
    exact hrecv.elim
  | sendCallback value => exact absurd hn (hopen value)
  | asyncWait signals =>
    rw [hn] at hrecv
    refine ⟨.receiveReady 1, signals, hn, ?_, ByteFifo.canRead_one _⟩
    rw [hrecv.1]
    rcases hq with hq | hq
    · exact ByteFifo.asserted_of_mem .socketReadable (by simp [ByteFifo.readerSignals, hq]) (by simp)
    · exact ByteFifo.asserted_of_mem .socketPeerClosed (by simp [ByteFifo.readerSignals, hq]) (by simp)

/-- Some step is possible until both callbacks were called. -/
theorem progress (h : Conserved file s) (hcap : 1 ≤ capacity) :
    (∃ a, (transferMachine capacity).Enabled s a) ∨
      (s.receiver.destination = file ∧ s.senderCalls = [true] ∧ s.receiverCalls = [true]) := by
  have hsender := h.sender
  cases hn : s.senderNext with
  | postFill =>
    refine .inl ⟨.fill 1 1, hn, fun hu => ?_⟩
    have := List.length_pos_iff.mpr hu
    refine ⟨Nat.one_pos, this, by decide, ByteFifo.canWrite_one _ ?_⟩
    simp [hu]
  | postReady =>
    rw [hn] at hsender
    exact .inl ⟨.send 1, hn, ByteFifo.canWrite_one _ hsender.1⟩
  | asyncWait signals =>
    rw [hn] at hsender
    obtain ⟨rfl, hp, hopen, -⟩ := hsender
    by_cases hroom : s.socket.queued.length < capacity
    · refine .inl ⟨.sendReady 1, _, hn, ?_, ByteFifo.canWrite_one _ hp⟩
      exact ByteFifo.asserted_of_mem .socketWritable
        (by simp [ByteFifo.writerSignals, h.reader_open hopen, hroom]) (by simp)
    · have hq : s.socket.queued ≠ [] := by
        rintro hq
        rw [hq, List.length_nil] at hroom
        omega
      refine .inl (h.receiver_enabled (.inl hq) fun value hr => ?_)
      have hrecv := h.receiver
      rw [hr] at hrecv
      exact hq hrecv.1
  | sendCallback value =>
    rw [hn] at hsender
    obtain ⟨hu, hclosed, hcalls⟩ := hsender
    cases hr : s.receiverNext with
    | sendCallback value' =>
      have hrecv := h.receiver
      have hbytes := h.bytes
      rw [hr] at hrecv
      obtain ⟨hq, -, hcalls'⟩ := hrecv
      simp only [hq, hu, Transfer.senderBuffer, hn, List.append_nil] at hbytes
      exact .inr ⟨hbytes, hcalls, hcalls'⟩
    | postReady | postFill | asyncWait =>
      exact .inl (h.receiver_enabled (.inr hclosed) (by simp [hr]))

end Conserved

/-- The transfer of a file through a socket of any capacity: in every state reached the file is what
the four places hold, some step is possible until both callbacks got `true` and all of the file
arrived, and no run goes on for longer than the file allows. -/
theorem transfer_conserves {capacity : Nat} (hcap : 1 ≤ capacity) (file : List UInt8)
    {acts : List TransferAct} {result : Except Fault Transfer}
    (hrun : (transferMachine capacity).Run (.start file) acts result) :
    ∃ s, result = .ok s ∧
      file = s.receiver.destination ++ s.socket.queued ++ s.senderBuffer ++ s.unread ∧
      ((∃ a, (transferMachine capacity).Enabled s a) ∨
        (s.receiver.destination = file ∧ s.senderCalls = [true] ∧ s.receiverCalls = [true])) ∧
      acts.length ≤ 6 * file.length + 4 := by
  obtain ⟨s, rfl, h⟩ := hrun.safe (I := Conserved file) (fun s a h he => by
    obtain ⟨t, ht, hc, -⟩ := h.step a he
    exact ⟨t, ht, hc⟩) (.init file)
  have hlen := hrun.length_le (I := Conserved file) (P := fun _ => True) (μ := Transfer.rank)
    (fun s a t h _ he hs => by
      obtain ⟨u, hu, hc, hlt⟩ := h.step a he
      rw [hs] at hu
      cases hu
      exact ⟨hc, hlt⟩) (.init file) (fun _ _ => trivial)
  refine ⟨s, rfl, h.bytes.symm, h.progress hcap, ?_⟩
  have hstart : (Transfer.start file).rank = 6 * file.length + 4 := by
    simp [Transfer.rank, Transfer.start, Transfer.senderBuffer, CopyFromFileHandler.pending, CopyStep.rank]
    omega
  omega

/-- Two bytes through a socket that holds one: each handler waits once for the other. -/
theorem transfer_conserves_two_bytes :
    ∃ s, (transferMachine 1).Run (.start [7, 9]) [.fill 2 1, .send 1, .receive 1, .receive 1, .sendReady 1,
        .receiveReady 1, .fill 1 1, .receive 1] (.ok s) ∧
      s.receiver.destination = [7, 9] ∧ s.senderCalls = [true] ∧ s.receiverCalls = [true] ∧
      [7, 9] = s.receiver.destination ++ s.socket.queued ++ s.senderBuffer ++ s.unread := by
  have hrun : (transferMachine 1).Run (.start [7, 9]) [.fill 2 1, .send 1, .receive 1, .receive 1, .sendReady 1,
      .receiveReady 1, .fill 1 1, .receive 1] (.ok _) :=
    .step ⟨rfl, fun _ => ⟨by decide, by decide, by decide, fun _ _ => by decide⟩⟩ rfl
      (.step ⟨rfl, fun _ h => absurd h (by decide)⟩ rfl (.step ⟨rfl, fun _ => by decide⟩ rfl
        (.step ⟨rfl, fun h => absurd rfl h⟩ rfl
          (.step ⟨_, rfl, ByteFifo.asserted_of_mem .socketWritable (by decide) (by decide), fun _ _ => by decide⟩ rfl
            (.step ⟨_, rfl, ByteFifo.asserted_of_mem .socketReadable (by decide) (by decide), fun _ => by decide⟩ rfl
              (.step ⟨rfl, fun h => absurd rfl h⟩ rfl (.step ⟨rfl, fun h => absurd rfl h⟩ rfl (.nil _))))))))
  obtain ⟨s, hs, hbytes, -, -⟩ := transfer_conserves (Nat.le_refl 1) [7, 9] hrun
  cases hs
  exact ⟨_, hrun, rfl, rfl, rfl, hbytes⟩

end Mtl.Socket
