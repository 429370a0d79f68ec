import Mtl.Socket.Senders

/-! Any sender with any drain: the stream arrives, whichever threads they are on. -/
namespace Mtl.Socket
open Foundation

/-- A sender and a drain at the ends of a socket. -/
structure Pipeline (S : Sender) where
  sender : S.State
  socket : ByteFifo := {}
  next : DrainNext := .read
  delivered : List UInt8 := []

/-- A system call with the kernel's choices, or the completion of a wait. -/
inductive PipelineAct where
  | write (n k : Nat)
  | senderWakes
  | close
  | read (n : Nat)
  | drainWakes

def PipelineAct.OfSender : PipelineAct → Prop
  | .write _ _ | .senderWakes | .close => True
  | .read _ | .drainWakes => False

namespace Pipeline
variable {S : Sender}

def start (stream : List UInt8) : Pipeline S := { sender := S.start stream }

def write (s : Pipeline S) (capacity n k : Nat) : Except Fault (Pipeline S) := do
  let (socket, write) := s.socket.writeAny capacity (S.offered s.sender n) k
  let sender ← S.wrote s.sender n write
  return { s with sender := sender, socket := socket }

def read (s : Pipeline S) (d : Drain) (n : Nat) : Except Fault (Pipeline S) := do
  let (socket, r) := s.socket.read n
  let (bytes, next) ← d.read r
  return { s with socket := socket, next := next, delivered := s.delivered ++ bytes }

end Pipeline

/-- The socket of a sender is closed when that has reported. -/
def pipelineMachine (S : Sender) (d : Drain) (capacity : Nat) : Machine (Pipeline S) PipelineAct Fault where
  Enabled s
    | .write n k => S.next s.sender = .write ∧ S.Reads s.sender n ∧
      (S.offered s.sender n ≠ [] → s.socket.CanWrite capacity (S.offered s.sender n) k)
    | .senderWakes => ∃ signals, S.next s.sender = .wait signals ∧
      ByteFifo.Asserted (s.socket.writerSignals capacity) signals
    | .close => (∃ success, S.next s.sender = .finished success) ∧ s.socket.writer = .opened
    | .read n => s.next = .read ∧ s.socket.CanRead n
    | .drainWakes => ∃ signals, s.next = .wait signals ∧ ByteFifo.Asserted s.socket.readerSignals signals
  step s
    | .write n k => s.write capacity n k
    | .senderWakes => .ok { s with sender := S.woken s.sender }
    | .close => .ok { s with socket.writer := .closed }
    | .read n => s.read d n
    | .drainWakes => .ok { s with next := d.waited }

/-- Every byte is delivered, queued or with the sender. The sender's end is closed after its report, and the drain
reports after that. -/
structure Piped {S : Sender} (unsent : S.State → List UInt8) (Good : S.State → Prop) (signals : MxSignals)
    (capacity : Nat) (stream : List UInt8) (s : Pipeline S) : Prop where
  good : Good s.sender
  bytes : s.delivered ++ s.socket.queued ++ unsent s.sender = stream
  writer : s.socket.writer = .opened ∨ (s.socket.writer = .closed ∧ ∃ success, S.next s.sender = .finished success)
  reader : s.socket.readerClosed = false
  bounded : s.socket.queued.length ≤ capacity
  waiting : ∀ signals', s.next = .wait signals' → signals' = signals
  finished : ∀ success, s.next = .finished success → success = true ∧ s.socket.queued = [] ∧ s.socket.writer = .closed

namespace Pipeline
variable {S : Sender}

def senderRank (capacity : Nat) (s : Pipeline S) : Nat :=
  match S.next s.sender with
  | .write => 1
  | .wait _ => if s.socket.queued.length < capacity then 2 else 0
  | .finished _ => 0

def drainRank (s : Pipeline S) : Nat :=
  match s.next with
  | .read => 1
  | .wait _ => if s.socket.queued ≠ [] ∨ s.socket.writer ≠ .opened then 2 else 0
  | .finished _ => 0

/-- A byte that moves may make both ends ready. -/
def rank (unsent : S.State → List UInt8) (capacity : Nat) (s : Pipeline S) : Nat :=
  4 * (2 * (unsent s.sender).length + s.socket.queued.length) + (if s.socket.writer = .opened then 4 else 0) +
    s.senderRank capacity + s.drainRank

theorem senderRank_le (capacity : Nat) (s : Pipeline S) : s.senderRank capacity ≤ 2 := by
  unfold senderRank
  split
  · omega
  · split_ifs <;> omega
  · omega

theorem drainRank_le (s : Pipeline S) : s.drainRank ≤ 2 := by
  unfold drainRank
  split
  · omega
  · split_ifs <;> omega
  · omega

end Pipeline

namespace Piped
variable {S : Sender} {d : Drain} {unsent : S.State → List UInt8} {Good : S.State → Prop}
  {sendSignals signals : MxSignals} {capacity : Nat} {stream : List UInt8} {s : Pipeline S}

theorem start (hS : S.Sound sendSignals unsent Good) : Piped unsent Good signals capacity stream (.start stream) := by
  obtain ⟨hgood, -, hunsent⟩ := hS.start stream
  exact ⟨hgood, hunsent, .inl rfl, rfl, Nat.zero_le _, nofun, nofun⟩

/-- A sender that has not reported has its end open. -/
theorem opened (h : Piped unsent Good signals capacity stream s)
    (hnext : ∀ success, S.next s.sender ≠ .finished success) : s.socket.writer = .opened := by
  rcases h.writer with hopen | ⟨-, success, hfin⟩
  · exact hopen
  · exact absurd hfin (hnext success)

/-- The drain has not reported as long as the writing end is open. -/
theorem unfinished (h : Piped unsent Good signals capacity stream s) (hopen : s.socket.writer = .opened)
    (success : Bool) : s.next ≠ .finished success := by
  intro hfin
  have hclosed := (h.finished success hfin).2.2
  rw [hopen] at hclosed
  cases hclosed

theorem write (h : Piped unsent Good signals capacity stream s) (hS : S.Sound sendSignals unsent Good)
    (hnext : S.next s.sender = .write) {n k : Nat} (hreads : S.Reads s.sender n)
    (hk : S.offered s.sender n ≠ [] → s.socket.CanWrite capacity (S.offered s.sender n) k) :
    ∃ t, s.write capacity n k = .ok t ∧ Piped unsent Good signals capacity stream t ∧
      t.rank unsent capacity < s.rank unsent capacity ∧ t.delivered = s.delivered := by
  have hopen := h.opened (by simp [hnext])
  have hfin := h.unfinished hopen
  have hrank : s.senderRank capacity = 1 := by rw [Pipeline.senderRank, hnext]
  have hbytes := h.bytes
  by_cases hnone : S.offered s.sender n = []
  case pos =>
    -- The end of the stream.
    obtain ⟨sender, hwrote, hgood, hunsent, hend⟩ := hS.ended s.sender n h.good hnext hreads hnone
    have hempty := (hS.offered s.sender n h.good hnext hreads).2 hnone
    refine ⟨{ s with sender := sender }, by simp [Pipeline.write, ByteFifo.writeAny, hnone, hwrote],
      ⟨hgood, ?_, .inl hopen, h.reader, h.bounded, h.waiting, h.finished⟩, ?_, rfl⟩
    · rw [hunsent, ← hbytes, hempty]
    · simp only [Pipeline.rank, hrank, hunsent, hempty]
      simp [Pipeline.senderRank, Pipeline.drainRank, hend]
  case neg =>
    by_cases hroom : s.socket.queued.length < capacity
    · obtain ⟨hpos, hle, hfits⟩ := hk hnone h.reader hroom
      obtain ⟨sender, hwrote, hgood, hunsent, hgoes⟩ := hS.accepted s.sender n k h.good hnext hreads hpos hle
      obtain ⟨⟨rest, hrest⟩, -⟩ := hS.offered s.sender n h.good hnext hreads
      have htake : (S.offered s.sender n).take k = (unsent s.sender).take k := by
        rw [← hrest, List.take_append_of_le_length hle]
      have hshort : k ≤ (unsent s.sender).length := by
        rw [← hrest, List.length_append]
        exact hle.trans (Nat.le_add_right _ _)
      refine ⟨{ s with sender := sender, socket.queued := s.socket.queued ++ (S.offered s.sender n).take k }, ?_,
        ⟨hgood, ?_, .inl hopen, h.reader, ?_, h.waiting, fun success hs => absurd hs (hfin success)⟩, ?_, rfl⟩
      · simp [Pipeline.write, ByteFifo.writeAny, hnone, ByteFifo.write, h.reader, Nat.not_le.mpr hroom, hwrote]
      · rw [← hbytes, hunsent, htake]
        simp
      · rw [List.length_append, List.length_take, min_eq_left hle]
        omega
      · have hsender : Pipeline.senderRank capacity { s with
            sender := sender, socket.queued := s.socket.queued ++ (S.offered s.sender n).take k } ≤ 1 := by
          rcases hgoes with hgoes | hgoes <;> simp [Pipeline.senderRank, hgoes]
        refine (Nat.add_le_add_left (Pipeline.drainRank_le _) _).trans_lt ?_
        simp only [Pipeline.rank, hrank, hunsent, List.length_append, List.length_take, List.length_drop,
          min_eq_left hle] at hsender ⊢
        omega
    · obtain ⟨sender, hwrote, hgood, hunsent, hwait⟩ := hS.full s.sender n h.good hnext hreads hnone
      refine ⟨{ s with sender := sender }, ?_,
        ⟨hgood, by rw [hunsent]; exact hbytes, .inl hopen, h.reader, h.bounded, h.waiting, h.finished⟩, ?_, rfl⟩
      · simp [Pipeline.write, ByteFifo.writeAny, hnone, ByteFifo.write, h.reader, Nat.not_lt.mp hroom, hwrote]
      · simp only [Pipeline.rank, hrank, hunsent]
        simp [Pipeline.senderRank, Pipeline.drainRank, hwait, hroom]

theorem senderWakes (h : Piped unsent Good signals capacity stream s) (hS : S.Sound sendSignals unsent Good)
    {signals' : MxSignals} (hnext : S.next s.sender = .wait signals')
    (ha : ByteFifo.Asserted (s.socket.writerSignals capacity) signals') :
    Piped unsent Good signals capacity stream { s with sender := S.woken s.sender } ∧
      Pipeline.rank unsent capacity { s with sender := S.woken s.sender } < s.rank unsent capacity := by
  obtain ⟨-, -, hgood, hunsent, hwrite⟩ := hS.woken s.sender signals' h.good hnext
  have hopen := h.opened (by simp [hnext])
  have hroom := ByteFifo.writable_of_asserted h.reader ha
  refine ⟨⟨hgood, by rw [hunsent]; exact h.bytes, .inl hopen, h.reader, h.bounded, h.waiting, h.finished⟩, ?_⟩
  have hrank : s.senderRank capacity = 2 := by simp [Pipeline.senderRank, hnext, hroom]
  simp only [Pipeline.rank, hrank, hunsent]
  simp [Pipeline.senderRank, Pipeline.drainRank, hwrite]

theorem close (h : Piped unsent Good signals capacity stream s) {success : Bool}
    (hnext : S.next s.sender = .finished success) (hopen : s.socket.writer = .opened) :
    Piped unsent Good signals capacity stream { s with socket.writer := .closed } ∧
      Pipeline.rank unsent capacity { s with socket.writer := .closed } < s.rank unsent capacity := by
  have hfin := h.unfinished hopen
  refine ⟨⟨h.good, h.bytes, .inr ⟨rfl, success, hnext⟩, h.reader, h.bounded, h.waiting,
    fun success hs => absurd hs (hfin success)⟩, ?_⟩
  refine (Nat.add_le_add_left (Pipeline.drainRank_le _) _).trans_lt ?_
  simp only [Pipeline.rank, Pipeline.senderRank, hnext, hopen, if_true, reduceCtorEq, if_false]
  omega

/-- A read that finds bytes delivers them, and one at the end of the stream makes the drain report. -/
theorem read (h : Piped unsent Good signals capacity stream s) (hd : d.Sound signals) (hnext : s.next = .read) {n : Nat}
    (hn : s.socket.CanRead n) :
    ∃ t, s.read d n = .ok t ∧ Piped unsent Good signals capacity stream t ∧
      t.rank unsent capacity < s.rank unsent capacity := by
  have hbytes := h.bytes
  have hrank : s.drainRank = 1 := by rw [Pipeline.drainRank, hnext]
  by_cases hq : s.socket.queued = []
  case pos =>
    rcases h.writer with hopen | ⟨hclosed, success, hsender⟩
    · refine ⟨{ s with next := .wait signals }, by simp [Pipeline.read, ByteFifo.read, hq, hopen, hd.shouldWait],
        ⟨h.good, hbytes, h.writer, h.reader, h.bounded, ?_, by simp⟩, ?_⟩
      · rintro signals' ⟨⟩
        rfl
      · simp only [Pipeline.rank, hrank]
        simp [Pipeline.senderRank, Pipeline.drainRank, hq, hopen]
    · refine ⟨{ s with next := .finished true }, by simp [Pipeline.read, ByteFifo.read, hq, hclosed, hd.peerClosed],
        ⟨h.good, hbytes, h.writer, h.reader, h.bounded, by simp, ?_⟩, ?_⟩
      · rintro success ⟨⟩
        exact ⟨rfl, hq, hclosed⟩
      · simp only [Pipeline.rank, hrank]
        simp [Pipeline.senderRank, Pipeline.drainRank]
  case neg =>
    obtain ⟨hpos, hle, -⟩ := hn hq
    obtain ⟨next, hok, hgoes⟩ := hd.ok (s.socket.queued.take n)
    refine ⟨{ s with
        socket.queued := s.socket.queued.drop n, next := next, delivered := s.delivered ++ s.socket.queued.take n },
      by simp [Pipeline.read, ByteFifo.read, hq, hok], ⟨h.good, ?_, h.writer, h.reader, ?_, ?_, ?_⟩, ?_⟩
    · rw [← hbytes]
      simp
    · exact (List.length_drop ▸ Nat.sub_le _ _).trans h.bounded
    · rintro signals' hs
      rcases hgoes with rfl | rfl <;> cases hs
      rfl
    · rintro success hs
      rcases hgoes with rfl | rfl <;> cases hs
    · have hsender := Pipeline.senderRank_le capacity { s with
        socket.queued := s.socket.queued.drop n, next := next, delivered := s.delivered ++ s.socket.queued.take n }
      refine (Nat.add_le_add_left (Pipeline.drainRank_le _) _).trans_lt ?_
      simp only [Pipeline.rank, hrank, List.length_drop] at hsender ⊢
      omega

theorem drainWakes (h : Piped unsent Good signals capacity stream s) (hd : d.Sound signals) {signals' : MxSignals}
    (hnext : s.next = .wait signals') (ha : ByteFifo.Asserted s.socket.readerSignals signals') :
    Piped unsent Good signals capacity stream { s with next := d.waited } ∧
      Pipeline.rank unsent capacity { s with next := d.waited } < s.rank unsent capacity := by
  have hready : s.socket.queued ≠ [] ∨ s.socket.writer ≠ .opened := by
    by_contra hnot
    simp only [not_or, not_not] at hnot
    simp [ByteFifo.Asserted, ByteFifo.readerSignals, hnot] at ha
  refine ⟨⟨h.good, h.bytes, h.writer, h.reader, h.bounded, ?_, ?_⟩, ?_⟩
  · intro signals' hs
    rw [hd.waited] at hs
    cases hs
  · intro success hs
    rw [hd.waited] at hs
    cases hs
  · have hrank : s.drainRank = 2 := by rw [Pipeline.drainRank, hnext, if_pos hready]
    simp only [Pipeline.rank, hrank]
    simp [Pipeline.senderRank, Pipeline.drainRank, hd.waited]

theorem ofSender (h : Piped unsent Good signals capacity stream s) (hS : S.Sound sendSignals unsent Good)
    {a : PipelineAct} (ha : a.OfSender) (he : (pipelineMachine S d capacity).Enabled s a) :
    ∃ t, (pipelineMachine S d capacity).step s a = .ok t ∧ Piped unsent Good signals capacity stream t ∧
      t.rank unsent capacity < s.rank unsent capacity ∧ t.delivered = s.delivered := by
  cases a with
  | write n k => exact h.write hS he.1 he.2.1 he.2.2
  | senderWakes =>
    obtain ⟨signals', hnext, hasserted⟩ := he
    obtain ⟨hpiped, hlt⟩ := h.senderWakes hS hnext hasserted
    exact ⟨_, rfl, hpiped, hlt, rfl⟩
  | close =>
    obtain ⟨⟨success, hnext⟩, hopen⟩ := he
    obtain ⟨hpiped, hlt⟩ := h.close hnext hopen
    exact ⟨_, rfl, hpiped, hlt, rfl⟩
  | read | drainWakes => exact ha.elim

theorem step (h : Piped unsent Good signals capacity stream s) (hS : S.Sound sendSignals unsent Good)
    (hd : d.Sound signals) (a : PipelineAct) (he : (pipelineMachine S d capacity).Enabled s a) :
    ∃ t, (pipelineMachine S d capacity).step s a = .ok t ∧ Piped unsent Good signals capacity stream t ∧
      t.rank unsent capacity < s.rank unsent capacity := by
  have hsender (ha : a.OfSender) : ∃ t, (pipelineMachine S d capacity).step s a = .ok t ∧
      Piped unsent Good signals capacity stream t ∧ t.rank unsent capacity < s.rank unsent capacity := by
    obtain ⟨t, ht, hpiped, hlt, -⟩ := h.ofSender hS ha he
    exact ⟨t, ht, hpiped, hlt⟩
  cases a with
  | write | senderWakes | close => exact hsender trivial
  | read n => exact h.read hd he.1 he.2
  | drainWakes =>
    obtain ⟨signals', hnext, hasserted⟩ := he
    exact ⟨_, rfl, h.drainWakes hd hnext hasserted⟩

/-- What the sender can do next, as long as it has not left. -/
theorem sender_enabled (h : Piped unsent Good signals capacity stream s) (hS : S.Sound sendSignals unsent Good) :
    (∃ a, a.OfSender ∧ (pipelineMachine S d capacity).Enabled s a) ∨
      (∃ signals', S.next s.sender = .wait signals' ∧ s.socket.queued.length = capacity ∧ unsent s.sender ≠ []) ∨
      (S.next s.sender = .finished true ∧ s.socket.writer = .closed ∧ unsent s.sender = []) := by
  cases hnext : S.next s.sender with
  | write =>
    obtain ⟨n, hn⟩ := hS.reads s.sender
    exact .inl ⟨.write n 1, trivial, hnext, hn, fun hsome => s.socket.canWrite_one hsome⟩
  | wait signals' =>
    obtain ⟨rfl, hsome, -⟩ := hS.woken s.sender signals' h.good hnext
    by_cases hroom : s.socket.queued.length < capacity
    · refine .inl ⟨.senderWakes, trivial, _, hnext, ByteFifo.asserted_of_mem .socketWritable ?_ hS.writable⟩
      simp [ByteFifo.writerSignals, h.reader, hroom]
    · exact .inr (.inl ⟨_, rfl, Nat.le_antisymm h.bounded (Nat.not_lt.mp hroom), hsome⟩)
  | finished success =>
    obtain ⟨rfl, hunsent⟩ := hS.finished s.sender success h.good hnext
    rcases h.writer with hopen | ⟨hclosed, -⟩
    · exact .inl ⟨.close, trivial, ⟨_, hnext⟩, hopen⟩
    · exact .inr (.inr ⟨rfl, hclosed, hunsent⟩)

/-- The two ends never wait for each other. -/
theorem progress (h : Piped unsent Good signals capacity stream s) (hS : S.Sound sendSignals unsent Good)
    (hd : d.Sound signals) (hcap : 0 < capacity) :
    (∃ a, (pipelineMachine S d capacity).Enabled s a) ∨
      (S.next s.sender = .finished true ∧ s.next = .finished true ∧ s.delivered = stream) := by
  cases hnext : s.next with
  | read => exact .inl ⟨.read 1, hnext, s.socket.canRead_one⟩
  | wait signals' =>
    left
    obtain rfl := h.waiting signals' hnext
    have hreadable (hq : s.socket.queued ≠ []) : (pipelineMachine S d capacity).Enabled s .drainWakes :=
      ⟨_, hnext, ByteFifo.asserted_of_mem .socketReadable (by simp [ByteFifo.readerSignals, hq]) hd.readable⟩
    rcases h.sender_enabled hS with ⟨a, -, ha⟩ | ⟨-, -, hfull, -⟩ | ⟨-, hclosed, -⟩
    · exact ⟨a, ha⟩
    · exact ⟨.drainWakes, hreadable (List.ne_nil_of_length_pos (by omega))⟩
    · exact ⟨.drainWakes, _, hnext,
        ByteFifo.asserted_of_mem .socketPeerClosed (by simp [ByteFifo.readerSignals, hclosed]) hd.closed⟩
  | finished success =>
    obtain ⟨rfl, hq, hclosed⟩ := h.finished success hnext
    rcases h.writer with hopen | ⟨-, success', hsender⟩
    · cases hopen.symm.trans hclosed
    · obtain ⟨rfl, hunsent⟩ := hS.finished s.sender success' h.good hsender
      have hbytes := h.bytes
      rw [hq, hunsent, List.append_nil, List.append_nil] at hbytes
      exact .inr ⟨hsender, rfl, hbytes⟩

theorem rank_start (hS : S.Sound sendSignals unsent Good) (capacity : Nat) (stream : List UInt8) :
    (Pipeline.start stream : Pipeline S).rank unsent capacity = 8 * stream.length + 6 := by
  obtain ⟨-, hnext, hunsent⟩ := hS.start stream
  simp [Pipeline.rank, Pipeline.start, Pipeline.senderRank, Pipeline.drainRank, hnext, hunsent]
  omega

theorem run (hS : S.Sound sendSignals unsent Good) (hd : d.Sound signals) {acts : List PipelineAct}
    {result : Except Fault (Pipeline S)} (hrun : (pipelineMachine S d capacity).Run (.start stream) acts result) :
    ∃ s, result = .ok s ∧ Piped unsent Good signals capacity stream s ∧ acts.length ≤ 8 * stream.length + 6 := by
  obtain ⟨s, rfl, h⟩ := hrun.safe (I := Piped unsent Good signals capacity stream) (fun s a h he => by
    obtain ⟨t, ht, hpiped, -⟩ := h.step hS hd a he
    exact ⟨t, ht, hpiped⟩) (.start hS)
  have hlen := hrun.length_le (I := Piped unsent Good signals capacity stream) (P := fun _ => True)
    (μ := Pipeline.rank unsent capacity) (fun s a t h _ he hs => by
      obtain ⟨u, hu, hpiped, hlt⟩ := h.step hS hd a he
      cases hu.symm.trans hs
      exact ⟨hpiped, hlt⟩) (.start hS) (fun _ _ => trivial)
  rw [rank_start hS] at hlen
  exact ⟨s, rfl, h, (Nat.le_add_right _ _).trans hlen⟩

end Piped

/-- The senders of the library, and its drains. -/
inductive Sending where
  | fileDescriptor | string

def Sending.sender : Sending → Sender
  | .fileDescriptor => copyFromFile
  | .string => copyFromString

inductive Receiving where
  | drainer | blocking | fileDescriptor

def Receiving.drain : Receiving → Drain
  | .drainer => socketDrainer
  | .blocking => blockingDrain
  | .fileDescriptor => copyToFile

theorem Sending.sound (sending : Sending) :
    ∃ unsent Good, sending.sender.Sound {.socketWritable, .socketPeerClosed} unsent Good := by
  cases sending with
  | fileDescriptor => exact ⟨_, _, copyFromFile_sound⟩
  | string => exact ⟨_, _, copyFromString_sound⟩

theorem Receiving.sound (receiving : Receiving) : ∃ signals, receiving.drain.Sound signals := by
  cases receiving with
  | drainer => exact ⟨_, socketDrainer_sound⟩
  | blocking => exact ⟨_, blockingDrain_sound⟩
  | fileDescriptor => exact ⟨_, copyToFile_sound⟩

/-- Whatever sends and whatever drains, and however their steps interleave: what was delivered is a prefix of the stream
at any time, the ends never wait for each other, no run goes on for longer than the stream allows, and in the end both
report success and all of the stream was delivered. -/
theorem every_pipeline_delivers (sending : Sending) (receiving : Receiving) {capacity : Nat} (hcap : 0 < capacity)
    (stream : List UInt8) {acts : List PipelineAct} {result : Except Fault (Pipeline sending.sender)}
    (hrun : (pipelineMachine sending.sender receiving.drain capacity).Run (.start stream) acts result) :
    ∃ s, result = .ok s ∧ acts.length ≤ 8 * stream.length + 6 ∧ s.delivered ++ s.socket.queued <+: stream ∧
      ((∃ a, (pipelineMachine sending.sender receiving.drain capacity).Enabled s a) ∨
        (sending.sender.next s.sender = .finished true ∧ s.next = .finished true ∧ s.delivered = stream)) := by
  obtain ⟨unsent, Good, hS⟩ := sending.sound
  obtain ⟨signals, hd⟩ := receiving.sound
  obtain ⟨s, rfl, h, hlen⟩ := Piped.run hS hd hrun
  exact ⟨s, rfl, hlen, ⟨_, h.bytes⟩, h.progress hS hd hcap⟩

/-- A file of two bytes through a socket that holds one: the drainer waits for data and the copy for room. -/
theorem every_pipeline_delivers_two_bytes :
    ∃ s, (pipelineMachine copyFromFile socketDrainer 1).Run (.start [7, 9]) [.read 0, .write 2 1, .write 0 0, .drainWakes,
        .read 1, .senderWakes, .write 0 1, .write 0 0, .close, .drainWakes, .read 1, .drainWakes, .read 0] (.ok s) ∧
      s.delivered = [7, 9] ∧ s.next = .finished true ∧ 13 ≤ 8 * 2 + 6 := by
  have hrun : (pipelineMachine copyFromFile socketDrainer 1).Run (.start [7, 9]) [.read 0, .write 2 1, .write 0 0,
      .drainWakes, .read 1, .senderWakes, .write 0 1, .write 0 0, .close, .drainWakes, .read 1, .drainWakes, .read 0]
      (.ok _) :=
    -- the drainer finds nothing, then the copy finds no room
    .step ⟨rfl, fun h => absurd rfl h⟩ rfl
      (.step ⟨rfl, fun _ _ => by decide, fun _ _ _ => by decide⟩ rfl
        (.step ⟨rfl, fun h => absurd h (by decide), fun _ _ h => absurd h (by decide)⟩ rfl
          (.step ⟨_, rfl, ByteFifo.asserted_of_mem .socketReadable (by decide) (by decide)⟩ rfl
            (.step ⟨rfl, fun _ => by decide⟩ rfl
              (.step ⟨_, rfl, ByteFifo.asserted_of_mem .socketWritable (by decide) (by decide)⟩ rfl
                -- the second byte, the end of the file, and the end of the stream
                (.step ⟨rfl, fun h => absurd h (by decide), fun _ _ _ => by decide⟩ rfl
                  (.step ⟨rfl, fun _ h => absurd rfl h, fun h => absurd rfl h⟩ rfl
                    (.step ⟨⟨true, rfl⟩, rfl⟩ rfl
                      (.step ⟨_, rfl, ByteFifo.asserted_of_mem .socketReadable (by decide) (by decide)⟩ rfl
                        (.step ⟨rfl, fun _ => by decide⟩ rfl
                          (.step ⟨_, rfl, ByteFifo.asserted_of_mem .socketPeerClosed (by decide) (by decide)⟩ rfl
                            (.step ⟨rfl, fun h => absurd rfl h⟩ rfl (.nil _)))))))))))))
  obtain ⟨s, hs, hlen, -⟩ := every_pipeline_delivers .fileDescriptor .drainer Nat.one_pos [7, 9] hrun
  cases hs
  exact ⟨_, hrun, rfl, rfl, hlen⟩

/-! ## `WriteStringToSocket` -/

/-- The call with two bytes and a socket that holds one. -/
private def full : Pipeline copyFromString where
  sender := (⟨[7, 9], ⟨1, 1⟩, .waitOne {.socketWritable, .socketPeerClosed}⟩ : StringSender)
  socket := { queued := [7] }

end Mtl.Socket
