import Mtl.Socket.ByteFifo
import Mtl.Socket.SocketDrainer

/-! The three ways to drain a socket, against a peer that sends a stream and then closes its end or
shuts down writing. -/
namespace Mtl.Socket
open Foundation

/-- Where the loop of `BlockingDrainFrom` goes. -/
inductive BlockingStep where
  | loop
  | waitOne (signals : MxSignals)
  | ret (value : Bool)

namespace BlockingDrain

/-- The loop's body after `source.read`; `written` is what `write_bytes` returned, if it is called. -/
def afterRead (read : ReadResult) (written : Nat) : BlockingStep :=
  match read.status with
  | .ok => if written < read.bytes.length then .ret false else .loop
  | .errShouldWait => .waitOne {.socketReadable, .socketPeerClosed}
  | .errPeerClosed => .ret true
  | _ => .ret false

/-- The loop's body after `source.wait_one`. -/
def afterWait (result : MxStatus) : BlockingStep :=
  if result ≠ .ok then .ret (result = .errPeerClosed) else .loop

end BlockingDrain

/-- Where a drain goes on: with a read, with a wait, or nowhere, having reported. -/
inductive DrainNext where
  | read
  | wait (signals : MxSignals)
  | finished (success : Bool)
  deriving DecidableEq

/-- A drain as its peer sees it: what it delivers of a read, and how it goes on after it and after
a wait that completed with `MX_OK`. -/
structure Drain where
  read : ReadResult → Except Fault (List UInt8 × DrainNext)
  waited : DrainNext

/-- `SocketDrainer` with a client that only collects the data. -/
def socketDrainer : Drain where
  read r := do
    return match ← SocketDrainer.readData r with
      | .dataAvailable bytes => (bytes, .wait SocketDrainer.waitSignals)
      | .waitForData => ([], .wait SocketDrainer.waitSignals)
      | .dataComplete => ([], .finished true)
  waited := .read

def BlockingStep.next : BlockingStep → DrainNext
  | .loop => .read
  | .waitOne signals => .wait signals
  | .ret value => .finished value

/-- `BlockingDrainFrom` with a callback that consumes everything. -/
def blockingDrain : Drain where
  read r := .ok (if r.status = .ok then r.bytes else [], (BlockingDrain.afterRead r r.bytes.length).next)
  waited := (BlockingDrain.afterWait .ok).next

/-- `CopyToFileDescriptor` with writes that succeed. -/
def copyToFile : Drain where
  read r := do
    let (h, step) ← CopyToFileHandler.onHandleReady {} .ok r r.bytes.length
    return (h.destination, match step with
      | .postReady | .postFill => .read
      | .asyncWait signals => .wait signals
      | .sendCallback value => .finished value)
  waited := .read

/-- The two ways to end a stream. -/
inductive StreamEnd where
  | close | writeShutdown
  deriving DecidableEq

def StreamEnd.writer : StreamEnd → WriterEnd
  | .close => .closed
  | .writeShutdown => .shutdown

/-- A drain and its peer, which has yet to send `unsent`. -/
structure DrainRun where
  unsent : List UInt8
  socket : ByteFifo := {}
  next : DrainNext := .read
  delivered : List UInt8 := []

/-- The peer sends `n` bytes or ends the stream; the drain reads at most `n` bytes or its wait
completes. -/
inductive DrainAct where
  | send (n : Nat)
  | finish
  | read (n : Nat)
  | wake

def DrainRun.read (d : Drain) (s : DrainRun) (n : Nat) : Except Fault DrainRun := do
  let (socket, r) := s.socket.read n
  let (bytes, next) ← d.read r
  return { s with socket := socket, next := next, delivered := s.delivered ++ bytes }

def drainMachine (d : Drain) (ending : StreamEnd) : Machine DrainRun DrainAct Fault where
  Enabled s
    | .send n => 0 < n ∧ n ≤ s.unsent.length
    | .finish => s.unsent = [] ∧ s.socket.writer = .opened
    | .read n => s.next = .read ∧ s.socket.CanRead n
    | .wake => ∃ signals, s.next = .wait signals ∧ ByteFifo.Asserted s.socket.readerSignals signals
  step s
    | .send n => .ok { s with
        unsent := s.unsent.drop n, socket.queued := s.socket.queued ++ s.unsent.take n }
    | .finish => .ok { s with socket.writer := ending.writer }
    | .read n => s.read d n
    | .wake => .ok { s with next := d.waited }

/-- Every run ends after boundedly many steps, with success reported and the stream delivered. -/
def DrainsAll (d : Drain) (stream : List UInt8) (ending : StreamEnd) : Prop :=
  ∀ acts result, (drainMachine d ending).Run { unsent := stream } acts result →
    ∃ s, result = .ok s ∧ acts.length ≤ 6 * stream.length + 4 ∧
      ((∃ a, (drainMachine d ending).Enabled s a) ∨ (s.next = .finished true ∧ s.delivered = stream))

/-- What the three drains have in common. -/
structure Drain.Sound (d : Drain) (signals : MxSignals) : Prop where
  ok : ∀ bytes, ∃ next, d.read ⟨.ok, bytes⟩ = .ok (bytes, next) ∧ (next = .read ∨ next = .wait signals)
  shouldWait : d.read ⟨.errShouldWait, []⟩ = .ok ([], .wait signals)
  peerClosed : d.read ⟨.errPeerClosed, []⟩ = .ok ([], .finished true)
  badState : ∃ success, d.read ⟨.errBadState, []⟩ = .ok ([], .finished success)
  waited : d.waited = .read
  readable : .socketReadable ∈ signals
  closed : .socketPeerClosed ∈ signals

theorem socketDrainer_sound : socketDrainer.Sound SocketDrainer.waitSignals :=
  ⟨fun _ => ⟨_, rfl, .inr rfl⟩, rfl, rfl, ⟨_, rfl⟩, rfl, by decide, by decide⟩

theorem blockingDrain_sound : blockingDrain.Sound {.socketReadable, .socketPeerClosed} :=
  ⟨fun bytes => ⟨.read, by simp [blockingDrain, BlockingDrain.afterRead, BlockingStep.next], .inl rfl⟩, rfl, rfl, ⟨_, rfl⟩, rfl,
    by decide, by decide⟩

theorem copyToFile_sound : copyToFile.Sound {.socketReadable, .socketPeerClosed} :=
  ⟨fun bytes => ⟨.read, by simp [copyToFile, CopyToFileHandler.onHandleReady_wrote], .inl rfl⟩, rfl, rfl,
    ⟨_, rfl⟩, rfl, by decide, by decide⟩

/-- Whether a read would find bytes or the end of the stream. -/
def DrainRun.Ready (s : DrainRun) : Prop := s.socket.queued ≠ [] ∨ s.socket.writer ≠ .opened

instance (s : DrainRun) : Decidable s.Ready := inferInstanceAs (Decidable (_ ∨ _))

/-- Nothing is lost between the peer and the drain, and a report is made at the end only. -/
structure Draining (d : Drain) (signals : MxSignals) (stream : List UInt8) (ending : StreamEnd)
    (s : DrainRun) : Prop where
  bytes : s.delivered ++ s.socket.queued ++ s.unsent = stream
  ended : s.socket.writer ≠ .opened → s.unsent = [] ∧ s.socket.writer = ending.writer
  waiting : ∀ signals', s.next = .wait signals' → signals' = signals
  finished : ∀ success, s.next = .finished success → s.socket.queued = [] ∧ s.socket.writer ≠ .opened ∧
    (ending = .close → success = true) ∧
    (ending = .writeShutdown → d.read ⟨.errBadState, []⟩ = .ok ([], .finished success))

/-- The steps left that move no byte. -/
def DrainRun.nextRank (s : DrainRun) : Nat :=
  match s.next with
  | .read => 1
  | .wait _ => if s.Ready then 2 else 0
  | .finished _ => 0

/-- The steps left: bytes to move, the end to be made, and a wait to be woken from. -/
def DrainRun.rank (s : DrainRun) : Nat :=
  3 * (2 * s.unsent.length + s.socket.queued.length) + (if s.socket.writer = .opened then 3 else 0) + s.nextRank

theorem DrainRun.nextRank_le (s : DrainRun) : s.nextRank ≤ 2 := by
  unfold nextRank
  split
  · omega
  · split_ifs <;> omega
  · omega

namespace Draining
variable {d : Drain} {signals : MxSignals} {stream : List UInt8} {ending : StreamEnd} {s : DrainRun}

theorem init : Draining d signals stream ending { unsent := stream } :=
  ⟨rfl, fun h => absurd rfl h, nofun, nofun⟩

theorem send (h : Draining d signals stream ending s) {n : Nat} (hn : 0 < n ∧ n ≤ s.unsent.length) :
    ∃ t, (drainMachine d ending).step s (.send n) = .ok t ∧ Draining d signals stream ending t ∧
      t.rank < s.rank := by
  have hopen : s.socket.writer = .opened := by
    by_contra hw
    rw [(h.ended hw).1, List.length_nil] at hn
    omega
  refine ⟨_, rfl, ⟨?_, fun hw => absurd hopen hw, h.waiting, fun success hf => ?_⟩, ?_⟩
  · rw [← h.bytes]
    simp
  · exact absurd hopen (h.finished success hf).2.1
  · refine (Nat.add_le_add_left (DrainRun.nextRank_le _) _).trans_lt ?_
    simp only [DrainRun.rank, hopen, if_true, List.length_append, List.length_take, List.length_drop]
    omega

theorem finish (h : Draining d signals stream ending s) (hu : s.unsent = []) (hw : s.socket.writer = .opened) :
    ∃ t, (drainMachine d ending).step s .finish = .ok t ∧ Draining d signals stream ending t ∧
      t.rank < s.rank := by
  have hend : ending.writer ≠ .opened := by cases ending <;> simp [StreamEnd.writer]
  refine ⟨_, rfl, ⟨h.bytes, fun _ => ⟨hu, rfl⟩, h.waiting, fun success hf => ?_⟩, ?_⟩
  · exact absurd hw (h.finished success hf).2.1
  · refine (Nat.add_le_add_left (DrainRun.nextRank_le _) _).trans_lt ?_
    simp only [DrainRun.rank, hw, hend, if_true, if_false]
    omega

theorem read (h : Draining d signals stream ending s) (hd : d.Sound signals) {n : Nat} (hn : s.next = .read)
    (hr : s.socket.CanRead n) :
    ∃ t, (drainMachine d ending).step s (.read n) = .ok t ∧ Draining d signals stream ending t ∧
      t.rank < s.rank := by
  have hbytes := h.bytes
  have hrank : s.nextRank = 1 := by rw [DrainRun.nextRank, hn]
  by_cases hq : s.socket.queued = []
  · cases hw : s.socket.writer with
    | opened =>
      have hread : s.read d n = .ok { s with next := .wait signals } := by
        simp [DrainRun.read, ByteFifo.read, hq, hw, hd.shouldWait]
      refine ⟨_, hread, ⟨hbytes, h.ended, fun _ hs => ?_, nofun⟩, ?_⟩
      · cases hs
        rfl
      · simp [DrainRun.rank, DrainRun.nextRank, DrainRun.Ready, hq, hw, hn]
    | shutdown =>
      obtain ⟨success, hbad⟩ := hd.badState
      have hread : s.read d n = .ok { s with next := .finished success } := by
        simp [DrainRun.read, ByteFifo.read, hq, hw, hbad]
      have hend : ending.writer = .shutdown := ((h.ended (by simp [hw])).2.symm).trans hw
      refine ⟨_, hread, ⟨hbytes, h.ended, nofun, fun _ hs => ?_⟩, ?_⟩
      · cases hs
        refine ⟨hq, by simp [hw], ?_, fun _ => hbad⟩
        rintro rfl
        cases hend
      · simp [DrainRun.rank, DrainRun.nextRank, hn]
    | closed =>
      have hread : s.read d n = .ok { s with next := .finished true } := by
        simp [DrainRun.read, ByteFifo.read, hq, hw, hd.peerClosed]
      have hend : ending.writer = .closed := ((h.ended (by simp [hw])).2.symm).trans hw
      refine ⟨_, hread, ⟨hbytes, h.ended, nofun, fun _ hs => ?_⟩, ?_⟩
      · cases hs
        refine ⟨hq, by simp [hw], fun _ => rfl, ?_⟩
        rintro rfl
        cases hend
      · simp [DrainRun.rank, DrainRun.nextRank, hn]
  · obtain ⟨hpos, hle, -⟩ := hr hq
    obtain ⟨next, hok, hnext⟩ := hd.ok (s.socket.queued.take n)
    have hread : s.read d n = .ok { s with
        socket.queued := s.socket.queued.drop n, next := next,
        delivered := s.delivered ++ s.socket.queued.take n } := by
      simp [DrainRun.read, ByteFifo.read, hq, hok]
    refine ⟨_, hread, ⟨?_, h.ended, fun _ hs => ?_, fun _ hs => ?_⟩, ?_⟩
    · rw [← hbytes]
      simp
    · rcases hnext with rfl | rfl <;> cases hs
      rfl
    · rcases hnext with rfl | rfl <;> cases hs
    · refine (Nat.add_le_add_left (DrainRun.nextRank_le _) _).trans_lt ?_
      simp only [DrainRun.rank, hrank, List.length_drop]
      omega

theorem wake (h : Draining d signals stream ending s) (hd : d.Sound signals) {signals' : MxSignals}
    (hn : s.next = .wait signals') (ha : ByteFifo.Asserted s.socket.readerSignals signals') :
    ∃ t, (drainMachine d ending).step s .wake = .ok t ∧ Draining d signals stream ending t ∧
      t.rank < s.rank := by
  have hready : s.Ready := by
    by_contra hnot
    simp only [DrainRun.Ready, not_or, not_not] at hnot
    simp [ByteFifo.Asserted, ByteFifo.readerSignals, hnot] at ha
  refine ⟨_, rfl, ⟨h.bytes, h.ended, ?_, ?_⟩, ?_⟩
  · intro signals' hw
    rw [hd.waited] at hw
    cases hw
  · intro success hf
    rw [hd.waited] at hf
    cases hf
  · simp [DrainRun.rank, DrainRun.nextRank, hd.waited, hn, hready]

theorem step (h : Draining d signals stream ending s) (hd : d.Sound signals) (a : DrainAct)
    (he : (drainMachine d ending).Enabled s a) :
    ∃ t, (drainMachine d ending).step s a = .ok t ∧ Draining d signals stream ending t ∧ t.rank < s.rank := by
  cases a with
  | send n => exact h.send he
  | finish => exact h.finish he.1 he.2
  | read n => exact h.read hd he.1 he.2
  | wake =>
    obtain ⟨signals', hn, ha⟩ := he
    exact h.wake hd hn ha

/-- Until it has reported, a drain of a stream that ends by a close can go on. -/
theorem progress (h : Draining d signals stream .close s) (hd : d.Sound signals) :
    (∃ a, (drainMachine d .close).Enabled s a) ∨ (s.next = .finished true ∧ s.delivered = stream) := by
  cases hn : s.next with
  | read => exact .inl ⟨.read 1, hn, s.socket.canRead_one⟩
  | finished success =>
    obtain ⟨hq, hw, htrue, -⟩ := h.finished success hn
    have hbytes := h.bytes
    rw [hq, (h.ended hw).1, List.append_nil, List.append_nil] at hbytes
    exact .inr ⟨by rw [htrue rfl], hbytes⟩
  | wait signals' =>
    obtain rfl := h.waiting signals' hn
    left
    by_cases hq : s.socket.queued = []
    · by_cases hw : s.socket.writer = .opened
      · by_cases hu : s.unsent = []
        · exact ⟨.finish, hu, hw⟩
        · exact ⟨.send 1, Nat.one_pos, List.length_pos_iff.mpr hu⟩
      · refine ⟨.wake, _, hn, ByteFifo.asserted_of_mem .socketPeerClosed ?_ hd.closed⟩
        simp [ByteFifo.readerSignals, (h.ended hw).2, StreamEnd.writer]
    · refine ⟨.wake, _, hn, ByteFifo.asserted_of_mem .socketReadable ?_ hd.readable⟩
      simp [ByteFifo.readerSignals, hq]

end Draining

theorem Drain.Sound.drainsAll {d : Drain} {signals : MxSignals} (hd : d.Sound signals) (stream : List UInt8) :
    DrainsAll d stream .close := by
  intro acts result hrun
  obtain ⟨s, rfl, h⟩ := hrun.safe (I := Draining d signals stream .close) (fun s a h he => by
    obtain ⟨t, ht, hc, -⟩ := h.step hd a he
    exact ⟨t, ht, hc⟩) .init
  have hlen := hrun.length_le (I := Draining d signals stream .close) (P := fun _ => True) (μ := DrainRun.rank)
    (fun s a t h _ he hs => by
      obtain ⟨u, hu, hc, hlt⟩ := h.step hd a he
      rw [hs] at hu
      cases hu
      exact ⟨hc, hlt⟩) .init (fun _ _ => trivial)
  refine ⟨s, rfl, ?_, h.progress hd⟩
  have hstart : DrainRun.rank { unsent := stream } = 6 * stream.length + 4 := by
    simp [DrainRun.rank, DrainRun.nextRank]
    omega
  omega

/-- A drain that takes a write shutdown for a failure does not complete any stream ended by one. -/
theorem Drain.Sound.not_drainsAll {d : Drain} {signals : MxSignals} (hd : d.Sound signals)
    (hbad : d.read ⟨.errBadState, []⟩ = .ok ([], .finished false)) (stream : List UInt8) :
    ¬ DrainsAll d stream .writeShutdown := by
  intro hall
  obtain ⟨acts, s, hrun, h, hstuck⟩ := Machine.Run.exists_stuck (m := drainMachine d .writeShutdown)
    (I := Draining d signals stream .writeShutdown) (μ := DrainRun.rank) (fun s a h he => h.step hd a he) .init
  obtain ⟨t, ht, -, hend⟩ := hall acts _ hrun
  cases ht
  rcases hend with ⟨a, ha⟩ | ⟨hfin, -⟩
  · exact hstuck a ha
  · have := (h.finished true hfin).2.2.2 rfl
    rw [hbad] at this
    cases this

/-- The three drains deliver the stream and report success, for every chunking and every placement
of would-block results, exactly if it ends by a close. -/
theorem drains_agree_iff_close (stream : List UInt8) (ending : StreamEnd) :
    (DrainsAll socketDrainer stream ending ∧ DrainsAll blockingDrain stream ending ∧
      DrainsAll copyToFile stream ending) ↔ ending = .close := by
  constructor
  · rintro ⟨-, hblocking, -⟩
    cases ending with
    | close => rfl
    | writeShutdown => exact absurd hblocking (blockingDrain_sound.not_drainsAll rfl stream)
  · rintro rfl
    exact ⟨socketDrainer_sound.drainsAll stream, blockingDrain_sound.drainsAll stream,
      copyToFile_sound.drainsAll stream⟩

/-- The peer shuts down writing and sends nothing: `BlockingDrainFrom` reports a failure. -/
theorem write_shutdown_fails :
    ¬ ∀ stream ending, DrainsAll socketDrainer stream ending ∧ DrainsAll blockingDrain stream ending ∧
      DrainsAll copyToFile stream ending := by
  intro hdrains
  have hrun : (drainMachine blockingDrain .writeShutdown).Run { unsent := [] } [.finish, .read 0] (.ok _) :=
    .step ⟨rfl, rfl⟩ rfl (.step ⟨rfl, fun h => absurd rfl h⟩ rfl (.nil _))
  obtain ⟨s, hs, -, hend⟩ := (hdrains [] .writeShutdown).2.1 _ _ hrun
  cases hs
  rcases hend with ⟨a, ha⟩ | ⟨hfin, -⟩
  · cases a with
    | send n => exact absurd ha.2 (Nat.not_le.mpr ha.1)
    | finish => cases ha.2
    | read n => cases ha.1
    | wake =>
      obtain ⟨signals, hn, -⟩ := ha
      cases hn
  · cases hfin

end Mtl.Socket
