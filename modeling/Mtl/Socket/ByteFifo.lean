import Mathlib.Data.Finset.Lattice.Lemmas
import Mtl.Socket.Files

/-! One direction of a socket as a byte FIFO between a writer and a reader. The number of bytes
that a call moves is the kernel's choice. -/
namespace Mtl.Socket

/-- How the writing end stands: open, shut down for writing, or closed. -/
inductive WriterEnd where
  | opened | shutdown | closed
  deriving DecidableEq

structure ByteFifo where
  queued : List UInt8 := []
  writer : WriterEnd := .opened
  readerClosed : Bool := false

namespace ByteFifo

/-- A `read` that gets `n` bytes if there are any. -/
def read (f : ByteFifo) (n : Nat) : ByteFifo × ReadResult :=
  if f.queued = [] then
    (f, ⟨match f.writer with
      | .opened => .errShouldWait
      | .shutdown => .errBadState
      | .closed => .errPeerClosed, []⟩)
  else ({ f with queued := f.queued.drop n }, ⟨.ok, f.queued.take n⟩)

/-- The choices a `read` has. -/
def CanRead (f : ByteFifo) (n : Nat) : Prop :=
  f.queued ≠ [] → 0 < n ∧ n ≤ f.queued.length ∧ n ≤ bufferSize

/-- A `write` of some bytes of which `n` are accepted if there is room. -/
def write (f : ByteFifo) (capacity : Nat) (bytes : List UInt8) (n : Nat) : ByteFifo × WriteResult :=
  if f.readerClosed then (f, ⟨.errPeerClosed, 0⟩)
  else if capacity ≤ f.queued.length then (f, ⟨.errShouldWait, 0⟩)
  else ({ f with queued := f.queued ++ bytes.take n }, ⟨.ok, n⟩)

/-- The choices a `write` has. -/
def CanWrite (f : ByteFifo) (capacity : Nat) (bytes : List UInt8) (n : Nat) : Prop :=
  f.readerClosed = false → f.queued.length < capacity →
    0 < n ∧ n ≤ bytes.length ∧ n + f.queued.length ≤ capacity

/-- The signals asserted at the reading end. -/
def readerSignals (f : ByteFifo) : MxSignals :=
  (if f.queued = [] then ∅ else {.socketReadable}) ∪
    match f.writer with
    | .opened => ∅
    | .shutdown => {.socketReadDisabled}
    | .closed => {.socketPeerClosed}

/-- The signals asserted at the writing end. -/
def writerSignals (f : ByteFifo) (capacity : Nat) : MxSignals :=
  if f.readerClosed then {.socketPeerClosed}
  else if f.queued.length < capacity then {.socketWritable} else ∅

/-- A wait completes with `MX_OK` once one of its signals is asserted. -/
def Asserted (asserted signals : MxSignals) : Prop := (asserted ∩ signals).Nonempty

theorem asserted_of_mem (signal : MxSignal) {asserted signals : MxSignals} (h : signal ∈ asserted)
    (h' : signal ∈ signals) : Asserted asserted signals :=
  ⟨signal, Finset.mem_inter.mpr ⟨h, h'⟩⟩

theorem writable_of_asserted {f : ByteFifo} {capacity : Nat} {signals : MxSignals} (hopen : f.readerClosed = false)
    (h : Asserted (f.writerSignals capacity) signals) : f.queued.length < capacity := by
  by_contra hfull
  rw [Asserted, writerSignals, hopen, if_neg (by simp), if_neg hfull, Finset.empty_inter] at h
  exact Finset.not_nonempty_empty h

theorem canRead_one (f : ByteFifo) : f.CanRead 1 := by
  intro hq
  have := List.length_pos_iff.mpr hq
  exact ⟨Nat.one_pos, this, by decide⟩

theorem canWrite_one (f : ByteFifo) {capacity : Nat} {bytes : List UInt8} (hb : bytes ≠ []) : f.CanWrite capacity bytes 1 := by
  intro _ hroom
  have := List.length_pos_iff.mpr hb
  exact ⟨Nat.one_pos, this, by omega⟩

end ByteFifo

end Mtl.Socket
