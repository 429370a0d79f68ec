import Mtl.Magenta
import Mtl.Foundation.Machine

/-! The two copies of `files.cc`. A step is given the results of the system calls it may make;
what it wrote, and how it goes on, is its outcome. -/
namespace Mtl.Socket
open Foundation

/-- The size of every transfer buffer. -/
def bufferSize : Nat := 64 * 1024

/-- A `read` from a socket. -/
structure ReadResult where
  status : MxStatus
  bytes : List UInt8 := []

/-- A `read` that succeeds gets bytes, at most a buffer of them. -/
def ReadResult.Fits (read : ReadResult) : Prop :=
  read.status = .ok → 0 < read.bytes.length ∧ read.bytes.length ≤ bufferSize

/-- A `write` to a socket, with the number of bytes it accepted. -/
structure WriteResult where
  status : MxStatus
  accepted : Nat := 0

/-- How a step of a copy ends: a task that goes on with `OnHandleReady(MX_OK)` or `FillBuffer`, a
wait, or the deletion of the handler with the call of `callback_`. -/
inductive CopyStep where
  | postReady
  | postFill
  | asyncWait (signals : MxSignals)
  | sendCallback (value : Bool)
  deriving DecidableEq

/-- `SendCallback`, in both handlers. -/
def sendCallback (waiting value : Bool) : Except Fault CopyStep :=
  if waiting then .error (.dcheck "!wait_id_") else .ok (.sendCallback value)

/-- `destination` is what the file got so far; `waiting` stands for a `wait_id_` that is not 0. -/
structure CopyToFileHandler where
  destination : List UInt8 := []
  waiting : Bool := false

namespace CopyToFileHandler

/-- `OnHandleReady` when there was nothing to write. -/
def afterRead (h : CopyToFileHandler) (result : MxStatus) : Except Fault (CopyToFileHandler × CopyStep) :=
  match result with
  | .errPeerClosed => do return (h, ← sendCallback h.waiting true)
  | .errShouldWait => .ok ({ h with waiting := true }, .asyncWait {.socketReadable, .socketPeerClosed})
  | _ => do return (h, ← sendCallback h.waiting false)

/-- `taken` is how many bytes `WriteFileDescriptor` wrote; it succeeds if those are all. -/
def onHandleReady (h : CopyToFileHandler) (result : MxStatus) (read : ReadResult) (taken : Nat) :
    Except Fault (CopyToFileHandler × CopyStep) :=
  if result = .ok ∧ read.status = .ok then
    let h := { h with destination := h.destination ++ read.bytes.take taken }
    if taken < read.bytes.length then do return (h, ← sendCallback h.waiting false)
    else .ok (h, .postReady)
  else h.afterRead (if result = .ok then read.status else result)

def waitComplete (h : CopyToFileHandler) (result : MxStatus) (read : ReadResult) (taken : Nat) :
    Except Fault (CopyToFileHandler × CopyStep) :=
  { h with waiting := false }.onHandleReady result read taken

end CopyToFileHandler

/-- `buffer` is what the last `FillBuffer` read into `buffer_`. -/
structure CopyFromFileHandler where
  buffer : List UInt8 := []
  bufferOffset : Nat := 0
  bufferEnd : Nat := 0
  waiting : Bool := false

namespace CopyFromFileHandler

/-- The bytes that the next `write` offers. -/
def pending (h : CopyFromFileHandler) : List UInt8 := (h.buffer.take h.bufferEnd).drop h.bufferOffset

def onHandleReady (h : CopyFromFileHandler) (result : MxStatus) (write : WriteResult) :
    Except Fault (CopyFromFileHandler × CopyStep) :=
  if result = .ok ∧ write.status = .ok then
    let h := { h with bufferOffset := h.bufferOffset + write.accepted }
    .ok (h, if h.bufferOffset = h.bufferEnd then .postFill else .postReady)
  else
    match if result = .ok then write.status else result with
    | .errShouldWait => .ok ({ h with waiting := true }, .asyncWait {.socketWritable, .socketPeerClosed})
    | _ => do return (h, ← sendCallback h.waiting false)

/-- `read` is what `ReadFileDescriptor` returned: nothing at the end of the file, `none` on an
error. Only a `read` of some bytes is followed by a `write`. -/
def fillBuffer (h : CopyFromFileHandler) (read : Option (List UInt8)) (write : WriteResult) :
    Except Fault (CopyFromFileHandler × CopyStep) :=
  match read with
  | none => do return (h, ← sendCallback h.waiting false)
  | some [] => do return (h, ← sendCallback h.waiting true)
  | some bytes =>
    { h with buffer := bytes, bufferOffset := 0, bufferEnd := bytes.length }.onHandleReady .ok write

def waitComplete (h : CopyFromFileHandler) (result : MxStatus) (write : WriteResult) :
    Except Fault (CopyFromFileHandler × CopyStep) :=
  { h with waiting := false }.onHandleReady result write

/-- The buffer's window lies in what was read. -/
structure InBounds (h : CopyFromFileHandler) : Prop where
  offset : h.bufferOffset ≤ h.bufferEnd
  filled : h.bufferEnd = h.buffer.length

theorem InBounds.length_pending {h : CopyFromFileHandler} (hb : h.InBounds) :
    h.pending.length + h.bufferOffset = h.bufferEnd := by
  have := hb.offset
  simp only [pending, List.length_drop, List.length_take, hb.filled] at *
  omega

theorem onHandleReady_wrote (h : CopyFromFileHandler) (n : Nat) :
    h.onHandleReady .ok ⟨.ok, n⟩ = .ok ({ h with bufferOffset := h.bufferOffset + n },
      if h.bufferOffset + n = h.bufferEnd then .postFill else .postReady) := by
  simp [onHandleReady]

theorem onHandleReady_full (h : CopyFromFileHandler) :
    h.onHandleReady .ok ⟨.errShouldWait, 0⟩ =
      .ok ({ h with waiting := true }, .asyncWait {.socketWritable, .socketPeerClosed}) := by
  simp [onHandleReady]

/-- An accepted write moves the window on by what was accepted. -/
theorem InBounds.advance {h : CopyFromFileHandler} (hb : h.InBounds) {n : Nat} (hn : n ≤ h.pending.length) :
    InBounds { h with bufferOffset := h.bufferOffset + n } ∧
      ({ h with bufferOffset := h.bufferOffset + n } : CopyFromFileHandler).pending = h.pending.drop n ∧
      (h.bufferOffset + n = h.bufferEnd ↔ n = h.pending.length) := by
  have := hb.length_pending
  exact ⟨⟨by simp only; omega, hb.filled⟩, by simp [pending], by omega⟩

end CopyFromFileHandler

namespace CopyToFileHandler

theorem onHandleReady_wrote (h : CopyToFileHandler) (bytes : List UInt8) :
    h.onHandleReady .ok ⟨.ok, bytes⟩ bytes.length =
      .ok ({ h with destination := h.destination ++ bytes }, .postReady) := by
  simp [onHandleReady]

theorem onHandleReady_empty (h : CopyToFileHandler) (taken : Nat) :
    h.onHandleReady .ok ⟨.errShouldWait, []⟩ taken =
      .ok ({ h with waiting := true }, .asyncWait {.socketReadable, .socketPeerClosed}) := by
  simp [onHandleReady, afterRead]

theorem onHandleReady_closed {h : CopyToFileHandler} (hw : h.waiting = false) (taken : Nat) :
    h.onHandleReady .ok ⟨.errPeerClosed, []⟩ taken = .ok (h, .sendCallback true) := by
  simp [onHandleReady, afterRead, sendCallback, hw]

end CopyToFileHandler

end Mtl.Socket
