import Mtl.Socket.Strings

/-! The two ways to send a stream into a socket, as the socket sees them. -/
namespace Mtl.Socket
open Foundation

/-- How a sender goes on: with a write, with a wait, or nowhere, having reported. -/
inductive SendNext where
  | write
  | wait (signals : MxSignals)
  | finished (success : Bool)
  deriving DecidableEq

/-- A sender: what it offers in the next write, for which it may first read `n` bytes of its source, and how it goes on
after the write and after a wait that completed with `MX_OK`. -/
structure Sender where
  State : Type
  start : List UInt8 → State
  next : State → SendNext
  Reads : State → Nat → Prop
  offered : State → Nat → List UInt8
  wrote : State → Nat → WriteResult → Except Fault State
  woken : State → State

/-- A `CopyFromFileHandler`, what is left of its file, and its continuation. -/
structure FileSender where
  unread : List UInt8
  handler : CopyFromFileHandler := {}
  step : CopyStep := .postFill

/-- `CopyFromFileDescriptor` with reads of the file that succeed. `WaitComplete` goes on with `OnHandleReady`. -/
def copyFromFile : Sender where
  State := FileSender
  start file := { unread := file }
  next s := match s.step with
    | .postReady | .postFill => .write
    | .asyncWait signals => .wait signals
    | .sendCallback value => .finished value
  Reads s n := s.step = .postFill → s.unread ≠ [] → 0 < n ∧ n ≤ s.unread.length ∧ n ≤ bufferSize
  offered s n := if s.step = .postFill then s.unread.take n else s.handler.pending
  wrote s n write :=
    if s.step = .postFill then do
      let (handler, step) ← s.handler.fillBuffer (some (s.unread.take n)) write
      return { unread := s.unread.drop n, handler := handler, step := step }
    else do
      let (handler, step) ← s.handler.onHandleReady .ok write
      return { s with handler := handler, step := step }
  woken s := { s with handler.waiting := false, step := .postReady }

/-- A call of `BlockingCopyFromString`. -/
structure StringSender where
  source : List UInt8
  writer : StringWriter
  step : BlockingStep := .loop

def copyFromString : Sender where
  State := StringSender
  start source := { source := source, writer := { toWrite := source.length } }
  next s := match s.step with
    | .loop => .write
    | .waitOne signals => .wait signals
    | .ret value => .finished value
  Reads _ _ := True
  offered s _ := s.writer.offered s.source
  wrote s _ write :=
    let (writer, step) := s.writer.afterWrite write
    .ok { s with writer := writer, step := step }
  woken s := { s with step := StringWriter.afterWait .ok }

/-- What the senders have in common: `unsent` is what the socket has not accepted yet. -/
structure Sender.Sound (S : Sender) (signals : MxSignals) (unsent : S.State → List UInt8) (Good : S.State → Prop) :
    Prop where
  start : ∀ stream, Good (S.start stream) ∧ S.next (S.start stream) = .write ∧ unsent (S.start stream) = stream
  reads : ∀ s, ∃ n, S.Reads s n
  offered : ∀ s n, Good s → S.next s = .write → S.Reads s n →
    S.offered s n <+: unsent s ∧ (S.offered s n = [] → unsent s = [])
  accepted : ∀ s n k, Good s → S.next s = .write → S.Reads s n → 0 < k → k ≤ (S.offered s n).length →
    ∃ t, S.wrote s n ⟨.ok, k⟩ = .ok t ∧ Good t ∧ unsent t = (unsent s).drop k ∧
      (S.next t = .write ∨ S.next t = .finished true)
  ended : ∀ s n, Good s → S.next s = .write → S.Reads s n → S.offered s n = [] →
    ∃ t, S.wrote s n ⟨.ok, 0⟩ = .ok t ∧ Good t ∧ unsent t = [] ∧ S.next t = .finished true
  full : ∀ s n, Good s → S.next s = .write → S.Reads s n → S.offered s n ≠ [] →
    ∃ t, S.wrote s n ⟨.errShouldWait, 0⟩ = .ok t ∧ Good t ∧ unsent t = unsent s ∧ S.next t = .wait signals
  woken : ∀ s signals', Good s → S.next s = .wait signals' →
    signals' = signals ∧ unsent s ≠ [] ∧ Good (S.woken s) ∧ unsent (S.woken s) = unsent s ∧ S.next (S.woken s) = .write
  finished : ∀ s success, Good s → S.next s = .finished success → success = true ∧ unsent s = []
  writable : .socketWritable ∈ signals

/-! ## `CopyFromFileDescriptor` -/

namespace FileSender

def unsent (s : FileSender) : List UInt8 := s.handler.pending ++ s.unread

/-- What the continuation says of the buffer. -/
def At (s : FileSender) : CopyStep → Prop
  | .postFill => s.handler.pending = [] ∧ s.handler.waiting = false
  | .postReady => s.handler.pending ≠ [] ∧ s.handler.waiting = false
  | .asyncWait signals => s.handler.pending ≠ [] ∧ signals = {.socketWritable, .socketPeerClosed}
  | .sendCallback value => s.handler.pending = [] ∧ s.unread = [] ∧ value = true

structure Good (s : FileSender) : Prop where
  bounds : s.handler.InBounds
  step : s.At s.step

/-- The handler with a full buffer, before the write of `FillBuffer`. -/
def filled (s : FileSender) (n : Nat) : CopyFromFileHandler :=
  { s.handler with buffer := s.unread.take n, bufferOffset := 0, bufferEnd := (s.unread.take n).length }

variable {s : FileSender} {n k : Nat}

@[simp] theorem pending_filled : (s.filled n).pending = s.unread.take n := by
  simp [filled, CopyFromFileHandler.pending]

theorem bounds_filled : (s.filled n).InBounds := ⟨Nat.zero_le _, rfl⟩

theorem fillBuffer_eq (h : s.unread.take n ≠ []) (write : WriteResult) :
    s.handler.fillBuffer (some (s.unread.take n)) write = (s.filled n).onHandleReady .ok write := by
  cases hc : s.unread.take n with
  | nil => exact absurd hc h
  | cons b bytes => simp [CopyFromFileHandler.fillBuffer, filled, hc]

/-- A write from a buffer of which `k` bytes are accepted. -/
theorem onHandleReady_accepted {handler : CopyFromFileHandler} (unread : List UInt8) (hb : handler.InBounds)
    (hw : handler.waiting = false) (hk : k ≤ handler.pending.length) :
    ∃ handler' step, handler.onHandleReady .ok ⟨.ok, k⟩ = .ok (handler', step) ∧
      Good ⟨unread, handler', step⟩ ∧ handler'.pending = handler.pending.drop k ∧
      (step = .postFill ∨ step = .postReady) := by
  obtain ⟨hb', hp', hend⟩ := hb.advance hk
  rw [CopyFromFileHandler.onHandleReady_wrote]
  refine ⟨_, _, rfl, ⟨hb', ?_⟩, hp', ?_⟩
  · by_cases hall : k = handler.pending.length
    · rw [if_pos (hend.mpr hall)]
      exact ⟨by rw [hp', hall, List.drop_length], hw⟩
    · rw [if_neg fun he => hall (hend.mp he)]
      refine ⟨?_, hw⟩
      rw [hp', ne_eq, List.drop_eq_nil_iff]
      omega
  · split_ifs
    · exact .inl rfl
    · exact .inr rfl

theorem next_write (h : copyFromFile.next s = .write) : s.step = .postFill ∨ s.step = .postReady := by
  unfold copyFromFile at h
  cases hs : s.step <;> simp [hs] at h ⊢

/-- What `FillBuffer` is about to read, or what is left of the buffer. -/
theorem offered_cases (h : s.Good) (hnext : copyFromFile.next s = .write) (hreads : copyFromFile.Reads s n) :
    (s.step = .postFill ∧ s.handler.pending = [] ∧ s.handler.waiting = false ∧
      copyFromFile.offered s n = s.unread.take n ∧ (s.unread ≠ [] → s.unread.take n ≠ [])) ∨
    (s.step = .postReady ∧ s.handler.pending ≠ [] ∧ s.handler.waiting = false ∧
      copyFromFile.offered s n = s.handler.pending) := by
  have hat := h.step
  rcases next_write hnext with hs | hs
  · rw [hs] at hat
    refine .inl ⟨hs, hat.1, hat.2, if_pos hs, fun hu => ?_⟩
    obtain ⟨hpos, -, -⟩ := hreads hs hu
    simp only [ne_eq, List.take_eq_nil_iff, not_or]
    exact ⟨Nat.pos_iff_ne_zero.mp hpos, hu⟩
  · rw [hs] at hat
    exact .inr ⟨hs, hat.1, hat.2, if_neg (by simp [hs])⟩

theorem offered_prefix (h : s.Good) (hnext : copyFromFile.next s = .write) (hreads : copyFromFile.Reads s n) :
    copyFromFile.offered s n <+: s.unsent ∧ (copyFromFile.offered s n = [] → s.unsent = []) := by
  rcases offered_cases h hnext hreads with ⟨-, hp, -, hoffered, hsome⟩ | ⟨-, hp, -, hoffered⟩
  · rw [unsent, hp, hoffered, List.nil_append]
    exact ⟨List.take_prefix _ _, fun hnone => by_contra fun hne => hsome hne hnone⟩
  · rw [unsent, hoffered]
    exact ⟨List.prefix_append _ _, fun hnone => absurd hnone hp⟩

theorem wrote_fill (hs : s.step = .postFill) (hsome : s.unread.take n ≠ []) {write : WriteResult}
    {handler : CopyFromFileHandler} {step : CopyStep}
    (hready : (s.filled n).onHandleReady .ok write = .ok (handler, step)) :
    copyFromFile.wrote s n write = .ok (⟨s.unread.drop n, handler, step⟩ : FileSender) := by
  simp [copyFromFile, hs, fillBuffer_eq hsome, hready]

theorem wrote_ready (hs : s.step = .postReady) {write : WriteResult} {handler : CopyFromFileHandler} {step : CopyStep}
    (hready : s.handler.onHandleReady .ok write = .ok (handler, step)) :
    copyFromFile.wrote s n write = .ok (⟨s.unread, handler, step⟩ : FileSender) := by
  simp [copyFromFile, hs, hready]

theorem accepted (h : s.Good) (hnext : copyFromFile.next s = .write) (hreads : copyFromFile.Reads s n) (hpos : 0 < k)
    (hk : k ≤ (copyFromFile.offered s n).length) :
    ∃ t : FileSender, copyFromFile.wrote s n ⟨.ok, k⟩ = .ok t ∧ t.Good ∧ t.unsent = s.unsent.drop k ∧
      copyFromFile.next t = .write := by
  rcases offered_cases h hnext hreads with ⟨hs, hp, hw, hoffered, -⟩ | ⟨hs, -, hw, hoffered⟩
  · rw [hoffered] at hk
    have hsome : s.unread.take n ≠ [] := List.ne_nil_of_length_pos (hpos.trans_le hk)
    have hk' : k ≤ (s.filled n).pending.length := by rwa [pending_filled]
    obtain ⟨handler, step, hready, hgood, hpending, hstep⟩ :=
      onHandleReady_accepted (s.unread.drop n) bounds_filled hw hk'
    refine ⟨_, wrote_fill hs hsome hready, hgood, ?_, ?_⟩
    · rw [unsent, unsent, hp, hpending, pending_filled, List.nil_append, ← List.drop_append_of_le_length hk,
        List.take_append_drop]
    · rcases hstep with rfl | rfl <;> rfl
  · rw [hoffered] at hk
    obtain ⟨handler, step, hready, hgood, hpending, hstep⟩ := onHandleReady_accepted s.unread h.bounds hw hk
    refine ⟨_, wrote_ready hs hready, hgood, ?_, ?_⟩
    · rw [unsent, unsent, hpending, List.drop_append_of_le_length hk]
    · rcases hstep with rfl | rfl <;> rfl

theorem full (h : s.Good) (hnext : copyFromFile.next s = .write) (hreads : copyFromFile.Reads s n)
    (hsome : copyFromFile.offered s n ≠ []) :
    ∃ t : FileSender, copyFromFile.wrote s n ⟨.errShouldWait, 0⟩ = .ok t ∧ t.Good ∧ t.unsent = s.unsent ∧
      copyFromFile.next t = .wait {.socketWritable, .socketPeerClosed} := by
  rcases offered_cases h hnext hreads with ⟨hs, hp, -, hoffered, -⟩ | ⟨hs, hp, -, -⟩
  · rw [hoffered] at hsome
    refine ⟨_, wrote_fill hs hsome (s.filled n).onHandleReady_full, ⟨⟨Nat.zero_le _, rfl⟩, ?_, rfl⟩, ?_, rfl⟩
    · exact fun hnone => hsome (pending_filled.symm.trans hnone)
    · rw [unsent, unsent, hp, List.nil_append]
      exact (congrArg (· ++ _) pending_filled).trans (List.take_append_drop n s.unread)
  · exact ⟨_, wrote_ready hs s.handler.onHandleReady_full, ⟨⟨h.bounds.offset, h.bounds.filled⟩, hp, rfl⟩, rfl, rfl⟩

/-- The end of the file. -/
theorem ended (h : s.Good) (hnext : copyFromFile.next s = .write) (hreads : copyFromFile.Reads s n)
    (hnone : copyFromFile.offered s n = []) :
    ∃ t : FileSender, copyFromFile.wrote s n ⟨.ok, 0⟩ = .ok t ∧ t.Good ∧ t.unsent = [] ∧
      copyFromFile.next t = .finished true := by
  rcases offered_cases h hnext hreads with ⟨hs, hp, hw, hoffered, hsome⟩ | ⟨-, hp, -, hoffered⟩
  · have htake : s.unread.take n = [] := hoffered.symm.trans hnone
    have hu : s.unread = [] := by
      by_contra hne
      exact hsome hne htake
    refine ⟨⟨s.unread.drop n, s.handler, .sendCallback true⟩, ?_, ⟨h.bounds, hp, by simp [hu], rfl⟩,
      by simp [unsent, hp, hu], rfl⟩
    simp [copyFromFile, hs, htake, CopyFromFileHandler.fillBuffer, sendCallback, hw]
  · exact absurd (hoffered.symm.trans hnone) hp

end FileSender

theorem copyFromFile_sound :
    copyFromFile.Sound {.socketWritable, .socketPeerClosed} FileSender.unsent FileSender.Good where
  start stream := ⟨⟨⟨Nat.le_refl _, rfl⟩, rfl, rfl⟩, rfl, rfl⟩
  reads s := by
    by_cases hu : s.unread = []
    · exact ⟨0, fun _ hne => absurd hu hne⟩
    · have := List.length_pos_iff.mpr hu
      exact ⟨1, fun _ _ => ⟨Nat.one_pos, this, by decide⟩⟩
  offered s n h hnext hreads := FileSender.offered_prefix h hnext hreads
  accepted s n k h hnext hreads hpos hk := by
    obtain ⟨t, ht, hgood, hunsent, hwrite⟩ := FileSender.accepted h hnext hreads hpos hk
    exact ⟨t, ht, hgood, hunsent, .inl hwrite⟩
  ended s n h hnext hreads hnone := FileSender.ended h hnext hreads hnone
  full s n h hnext hreads hsome := FileSender.full h hnext hreads hsome
  woken s signals h hnext := by
    have hat := h.step
    cases hs : s.step with
    | asyncWait signals' =>
      rw [hs] at hat
      simp only [copyFromFile, hs, SendNext.wait.injEq] at hnext
      subst hnext
      refine ⟨hat.2, by simp [FileSender.unsent, hat.1], ⟨⟨h.bounds.offset, h.bounds.filled⟩, hat.1, rfl⟩, rfl, rfl⟩
    | postReady | postFill | sendCallback => simp [copyFromFile, hs] at hnext
  finished s success h hnext := by
    have hat := h.step
    cases hs : s.step with
    | sendCallback value =>
      rw [hs] at hat
      simp only [copyFromFile, hs, SendNext.finished.injEq] at hnext
      exact ⟨hnext ▸ hat.2.2, by simp [FileSender.unsent, hat.1, hat.2.1]⟩
    | postReady | postFill | asyncWait => simp [copyFromFile, hs] at hnext
  writable := by decide

/-! ## `BlockingCopyFromString` -/

namespace StringSender

/-- The call returns before it moves `ptr` to the end. -/
def unsent (s : StringSender) : List UInt8 :=
  match s.step with
  | .ret _ => []
  | _ => s.source.drop s.writer.ptr

def At (s : StringSender) : BlockingStep → Prop
  | .loop => s.writer.toWrite = s.source.length - s.writer.ptr ∧ s.writer.ptr ≤ s.source.length
  | .waitOne signals => s.writer.toWrite = s.source.length - s.writer.ptr ∧ s.writer.ptr < s.source.length ∧
    signals = {.socketWritable, .socketPeerClosed}
  | .ret value => value = true

def Good (s : StringSender) : Prop := s.At s.step

variable {s : StringSender} {n k : Nat}

theorem next_write (h : copyFromString.next s = .write) : s.step = .loop := by
  unfold copyFromString at h
  cases hs : s.step <;> simp [hs] at h ⊢

theorem offered_eq (h : s.Good) (hs : s.step = .loop) :
    copyFromString.offered s n = s.source.drop s.writer.ptr ∧ s.unsent = s.source.drop s.writer.ptr ∧
      (s.source.drop s.writer.ptr).length = s.writer.toWrite ∧ s.writer.ptr ≤ s.source.length := by
  unfold Good at h
  rw [hs] at h
  obtain ⟨htoWrite, hptr⟩ := h
  have hlen : (s.source.drop s.writer.ptr).length = s.writer.toWrite := by rw [List.length_drop, htoWrite]
  refine ⟨?_, by simp only [unsent, hs], hlen, hptr⟩
  exact List.take_of_length_le hlen.le

theorem accepted (h : s.Good) (hs : s.step = .loop) (hk : k ≤ (copyFromString.offered s n).length) :
    ∃ t : StringSender, copyFromString.wrote s n ⟨.ok, k⟩ = .ok t ∧ t.Good ∧ t.unsent = s.unsent.drop k ∧
      (copyFromString.next t = .write ∨ copyFromString.next t = .finished true) := by
  obtain ⟨hoffered, hunsent, hlen, hptr⟩ := offered_eq (n := n) h hs
  rw [hoffered] at hk
  by_cases hall : k = s.writer.toWrite
  · refine ⟨{ s with step := .ret true }, by simp [copyFromString, StringWriter.afterWrite, hall], rfl, ?_, .inr rfl⟩
    rw [hunsent, hall, ← hlen, List.drop_length]
    rfl
  · refine ⟨{ s with writer := ⟨s.writer.ptr + k, s.writer.toWrite - k⟩, step := .loop },
      by simp [copyFromString, StringWriter.afterWrite, hall], ⟨?_, ?_⟩, ?_, .inl rfl⟩
    · rw [List.length_drop] at hlen
      simp only
      omega
    · rw [List.length_drop] at hk
      simp only
      omega
    · rw [hunsent, List.drop_drop]
      rfl

end StringSender

theorem copyFromString_sound :
    copyFromString.Sound {.socketWritable, .socketPeerClosed} StringSender.unsent StringSender.Good where
  start stream := ⟨⟨rfl, Nat.zero_le _⟩, rfl, rfl⟩
  reads s := ⟨0, trivial⟩
  offered s n h hnext _ := by
    obtain ⟨hoffered, hunsent, -⟩ := StringSender.offered_eq (n := n) h (StringSender.next_write hnext)
    rw [hoffered, hunsent]
    exact ⟨List.prefix_rfl, id⟩
  accepted s n k h hnext _ _ hk := StringSender.accepted h (StringSender.next_write hnext) hk
  ended s n h hnext _ hnone := by
    obtain ⟨hoffered, -, hlen, -⟩ := StringSender.offered_eq (n := n) h (StringSender.next_write hnext)
    have hzero : s.writer.toWrite = 0 := by rw [← hlen, ← hoffered, hnone, List.length_nil]
    refine ⟨{ s with step := .ret true }, by simp [copyFromString, StringWriter.afterWrite, hzero], rfl, rfl, rfl⟩
  full s n h hnext _ hsome := by
    obtain ⟨hoffered, hunsent, hlen, -⟩ := StringSender.offered_eq (n := n) h (StringSender.next_write hnext)
    refine ⟨{ s with step := .waitOne {.socketWritable, .socketPeerClosed} },
      by simp [copyFromString, StringWriter.afterWrite], ⟨?_, ?_, rfl⟩, hunsent.symm, rfl⟩
    · rw [← hlen, List.length_drop]
    · rw [hoffered, ne_eq, List.drop_eq_nil_iff] at hsome
      exact Nat.lt_of_not_le hsome
  woken s signals h hnext := by
    unfold StringSender.Good at h
    cases hs : s.step with
    | waitOne signals' =>
      rw [hs] at h
      simp only [copyFromString, hs, SendNext.wait.injEq] at hnext
      subst hnext
      obtain ⟨htoWrite, hptr, hsignals⟩ := h
      refine ⟨hsignals, ?_, ⟨htoWrite, hptr.le⟩, ?_, rfl⟩
      · simp only [StringSender.unsent, hs, ne_eq, List.drop_eq_nil_iff]
        exact Nat.not_le.mpr hptr
      · simp only [StringSender.unsent, hs]
        rfl
    | loop | ret => simp [copyFromString, hs] at hnext
  finished s success h hnext := by
    unfold StringSender.Good at h
    cases hs : s.step with
    | ret value =>
      rw [hs] at h
      simp only [copyFromString, hs, SendNext.finished.injEq] at hnext
      exact ⟨hnext ▸ h, by simp only [StringSender.unsent, hs]⟩
    | loop | waitOne => simp [copyFromString, hs] at hnext
  writable := by decide

end Mtl.Socket
