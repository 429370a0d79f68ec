import Mtl.Socket.Strings

/-! `BlockingDrainFrom` with any callback, and `BlockingCopyToString`. What the socket answers is the
environment's choice. -/
namespace Mtl.Socket
open Foundation
universe u

/-- `BlockingDrainFrom` between two system calls. `context` is what the callback keeps, and `calls` are the
pieces it was given, in order, each with what it returned. -/
structure BlockingDrainRun (σ : Type u) where
  buffer : List UInt8 := List.replicate bufferSize 0
  context : σ
  next : BlockingStep := .loop
  calls : List (List UInt8 × Nat) := []

/-- What the socket answers to `read` and to `wait_one`. -/
inductive DrainAnswer where
  | read (result : ReadResult)
  | waitOne (result : MxStatus)

variable {σ : Type u} (writeBytes : σ → List UInt8 → σ × Nat)

namespace BlockingDrainRun

/-- The loop's body after `source.read`, which fills the front of the buffer. The callback's `num_bytes` is a
`uint32_t`. -/
def read (s : BlockingDrainRun σ) (result : ReadResult) : BlockingDrainRun σ :=
  if result.status = .ok then
    let buffer := result.bytes ++ s.buffer.drop result.bytes.length
    let bytes := buffer.take (UInt32.ofNat result.bytes.length).toNat
    let (context, written) := writeBytes s.context bytes
    { buffer := buffer
      context := context
      next := BlockingDrain.afterRead result written
      calls := s.calls ++ [(bytes, written)] }
  else { s with next := BlockingDrain.afterRead result 0 }

end BlockingDrainRun

def blockingDrainMachine : Machine (BlockingDrainRun σ) DrainAnswer Fault where
  Enabled s
    | .read result => s.next = .loop ∧ result.Fits
    | .waitOne _ => ∃ signals, s.next = .waitOne signals
  step s
    | .read result => .ok (s.read writeBytes result)
    | .waitOne result => .ok { s with next := BlockingDrain.afterWait result }

/-- `BlockingCopyToString` up to the call of `BlockingDrainFrom`: what the string held is cleared. -/
def copyToString (_previous : List UInt8) : BlockingDrainRun (List UInt8) := { context := [] }

/-! ## The account of the chunks -/

namespace DrainAnswer

/-- The chunk that the answer brings. -/
def chunk? : DrainAnswer → Option (List UInt8)
  | .read result => if result.status = .ok then some result.bytes else none
  | .waitOne _ => none

/-- The peer is gone, as the read or the wait reports. -/
def Closes : DrainAnswer → Prop
  | .read result => result.status = .errPeerClosed
  | .waitOne result => result = .errPeerClosed

/-- The answer ends the drain whatever the callback does. -/
def Ends : DrainAnswer → Prop
  | .read result => result.status ≠ .ok ∧ result.status ≠ .errShouldWait
  | .waitOne result => result ≠ .ok

theorem Closes.ends {a : DrainAnswer} (h : a.Closes) : a.Ends := by
  cases a with
  | read result => simp [Ends, show result.status = .errPeerClosed from h]
  | waitOne result => simp [Ends, show result = .errPeerClosed from h]

end DrainAnswer

/-- The chunks that were read, in order. -/
def chunksRead (acts : List DrainAnswer) : List (List UInt8) := acts.filterMap DrainAnswer.chunk?

namespace BlockingDrainRun
variable {writeBytes} {s : BlockingDrainRun σ} {c : σ} {past : List DrainAnswer}

/-- Every call consumed its whole piece. -/
def Consumed (s : BlockingDrainRun σ) : Prop := ∀ call ∈ s.calls, call.1.length ≤ call.2

/-- What the drain's position says of the last answer and of the calls: it returns after an answer that ends
it, or after a first short call. -/
def At (s : BlockingDrainRun σ) (last : Option DrainAnswer) : BlockingStep → Prop
  | .ret value => ∃ a, last = some a ∧ (s.Consumed ∧ a.Ends ∧ (value = true ↔ a.Closes) ∨
      value = false ∧ ∃ earlier call, s.calls = earlier ++ [call] ∧ (∀ call ∈ earlier, call.1.length ≤ call.2) ∧
        call.2 < call.1.length ∧ a = .read ⟨.ok, call.1⟩)
  | _ => s.Consumed ∧ ∀ a, last = some a → ¬ a.Ends

/-- The drain after the answers `past`. -/
structure Accounts (writeBytes : σ → List UInt8 → σ × Nat) (c : σ) (past : List DrainAnswer)
    (s : BlockingDrainRun σ) : Prop where
  pieces : s.calls.map Prod.fst = chunksRead past
  context : s.context = (chunksRead past).foldl (fun c bytes => (writeBytes c bytes).1) c
  fits : ∀ bytes ∈ chunksRead past, bytes.length ≤ bufferSize
  answered : ∀ call ∈ s.calls, ∃ c, call.2 = (writeBytes c call.1).2
  position : s.At past.getLast? s.next

theorem Accounts.start : Accounts writeBytes c [] { context := c } :=
  ⟨rfl, rfl, by simp [chunksRead], by simp, by simp [Consumed], by simp⟩

/-- The callback gets exactly what was read. -/
theorem read_chunk {result : ReadResult} (hok : result.status = .ok) (hfits : result.Fits) :
    s.read writeBytes result =
      { buffer := result.bytes ++ s.buffer.drop result.bytes.length
        context := (writeBytes s.context result.bytes).1
        next := BlockingDrain.afterRead result (writeBytes s.context result.bytes).2
        calls := s.calls ++ [(result.bytes, (writeBytes s.context result.bytes).2)] } := by
  have hlen : (UInt32.ofNat result.bytes.length).toNat = result.bytes.length := by
    have := (hfits hok).2
    exact UInt32.toNat_ofNat_of_lt' (show _ < 2^32 by simp only [bufferSize] at this; omega)
  simp [read, hok, hlen]

theorem Accounts.read (h : Accounts writeBytes c past s) (hn : s.next = .loop) {result : ReadResult}
    (hfits : result.Fits) : Accounts writeBytes c (past ++ [.read result]) (s.read writeBytes result) := by
  obtain ⟨hconsumed, -⟩ := (hn ▸ h.position : s.At _ .loop)
  by_cases hok : result.status = .ok
  · have hchunks : chunksRead (past ++ [.read result]) = chunksRead past ++ [result.bytes] := by
      simp [chunksRead, DrainAnswer.chunk?, hok]
    rw [read_chunk hok hfits]
    refine ⟨by simp [h.pieces, hchunks], by simp [hchunks, h.context], ?_, ?_, ?_⟩
    · simp only [hchunks, List.forall_mem_append, List.forall_mem_singleton]
      exact ⟨h.fits, (hfits hok).2⟩
    · simp only [List.forall_mem_append, List.forall_mem_singleton]
      exact ⟨h.answered, s.context, rfl⟩
    rw [List.getLast?_append_of_ne_nil _ (by simp), List.getLast?_singleton]
    by_cases hshort : (writeBytes s.context result.bytes).2 < result.bytes.length
    · simp only [BlockingDrain.afterRead, hok, hshort, if_true]
      exact ⟨_, rfl, .inr ⟨rfl, s.calls, _, rfl, hconsumed, hshort, by rw [← hok]⟩⟩
    · simp only [BlockingDrain.afterRead, hok, hshort, if_false]
      refine ⟨?_, ?_⟩
      · intro call hcall
        rcases List.mem_append.mp hcall with hcall | hcall
        · exact hconsumed call hcall
        · rw [List.mem_singleton.mp hcall]
          exact Nat.not_lt.mp hshort
      · rintro a ⟨⟩ hends
        exact hends.1 hok
  · have hchunks : chunksRead (past ++ [.read result]) = chunksRead past := by
      simp [chunksRead, DrainAnswer.chunk?, hok]
    rw [BlockingDrainRun.read, if_neg hok]
    refine ⟨h.pieces.trans hchunks.symm, h.context.trans (by rw [hchunks]), hchunks ▸ h.fits, h.answered, ?_⟩
    rw [List.getLast?_append_of_ne_nil _ (by simp), List.getLast?_singleton]
    cases hstatus : result.status with
    | ok => exact absurd hstatus hok
    | errShouldWait =>
      simp only [BlockingDrain.afterRead, hstatus]
      refine ⟨hconsumed, ?_⟩
      rintro a ⟨⟩ hends
      exact hends.2 hstatus
    | errPeerClosed =>
      simp only [BlockingDrain.afterRead, hstatus]
      exact ⟨_, rfl, .inl ⟨hconsumed, DrainAnswer.Closes.ends hstatus, iff_of_true rfl hstatus⟩⟩
    | errBadHandle | errBadState | errTimedOut | errCanceled | other =>
      simp only [BlockingDrain.afterRead, hstatus]
      exact ⟨_, rfl, .inl ⟨hconsumed, by simp [DrainAnswer.Ends, hstatus], by simp [DrainAnswer.Closes, hstatus]⟩⟩

theorem Accounts.waitOne (h : Accounts writeBytes c past s) {signals : MxSignals} (hn : s.next = .waitOne signals)
    (result : MxStatus) :
    Accounts writeBytes c (past ++ [.waitOne result]) { s with next := BlockingDrain.afterWait result } := by
  obtain ⟨hconsumed, -⟩ := (hn ▸ h.position : s.At _ (.waitOne signals))
  have hchunks : chunksRead (past ++ [.waitOne result]) = chunksRead past := by
    simp [chunksRead, DrainAnswer.chunk?]
  refine ⟨h.pieces.trans hchunks.symm, h.context.trans (by rw [hchunks]), hchunks ▸ h.fits, h.answered, ?_⟩
  rw [List.getLast?_append_of_ne_nil _ (by simp), List.getLast?_singleton]
  by_cases hok : result = .ok
  · simp only [BlockingDrain.afterWait, ne_eq, hok, not_true, if_false]
    refine ⟨hconsumed, ?_⟩
    rintro a ⟨⟩ hends
    exact hends rfl
  · simp only [BlockingDrain.afterWait, ne_eq, hok, not_false_eq_true, if_true]
    exact ⟨_, rfl, .inl ⟨hconsumed, hok, decide_eq_true_iff⟩⟩

/-- Every run keeps the account. -/
theorem Accounts.run {acts : List DrainAnswer} {result : Except Fault (BlockingDrainRun σ)}
    (hrun : (blockingDrainMachine writeBytes).Run { context := c } acts result) :
    ∃ s, result = .ok s ∧ Accounts writeBytes c acts s := by
  refine hrun.safe_along (fun past s a h he => ?_) .start
  cases a with
  | read result => exact ⟨_, rfl, h.read he.1 he.2⟩
  | waitOne result =>
    obtain ⟨signals, hn⟩ := he
    exact ⟨_, rfl, h.waitOne hn result⟩

/-- A short call was the last, and nothing was read after it. -/
theorem Accounts.short_last (h : Accounts writeBytes c past s) {earlier later : List (List UInt8 × Nat)}
    {call : List UInt8 × Nat} (hcalls : s.calls = earlier ++ call :: later) (hshort : call.2 < call.1.length) :
    later = [] ∧ s.next = .ret false ∧ past.getLast? = some (.read ⟨.ok, call.1⟩) := by
  have hmem : call ∈ s.calls := by simp [hcalls]
  have hnot (hconsumed : s.Consumed) : False := absurd (hconsumed call hmem) (Nat.not_le.mpr hshort)
  have hposition := h.position
  cases hn : s.next with
  | loop => exact (hnot (hn ▸ hposition : s.At _ .loop).1).elim
  | waitOne signals => exact (hnot (hn ▸ hposition : s.At _ (.waitOne signals)).1).elim
  | ret value =>
    obtain ⟨a, hlast, ⟨hconsumed, -⟩ | ⟨rfl, front, call', hcalls', hfront, -, rfl⟩⟩ :=
      (hn ▸ hposition : s.At _ (.ret value))
    · exact (hnot hconsumed).elim
    · rcases List.eq_nil_or_concat later with rfl | ⟨between, call'', rfl⟩
      · obtain ⟨-, hsame⟩ := List.append_inj' (hcalls.symm.trans hcalls') rfl
        cases hsame
        exact ⟨rfl, rfl, hlast⟩
      · -- the short call would stand before the last one
        have hsplit : front ++ [call'] = (earlier ++ call :: between) ++ [call''] := by
          rw [← hcalls', hcalls, List.concat_eq_append]
          simp
        obtain ⟨rfl, -⟩ := List.append_inj' hsplit rfl
        exact absurd (hfront call (by simp)) (Nat.not_le.mpr hshort)

/-- The drain has returned exactly if an answer ended it or a call was short. -/
theorem Accounts.returned_iff (h : Accounts writeBytes c past s) :
    (∃ value, s.next = .ret value) ↔
      (∃ a, past.getLast? = some a ∧ a.Ends) ∨ ∃ call ∈ s.calls, call.2 < call.1.length := by
  have hposition := h.position
  constructor
  · rintro ⟨value, hn⟩
    obtain ⟨a, hlast, ⟨-, hends, -⟩ | ⟨-, front, call, hcalls, -, hshort, -⟩⟩ :=
      (hn ▸ hposition : s.At _ (.ret value))
    · exact .inl ⟨a, hlast, hends⟩
    · exact .inr ⟨call, by simp [hcalls], hshort⟩
  · rintro hended
    have hgoing (hconsumed : s.Consumed) (hgoes : ∀ a, past.getLast? = some a → ¬ a.Ends) : False := by
      rcases hended with ⟨a, hlast, hends⟩ | ⟨call, hcall, hshort⟩
      · exact hgoes a hlast hends
      · exact absurd (hconsumed call hcall) (Nat.not_le.mpr hshort)
    cases hn : s.next with
    | loop =>
      obtain ⟨hconsumed, hgoes⟩ := (hn ▸ hposition : s.At _ .loop)
      exact (hgoing hconsumed hgoes).elim
    | waitOne signals =>
      obtain ⟨hconsumed, hgoes⟩ := (hn ▸ hposition : s.At _ (.waitOne signals))
      exact (hgoing hconsumed hgoes).elim
    | ret value => exact ⟨value, rfl⟩

/-- The result is true exactly if the peer's close ended the drain. -/
theorem Accounts.value_iff (h : Accounts writeBytes c past s) {value : Bool} (hn : s.next = .ret value) :
    value = true ↔ (∃ a, past.getLast? = some a ∧ a.Closes) ∧ s.Consumed := by
  obtain ⟨a, hlast, ⟨hconsumed, -, hvalue⟩ | ⟨rfl, front, call, hcalls, -, hshort, -⟩⟩ :=
    (hn ▸ h.position : s.At _ (.ret value))
  · rw [hvalue]
    constructor
    · exact fun hcloses => ⟨⟨a, hlast, hcloses⟩, hconsumed⟩
    · rintro ⟨⟨a', hlast', hcloses⟩, -⟩
      rwa [Option.some.inj (hlast.symm.trans hlast')]
  · refine iff_of_false (by decide) fun htrue => ?_
    exact absurd (htrue.2 call (by simp [hcalls])) (Nat.not_le.mpr hshort)

end BlockingDrainRun

/-- The callback of `BlockingCopyToString` appends all of every chunk. -/
theorem foldl_appendBytes (out : List UInt8) {chunks : List (List UInt8)}
    (h : ∀ bytes ∈ chunks, bytes.length ≤ bufferSize) :
    chunks.foldl (fun out bytes => (appendBytes out bytes).1) out = out ++ chunks.flatten := by
  induction chunks generalizing out with
  | nil => simp
  | cons bytes chunks ih =>
    rw [List.forall_mem_cons] at h
    rw [List.foldl_cons, appendBytes_eq out bytes h.1, ih _ h.2]
    simp

theorem BlockingDrainRun.Accounts.consumed_appendBytes {s : BlockingDrainRun (List UInt8)} {past : List DrainAnswer}
    (h : Accounts appendBytes [] past s) : s.Consumed := by
  intro call hcall
  obtain ⟨out, hanswer⟩ := h.answered call hcall
  have hfits : call.1.length ≤ bufferSize := h.fits _ (h.pieces ▸ List.mem_map_of_mem hcall)
  rw [hanswer, appendBytes_eq out call.1 hfits]

/-- A drain under any script of answers. With any callback: the callback gets every chunk, once and in order;
the first short call is the last and nothing is read after it; the drain has returned exactly if an answer
ended it or a call was short, and it returned true exactly if the peer's close came before any short call.
As `BlockingCopyToString`, whatever the string held: the string is what was read, at every point. -/
theorem blocking_drain_accounts (writeBytes : σ → List UInt8 → σ × Nat) (c : σ) (previous : List UInt8)
    (acts : List DrainAnswer) :
    (∀ result, (blockingDrainMachine writeBytes).Run { context := c } acts result → ∃ s, result = .ok s ∧
      s.calls.map Prod.fst = chunksRead acts ∧
      s.context = (chunksRead acts).foldl (fun c bytes => (writeBytes c bytes).1) c ∧
      (∀ earlier call later, s.calls = earlier ++ call :: later → call.2 < call.1.length →
        later = [] ∧ s.next = .ret false ∧ acts.getLast? = some (.read ⟨.ok, call.1⟩)) ∧
      ((∃ value, s.next = .ret value) ↔
        (∃ a, acts.getLast? = some a ∧ a.Ends) ∨ ∃ call ∈ s.calls, call.2 < call.1.length) ∧
      ∀ value, s.next = .ret value → (∀ a, ¬ (blockingDrainMachine writeBytes).Enabled s a) ∧
        (value = true ↔ (∃ a, acts.getLast? = some a ∧ a.Closes) ∧ ∀ call ∈ s.calls, call.1.length ≤ call.2)) ∧
    ∀ result, (blockingDrainMachine appendBytes).Run (copyToString previous) acts result → ∃ s, result = .ok s ∧
      s.context = (chunksRead acts).flatten ∧
      ((∃ value, s.next = .ret value) ↔ ∃ a, acts.getLast? = some a ∧ a.Ends) ∧
      ∀ value, s.next = .ret value → (value = true ↔ ∃ a, acts.getLast? = some a ∧ a.Closes) := by
  constructor
  · intro result hrun
    obtain ⟨s, rfl, h⟩ := BlockingDrainRun.Accounts.run hrun
    refine ⟨s, rfl, h.pieces, h.context, fun _ _ _ => h.short_last, h.returned_iff, fun value hn => ⟨?_, h.value_iff hn⟩⟩
    rintro (read | wait) he
    · simp [blockingDrainMachine, hn] at he
    · simp [blockingDrainMachine, hn] at he
  · intro result hrun
    obtain ⟨s, rfl, h⟩ := BlockingDrainRun.Accounts.run hrun
    have hconsumed := h.consumed_appendBytes
    refine ⟨s, rfl, ?_, h.returned_iff.trans ?_, fun value hn => (h.value_iff hn).trans (and_iff_left hconsumed)⟩
    · rw [h.context, foldl_appendBytes [] h.fits, List.nil_append]
    · refine or_iff_left ?_
      rintro ⟨call, hcall, hshort⟩
      exact absurd (hconsumed call hcall) (Nat.not_le.mpr hshort)

/-- A wait between two chunks, of which the callback takes only one byte of the second; and the same answers
for a string, but for a read that fails at the end. -/
theorem blocking_drain_accounts_short :
    (∃ s, (blockingDrainMachine fun (n : Nat) bytes => (n + bytes.length, 1)).Run { context := 0 }
        [.read ⟨.ok, [7]⟩, .read ⟨.errShouldWait, []⟩, .waitOne .ok, .read ⟨.ok, [8, 9]⟩] (.ok s) ∧
      s.calls.map Prod.fst = [[7], [8, 9]] ∧ s.context = 3) ∧
    ∃ s, (blockingDrainMachine appendBytes).Run (copyToString [1, 2])
        [.read ⟨.ok, [7]⟩, .read ⟨.errShouldWait, []⟩, .waitOne .ok, .read ⟨.errBadState, []⟩] (.ok s) ∧
      s.context = [7] ∧ ∀ value, s.next = .ret value → value = false := by
  have hfits (status : MxStatus) : ReadResult.Fits ⟨.ok, [7]⟩ ∧ ReadResult.Fits ⟨.ok, [8, 9]⟩ ∧
      (status ≠ .ok → ReadResult.Fits ⟨status, []⟩) :=
    ⟨fun _ => by decide, fun _ => by decide, fun hnot hok => absurd hok hnot⟩
  have hrun : (blockingDrainMachine fun (n : Nat) bytes => (n + bytes.length, 1)).Run { context := 0 }
      [.read ⟨.ok, [7]⟩, .read ⟨.errShouldWait, []⟩, .waitOne .ok, .read ⟨.ok, [8, 9]⟩] (.ok _) :=
    .step ⟨rfl, (hfits .ok).1⟩ rfl (.step ⟨rfl, (hfits .errShouldWait).2.2 (by decide)⟩ rfl
      (.step ⟨_, rfl⟩ rfl (.step ⟨rfl, (hfits .ok).2.1⟩ rfl (.nil _))))
  have hrun' : (blockingDrainMachine appendBytes).Run (copyToString [1, 2])
      [.read ⟨.ok, [7]⟩, .read ⟨.errShouldWait, []⟩, .waitOne .ok, .read ⟨.errBadState, []⟩] (.ok _) :=
    .step ⟨rfl, (hfits .ok).1⟩ rfl (.step ⟨rfl, (hfits .errShouldWait).2.2 (by decide)⟩ rfl
      (.step ⟨_, rfl⟩ rfl (.step ⟨rfl, (hfits .errBadState).2.2 (by decide)⟩ rfl (.nil _))))
  constructor
  · obtain ⟨s, hs, hpieces, hcontext, -⟩ :=
      (blocking_drain_accounts (fun (n : Nat) bytes => (n + bytes.length, 1)) 0 [] _).1 _ hrun
    cases hs
    exact ⟨_, hrun, hpieces, hcontext⟩
  · obtain ⟨s, hs, hcontext, -, hvalue⟩ :=
      (blocking_drain_accounts (fun (n : Nat) bytes => (n + bytes.length, 1)) 0 [1, 2] _).2 _ hrun'
    cases hs
    refine ⟨_, hrun', hcontext, fun value hn => ?_⟩
    have hnot : ¬ value = true := by
      rw [hvalue value hn]
      simp [DrainAnswer.Closes]
    simpa using hnot

end Mtl.Socket
