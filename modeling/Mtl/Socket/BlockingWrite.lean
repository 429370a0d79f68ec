import Mtl.Socket.CopyFromFile
import Mtl.Socket.Strings

/-! `BlockingCopyFromString` against any socket, and what it reports beside a copy of the same bytes from a
file. -/
namespace Mtl.Socket
open Foundation

/-- `BlockingCopyFromString` between two system calls; `accepted` is what the socket took. -/
structure StringWriteRun where
  writer : StringWriter
  next : BlockingStep := .loop
  accepted : List UInt8 := []

/-- What the socket answers to `write` and to `wait_one`. -/
inductive WriteAnswer where
  | write (result : WriteResult)
  | waitOne (result : MxStatus)

namespace StringWriteRun

def start (source : List UInt8) : StringWriteRun := { writer := { toWrite := source.length } }

def write (s : StringWriteRun) (source : List UInt8) (result : WriteResult) : StringWriteRun :=
  let (writer, next) := s.writer.afterWrite result
  { writer := writer, next := next, accepted := s.accepted ++ (s.writer.offered source).take result.written }

end StringWriteRun

/-- A `write` that succeeds accepts no more than it was offered. -/
def stringWriteMachine (source : List UInt8) : Machine StringWriteRun WriteAnswer Fault where
  Enabled s
    | .write result => s.next = .loop ∧ (result.status = .ok → result.accepted ≤ s.writer.toWrite)
    | .waitOne _ => ∃ signals, s.next = .waitOne signals
  step s
    | .write result => .ok (s.write source result)
    | .waitOne result => .ok { s with next := StringWriter.afterWait result }

/-! ## What the writes leave -/

namespace WriteAnswer

/-- The peer is gone, as the write or the wait reports. -/
def Closes : WriteAnswer → Prop
  | .write result => result.status = .errPeerClosed
  | .waitOne result => result = .errPeerClosed

/-- The answer is an error. -/
def Fails : WriteAnswer → Prop
  | .write result => result.status ≠ .ok ∧ result.status ≠ .errShouldWait
  | .waitOne result => result ≠ .ok

theorem Closes.fails {a : WriteAnswer} (h : a.Closes) : a.Fails := by
  cases a with
  | write result => simp [Fails, show result.status = .errPeerClosed from h]
  | waitOne result => simp [Fails, show result = .errPeerClosed from h]

end WriteAnswer

namespace StringWriteRun
variable {source : List UInt8} {s : StringWriteRun} {past : List WriteAnswer}

/-- The locals describe what is left, and something is. -/
structure Rest (source : List UInt8) (s : StringWriteRun) : Prop where
  ptr : s.writer.ptr = s.accepted.length
  toWrite : s.writer.toWrite = source.length - s.accepted.length
  some : s.accepted ≠ source

def At (source : List UInt8) (s : StringWriteRun) (last : Option WriteAnswer) : BlockingStep → Prop
  | .ret value => ∃ a, last = some a ∧
      (s.accepted = source ∧ ¬ a.Fails ∧ value = true ∨ s.Rest source ∧ a.Fails ∧ (value = true ↔ a.Closes))
  | _ => s.Rest source ∧ ∀ a, last = some a → ¬ a.Fails

/-- The copy after the answers `past`. -/
structure Wrote (source : List UInt8) (past : List WriteAnswer) (s : StringWriteRun) : Prop where
  bytes : s.accepted ++ source.drop s.accepted.length = source
  position : s.At source past.getLast? s.next

theorem Rest.offered (h : s.Rest source) : s.writer.offered source = source.drop s.accepted.length := by
  rw [StringWriter.offered, h.ptr, h.toWrite, List.take_of_length_le (by simp)]

theorem Wrote.start (hsource : source ≠ []) : Wrote source [] (.start source) :=
  ⟨rfl, ⟨rfl, rfl, fun h => hsource h.symm⟩, by simp⟩

/-- An accepted write takes its bytes off the rest; the one that takes them all returns. -/
theorem Wrote.accept (h : Wrote source past s) (hn : s.next = .loop) {result : WriteResult} (hok : result.status = .ok)
    (hle : result.accepted ≤ s.writer.toWrite) : Wrote source (past ++ [.write result]) (s.write source result) := by
  obtain ⟨hrest, -⟩ := (hn ▸ h.position : s.At source _ .loop)
  have hwritten : result.written = result.accepted := if_pos hok
  have hbytes := h.bytes
  have hlen : s.accepted.length + (source.length - s.accepted.length) = source.length := by
    have := congrArg List.length hbytes
    rwa [List.length_append, List.length_drop] at this
  have hfine : ¬ WriteAnswer.Fails (.write result) := fun hfails => hfails.1 hok
  rw [hrest.toWrite] at hle
  by_cases hall : result.accepted = s.writer.toWrite
  · have hdone : s.accepted ++ (s.writer.offered source).take result.written = source := by
      rw [hrest.offered, hwritten, hall, hrest.toWrite, ← List.length_drop, List.take_length, hbytes]
    refine ⟨?_, ?_⟩
    · simp [write, hdone]
    · rw [List.getLast?_append_of_ne_nil _ (by simp), List.getLast?_singleton]
      simp only [write, StringWriter.afterWrite, hok, if_pos hall, hdone]
      exact ⟨_, rfl, .inl ⟨rfl, hfine, rfl⟩⟩
  · have htaken : (s.accepted ++ (s.writer.offered source).take result.written).length =
        s.accepted.length + result.accepted := by
      rw [hrest.offered, hwritten, List.length_append, List.length_take, List.length_drop, Nat.min_eq_left hle]
    refine ⟨?_, ?_⟩
    · simp only [write, htaken]
      rw [hrest.offered, hwritten, ← List.drop_drop, List.append_assoc, List.take_append_drop, hbytes]
    · rw [List.getLast?_append_of_ne_nil _ (by simp), List.getLast?_singleton]
      simp only [write, StringWriter.afterWrite, hok, if_neg hall]
      refine ⟨⟨?_, ?_, ?_⟩, ?_⟩
      · rw [htaken, hrest.ptr]
      · rw [htaken, hrest.toWrite, Nat.sub_sub]
      · intro hdone
        rw [show s.accepted ++ _ = source from hdone] at htaken
        rw [hrest.toWrite] at hall
        omega
      · rintro a ⟨⟩
        exact hfine

/-- Any other write moves no byte. -/
theorem Wrote.refuse (h : Wrote source past s) (hn : s.next = .loop) {result : WriteResult}
    (hnot : result.status ≠ .ok) : Wrote source (past ++ [.write result]) (s.write source result) := by
  obtain ⟨hrest, -⟩ := (hn ▸ h.position : s.At source _ .loop)
  have hnone : result.written = 0 := if_neg hnot
  refine ⟨?_, ?_⟩
  · simpa only [write, hnone, List.take_zero, List.append_nil] using h.bytes
  · rw [List.getLast?_append_of_ne_nil _ (by simp), List.getLast?_singleton]
    simp only [write, hnone, List.take_zero, List.append_nil]
    cases hstatus : result.status with
    | ok => exact absurd hstatus hnot
    | errShouldWait =>
      simp only [StringWriter.afterWrite, hstatus]
      refine ⟨⟨hrest.ptr, hrest.toWrite, hrest.some⟩, ?_⟩
      rintro a ⟨⟩ hfails
      exact hfails.2 hstatus
    | errPeerClosed =>
      simp only [StringWriter.afterWrite, hstatus]
      exact ⟨_, rfl, .inr ⟨⟨hrest.ptr, hrest.toWrite, hrest.some⟩, WriteAnswer.Closes.fails hstatus,
        iff_of_true (by decide) hstatus⟩⟩
    | errBadHandle | errBadState | errTimedOut | errCanceled | other =>
      simp only [StringWriter.afterWrite, hstatus]
      exact ⟨_, rfl, .inr ⟨⟨hrest.ptr, hrest.toWrite, hrest.some⟩, by simp [WriteAnswer.Fails, hstatus],
        by simp [WriteAnswer.Closes, hstatus]⟩⟩

theorem Wrote.waitOne (h : Wrote source past s) {signals : MxSignals} (hn : s.next = .waitOne signals)
    (result : MxStatus) :
    Wrote source (past ++ [.waitOne result]) { s with next := StringWriter.afterWait result } := by
  obtain ⟨hrest, -⟩ := (hn ▸ h.position : s.At source _ (.waitOne signals))
  refine ⟨h.bytes, ?_⟩
  rw [List.getLast?_append_of_ne_nil _ (by simp), List.getLast?_singleton]
  by_cases hok : result = .ok
  · simp only [StringWriter.afterWait, ne_eq, hok, not_true, if_false]
    refine ⟨⟨hrest.ptr, hrest.toWrite, hrest.some⟩, ?_⟩
    rintro a ⟨⟩ hfails
    exact hfails rfl
  · simp only [StringWriter.afterWait, ne_eq, hok, not_false_eq_true, if_true]
    exact ⟨_, rfl, .inr ⟨⟨hrest.ptr, hrest.toWrite, hrest.some⟩, hok, decide_eq_true_iff⟩⟩

theorem Wrote.run (hsource : source ≠ []) {acts : List WriteAnswer} {result : Except Fault StringWriteRun}
    (hrun : (stringWriteMachine source).Run (.start source) acts result) :
    ∃ s, result = .ok s ∧ Wrote source acts s := by
  refine hrun.safe_along (fun past s a h he => ?_) (.start hsource)
  cases a with
  | write result =>
    by_cases hok : result.status = .ok
    · exact ⟨_, rfl, h.accept he.1 hok (he.2 hok)⟩
    · exact ⟨_, rfl, h.refuse he.1 hok⟩
  | waitOne result =>
    obtain ⟨signals, hn⟩ := he
    exact ⟨_, rfl, h.waitOne hn result⟩

/-- Until the last byte is accepted the locals describe the rest. -/
theorem Wrote.rest (h : Wrote source past s) (hsome : s.accepted ≠ source) : s.Rest source := by
  have hposition := h.position
  cases hn : s.next with
  | loop => exact (hn ▸ hposition : s.At source _ .loop).1
  | waitOne signals => exact (hn ▸ hposition : s.At source _ (.waitOne signals)).1
  | ret value =>
    obtain ⟨a, -, ⟨hdone, -⟩ | ⟨hrest, -⟩⟩ := (hn ▸ hposition : s.At source _ (.ret value))
    · exact absurd hdone hsome
    · exact hrest

/-- The call has returned exactly if all was accepted or an error ended it. -/
theorem Wrote.returned_iff (h : Wrote source past s) :
    (∃ value, s.next = .ret value) ↔ s.accepted = source ∨ ∃ a, past.getLast? = some a ∧ a.Fails := by
  have hposition := h.position
  constructor
  · rintro ⟨value, hn⟩
    obtain ⟨a, hlast, ⟨hdone, -⟩ | ⟨-, hfails, -⟩⟩ := (hn ▸ hposition : s.At source _ (.ret value))
    · exact .inl hdone
    · exact .inr ⟨a, hlast, hfails⟩
  · intro hended
    have hgoing (hrest : s.Rest source) (hgoes : ∀ a, past.getLast? = some a → ¬ a.Fails) : False := by
      rcases hended with hdone | ⟨a, hlast, hfails⟩
      · exact hrest.some hdone
      · exact hgoes a hlast hfails
    cases hn : s.next with
    | loop =>
      obtain ⟨hrest, hgoes⟩ := (hn ▸ hposition : s.At source _ .loop)
      exact (hgoing hrest hgoes).elim
    | waitOne signals =>
      obtain ⟨hrest, hgoes⟩ := (hn ▸ hposition : s.At source _ (.waitOne signals))
      exact (hgoing hrest hgoes).elim
    | ret value => exact ⟨value, rfl⟩

/-- A peer that closes is as good as one that takes everything. -/
theorem Wrote.value_iff (h : Wrote source past s) {value : Bool} (hn : s.next = .ret value) :
    value = true ↔ s.accepted = source ∨ ∃ a, past.getLast? = some a ∧ a.Closes := by
  obtain ⟨a, hlast, ⟨hdone, -, rfl⟩ | ⟨hrest, -, hvalue⟩⟩ := (hn ▸ h.position : s.At source _ (.ret value))
  · exact iff_of_true rfl (.inl hdone)
  · rw [hvalue]
    constructor
    · exact fun hcloses => .inr ⟨a, hlast, hcloses⟩
    · rintro (hdone | ⟨a', hlast', hcloses⟩)
      · exact absurd hdone hrest.some
      · rwa [Option.some.inj (hlast.symm.trans hlast')]

end StringWriteRun

/-! ## The copy of the same bytes from a file -/

section FromFile
variable {file : List UInt8} {s t : FromFile} {result : MxStatus}

/-- A failed write or wait leaves bytes in the window that were not accepted. -/
theorem Accounted.ready_stopped (h : Accounted file s) (hr : Resumes s result) {write : WriteResult}
    (hcan : s.handler.CanWrite write) (ht : s.ready result write CopyFromFileHandler.onHandleReady = .ok t)
    (hfalse : .callback false ∈ t.log) : t.held ≠ [] := by
  have hold : .callback false ∉ s.log := fun hmem => (hr.quiet _ hmem).1 trivial
  simp only [FromFile.ready, hr.live, Bool.true_eq_false, if_false] at ht
  by_cases hboth : result = .ok ∧ write.status = .ok
  · obtain ⟨rfl, hwrote⟩ := hboth
    simp only [CopyFromFileHandler.onHandleReady, hwrote, and_self, if_true, ok_bind] at ht
    cases ht
    split_ifs at hfalse <;> simp [FromFile.proceed, FromFile.write, FromFile.note, hold] at hfalse
  by_cases hwait : (if result = .ok then write.status else result) = .errShouldWait
  · rw [s.handler.onHandleReady_waits hwait, ok_bind] at ht
    cases ht
    split_ifs at hfalse <;> simp [FromFile.proceed, FromFile.write, FromFile.note, hold] at hfalse
  · rw [CopyFromFileHandler.onHandleReady_fails hr.idle hboth hwait, ok_bind] at ht
    cases ht
    by_cases hok : result = .ok
    · subst hok
      obtain ⟨-, hheld⟩ := h.refused hr (fun hwrote => hboth ⟨rfl, hwrote⟩) hcan
      rw [if_pos rfl]
      exact fun hnone => hr.held (hheld.symm.trans hnone)
    · rw [if_neg hok]
      exact hr.held

/-- A copy reports a failure after a read that failed, or with bytes in hand that were not accepted. -/
def FromFile.Stopped (s : FromFile) : Prop := .callback false ∈ s.log → .read none ∈ s.log ∨ s.held ≠ []

theorem Accounted.step_stopped (h : Accounted file s) (hs : Continues s ∨ Reported file s) {a : FromFileAct}
    (he : fromFileMachine.Enabled s a) (ht : fromFileMachine.step s a = .ok t) : t.Stopped := by
  intro hfalse
  rcases hs with hc | hr
  · rcases h.step_cases hc he with ⟨u, result, write, hacc, hr, hcan, hstep⟩ | ⟨u, read, write, hacc, hf, hnone, hread, hstep⟩
    · exact .inr (hacc.ready_stopped hr hcan (hstep.symm.trans ht) hfalse)
    · have hold : .callback false ∉ u.log := fun hmem => (hf.quiet _ hmem).2.1 trivial
      cases (hf.fillBuffer_eq hnone write).symm.trans (hstep.symm.trans ht)
      rcases hnone with rfl | rfl
      · exact .inl (by simp [FromFile.proceed, FromFile.note])
      · simp [FromFile.proceed, FromFile.note, hold] at hfalse
  · exact absurd he (hr.stuck a)

/-- A copy whose reads went well reports true exactly if the socket took the whole file. -/
theorem fromFile_reports {buffer : List UInt8} {bufferOffset bufferEnd : Nat} {acts : List FromFileAct} {flag : Bool}
    (hrun : fromFileMachine.Run (.start file buffer bufferOffset bufferEnd) acts (.ok s))
    (hflag : .callback flag ∈ s.log) (hread : .read none ∉ s.log) : flag = true ↔ s.accepted = file := by
  obtain ⟨t, ht, ⟨hacc, hs⟩, hstopped⟩ := hrun.safe
    (I := fun s => (Accounted file s ∧ (Continues s ∨ Reported file s)) ∧ s.Stopped)
    (fun u a h he => by
      obtain ⟨v, hv, hkept⟩ := h.1.1.step h.1.2 a he
      exact ⟨v, hv, hkept, h.1.1.step_stopped h.1.2 he hv⟩)
    ⟨⟨.start _ _ _ _, .inl (.start _ _ _ _)⟩, fun hfalse => by simp [FromFile.start] at hfalse⟩
  cases ht
  have hr : Reported file s := hs.resolve_left fun hc => (hc.quiet _ hflag).2.1 trivial
  obtain ⟨value, log, hlog, hend, hvalue⟩ := hr.report
  have hsame : flag = value := by
    rw [hlog] at hflag
    rcases List.mem_cons.mp hflag with heq | hmem
    · cases heq
      rfl
    · rcases List.mem_cons.mp hmem with heq | hmem
      · cases heq
      · exact (hend _ hmem trivial).elim
  constructor
  · exact fun htrue => (hvalue.mp (hsame ▸ htrue)).2.2
  · intro hall
    cases flag with
    | true => rfl
    | false =>
      -- the whole file was accepted, so nothing is left in the window
      have hlen := congrArg List.length hacc.stream
      have hlen' := congrArg List.length hacc.bytes
      rw [hall] at hlen'
      rw [List.length_append] at hlen hlen'
      have hheld : s.held = [] := List.eq_nil_of_length_eq_zero (by omega)
      exact absurd ((hstopped hflag).resolve_left hread) (not_not.mpr hheld)

end FromFile

/-- `BlockingCopyFromString` under any script of answers. The socket took a prefix of the string, and until it
took the last byte `ptr` and `to_write` describe exactly the rest. The call has returned exactly if all was
accepted or an error came, and it returned true exactly if all was accepted or the error was the peer's close;
so it agrees with a copy from a file of which the socket took as much, except where the close cut it short. -/
theorem blocking_write_reports {source : List UInt8} (hsource : source ≠ []) {acts : List WriteAnswer}
    {result : Except Fault StringWriteRun} (hrun : (stringWriteMachine source).Run (.start source) acts result) :
    ∃ s, result = .ok s ∧ s.accepted <+: source ∧
      (s.accepted ≠ source → s.writer.ptr = s.accepted.length ∧
        s.writer.toWrite = source.length - s.accepted.length ∧ s.accepted ++ s.writer.offered source = source) ∧
      ((∃ value, s.next = .ret value) ↔ s.accepted = source ∨ ∃ a, acts.getLast? = some a ∧ a.Fails) ∧
      ∀ value, s.next = .ret value →
        (value = true ↔ s.accepted = source ∨ ∃ a, acts.getLast? = some a ∧ a.Closes) ∧
        ∀ buffer bufferOffset bufferEnd fileActs f flag,
          fromFileMachine.Run (.start source buffer bufferOffset bufferEnd) fileActs (.ok f) →
          .callback flag ∈ f.log → .read none ∉ f.log → f.accepted = s.accepted →
          (value = flag ↔ s.accepted = source ∨ ¬ ∃ a, acts.getLast? = some a ∧ a.Closes) := by
  obtain ⟨s, rfl, h⟩ := StringWriteRun.Wrote.run hsource hrun
  refine ⟨s, rfl, ⟨_, h.bytes⟩, fun hsome => ?_, h.returned_iff, fun value hn => ⟨h.value_iff hn, ?_⟩⟩
  · have hrest := h.rest hsome
    exact ⟨hrest.ptr, hrest.toWrite, hrest.offered ▸ h.bytes⟩
  · intro buffer bufferOffset bufferEnd fileActs f flag hfile hflag hread hsame
    have hvalue := h.value_iff hn
    have hreport := fromFile_reports hfile hflag hread
    rw [hsame] at hreport
    rw [Bool.eq_iff_iff, hvalue, hreport]
    by_cases hall : s.accepted = source
    · simp only [hall, true_or]
    · simp only [hall, false_or, iff_false]

/-- The socket takes the first of two bytes and the peer closes: the call reports a success, and a copy of the
same bytes from a file, against the same peer, a failure. -/
theorem closed_write_reports_success :
    ∃ s f, (stringWriteMachine [7, 9]).Run (.start [7, 9]) [.write ⟨.ok, 1⟩, .write ⟨.errPeerClosed, 0⟩] (.ok s) ∧
      s.next = .ret true ∧ s.accepted = [7] ∧
      fromFileMachine.Run (.start [7, 9] [] 0 0) [.fillBuffer (some [7, 9]) ⟨.ok, 1⟩, .onHandleReady ⟨.errPeerClosed, 0⟩]
        (.ok f) ∧
      f.accepted = [7] ∧ .read none ∉ f.log ∧ .callback false ∈ f.log := by
  have hrun : (stringWriteMachine [7, 9]).Run (.start [7, 9]) [.write ⟨.ok, 1⟩, .write ⟨.errPeerClosed, 0⟩] (.ok _) :=
    .step ⟨rfl, fun _ => by decide⟩ rfl (.step ⟨rfl, by simp⟩ rfl (.nil _))
  have hfile : fromFileMachine.Run (.start [7, 9] [] 0 0)
      [.fillBuffer (some [7, 9]) ⟨.ok, 1⟩, .onHandleReady ⟨.errPeerClosed, 0⟩] (.ok _) :=
    .step ⟨by decide, ⟨List.prefix_rfl, by decide, by simp⟩, fun _ => by decide⟩ rfl
      (.step ⟨by decide, fun h => absurd h (by decide)⟩ rfl (.nil _))
  refine ⟨_, _, hrun, rfl, rfl, hfile, rfl, ?_, .head _⟩
  simp [FromFile.proceed, FromFile.write, FromFile.note, FromFile.start]

/-- A short write, a wait and the last byte, beside a copy from a file that takes them at once. -/
theorem blocking_write_reports_waits :
    ∃ s f, (stringWriteMachine [7, 9]).Run (.start [7, 9])
        [.write ⟨.ok, 1⟩, .write ⟨.errShouldWait, 0⟩, .waitOne .ok, .write ⟨.ok, 1⟩] (.ok s) ∧
      s.accepted <+: [7, 9] ∧
      fromFileMachine.Run (.start [7, 9] [] 0 0) [.fillBuffer (some [7, 9]) ⟨.ok, 2⟩, .fillBuffer (some []) ⟨.ok, 0⟩]
        (.ok f) ∧
      ∀ value, s.next = .ret value → value = true := by
  have hrun : (stringWriteMachine [7, 9]).Run (.start [7, 9])
      [.write ⟨.ok, 1⟩, .write ⟨.errShouldWait, 0⟩, .waitOne .ok, .write ⟨.ok, 1⟩] (.ok _) :=
    .step ⟨rfl, fun _ => by decide⟩ rfl (.step ⟨rfl, by simp⟩ rfl (.step ⟨_, rfl⟩ rfl
      (.step ⟨rfl, fun _ => by decide⟩ rfl (.nil _))))
  have hfile : fromFileMachine.Run (.start [7, 9] [] 0 0)
      [.fillBuffer (some [7, 9]) ⟨.ok, 2⟩, .fillBuffer (some []) ⟨.ok, 0⟩] (.ok _) :=
    .step ⟨by decide, ⟨List.prefix_rfl, by decide, by simp⟩, fun _ => by decide⟩ rfl
      (.step ⟨by decide, ⟨List.nil_prefix, by decide, fun _ => rfl⟩, fun _ => by decide⟩ rfl (.nil _))
  obtain ⟨s, hs, hprefix, -, -, hret⟩ := blocking_write_reports (by simp) hrun
  cases hs
  refine ⟨_, _, hrun, hprefix, hfile, fun value hn => ?_⟩
  have hsame := ((hret value hn).2 _ _ _ _ _ true hfile (.head _) (by
    simp [FromFile.proceed, FromFile.write, FromFile.note, FromFile.start]) rfl).mpr (.inl rfl)
  exact hsame

end Mtl.Socket
