import Mathlib.Data.List.Basic
import Mtl.Magenta
import Mtl.Tasks.MessageLoop

/-! `DeviceWatcher::OnHandleReady`: the loop that decodes a watch message. -/
namespace Mtl.Io
open Tasks

/-- `VFS_WATCH_EVT_ADDED` and `VFS_WATCH_EVT_EXISTING`. -/
structure WatchEvents where
  added : UInt8
  existing : UInt8

def WatchEvents.Lists (evt : WatchEvents) (event : UInt8) : Prop :=
  event = evt.added ∨ event = evt.existing

instance (evt : WatchEvents) (event : UInt8) : Decidable (evt.Lists event) :=
  inferInstanceAs (Decidable (_ ∨ _))

abbrev Name := List UInt8

/-- The names handed to `callback_`, whether one of the callbacks destroyed the watcher, and
one more than the highest index of the buffer that was read. -/
structure WatchOutcome where
  names : List Name := []
  destroyed : Bool := false
  reach : Nat := 0
  deriving DecidableEq

/-- The `while` loop. `msg` is the buffer from the read pointer on, `pos` the pointer's distance
from its start. The callback with the number `destroysAt`, counted from 0, destroys the watcher. -/
def messageLoop (evt : WatchEvents) (destroysAt : Option Nat) (msg : List UInt8) (pos size : Nat)
    (out : WatchOutcome) : Except Fault WatchOutcome :=
  if size < 2 then .ok out else
    match msg with
    | event :: namelen :: rest =>
      let namelen := namelen.toNat
      if size < namelen + 2 then .ok { out with reach := pos + 2 }
      else if evt.Lists event then
        if rest.length < namelen then .error (.overrun (pos + 2 + rest.length))
        else
          let called := out.names.length
          let out := { out with names := out.names ++ [rest.take namelen], reach := pos + 2 + namelen }
          -- Note: Callback may have destroyed the DeviceWatcher before returning.
          if destroysAt = some called then .ok { out with destroyed := true }
          else messageLoop evt destroysAt (rest.drop namelen) (pos + 2 + namelen) (size - namelen) out
      else messageLoop evt destroysAt (rest.drop namelen) (pos + 2 + namelen) (size - namelen)
        { out with reach := pos + 2 }
    | _ => .error (.overrun (pos + msg.length))
termination_by msg.length
decreasing_by all_goals simp +arith

/-- The members that the handler uses: `dir_watch_` and `handler_key_`. -/
structure DeviceWatcher where
  dirWatch : Option MxHandle
  handlerKey : HandlerKey
  deriving DecidableEq

/-- What `dir_watch_.read` returned: the status, the buffer after it and `size`. -/
structure ChannelRead where
  status : MxStatus
  buf : List UInt8
  size : Nat

def DeviceWatcher.onHandleReady (w : DeviceWatcher) (evt : WatchEvents) (destroysAt : Option Nat)
    (pending : MxSignals) (read : ChannelRead) : Except Fault (DeviceWatcher × WatchOutcome) :=
  if .channelReadable ∈ pending then
    if read.status = .ok then do
      let out ← messageLoop evt destroysAt read.buf 0 read.size {}
      return (w, out)
    else .error (.check "Failed to read from directory watch channel")
  else if .channelPeerClosed ∈ pending then .ok ({ w with dirWatch := none }, {})
  else .error (.check "false")

/-! ## Well-formed messages -/

/-- One record of a watch message. -/
structure WatchRecord where
  event : UInt8
  name : Name
  fits : name.length < 256

def WatchRecord.encode (r : WatchRecord) : List UInt8 :=
  r.event :: UInt8.ofNat r.name.length :: r.name

def encode (records : List WatchRecord) : List UInt8 := records.flatMap WatchRecord.encode

/-- The names of the records that are listed, in message order. -/
def listed (evt : WatchEvents) (records : List WatchRecord) : List Name :=
  (records.filter fun r => evt.Lists r.event).map WatchRecord.name

/-- What the callbacks should get: all listed names, or those up to the destroying callback's. -/
def delivered (evt : WatchEvents) (destroysAt : Option Nat) (records : List WatchRecord) : List Name :=
  match destroysAt with
  | none => listed evt records
  | some i => (listed evt records).take (i + 1)

/-- The bytes past the message, walked as headers with a budget that only names are charged to,
end the walk before a listed header and before the buffer's end. -/
inductive StaleQuiet (evt : WatchEvents) : Nat → List UInt8 → Prop
  | spent {budget : Nat} {bytes : List UInt8} : budget < 2 → StaleQuiet evt budget bytes
  | tooLong {budget : Nat} {event namelen : UInt8} {rest : List UInt8} :
      budget < namelen.toNat + 2 → StaleQuiet evt budget (event :: namelen :: rest)
  | unlisted {budget : Nat} {event namelen : UInt8} {rest : List UInt8} : ¬ evt.Lists event →
      StaleQuiet evt (budget - namelen.toNat) (rest.drop namelen.toNat) →
      StaleQuiet evt budget (event :: namelen :: rest)

section Loop
variable {evt : WatchEvents} {destroysAt : Option Nat} {event namelen : UInt8} {rest : List UInt8}
  {pos size : Nat} {out : WatchOutcome}

theorem messageLoop_done (h : size < 2) (msg : List UInt8) :
    messageLoop evt destroysAt msg pos size out = .ok out := by
  unfold messageLoop
  rw [if_pos h]

theorem messageLoop_tooLong (h : 2 ≤ size) (hlong : size < namelen.toNat + 2) :
    messageLoop evt destroysAt (event :: namelen :: rest) pos size out =
      .ok { out with reach := pos + 2 } := by
  rw [messageLoop, if_neg (by omega), if_pos hlong]

theorem messageLoop_unlisted (hfits : namelen.toNat + 2 ≤ size) (hl : ¬ evt.Lists event) :
    messageLoop evt destroysAt (event :: namelen :: rest) pos size out =
      messageLoop evt destroysAt (rest.drop namelen.toNat) (pos + 2 + namelen.toNat)
        (size - namelen.toNat) { out with reach := pos + 2 } := by
  rw [messageLoop, if_neg (by omega), if_neg (by omega), if_neg hl]

/-- The outcome after a listed name. -/
def WatchOutcome.call (out : WatchOutcome) (name : Name) (reach : Nat) : WatchOutcome :=
  { out with names := out.names ++ [name], reach := reach }

theorem messageLoop_listed (hfits : namelen.toNat + 2 ≤ size) (hl : evt.Lists event)
    (hrest : namelen.toNat ≤ rest.length) :
    messageLoop evt destroysAt (event :: namelen :: rest) pos size out =
      if destroysAt = some out.names.length then
        .ok { out.call (rest.take namelen.toNat) (pos + 2 + namelen.toNat) with destroyed := true }
      else messageLoop evt destroysAt (rest.drop namelen.toNat) (pos + 2 + namelen.toNat)
        (size - namelen.toNat) (out.call (rest.take namelen.toNat) (pos + 2 + namelen.toNat)) := by
  rw [messageLoop, if_neg (by omega), if_neg (by omega), if_pos hl, if_neg (by omega)]
  rfl

theorem StaleQuiet.loop {budget : Nat} {stale : List UInt8} (h : StaleQuiet evt budget stale) (pos : Nat)
    (out : WatchOutcome) :
    ∃ out', messageLoop evt destroysAt stale pos budget out = .ok out' ∧ out'.names = out.names := by
  induction h generalizing pos out with
  | spent hb => exact ⟨out, messageLoop_done hb _, rfl⟩
  | @tooLong budget event namelen rest hb =>
    by_cases hsmall : budget < 2
    · exact ⟨out, messageLoop_done hsmall _, rfl⟩
    · exact ⟨_, messageLoop_tooLong (by omega) hb, rfl⟩
  | @unlisted budget event namelen rest hl _ ih =>
    by_cases hsmall : budget < 2
    · exact ⟨out, messageLoop_done hsmall _, rfl⟩
    · by_cases hb : budget < namelen.toNat + 2
      · exact ⟨_, messageLoop_tooLong (by omega) hb, rfl⟩
      · rw [messageLoop_unlisted (by omega) hl]
        exact ih _ _

/-- The loop only ever appends names. -/
theorem messageLoop_reaches {msg : List UInt8} {out' : WatchOutcome}
    (h : messageLoop evt destroysAt msg pos size out = .ok out') : out.names <+: out'.names := by
  fun_induction messageLoop evt destroysAt msg pos size out with
  | case1 | case2 =>
    cases h
    exact List.prefix_rfl
  | case3 | case7 => cases h
  | case4 =>
    cases h
    exact List.prefix_append _ _
  | case5 pos size out hsize event byte rest namelen hfits hl hrest called next hd ih =>
    exact (List.prefix_append _ _).trans (ih h)
  | case6 pos size out hsize event byte rest namelen hfits hl ih => exact ih h

/-- A walk that reports nothing is quiet. -/
theorem StaleQuiet.of_loop {msg : List UInt8} {out' : WatchOutcome}
    (h : messageLoop evt destroysAt msg pos size out = .ok out') (hn : out'.names = out.names) :
    StaleQuiet evt size msg := by
  fun_induction messageLoop evt destroysAt msg pos size out with
  | case1 _ _ _ _ hsize => exact .spent hsize
  | case2 pos size out hsize event byte rest namelen hlong => exact .tooLong hlong
  | case3 | case7 => cases h
  | case4 pos size out hsize event byte rest namelen hfits hl hrest called next hd =>
    cases h
    simp [next] at hn
  | case5 pos size out hsize event byte rest namelen hfits hl hrest called next hd ih =>
    have := (messageLoop_reaches h).length_le
    simp only [next, hn, List.length_append, List.length_singleton] at this
    omega
  | case6 pos size out hsize event byte rest namelen hfits hl ih => exact .unlisted hl (ih h hn)

end Loop

section Message
variable {evt : WatchEvents} {destroysAt : Option Nat} (stale : List UInt8)

theorem encode_cons (r : WatchRecord) (records : List WatchRecord) (stale : List UInt8) :
    encode (r :: records) ++ stale =
      r.event :: UInt8.ofNat r.name.length :: (r.name ++ (encode records ++ stale)) := by
  simp [encode, WatchRecord.encode]

theorem length_encode_cons (r : WatchRecord) (records : List WatchRecord) :
    (encode (r :: records)).length = r.name.length + 2 + (encode records).length := by
  simp [encode, WatchRecord.encode]
  omega

theorem listed_cons (r : WatchRecord) (records : List WatchRecord) :
    listed evt (r :: records) = if evt.Lists r.event then r.name :: listed evt records else listed evt records := by
  by_cases h : evt.Lists r.event <;> simp [listed, h]

/-- One record: its header is not taken off the size. -/
theorem messageLoop_record (r : WatchRecord) (records : List WatchRecord) (pos budget : Nat) (out : WatchOutcome) :
    messageLoop evt destroysAt (encode (r :: records) ++ stale) pos
        ((encode (r :: records)).length + budget) out =
      if evt.Lists r.event then
        if destroysAt = some out.names.length then
          .ok { out.call r.name (pos + 2 + r.name.length) with destroyed := true }
        else messageLoop evt destroysAt (encode records ++ stale) (pos + 2 + r.name.length)
          ((encode records).length + (budget + 2)) (out.call r.name (pos + 2 + r.name.length))
      else messageLoop evt destroysAt (encode records ++ stale) (pos + 2 + r.name.length)
        ((encode records).length + (budget + 2)) { out with reach := pos + 2 } := by
  have hlen : (UInt8.ofNat r.name.length).toNat = r.name.length := UInt8.toNat_ofNat_of_lt' r.fits
  have hsize : r.name.length + 2 + (encode records).length + budget - r.name.length =
      (encode records).length + (budget + 2) := by omega
  rw [encode_cons, length_encode_cons]
  by_cases hl : evt.Lists r.event
  · rw [messageLoop_listed (by omega) hl (by simp [hlen]), if_pos hl, hlen, hsize, List.take_left,
      List.drop_left]
  · rw [messageLoop_unlisted (by omega) hl, if_neg hl, hlen, hsize, List.drop_left]

/-- Without a destroying callback the loop goes on behind the message, with two bytes left over
for each record. -/
theorem messageLoop_records (records : List WatchRecord) (pos budget : Nat) (out : WatchOutcome)
    (hd : ∀ i, destroysAt = some i → out.names.length + (listed evt records).length ≤ i) :
    ∃ pos' out', out'.names = out.names ++ listed evt records ∧
      messageLoop evt destroysAt (encode records ++ stale) pos ((encode records).length + budget) out =
        messageLoop evt destroysAt stale pos' (2 * records.length + budget) out' := by
  induction records generalizing pos budget out with
  | nil => exact ⟨pos, out, by simp [listed], by simp [encode]⟩
  | cons r records ih =>
    rw [messageLoop_record]
    rw [listed_cons] at hd ⊢
    by_cases hl : evt.Lists r.event
    · simp only [if_pos hl, List.length_cons] at hd ⊢
      have hnot : destroysAt ≠ some out.names.length := fun h => by
        have := hd _ h
        omega
      rw [if_neg hnot]
      obtain ⟨pos', out', hnames, hloop⟩ := ih (pos + 2 + r.name.length) (budget + 2)
        (out.call r.name (pos + 2 + r.name.length)) (fun i hi => by
          have := hd i hi
          simp only [WatchOutcome.call, List.length_append, List.length_singleton]
          omega)
      refine ⟨pos', out', by simp [hnames, WatchOutcome.call], hloop.trans ?_⟩
      rw [show 2 * records.length + (budget + 2) = 2 * (records.length + 1) + budget by omega]
    · simp only [if_neg hl, List.length_cons] at hd ⊢
      obtain ⟨pos', out', hnames, hloop⟩ := ih (pos + 2 + r.name.length) (budget + 2)
        { out with reach := pos + 2 } hd
      refine ⟨pos', out', hnames, hloop.trans ?_⟩
      rw [show 2 * records.length + (budget + 2) = 2 * (records.length + 1) + budget by omega]

/-- The callback that destroys the watcher ends the loop, whatever the size. -/
theorem messageLoop_destroyed (records : List WatchRecord) (pos budget : Nat) (out : WatchOutcome) (i : Nat)
    (hd : destroysAt = some (out.names.length + i)) (hi : i < (listed evt records).length) :
    ∃ out', messageLoop evt destroysAt (encode records ++ stale) pos ((encode records).length + budget) out =
      .ok out' ∧ out'.names = out.names ++ (listed evt records).take (i + 1) := by
  induction records generalizing pos budget out i with
  | nil => simp [listed] at hi
  | cons r records ih =>
    rw [messageLoop_record]
    rw [listed_cons] at hi ⊢
    by_cases hl : evt.Lists r.event
    · simp only [if_pos hl] at hi ⊢
      cases i with
      | zero =>
        rw [Nat.add_zero] at hd
        rw [if_pos hd]
        exact ⟨_, rfl, rfl⟩
      | succ i =>
        rw [if_neg (by rw [hd]; simp)]
        obtain ⟨out', hloop, hnames⟩ := ih (pos + 2 + r.name.length) (budget + 2)
          (out.call r.name (pos + 2 + r.name.length)) i
          (by simp only [hd, WatchOutcome.call, List.length_append, List.length_singleton, Option.some.injEq]; omega)
          (by simpa using hi)
        exact ⟨out', hloop, by simp [hnames, WatchOutcome.call]⟩
    · simp only [if_neg hl] at hi ⊢
      exact ih (pos + 2 + r.name.length) (budget + 2) { out with reach := pos + 2 } i hd hi

end Message

/-- `OnHandleReady` delivers the names of a well-formed message, and nothing else, exactly if the
message is empty, one of its own callbacks destroys the watcher, or the bytes behind it are quiet
for the two bytes that each record left uncounted. -/
theorem message_decoded_iff (w : DeviceWatcher) (evt : WatchEvents) (destroysAt : Option Nat)
    (records : List WatchRecord) (stale : List UInt8) (pending : MxSignals) (hp : .channelReadable ∈ pending) :
    (∃ out, w.onHandleReady evt destroysAt pending
        ⟨.ok, encode records ++ stale, (encode records).length⟩ = .ok (w, out) ∧
      out.names = delivered evt destroysAt records) ↔
    records = [] ∨ (∃ i, destroysAt = some i ∧ i < (listed evt records).length) ∨
      StaleQuiet evt (2 * records.length) stale := by
  have hready (out : WatchOutcome) : w.onHandleReady evt destroysAt pending
        ⟨.ok, encode records ++ stale, (encode records).length⟩ = .ok (w, out) ↔
      messageLoop evt destroysAt (encode records ++ stale) 0 (encode records).length {} = .ok out := by
    simp only [DeviceWatcher.onHandleReady, if_pos hp, if_true]
    cases messageLoop evt destroysAt (encode records ++ stale) 0 (encode records).length {} <;> simp
  simp only [hready]
  by_cases hdes : ∃ i, destroysAt = some i ∧ i < (listed evt records).length
  · obtain ⟨i, hd, hi⟩ := hdes
    obtain ⟨out', hloop, hnames⟩ := messageLoop_destroyed stale records 0 0 {} i (by simpa using hd) hi
    refine iff_of_true ⟨out', hloop, ?_⟩ (.inr (.inl ⟨i, hd, hi⟩))
    simpa [delivered, hd] using hnames
  · have hle (i : Nat) (hd : destroysAt = some i) : (listed evt records).length ≤ i :=
      Nat.le_of_not_lt fun hi => hdes ⟨i, hd, hi⟩
    have hall : delivered evt destroysAt records = listed evt records := by
      cases hd : destroysAt with
      | none => rfl
      | some i => exact List.take_of_length_le (Nat.le_succ_of_le (hle i hd))
    obtain ⟨pos, out, hnames, hloop⟩ := messageLoop_records stale records 0 0 {}
      (fun i hi => by simpa using hle i hi)
    simp only [List.nil_append, Nat.add_zero] at hnames hloop
    rw [hall, hloop]
    constructor
    · rintro ⟨out', hout, hn⟩
      exact .inr (.inr (.of_loop hout (hn.trans hnames.symm)))
    · rintro (rfl | hd | hq)
      · exact ⟨out, messageLoop_done (by simp) _, hnames⟩
      · exact absurd hd hdes
      · obtain ⟨out', hout, hn⟩ := hq.loop pos out
        exact ⟨out', hout, hn.trans hnames⟩

/-- A message "a" and then stale bytes that open with a header of an unlisted event, too long. -/
theorem message_decoded_iff_quiet :
    ∃ out, (DeviceWatcher.mk (some 5) 1).onHandleReady ⟨1, 3⟩ none {.channelReadable}
        ⟨.ok, encode [⟨1, [97], by decide⟩] ++ [0, 5], (encode [⟨1, [97], by decide⟩]).length⟩ =
          .ok (⟨some 5, 1⟩, out) ∧
      out.names = delivered ⟨1, 3⟩ none [⟨1, [97], by decide⟩] :=
  (message_decoded_iff ⟨some 5, 1⟩ ⟨1, 3⟩ none [⟨1, [97], by decide⟩] [0, 5] {.channelReadable} (by decide)).mpr
    (.inr (.inr (.tooLong (by decide))))

/-- A message "a" whose stale bytes open with the header of an added device with an empty name. -/
theorem stale_header_delivered :
    ¬ ∀ (w : DeviceWatcher) (evt : WatchEvents) (destroysAt : Option Nat) (records : List WatchRecord)
      (stale : List UInt8),
      ∃ out, w.onHandleReady evt destroysAt {.channelReadable}
          ⟨.ok, encode records ++ stale, (encode records).length⟩ = .ok (w, out) ∧
        out.names = delivered evt destroysAt records := by
  intro hdecoded
  obtain ⟨out, hout, hnames⟩ := hdecoded ⟨some 5, 1⟩ ⟨1, 3⟩ none [⟨1, [97], by decide⟩] [1, 0, 0, 5]
  simp [DeviceWatcher.onHandleReady, encode, WatchRecord.encode, messageLoop, WatchEvents.Lists] at hout
  rw [← hout] at hnames
  revert hnames
  decide

end Mtl.Io
