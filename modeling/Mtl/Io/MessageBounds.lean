import Mtl.Io.DeviceWatcher

/-! What the loop that decodes a watch message reads: `size` counts names but not their headers, so
the loop leaves the message unless something in the message stops it. -/
namespace Mtl.Io
open Tasks

/-- The name lengths of the iterations that get past the length check, as long as the loop stays in
the buffer. `called` is how many names were handed to the callback. -/
def iterations (evt : WatchEvents) (destroysAt : Option Nat) (msg : List UInt8) (size called : Nat) : List Nat :=
  if size < 2 then [] else
    match msg with
    | event :: namelen :: rest =>
      let namelen := namelen.toNat
      if size < namelen + 2 then []
      else if evt.Lists event then
        if destroysAt = some called then [namelen]
        else namelen :: iterations evt destroysAt (rest.drop namelen) (size - namelen) (called + 1)
      else namelen :: iterations evt destroysAt (rest.drop namelen) (size - namelen) called
    | _ => []
termination_by msg.length
decreasing_by all_goals simp +arith

/-- What a list of iterations should have taken off the size. -/
def walked : List Nat → Nat
  | [] => 0
  | namelen :: namelens => namelen + 2 + walked namelens

/-- The handler returns, no index that its loop reads or hands on is beyond the message, and what the
iterations walk over is no more than the message. -/
def DeviceWatcher.StaysInside (w : DeviceWatcher) (evt : WatchEvents) (destroysAt : Option Nat)
    (pending : MxSignals) (read : ChannelRead) : Prop :=
  ∃ out, w.onHandleReady evt destroysAt pending read = .ok (w, out) ∧ out.reach ≤ read.size ∧
    walked (iterations evt destroysAt read.buf read.size 0) ≤ read.size

/-- Walked as records, the message comes to one that ends the loop: a header too long for the budget,
from which only name lengths are taken, or a listed record whose callback destroys the watcher. -/
inductive EndsInside (evt : WatchEvents) (destroysAt : Option Nat) : Nat → Nat → List UInt8 → Prop
  | spent {budget called : Nat} {msg : List UInt8} : budget < 2 → EndsInside evt destroysAt budget called msg
  | tooLong {budget called : Nat} {event namelen : UInt8} {rest : List UInt8} :
      budget < namelen.toNat + 2 → EndsInside evt destroysAt budget called (event :: namelen :: rest)
  | destroyed {budget called : Nat} {event namelen : UInt8} {rest : List UInt8} : namelen.toNat ≤ rest.length →
      evt.Lists event → destroysAt = some called → EndsInside evt destroysAt budget called (event :: namelen :: rest)
  | listed {budget called : Nat} {event namelen : UInt8} {rest : List UInt8} : namelen.toNat ≤ rest.length →
      evt.Lists event → EndsInside evt destroysAt (budget - namelen.toNat) (called + 1) (rest.drop namelen.toNat) →
      EndsInside evt destroysAt budget called (event :: namelen :: rest)
  | unlisted {budget called : Nat} {event namelen : UInt8} {rest : List UInt8} : namelen.toNat ≤ rest.length →
      ¬ evt.Lists event → EndsInside evt destroysAt (budget - namelen.toNat) called (rest.drop namelen.toNat) →
      EndsInside evt destroysAt budget called (event :: namelen :: rest)

section Loop
variable {evt : WatchEvents} {destroysAt : Option Nat} {event namelen : UInt8} {rest msg : List UInt8}
  {pos size called : Nat} {out : WatchOutcome}

theorem iterations_done (h : size < 2) (msg : List UInt8) : iterations evt destroysAt msg size called = [] := by
  unfold iterations
  rw [if_pos h]

theorem iterations_tooLong (h : 2 ≤ size) (hlong : size < namelen.toNat + 2) :
    iterations evt destroysAt (event :: namelen :: rest) size called = [] := by
  rw [iterations, if_neg (by omega), if_pos hlong]

theorem iterations_listed (hfits : namelen.toNat + 2 ≤ size) (hl : evt.Lists event) :
    iterations evt destroysAt (event :: namelen :: rest) size called =
      if destroysAt = some called then [namelen.toNat]
      else namelen.toNat ::
        iterations evt destroysAt (rest.drop namelen.toNat) (size - namelen.toNat) (called + 1) := by
  rw [iterations, if_neg (by omega), if_neg (by omega), if_pos hl]

theorem iterations_unlisted (hfits : namelen.toNat + 2 ≤ size) (hl : ¬ evt.Lists event) :
    iterations evt destroysAt (event :: namelen :: rest) size called =
      namelen.toNat :: iterations evt destroysAt (rest.drop namelen.toNat) (size - namelen.toNat) called := by
  rw [iterations, if_neg (by omega), if_neg (by omega), if_neg hl]

/-- A loop that is entered reads a header, and what it read before counts no more. -/
theorem messageLoop_reach {out' : WatchOutcome} (h : messageLoop evt destroysAt msg pos size out = .ok out') :
    (size < 2 ∧ out' = out) ∨ pos + 2 ≤ out'.reach := by
  fun_induction messageLoop evt destroysAt msg pos size out with
  | case1 _ _ _ _ hsize =>
    cases h
    exact .inl ⟨hsize, rfl⟩
  | case2 pos size out hsize event byte rest namelen hlong =>
    cases h
    exact .inr (Nat.le_refl _)
  | case3 | case7 => cases h
  | case4 pos size out hsize event byte rest namelen hfits hl hrest called next hd =>
    cases h
    exact .inr (Nat.le_add_right _ _)
  | case5 pos size out hsize event byte rest namelen hfits hl hrest called next hd ih =>
    rcases ih h with ⟨-, rfl⟩ | hreach
    · exact .inr (Nat.le_add_right _ _)
    · exact .inr (by omega)
  | case6 pos size out hsize event byte rest namelen hfits hl ih =>
    rcases ih h with ⟨-, rfl⟩ | hreach
    · exact .inr (Nat.le_refl _)
    · exact .inr (by omega)

@[simp] theorem walked_nil : walked [] = 0 := rfl

@[simp] theorem walked_cons (namelen : Nat) (namelens : List Nat) :
    walked (namelen :: namelens) = namelen + 2 + walked namelens := rfl

/-- From here on the loop keeps to the `msg` part of `msg ++ beyond`. -/
def LoopsInside (evt : WatchEvents) (destroysAt : Option Nat) (msg beyond : List UInt8) (pos size : Nat)
    (out : WatchOutcome) : Prop :=
  ∃ out', messageLoop evt destroysAt (msg ++ beyond) pos size out = .ok out' ∧
    out'.reach ≤ pos + msg.length ∧
    walked (iterations evt destroysAt (msg ++ beyond) size out.names.length) ≤ msg.length

section Inside
variable {beyond : List UInt8}

theorem LoopsInside.spent (hsize : size < 2) (hpos : out.reach ≤ pos) :
    LoopsInside evt destroysAt msg beyond pos size out := by
  refine ⟨out, messageLoop_done hsize _, by omega, ?_⟩
  rw [iterations_done hsize]
  exact Nat.zero_le _

theorem LoopsInside.tooLong (hlong : size < namelen.toNat + 2) (hpos : out.reach ≤ pos) :
    LoopsInside evt destroysAt (event :: namelen :: rest) beyond pos size out := by
  by_cases hsize : size < 2
  · exact .spent hsize hpos
  · refine ⟨_, messageLoop_tooLong (by omega) hlong, by simp, ?_⟩
    rw [List.cons_append, List.cons_append, iterations_tooLong (by omega) hlong]
    exact Nat.zero_le _

theorem LoopsInside.destroyed (hrest : namelen.toNat ≤ rest.length) (hl : evt.Lists event)
    (hd : destroysAt = some out.names.length) (hpos : out.reach ≤ pos) :
    LoopsInside evt destroysAt (event :: namelen :: rest) beyond pos size out := by
  by_cases hlong : size < namelen.toNat + 2
  · exact .tooLong hlong hpos
  · have hfits : namelen.toNat + 2 ≤ size := Nat.le_of_not_lt hlong
    have hall : namelen.toNat ≤ (rest ++ beyond).length := by
      rw [List.length_append]
      omega
    refine ⟨_, (messageLoop_listed hfits hl hall).trans (if_pos hd), ?_, ?_⟩
    · simp only [WatchOutcome.call, List.length_cons]
      omega
    · rw [List.cons_append, List.cons_append, iterations_listed hfits hl, if_pos hd]
      simp only [walked_cons, walked_nil, List.length_cons]
      omega

theorem LoopsInside.listed (hrest : namelen.toNat ≤ rest.length) (hl : evt.Lists event) (hpos : out.reach ≤ pos)
    (hnext : LoopsInside evt destroysAt (rest.drop namelen.toNat) beyond (pos + 2 + namelen.toNat)
      (size - namelen.toNat) (out.call (rest.take namelen.toNat) (pos + 2 + namelen.toNat))) :
    LoopsInside evt destroysAt (event :: namelen :: rest) beyond pos size out := by
  by_cases hlong : size < namelen.toNat + 2
  · exact .tooLong hlong hpos
  · by_cases hd : destroysAt = some out.names.length
    · exact .destroyed hrest hl hd hpos
    · have hfits : namelen.toNat + 2 ≤ size := Nat.le_of_not_lt hlong
      have hall : namelen.toNat ≤ (rest ++ beyond).length := by
        rw [List.length_append]
        omega
      obtain ⟨out', hloop, hreach, hwalked⟩ := hnext
      rw [List.length_drop] at hreach hwalked
      simp only [WatchOutcome.call, List.length_append, List.length_singleton] at hwalked
      refine ⟨out', ?_, ?_, ?_⟩
      · rw [List.cons_append, List.cons_append, messageLoop_listed hfits hl hall, if_neg hd,
          List.drop_append_of_le_length hrest, List.take_append_of_le_length hrest]
        exact hloop
      · simp only [List.length_cons]
        omega
      · rw [List.cons_append, List.cons_append, iterations_listed hfits hl, if_neg hd,
          List.drop_append_of_le_length hrest]
        simp only [walked_cons, List.length_cons]
        omega

theorem LoopsInside.unlisted (hrest : namelen.toNat ≤ rest.length) (hl : ¬ evt.Lists event) (hpos : out.reach ≤ pos)
    (hnext : LoopsInside evt destroysAt (rest.drop namelen.toNat) beyond (pos + 2 + namelen.toNat)
      (size - namelen.toNat) { out with reach := pos + 2 }) :
    LoopsInside evt destroysAt (event :: namelen :: rest) beyond pos size out := by
  by_cases hlong : size < namelen.toNat + 2
  · exact .tooLong hlong hpos
  · have hfits : namelen.toNat + 2 ≤ size := Nat.le_of_not_lt hlong
    obtain ⟨out', hloop, hreach, hwalked⟩ := hnext
    simp only [List.length_drop] at hreach hwalked
    refine ⟨out', ?_, ?_, ?_⟩
    · rw [List.cons_append, List.cons_append, messageLoop_unlisted hfits hl,
        List.drop_append_of_le_length hrest]
      exact hloop
    · simp only [List.length_cons]
      omega
    · rw [List.cons_append, List.cons_append, iterations_unlisted hfits hl, List.drop_append_of_le_length hrest]
      simp only [walked_cons, List.length_cons]
      omega

/-- A message that ends the loop keeps it inside, whatever follows in the buffer. -/
theorem EndsInside.loop (h : EndsInside evt destroysAt size called msg) (pos : Nat)
    (hcalled : out.names.length = called) (hpos : out.reach ≤ pos) :
    LoopsInside evt destroysAt msg beyond pos size out := by
  induction h generalizing pos out with
  | spent hsize => exact .spent hsize hpos
  | tooLong hlong => exact .tooLong hlong hpos
  | destroyed hrest hl hd => exact .destroyed hrest hl (by rw [hd, hcalled]) hpos
  | listed hrest hl _ ih =>
    exact .listed hrest hl hpos (ih _ (by simp [WatchOutcome.call, hcalled]) (Nat.le_refl _))
  | unlisted hrest hl _ ih => exact .unlisted hrest hl hpos (ih _ hcalled (Nat.le_add_right _ _))

/-- The loop leaves a message that does not end it. The induction is on what is left of the message. -/
theorem LoopsInside.ends (h : LoopsInside evt destroysAt msg beyond pos size out) :
    EndsInside evt destroysAt size out.names.length msg := by
  induction hn : msg.length using Nat.strong_induction_on generalizing msg pos size out with
  | _ n ih =>
    by_cases hsize : size < 2
    · exact .spent hsize
    obtain ⟨out', hloop, hreach, hwalked⟩ := h
    have hheader : pos + 2 ≤ out'.reach := (messageLoop_reach hloop).resolve_left fun hdone => hsize hdone.1
    match msg, hn with
    | [], _ | [_], _ => simp at hreach; omega
    | event :: namelen :: rest, hn =>
      by_cases hlong : size < namelen.toNat + 2
      · exact .tooLong hlong
      have hfits : namelen.toNat + 2 ≤ size := Nat.le_of_not_lt hlong
      simp only [List.length_cons] at hreach hwalked hn
      rw [List.cons_append, List.cons_append] at hloop hwalked
      by_cases hl : evt.Lists event
      · by_cases hd : destroysAt = some out.names.length
        · rw [iterations_listed hfits hl, if_pos hd, walked_cons, walked_nil] at hwalked
          exact .destroyed (by omega) hl hd
        · rw [iterations_listed hfits hl, if_neg hd, walked_cons] at hwalked
          have hrest : namelen.toNat ≤ rest.length := by omega
          have hall : namelen.toNat ≤ (rest ++ beyond).length := by
            rw [List.length_append]
            omega
          rw [messageLoop_listed hfits hl hall, if_neg hd, List.drop_append_of_le_length hrest] at hloop
          rw [List.drop_append_of_le_length hrest] at hwalked
          have hnext : LoopsInside evt destroysAt (rest.drop namelen.toNat) beyond (pos + 2 + namelen.toNat)
              (size - namelen.toNat)
              (out.call ((rest ++ beyond).take namelen.toNat) (pos + 2 + namelen.toNat)) := by
            refine ⟨out', hloop, ?_, ?_⟩
            · rw [List.length_drop]
              omega
            · simp only [WatchOutcome.call, List.length_append, List.length_singleton, List.length_drop]
              omega
          have hends := ih _ (by rw [List.length_drop]; omega) hnext rfl
          simp only [WatchOutcome.call, List.length_append, List.length_singleton] at hends
          exact .listed hrest hl hends
      · rw [iterations_unlisted hfits hl, walked_cons] at hwalked
        have hrest : namelen.toNat ≤ rest.length := by omega
        rw [messageLoop_unlisted hfits hl, List.drop_append_of_le_length hrest] at hloop
        rw [List.drop_append_of_le_length hrest] at hwalked
        have hnext : LoopsInside evt destroysAt (rest.drop namelen.toNat) beyond (pos + 2 + namelen.toNat)
            (size - namelen.toNat) { out with reach := pos + 2 } :=
          ⟨out', hloop, by rw [List.length_drop]; omega, by simp only [List.length_drop]; omega⟩
        have hends := ih _ (by rw [List.length_drop]; omega) hnext rfl
        exact .unlisted hrest hl hends

end Inside

end Loop

/-- The loop is safe exactly on the messages that end it themselves. -/
theorem message_loop_inside_iff (w : DeviceWatcher) (evt : WatchEvents) (destroysAt : Option Nat)
    (pending : MxSignals) (hp : .channelReadable ∈ pending) (read : ChannelRead) (hok : read.status = .ok)
    (hsize : read.size ≤ read.buf.length) :
    w.StaysInside evt destroysAt pending read ↔
      EndsInside evt destroysAt read.size 0 (read.buf.take read.size) := by
  have hready (out : WatchOutcome) : w.onHandleReady evt destroysAt pending read = .ok (w, out) ↔
      messageLoop evt destroysAt read.buf 0 read.size {} = .ok out := by
    simp only [DeviceWatcher.onHandleReady, if_pos hp, if_pos hok]
    cases messageLoop evt destroysAt read.buf 0 read.size {} <;> simp
  have hinside : w.StaysInside evt destroysAt pending read ↔
      LoopsInside evt destroysAt (read.buf.take read.size) (read.buf.drop read.size) 0 read.size {} := by
    simp only [DeviceWatcher.StaysInside, LoopsInside, hready, List.take_append_drop, List.length_take,
      Nat.min_eq_left hsize, Nat.zero_add, List.length_nil]
  rw [hinside]
  exact ⟨LoopsInside.ends, fun h => h.loop 0 rfl (Nat.le_refl _)⟩

/-- A removed device's record, then an added one whose callback destroys the watcher. -/
theorem message_loop_inside_iff_destroyed :
    (DeviceWatcher.mk (some 5) 1).StaysInside ⟨1, 3⟩ (some 0) {.channelReadable}
      ⟨.ok, [2, 1, 97, 1, 1, 98, 7, 7], 6⟩ :=
  (message_loop_inside_iff ⟨some 5, 1⟩ ⟨1, 3⟩ (some 0) {.channelReadable} (by decide)
    ⟨.ok, [2, 1, 97, 1, 1, 98, 7, 7], 6⟩ rfl (by decide)).mpr
    (.unlisted (by decide) (by decide) (.destroyed (by decide) (by decide) rfl))

/-- A message that is one empty name: the bytes behind it are read as the next header. -/
theorem header_read_behind_message :
    ¬ ∀ (w : DeviceWatcher) (evt : WatchEvents) (destroysAt : Option Nat) (read : ChannelRead),
      read.status = .ok → read.size ≤ read.buf.length →
      w.StaysInside evt destroysAt {.channelReadable} read := by
  intro hinside
  obtain ⟨out, hout, hreach, -⟩ := hinside ⟨some 5, 1⟩ ⟨1, 3⟩ none ⟨.ok, [1, 0, 0, 5], 2⟩ rfl (by decide)
  simp [DeviceWatcher.onHandleReady, messageLoop, WatchEvents.Lists] at hout
  rw [← hout] at hreach
  exact absurd hreach (by decide)

end Mtl.Io
