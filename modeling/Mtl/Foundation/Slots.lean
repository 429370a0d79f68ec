import Mathlib.Data.Finset.Option
import Mathlib.Logic.Function.Basic

/-! Values that live in slots. A value is new when it is put into a slot, and it ends when that slot is assigned or
cleared. -/
namespace Mtl.Foundation

/-- `held` says which value a slot has; `ended` are the values that are gone. -/
structure Slots (ι : Type*) where
  held : ι → Option Nat := fun _ => none
  next : Nat := 0
  ended : Finset Nat := ∅

namespace Slots
variable {ι : Type*} {s : Slots ι} {calls : List (ι × Nat)} {i j : ι}

/-- A new value is moved into the slot. -/
def put [DecidableEq ι] (s : Slots ι) (i : ι) : Slots ι :=
  { held := Function.update s.held i (some s.next), next := s.next + 1, ended := s.ended ∪ (s.held i).toFinset }

def clear [DecidableEq ι] (s : Slots ι) (i : ι) : Slots ι :=
  { s with held := Function.update s.held i none, ended := s.ended ∪ (s.held i).toFinset }

/-- The value of `i` is moved into `j`. -/
def move [DecidableEq ι] (s : Slots ι) (i j : ι) : Slots ι :=
  { s with
    held := Function.update (Function.update s.held j (s.held i)) i none
    ended := s.ended ∪ (s.held j).toFinset }

/-- A new value ends without having been put anywhere. -/
def discard (s : Slots ι) : Slots ι := { s with next := s.next + 1, ended := insert s.next s.ended }

/-- No value is in two slots, and none that ended is in any. -/
structure Sole (s : Slots ι) : Prop where
  unique : ∀ i j c, s.held i = some c → s.held j = some c → i = j
  live : ∀ i c, s.held i = some c → c < s.next ∧ c ∉ s.ended
  past : ∀ c ∈ s.ended, c < s.next

/-- Each call is a call of a value in its slot. -/
def Serves (s : Slots ι) (calls : List (ι × Nat)) : Prop := ∀ call ∈ calls, s.held call.1 = some call.2

/-- No value has ended that is being called. -/
def Safe (s : Slots ι) (calls : List (ι × Nat)) : Prop := ∀ call ∈ calls, call.2 ∉ s.ended

section Updates
variable [DecidableEq ι]

theorem held_put (k : ι) : (s.put i).held k = if k = i then some s.next else s.held k := Function.update_apply _ _ _ _

theorem held_clear (k : ι) : (s.clear i).held k = if k = i then none else s.held k := Function.update_apply _ _ _ _

theorem held_move (k : ι) :
    (s.move i j).held k = if k = i then none else if k = j then s.held i else s.held k := by
  simp only [move, Function.update_apply]

/-- The value of `i` is moved out, and what is left of it is cleared. -/
theorem held_move_clear (k : ι) :
    ((s.move i j).clear i).held k = if k = i then none else if k = j then s.held i else s.held k := by
  rw [held_clear, held_move]
  split_ifs <;> rfl

theorem mem_ended_put {c : Nat} : c ∈ (s.put i).ended ↔ c ∈ s.ended ∨ s.held i = some c := by
  simp [put]

theorem mem_ended_clear {c : Nat} : c ∈ (s.clear i).ended ↔ c ∈ s.ended ∨ s.held i = some c := by
  simp [clear]

theorem mem_ended_move {c : Nat} : c ∈ (s.move i j).ended ↔ c ∈ s.ended ∨ s.held j = some c := by
  simp [move]

end Updates

namespace Sole

theorem init : Sole ({} : Slots ι) := ⟨by simp, by simp, by simp⟩

theorem safe (h : s.Sole) (hs : s.Serves calls) : s.Safe calls :=
  fun call hcall => (h.live call.1 call.2 (hs call hcall)).2

theorem discard (h : s.Sole) : s.discard.Sole := by
  refine ⟨h.unique, fun i c hi => ?_, fun c hc => ?_⟩
  · obtain ⟨hlt, hlive⟩ := h.live i c hi
    refine ⟨Nat.lt_succ_of_lt hlt, fun hmem => ?_⟩
    rcases Finset.mem_insert.mp hmem with rfl | hmem
    · exact Nat.lt_irrefl _ hlt
    · exact hlive hmem
  · rcases Finset.mem_insert.mp hc with rfl | hc
    · exact Nat.lt_succ_self _
    · exact Nat.lt_succ_of_lt (h.past c hc)

variable [DecidableEq ι]

theorem put (h : s.Sole) (i : ι) : (s.put i).Sole := by
  have hnew (k : ι) : s.held k ≠ some s.next := fun hk => Nat.lt_irrefl _ (h.live k _ hk).1
  obtain ⟨h1, h2, h3⟩ := h
  have hnext : (s.put i).next = s.next + 1 := rfl
  refine ⟨?_, ?_, ?_⟩
  all_goals grind [held_put, mem_ended_put]

theorem clear (h : s.Sole) (i : ι) : (s.clear i).Sole := by
  obtain ⟨h1, h2, h3⟩ := h
  have hnext : (s.clear i).next = s.next := rfl
  refine ⟨?_, ?_, ?_⟩
  all_goals grind [held_clear, mem_ended_clear]

theorem move (h : s.Sole) (i j : ι) : (s.move i j).Sole := by
  obtain ⟨h1, h2, h3⟩ := h
  have hnext : (s.move i j).next = s.next := rfl
  refine ⟨?_, ?_, ?_⟩
  all_goals grind [held_move, mem_ended_move]

end Sole

variable [DecidableEq ι]

theorem Serves.put (h : s.Serves calls) (hi : ∀ call ∈ calls, call.1 ≠ i) : (s.put i).Serves calls :=
  fun call hcall => (Function.update_of_ne (hi call hcall) _ _).trans (h call hcall)

theorem Serves.clear (h : s.Serves calls) (hi : ∀ call ∈ calls, call.1 ≠ i) : (s.clear i).Serves calls :=
  fun call hcall => (Function.update_of_ne (hi call hcall) _ _).trans (h call hcall)

/-- To clear a slot ends a value that is being called exactly if the call is of that slot. -/
theorem Sole.safe_clear_iff (h : s.Sole) (hs : s.Serves calls) :
    (s.clear i).Safe calls ↔ ∀ call ∈ calls, call.1 ≠ i := by
  constructor
  · rintro hsafe call hcall rfl
    exact hsafe call hcall (mem_ended_clear.mpr (.inr (hs call hcall)))
  · exact fun hi => (h.clear i).safe (hs.clear hi)

/-- And so does to assign it. -/
theorem Sole.safe_put_iff (h : s.Sole) (hs : s.Serves calls) :
    (s.put i).Safe calls ↔ ∀ call ∈ calls, call.1 ≠ i := by
  constructor
  · rintro hsafe call hcall rfl
    exact hsafe call hcall (mem_ended_put.mpr (.inr (hs call hcall)))
  · exact fun hi => (h.put i).safe (hs.put hi)

end Slots

end Mtl.Foundation
