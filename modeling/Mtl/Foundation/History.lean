import Mathlib.Data.List.Basic

/-! Histories with the newest entry first, and what each entry says of its own past. -/
namespace Mtl.Foundation
variable {ε : Type*} {P : ε → List ε → Prop}

/-- Every entry of the history stands over a past that satisfies `P`. -/
def EveryPast (P : ε → List ε → Prop) (log : List ε) : Prop :=
  ∀ later e earlier, log = later ++ e :: earlier → P e earlier

theorem everyPast_nil : EveryPast P [] := by
  intro later e earlier h
  simp at h

theorem everyPast_cons {e : ε} {log : List ε} :
    EveryPast P (e :: log) ↔ P e log ∧ EveryPast P log := by
  constructor
  · intro h
    exact ⟨h [] e log rfl, fun later e' earlier he => h (e :: later) e' earlier (by rw [he]; rfl)⟩
  · rintro ⟨hnew, hold⟩ later e' earlier he
    cases later with
    | nil =>
      cases he
      exact hnew
    | cons e'' later =>
      cases he
      exact hold later e' earlier rfl

theorem EveryPast.append {log : List ε} (h : EveryPast P log) (new : List ε)
    (hnew : ∀ e ∈ new, ∀ past, P e past) : EveryPast P (new ++ log) := by
  induction new with
  | nil => exact h
  | cons e new ih =>
    rw [List.forall_mem_cons] at hnew
    rw [List.cons_append, everyPast_cons]
    exact ⟨hnew.1 _, ih hnew.2⟩

/-- An entry that is never above `mark` does not occur after it. -/
theorem EveryPast.not_mem {a mark : ε} {later earlier : List ε}
    (h : EveryPast P (later ++ mark :: earlier))
    (ha : ∀ past, P a past → mark ∉ past) : a ∉ later := by
  intro hmem
  obtain ⟨front, back, rfl⟩ := List.append_of_mem hmem
  refine ha _ (h front a (back ++ mark :: earlier) ?_) (by simp)
  rw [List.append_assoc, List.cons_append]

end Mtl.Foundation
