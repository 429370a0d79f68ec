import Mathlib.Data.Finmap

/-! Lookups in updated finite maps, as one equation for each update. -/
namespace Mtl.Foundation
variable {α : Type*} {β : Type*} [DecidableEq α]

@[grind =] theorem lookup_insert_eq (m : Finmap (fun _ : α => β)) (a a' : α) (b : β) :
    (m.insert a b).lookup a' = if a' = a then some b else m.lookup a' := by
  split_ifs with h
  · rw [h, Finmap.lookup_insert]
  · exact Finmap.lookup_insert_of_ne m h

@[grind =] theorem lookup_erase_eq (m : Finmap (fun _ : α => β)) (a a' : α) :
    (m.erase a).lookup a' = if a' = a then none else m.lookup a' := by
  split_ifs with h
  · rw [h, Finmap.lookup_erase]
  · exact Finmap.lookup_erase_ne h

theorem lookup_of_erase {m : Finmap (fun _ : α => β)} {a a' : α} {b : β} (h : (m.erase a).lookup a' = some b) :
    m.lookup a' = some b := by
  rw [lookup_erase_eq] at h
  split_ifs at h
  exact h

theorem erase_insert (m : Finmap (fun _ : α => β)) (a : α) (b : β) (h : m.lookup a = none) :
    (m.insert a b).erase a = m := by
  apply Finmap.ext_lookup
  intro a'
  rw [lookup_erase_eq, lookup_insert_eq]
  split_ifs with ha
  · rw [ha, h]
  · rfl

theorem erase_insert_self (m : Finmap (fun _ : α => β)) (a : α) (b : β) : (m.insert a b).erase a = m.erase a := by
  apply Finmap.ext_lookup
  intro a'
  rw [lookup_erase_eq, lookup_erase_eq, lookup_insert_eq]
  split_ifs <;> rfl

theorem insert_erase (m : Finmap (fun _ : α => β)) (a : α) (b : β) : (m.erase a).insert a b = m.insert a b := by
  apply Finmap.ext_lookup
  intro a'
  rw [lookup_insert_eq, lookup_insert_eq, lookup_erase_eq]
  split_ifs <;> rfl

theorem insert_self (m : Finmap (fun _ : α => β)) {a : α} {b : β} (h : m.lookup a = some b) : m.insert a b = m := by
  apply Finmap.ext_lookup
  intro a'
  rw [lookup_insert_eq]
  split_ifs with ha
  · rw [ha, h]
  · rfl

theorem eq_empty_of_lookup (m : Finmap (fun _ : α => β)) (h : ∀ a, m.lookup a = none) : m = ∅ :=
  Finmap.ext_lookup fun a => by rw [h a, Finmap.lookup_empty]

end Mtl.Foundation
