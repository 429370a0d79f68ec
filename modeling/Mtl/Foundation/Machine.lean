import Mathlib.Data.List.Basic

/-! Machines whose enabled actions move the state or fault, and their finite runs. -/
namespace Mtl.Foundation
universe u v
variable {σ α ε : Type*}

@[simp] theorem ok_bind {ε : Type u} {α β : Type v} (a : α) (f : α → Except ε β) :
    (Except.ok a >>= f) = f a := rfl

@[simp] theorem pure_eq_ok {ε : Type u} {α : Type v} (a : α) : (pure a : Except ε α) = .ok a := rfl

@[simp] theorem error_bind {ε : Type u} {α β : Type v} (e : ε) (f : α → Except ε β) :
    (Except.error e >>= f) = .error e := rfl

@[simp] theorem map_ok {ε : Type u} {α β : Type v} (a : α) (f : α → β) :
    f <$> (Except.ok a : Except ε α) = .ok (f a) := rfl

/-- Enabledness is the environment's choice; the step is the program's answer to it. -/
structure Machine (σ α ε : Type*) where
  Enabled : σ → α → Prop
  step : σ → α → Except ε σ

/-- Finite runs. A fault ends the run, whatever actions are left. -/
inductive Machine.Run (m : Machine σ α ε) : σ → List α → Except ε σ → Prop where
  | nil (s : σ) : Run m s [] (.ok s)
  | step {s t : σ} {a : α} {as : List α} {r : Except ε σ} :
      m.Enabled s a → m.step s a = .ok t → Run m t as r → Run m s (a :: as) r
  | fault {s : σ} {a : α} {as : List α} {e : ε} :
      m.Enabled s a → m.step s a = .error e → Run m s (a :: as) (.error e)

/-- The machine under an environment that takes a step only where `C` allows it. -/
def Machine.restrict (m : Machine σ α ε) (C : σ → α → Prop) : Machine σ α ε where
  Enabled s a := m.Enabled s a ∧ C s a
  step := m.step

namespace Machine.Run
variable {m : Machine σ α ε} {s t : σ} {as bs : List α} {r : Except ε σ}

theorem single {a : α} (h : m.Enabled s a) (hs : m.step s a = .ok t) : m.Run s [a] (.ok t) :=
  .step h hs (.nil t)

theorem append (h : m.Run s as (.ok t)) (h' : m.Run t bs r) : m.Run s (as ++ bs) r := by
  induction as generalizing s with
  | nil => cases h; exact h'
  | cons a as ih =>
    cases h with
    | step he hs hr => exact .step he hs (ih hr)

/-- An invariant that every enabled action keeps, unless it faults in an expected way, holds at the
end of every run that does not. -/
theorem safe_or {I : σ → Prop} {E : ε → Prop}
    (hstep : ∀ s a, I s → m.Enabled s a → (∃ t, m.step s a = .ok t ∧ I t) ∨ ∃ e, m.step s a = .error e ∧ E e)
    (h : m.Run s as r) (hs : I s) : (∃ t, r = .ok t ∧ I t) ∨ ∃ e, r = .error e ∧ E e := by
  induction h with
  | nil s => exact .inl ⟨s, rfl, hs⟩
  | step he hstep' _ ih =>
    rcases hstep _ _ hs he with ⟨u, hu, hi⟩ | ⟨e, he, -⟩
    · rw [hstep'] at hu
      cases hu
      exact ih hi
    · rw [hstep'] at he
      cases he
  | fault he hf =>
    rcases hstep _ _ hs he with ⟨u, hu, -⟩ | ⟨e, he, hE⟩
    · rw [hf] at hu
      cases hu
    · rw [hf] at he
      cases he
      exact .inr ⟨_, rfl, hE⟩

/-- An invariant that every enabled action keeps without faulting holds at the end of every run. -/
theorem safe {I : σ → Prop}
    (hstep : ∀ s a, I s → m.Enabled s a → ∃ t, m.step s a = .ok t ∧ I t)
    (h : m.Run s as r) (hs : I s) : ∃ t, r = .ok t ∧ I t := by
  rcases h.safe_or (E := fun _ => False) (fun s a hi he => .inl (hstep s a hi he)) hs with hok | ⟨_, _, hE⟩
  · exact hok
  · exact hE.elim

/-- The same for an invariant that also speaks of the actions taken so far. -/
theorem safe_along {I : List α → σ → Prop}
    (hstep : ∀ past s a, I past s → m.Enabled s a → ∃ t, m.step s a = .ok t ∧ I (past ++ [a]) t)
    (h : m.Run s as r) (hs : I [] s) : ∃ t, r = .ok t ∧ I as t := by
  have hall : ∀ past, I past s → ∃ t, r = .ok t ∧ I (past ++ as) t := by
    clear hs
    induction h with
    | nil s => exact fun past hs => ⟨s, rfl, by rwa [List.append_nil]⟩
    | step he hstep' _ ih =>
      intro past hs
      obtain ⟨u, hu, hi⟩ := hstep past _ _ hs he
      rw [hstep'] at hu
      cases hu
      simpa only [List.append_assoc, List.singleton_append] using ih _ hi
    | fault he hf =>
      intro past hs
      obtain ⟨u, hu, -⟩ := hstep past _ _ hs he
      rw [hf] at hu
      cases hu
  exact hall [] hs

/-- A measure that every step of the given kind lowers bounds the length of such runs. -/
theorem length_le {I : σ → Prop} {P : α → Prop} {μ : σ → Nat}
    (hstep : ∀ s a t, I s → P a → m.Enabled s a → m.step s a = .ok t → I t ∧ μ t < μ s)
    (h : m.Run s as (.ok t)) (hs : I s) (ha : ∀ a ∈ as, P a) : as.length + μ t ≤ μ s := by
  induction as generalizing s with
  | nil => cases h; simp
  | cons a as ih =>
    rw [List.forall_mem_cons] at ha
    cases h with
    | step he hs' hr =>
      obtain ⟨hi, hlt⟩ := hstep _ _ _ hs ha.1 he hs'
      have := ih hr hi ha.2
      rw [List.length_cons]
      omega

theorem unrestrict {C : σ → α → Prop} (h : (m.restrict C).Run s as r) : m.Run s as r := by
  induction h with
  | nil s => exact .nil s
  | step he hs _ ih => exact .step he.1 hs ih
  | fault he hs => exact .fault he.1 hs

/-- A run meets the condition in every step, or ends where a step that breaks it leads and no step
leads out of. -/
theorem restrict_or {C : σ → α → Prop} {I D : σ → Prop}
    (hstep : ∀ s a t, I s → m.Enabled s a → m.step s a = .ok t → I t ∧ (D s ∨ ¬ C s a → D t))
    (h : m.Run s as (.ok t)) (hs : I s) : (m.restrict C).Run s as (.ok t) ∨ D t := by
  have hstay : ∀ as s, m.Run s as (.ok t) → I s → D s → D t := by
    intro as
    induction as with
    | nil => intro s h _ hd; cases h; exact hd
    | cons a as ih =>
      intro s h hi hd
      cases h with
      | step he hs hr =>
        obtain ⟨hi', hd'⟩ := hstep _ _ _ hi he hs
        exact ih _ hr hi' (hd' (.inl hd))
  induction as generalizing s with
  | nil => cases h; exact .inl (.nil _)
  | cons a as ih =>
    cases h with
    | step he hs' hr =>
      obtain ⟨hi, hd⟩ := hstep _ _ _ hs he hs'
      by_cases hc : C s a
      · exact (ih hr hi).imp_left (.step ⟨he, hc⟩ hs')
      · exact .inr (hstay _ _ hr hi (hd (.inr hc)))

/-- Under a measure that every step lowers, some run from each state gets stuck. -/
theorem exists_stuck {I : σ → Prop} {μ : σ → Nat}
    (hstep : ∀ s a, I s → m.Enabled s a → ∃ t, m.step s a = .ok t ∧ I t ∧ μ t < μ s) (hs : I s) :
    ∃ as t, m.Run s as (.ok t) ∧ I t ∧ ∀ a, ¬ m.Enabled t a := by
  induction hn : μ s using Nat.strongRecOn generalizing s with
  | _ n ih =>
    by_cases h : ∃ a, m.Enabled s a
    · obtain ⟨a, ha⟩ := h
      obtain ⟨t, ht, hi, hlt⟩ := hstep s a hs ha
      obtain ⟨as, u, hrun, hu, hstuck⟩ := ih (μ t) (hn ▸ hlt) hi rfl
      exact ⟨a :: as, u, .step ha ht hrun, hu, hstuck⟩
    · exact ⟨[], s, .nil s, hs, fun a ha => h ⟨a, ha⟩⟩

end Machine.Run

end Mtl.Foundation
