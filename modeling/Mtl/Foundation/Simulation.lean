import Mtl.Foundation.Machine

/-! Forward simulation: a machine whose every step another one answers with a run. -/
namespace Mtl.Foundation
variable {σ τ α β ε δ : Type*} {m : Machine σ α ε} {n : Machine τ β δ} {R : σ → τ → Prop}
  {s s' : σ} {t : τ} {as : List α}

/-- From related states every step of `m` leads to a state that a run of `n` can be related to. -/
def Machine.Simulates (m : Machine σ α ε) (n : Machine τ β δ) (R : σ → τ → Prop) : Prop :=
  ∀ s t a s', R s t → m.Enabled s a → m.step s a = .ok s' → ∃ bs t', n.Run t bs (.ok t') ∧ R s' t'

theorem of_bind_ok {ε α β : Type} {x : Except ε α} {f : α → Except ε β} {b : β} (h : x >>= f = .ok b) :
    ∃ a, x = .ok a ∧ f a = .ok b := by
  cases x with
  | error e => cases h
  | ok a => exact ⟨a, rfl, h⟩

namespace Machine.Simulates

theorem run (h : m.Simulates n R) (hrun : m.Run s as (.ok s')) (hR : R s t) :
    ∃ bs t', n.Run t bs (.ok t') ∧ R s' t' := by
  induction as generalizing s t with
  | nil =>
    cases hrun
    exact ⟨[], t, .nil t, hR⟩
  | cons a as ih =>
    cases hrun with
    | step he hs hrest =>
      obtain ⟨bs, u, hbs, hu⟩ := h _ _ _ _ hR he hs
      obtain ⟨bs', t', hbs', ht'⟩ := ih hrest hu
      exact ⟨bs ++ bs', t', hbs.append hbs', ht'⟩

/-- What holds along the runs of `n` holds of what the states of `m` are related to. -/
theorem invariant {I : τ → Prop} (h : m.Simulates n R)
    (hstep : ∀ t b, I t → n.Enabled t b → ∃ t', n.step t b = .ok t' ∧ I t')
    (hrun : m.Run s as (.ok s')) (hR : R s t) (hI : I t) : ∃ t', R s' t' ∧ I t' := by
  obtain ⟨bs, t', hbs, hR'⟩ := h.run hrun hR
  obtain ⟨u, hu, hI'⟩ := hbs.safe hstep hI
  cases hu
  exact ⟨t', hR', hI'⟩

end Machine.Simulates

end Mtl.Foundation
