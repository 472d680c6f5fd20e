/-
  Any number of steps of a system, with what each of them did.

  * `Steps.induct`: what every step preserves holds after all of them.
-/
namespace Reimage

variable {σ μ : Type}

/-- Any number of steps, where `step s m t` says that doing `m` leads from `s` to `t`. -/
inductive Steps (step : σ → μ → σ → Prop) : σ → List μ → σ → Prop
  | nil (s : σ) : Steps step s [] s
  | cons {s s' t : σ} {m : μ} {tr : List μ} : step s m s' → Steps step s' tr t →
    Steps step s (m :: tr) t

namespace Steps

variable {step : σ → μ → σ → Prop} {s s' t : σ} {m : μ} {u v tr : List μ}

theorem append (h : Steps step s u s') (h' : Steps step s' v t) : Steps step s (u ++ v) t := by
  induction h with
  | nil => exact h'
  | cons h₁ _ ih => exact .cons h₁ (ih h')

theorem snoc (h : Steps step s tr s') (h' : step s' m t) : Steps step s (tr ++ [m]) t :=
  h.append (.cons h' (.nil t))

/-- The steps up to a point, and those from there on. -/
theorem split (h : Steps step s (u ++ v) t) : ∃ s', Steps step s u s' ∧ Steps step s' v t := by
  induction u generalizing s with
  | nil => exact ⟨s, .nil s, h⟩
  | cons m u ih =>
    cases h with
    | cons h₁ h₂ =>
      obtain ⟨s', h₃, h₄⟩ := ih h₂
      exact ⟨s', .cons h₁ h₃, h₄⟩

/-- The steps before and after one of them. -/
theorem split_at (h : Steps step s (u ++ m :: v) t) :
    ∃ s₁ s₂, Steps step s u s₁ ∧ step s₁ m s₂ ∧ Steps step s₂ v t := by
  obtain ⟨s₁, h₁, h₂⟩ := h.split
  cases h₂ with
  | cons h₂ h₃ => exact ⟨s₁, _, h₁, h₂, h₃⟩

/-- What every step preserves stays. -/
theorem stable {P : σ → Prop} (h : Steps step s tr t) (hs : P s)
    (hP : ∀ {s₁ m s₂}, step s₁ m s₂ → P s₁ → P s₂) : P t := by
  induction h with
  | nil => exact hs
  | cons h₁ _ ih => exact ih (hP h₁ hs)

/-- What every step preserves, with what was done so far, holds after all of them. -/
theorem induct {I : List μ → σ → Prop} (h : Steps step s tr t) (h₀ : I [] s)
    (hI : ∀ {u s₁ m s₂}, Steps step s u s₁ → I u s₁ → step s₁ m s₂ → I (u ++ [m]) s₂) :
    I tr t := by
  suffices ∀ {s' : σ} {v : List μ}, Steps step s' v t → ∀ u, Steps step s u s' → I u s' →
      I (u ++ v) t from this h [] (.nil s) h₀
  intro s' v hv
  clear h
  induction hv with
  | nil => intro u _ hu; rwa [List.append_nil]
  | @cons _ _ _ m v h₁ _ ih =>
    intro u hu hIu
    rw [List.append_cons]
    exact ih _ (hu.snoc h₁) (hI hu hIu h₁)

end Steps

end Reimage
