/-!
# Outcomes

A pass that can fail goes on with the value of a step that succeeded and ends with the error of one
that did not. With these rules a pass is computed by simplification as soon as the outcomes of its
steps are known, and a pass that succeeded is taken apart into steps that did.
-/

namespace RegionNet.Outcome

variable {ε α β : Type}

@[simp] theorem ok_bind (a : α) (next : α → Except ε β) : (Except.ok a >>= next) = next a := rfl

@[simp] theorem error_bind (e : ε) (next : α → Except ε β) :
    (Except.error e >>= next) = Except.error e := rfl

@[simp] theorem pure_eq_ok (a : α) : (pure a : Except ε α) = Except.ok a := rfl

@[simp] theorem throw_eq_error (e : ε) : (throw e : Except ε α) = Except.error e := rfl

theorem bind_eq_ok_iff (first : Except ε α) (next : α → Except ε β) (b : β) :
    (first >>= next) = Except.ok b ↔ ∃ a, first = Except.ok a ∧ next a = Except.ok b := by
  cases first with
  | error e => simp
  | ok a => simp

/-- Two passes go side by side if each of their steps does. -/
theorem foldlM_map {σ σ' : Type} (h : σ → σ') (k : α → β) (step : σ → α → Except ε σ)
    (step' : σ' → β → Except ε σ') (commutes : ∀ s a, step' (h s) (k a) = (step s a).map h)
    (l : List α) (s : σ) : (l.map k).foldlM step' (h s) = (l.foldlM step s).map h := by
  induction l generalizing s with
  | nil => rfl
  | cons a l ih =>
    rw [List.map_cons, List.foldlM_cons, List.foldlM_cons, commutes]
    cases step s a with
    | error e => rfl
    | ok s' => exact ih s'

end RegionNet.Outcome
