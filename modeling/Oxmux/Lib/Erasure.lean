import Oxmux.Lib.Runs

/-! What two runs have in common that agree but for what must not be observed.
If the outputs are those of a machine that has only a view of the states and the
inputs, then no run shows what the view leaves out. -/

namespace Oxmux.Lib.Runs

variable {σ α β τ γ : Type*}

/-- The outputs of a run, one for each input. -/
def outputs (step : σ → α → σ) (out : σ → α → β) : σ → List α → List β
  | _, [] => []
  | s, a :: as => out s a :: outputs step out (step s a) as

/-- A machine on the views takes the same steps and has the same outputs. -/
structure Erases (step : σ → α → σ) (out : σ → α → β) (step' : τ → γ → τ) (out' : τ → γ → β)
    (view : σ → τ) (viewInput : α → γ) : Prop where
  step : ∀ s a, view (step s a) = step' (view s) (viewInput a)
  out : ∀ s a, out s a = out' (view s) (viewInput a)

variable {step : σ → α → σ} {out : σ → α → β} {step' : τ → γ → τ} {out' : τ → γ → β}
  {view : σ → τ} {viewInput : α → γ}

theorem Erases.outputs_view (h : Erases step out step' out' view viewInput) (s : σ) (as : List α) :
    outputs step out s as = outputs step' out' (view s) (as.map viewInput) := by
  induction as generalizing s with
  | nil => rfl
  | cons a as ih => rw [List.map_cons, outputs, outputs, h.out, ih, h.step]

/-- **Two runs with the same views have the same outputs.** -/
theorem Erases.outputs_eq (h : Erases step out step' out' view viewInput) {s s' : σ}
    {as as' : List α} (hs : view s = view s') (has : as.map viewInput = as'.map viewInput) :
    outputs step out s as = outputs step out s' as' := by
  rw [h.outputs_view, h.outputs_view, hs, has]

end Oxmux.Lib.Runs
