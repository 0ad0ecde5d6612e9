/-! Computations that may fail and keep what they did to the state until then. -/

namespace Oxmux.Lib

/-- An error ends the computation; the state stays as it was left. -/
abbrev Steps (ε σ α : Type) := ExceptT ε (StateM σ) α

namespace Steps

variable {ε σ α β : Type} {s : σ}

/-- A check that ends the computation where it fails. -/
def ensure (c : Prop) [Decidable c] (e : ε) : Steps ε σ Unit := if c then pure () else throw e

/-- What comes of the computation, and the state behind it. -/
def exec (m : Steps ε σ α) (s : σ) : Except ε α × σ := StateT.run (ExceptT.run m) s

/-- The rest of a computation, from what its first part ended in. -/
def andThen (r : Except ε α × σ) (k : α → Steps ε σ β) : Except ε β × σ :=
  match r.1 with
  | .ok a => exec (k a) r.2
  | .error e => (.error e, r.2)

@[simp] theorem andThen_ok (a : α) (s : σ) (k : α → Steps ε σ β) :
    andThen (.ok a, s) k = exec (k a) s := rfl

@[simp] theorem andThen_error (e : ε) (s : σ) (k : α → Steps ε σ β) :
    andThen (.error e, s) k = (.error e, s) := rfl

@[simp] theorem exec_bind (m : Steps ε σ α) (k : α → Steps ε σ β) (s : σ) :
    exec (m >>= k) s = andThen (exec m s) k := by
  change (ExceptT.bindCont k (exec m s).1).run (exec m s).2 = _
  cases h : exec m s with
  | mk r s' => cases r <;> rfl

@[simp] theorem exec_pure (a : α) (s : σ) : exec (pure a : Steps ε σ α) s = (.ok a, s) := rfl

@[simp] theorem exec_get (s : σ) : exec (get : Steps ε σ σ) s = (.ok s, s) := rfl

@[simp] theorem exec_modify (f : σ → σ) (s : σ) :
    exec (modify f : Steps ε σ Unit) s = (.ok (), f s) := rfl

@[simp] theorem exec_liftExcept (r : Except ε α) (s : σ) :
    exec (liftExcept r : Steps ε σ α) s = (r, s) := by
  cases r <;> rfl

@[simp] theorem exec_ensure (c : Prop) [Decidable c] (e : ε) (s : σ) :
    exec (ensure c e) s = (if c then .ok () else .error e, s) := by
  unfold ensure
  split <;> rfl

@[simp] theorem exec_throw (e : ε) (s : σ) : exec (throw e : Steps ε σ α) s = (.error e, s) := rfl

/-- An error is caught in the state it left. -/
theorem exec_tryCatch (m : Steps ε σ α) (handler : ε → Steps ε σ α) (s : σ) :
    exec (tryCatch m handler) s = match exec m s with
      | (.ok a, s') => (.ok a, s')
      | (.error e, s') => exec (handler e) s' := by
  change StateT.run (match (exec m s).1 with
    | .ok a => (pure (.ok a) : StateM σ (Except ε α))
    | .error e => (handler e).run) (exec m s).2 = _
  cases h : exec m s with
  | mk r s' => cases r <;> rfl

/-! ## Computations that change nothing -/

def Keeps (m : Steps ε σ α) : Prop := ∀ s, (exec m s).2 = s

theorem Keeps.bind {m : Steps ε σ α} {k : α → Steps ε σ β} (hm : Keeps m)
    (hk : ∀ a, Keeps (k a)) : Keeps (m >>= k) := by
  intro s
  have hs := hm s
  rw [exec_bind]
  cases h : exec m s with
  | mk r s' =>
    rw [h] at hs
    cases hs
    cases r with
    | ok a => exact hk a _
    | error e => rfl

theorem keeps_pure (a : α) : Keeps (pure a : Steps ε σ α) := fun _ => rfl

theorem keeps_liftExcept (r : Except ε α) : Keeps (liftExcept r : Steps ε σ α) := fun s => by simp

theorem keeps_ensure (c : Prop) [Decidable c] (e : ε) : Keeps (ensure c e : Steps ε σ Unit) :=
  fun s => by simp

end Steps

end Oxmux.Lib
