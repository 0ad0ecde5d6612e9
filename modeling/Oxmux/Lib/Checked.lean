/-! Computations that return a value or an error, panic, or run out of fuel. -/

namespace Oxmux.Lib

/-- What ends a computation that does not return. -/
inductive Stop where
  | panic
  | outOfFuel
  deriving DecidableEq

abbrev Checked (ε α : Type) := ExceptT ε (Except Stop) α

namespace Checked

variable {ε α β : Type}

def returns (r : Except ε α) : Checked ε α := ExceptT.mk (.ok r)

def outOfFuel : Checked ε α := ExceptT.mk (.error .outOfFuel)

/-- An access that panics where there is nothing. -/
def orPanic : Option α → Checked ε α
  | some a => returns (.ok a)
  | none => ExceptT.mk (.error .panic)

@[simp] theorem returns_inj {r r' : Except ε α} : returns r = returns r' ↔ r = r' :=
  ⟨Except.ok.inj, congrArg returns⟩

@[simp] theorem pure_eq (a : α) : (pure a : Checked ε α) = returns (.ok a) := rfl

@[simp] theorem throw_eq (e : ε) : (throw e : Checked ε α) = returns (.error e) := rfl

@[simp] theorem returns_ok_bind (a : α) (k : α → Checked ε β) :
    returns (.ok a) >>= k = k a := rfl

@[simp] theorem returns_error_bind (e : ε) (k : α → Checked ε β) :
    returns (.error e) >>= k = returns (.error e) := rfl

/-- Computations that return one after the other. -/
theorem returns_bind (m : Except ε α) (k : α → Except ε β) :
    returns (m >>= k) = returns m >>= fun a => returns (k a) := by
  cases m <;> rfl

theorem returns_map (f : α → β) (m : Except ε α) :
    returns (m.map f) = returns m >>= fun a => returns (.ok (f a)) := by
  cases m <;> rfl

@[simp] theorem orPanic_some (a : α) : (orPanic (some a) : Checked ε α) = returns (.ok a) := rfl

@[simp] theorem outOfFuel_ne_returns (r : Except ε α) : (outOfFuel : Checked ε α) ≠ returns r :=
  nofun

@[simp] theorem orPanic_eq_returns_ok_iff {o : Option α} {a : α} :
    (orPanic o : Checked ε α) = returns (.ok a) ↔ o = some a := by
  cases o with
  | none => exact iff_of_false nofun nofun
  | some b => simp

/-- A sequence returns a value exactly when both of its parts do. -/
theorem bind_eq_returns_ok_iff {m : Checked ε α} {k : α → Checked ε β} {b : β} :
    m >>= k = returns (.ok b) ↔ ∃ a, m = returns (.ok a) ∧ k a = returns (.ok b) := by
  constructor
  · intro h
    cases m with
    | error e => cases h
    | ok r =>
      cases r with
      | error e => cases h
      | ok a => exact ⟨a, rfl, h⟩
  · rintro ⟨a, rfl, h⟩
    exact h

end Checked

end Oxmux.Lib
