import Mathlib.Data.List.Infix
import Oxmux.Lib.Utf8

/-! Texts by the bytes of their UTF-8, as slices take them. An index counts the
bytes in front of it, and a slice exists only where the index lies between two
characters within the text. -/

namespace Oxmux.Lib.Slices

/-- `str::len`. -/
def len (s : Text) : Nat := (Utf8.encode s).length

/-- `str::split_at_checked`. -/
def splitAt : Nat → Text → Option (Text × Text)
  | 0, s => some ([], s)
  | _ + 1, [] => none
  | i + 1, c :: s =>
    if c.utf8Size ≤ i + 1 then
      (splitAt (i + 1 - c.utf8Size) s).map fun p => (c :: p.1, p.2)
    else none

/-- `&s[..i]`. -/
def sliceTo (i : Nat) (s : Text) : Option Text := (splitAt i s).map Prod.fst

/-- `&s[i..]`. -/
def sliceFrom (i : Nat) (s : Text) : Option Text := (splitAt i s).map Prod.snd

/-- `str::find`. -/
def find (p : Char → Bool) : Text → Option Nat
  | [] => none
  | c :: s => if p c then some 0 else (find p s).map (· + c.utf8Size)

/-- `str::char_indices`, of a text that begins at index `i`. -/
def charIndices (i : Nat) : Text → List (Nat × Char)
  | [] => []
  | c :: s => (i, c) :: charIndices (i + c.utf8Size) s

/-! ## Where slices exist -/

@[simp] theorem len_nil : len [] = 0 := rfl

@[simp] theorem len_cons (c : Char) (s : Text) : len (c :: s) = c.utf8Size + len s := by
  simp [len, Utf8.encode]

@[simp] theorem len_eq_zero {s : Text} : len s = 0 ↔ s = [] := by
  cases s with
  | nil => simp
  | cons c s =>
    have hpos := c.utf8Size_pos
    simp only [len_cons, reduceCtorEq, iff_false]
    omega

/-- **A slice exists** exactly at the end of a beginning of the text. -/
theorem splitAt_eq_some_iff {i : Nat} {s a b : Text} :
    splitAt i s = some (a, b) ↔ s = a ++ b ∧ len a = i := by
  induction s generalizing i a with
  | nil =>
    cases i with
    | zero =>
      simp only [splitAt, Option.some.injEq, Prod.mk.injEq, List.nil_eq_append_iff]
      constructor
      · rintro ⟨rfl, rfl⟩
        exact ⟨⟨rfl, rfl⟩, rfl⟩
      · rintro ⟨⟨rfl, rfl⟩, -⟩
        exact ⟨rfl, rfl⟩
    | succ i =>
      refine iff_of_false (by simp [splitAt]) ?_
      rintro ⟨h, hlen⟩
      rw [(List.nil_eq_append_iff.mp h).1] at hlen
      cases hlen
  | cons c s ih =>
    have hpos : 0 < c.utf8Size := c.utf8Size_pos
    cases i with
    | zero =>
      cases a with
      | nil => simp [splitAt, eq_comm]
      | cons d a =>
        have hd : 0 < d.utf8Size := d.utf8Size_pos
        refine iff_of_false (by simp [splitAt]) ?_
        rintro ⟨-, hlen⟩
        rw [len_cons] at hlen
        omega
    | succ i =>
      rw [splitAt]
      split_ifs with hc
      · simp only [Option.map_eq_some_iff, Prod.mk.injEq, Prod.exists]
        constructor
        · rintro ⟨a', b', h, rfl, rfl⟩
          obtain ⟨rfl, hlen⟩ := ih.mp h
          exact ⟨rfl, by rw [len_cons]; omega⟩
        · rintro ⟨h, hlen⟩
          cases a with
          | nil => cases hlen
          | cons d a =>
            obtain ⟨rfl, rfl⟩ := List.cons.inj h
            rw [len_cons] at hlen
            exact ⟨a, b, ih.mpr ⟨rfl, by omega⟩, rfl, rfl⟩
      · refine iff_of_false (by simp) ?_
        rintro ⟨h, hlen⟩
        cases a with
        | nil => cases hlen
        | cons d a =>
          obtain ⟨rfl, rfl⟩ := List.cons.inj h
          rw [len_cons] at hlen
          omega

example : splitAt 1 ['é', ','] = none := by decide

theorem sliceTo_append (a b : Text) : sliceTo (len a) (a ++ b) = some a := by
  rw [sliceTo, splitAt_eq_some_iff.mpr ⟨rfl, rfl⟩]
  rfl

theorem sliceFrom_append (a b : Text) : sliceFrom (len a) (a ++ b) = some b := by
  rw [sliceFrom, splitAt_eq_some_iff.mpr ⟨rfl, rfl⟩]
  rfl

theorem sliceFrom_one {c : Char} (h : c.utf8Size = 1) (s : Text) :
    sliceFrom 1 (c :: s) = some s := by
  have hlen : len [c] = 1 := by rw [len_cons, h, len_nil]
  exact hlen ▸ sliceFrom_append [c] s

/-! ## Where a character is found -/

/-- The index that `find` gives, or the end, is behind the characters that do
not fit. -/
theorem find_getD (p : Char → Bool) (s : Text) :
    (find p s).getD (len s) = len (s.takeWhile fun c => !p c) := by
  induction s with
  | nil => rfl
  | cons c s ih =>
    by_cases hc : p c
    · simp [find, hc]
    · rw [len_cons, List.takeWhile_cons_of_pos (by simp [hc]), len_cons, ← ih, find, if_neg hc]
      cases find p s <;> simp [Nat.add_comm]

end Oxmux.Lib.Slices
