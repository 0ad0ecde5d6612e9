import Oxmux.Lib.Text

/-! Cutting a text stream into lines: the complete lines, each without its
newline, and the unfinished tail that a reader keeps in its buffer. -/

namespace Oxmux.Lib.Lines

/-- The complete lines of a text and the tail behind its last newline. -/
def splitLines : Text → List Text × Text
  | [] => ([], [])
  | c :: s =>
    if c = '\n' then ([] :: (splitLines s).1, (splitLines s).2)
    else match (splitLines s).1 with
      | [] => ([], c :: (splitLines s).2)
      | l :: ls => ((c :: l) :: ls, (splitLines s).2)

/-- Lines written one under the other, each ended by its newline. -/
def joinLines (ls : List Text) : Text := ls.flatMap (· ++ ['\n'])

@[simp] theorem joinLines_nil : joinLines [] = [] := rfl

@[simp] theorem joinLines_cons (l : Text) (ls : List Text) :
    joinLines (l :: ls) = l ++ '\n' :: joinLines ls := by
  simp [joinLines]

theorem splitLines_tail {s : Text} (h : '\n' ∉ s) : splitLines s = ([], s) := by
  induction s with
  | nil => rfl
  | cons c s ih =>
    simp only [List.mem_cons, not_or] at h
    simp [splitLines, Ne.symm h.1, ih h.2]

/-- The first line is what stands before the first newline. -/
theorem splitLines_line {l : Text} (h : '\n' ∉ l) (s : Text) :
    splitLines (l ++ '\n' :: s) = (l :: (splitLines s).1, (splitLines s).2) := by
  induction l with
  | nil => simp [splitLines]
  | cons c l ih =>
    simp only [List.mem_cons, not_or] at h
    simp [splitLines, Ne.symm h.1, ih h.2]

/-- **Splitting undoes joining.** -/
theorem splitLines_joinLines {ls : List Text} (h : ∀ l ∈ ls, '\n' ∉ l) (s : Text) :
    splitLines (joinLines ls ++ s) = (ls ++ (splitLines s).1, (splitLines s).2) := by
  induction ls with
  | nil => simp
  | cons l ls ih =>
    have hl := splitLines_line (h l (by simp)) (joinLines ls ++ s)
    simp [hl, ih fun x hx => h x (by simp [hx])]

theorem lines_joinLines {ls : List Text} (h : ∀ l ∈ ls, '\n' ∉ l) :
    (splitLines (joinLines ls)).1 = ls := by
  have hs := splitLines_joinLines h []
  rw [List.append_nil] at hs
  rw [hs]
  exact List.append_nil ls

theorem joinLines_append (as bs : List Text) :
    joinLines (as ++ bs) = joinLines as ++ joinLines bs := List.flatMap_append

/-- The lines and the tail put together are the text. -/
theorem joinLines_splitLines (s : Text) :
    joinLines (splitLines s).1 ++ (splitLines s).2 = s := by
  induction s with
  | nil => rfl
  | cons c s ih =>
    by_cases hc : c = '\n'
    · simp [splitLines, hc, ih]
    · simp only [splitLines, hc, if_false]
      cases hl : (splitLines s).1 with
      | nil => simpa [hl] using ih
      | cons l ls => simpa [hl] using ih

theorem newline_not_mem (s : Text) :
    (∀ l ∈ (splitLines s).1, '\n' ∉ l) ∧ '\n' ∉ (splitLines s).2 := by
  induction s with
  | nil => simp [splitLines]
  | cons c s ih =>
    by_cases hc : c = '\n'
    · simpa [splitLines, hc] using ih
    · simp only [splitLines, hc, if_false]
      cases hl : (splitLines s).1 with
      | nil => simpa [hl, Ne.symm hc] using ih
      | cons l ls => simpa [hl, Ne.symm hc] using ih

/-- There is a line for each newline. -/
theorem length_lines (s : Text) : (splitLines s).1.length = s.count '\n' := by
  induction s with
  | nil => rfl
  | cons c s ih =>
    by_cases hc : c = '\n'
    · simp [splitLines, hc, ih]
    · simp only [splitLines, hc, if_false, List.count_cons_of_ne hc]
      cases hl : (splitLines s).1 with
      | nil => simpa [hl] using ih
      | cons l ls => simpa [hl] using ih

/-- **Reading on.** The lines of a longer text are the lines of its beginning,
then the lines of what the reader has in its buffer with the rest appended. -/
theorem splitLines_append (s t : Text) :
    splitLines (s ++ t) = ((splitLines s).1 ++ (splitLines ((splitLines s).2 ++ t)).1,
      (splitLines ((splitLines s).2 ++ t)).2) := by
  conv => lhs; rw [← joinLines_splitLines s, List.append_assoc]
  exact splitLines_joinLines (newline_not_mem s).1 _

/-- The lines depend on nothing behind the last newline. -/
theorem splitLines_newline_tail (s : Text) {t : Text} (h : '\n' ∉ t) :
    splitLines (s ++ '\n' :: t) = ((splitLines (s ++ ['\n'])).1, t) := by
  have hs : splitLines (s ++ '\n' :: t) = splitLines ((s ++ ['\n']) ++ t) := by simp
  have htail : (splitLines (s ++ ['\n'])).2 = [] := by
    rw [splitLines_append, splitLines_line (newline_not_mem s).2]
    rfl
  rw [hs, splitLines_append, htail, List.nil_append, splitLines_tail h]
  simp

/-- Texts that end in a newline have the same lines only if they are equal. -/
theorem eq_of_lines_eq {s t : Text}
    (h : (splitLines (s ++ ['\n'])).1 = (splitLines (t ++ ['\n'])).1) : s = t := by
  have hj (u : Text) : joinLines (splitLines (u ++ ['\n'])).1 = u ++ ['\n'] := by
    have hu := joinLines_splitLines (u ++ ['\n'])
    rw [splitLines_newline_tail u (t := []) (by simp)] at hu
    simpa using hu
  have hst := hj s
  rw [h, hj t] at hst
  exact (List.append_cancel_right hst).symm

/-- A text without newline, or cut at its last one. -/
theorem last_newline (s : Text) : '\n' ∉ s ∨ ∃ a b, s = a ++ '\n' :: b ∧ '\n' ∉ b := by
  induction s with
  | nil => exact Or.inl (by simp)
  | cons c s ih =>
    rcases ih with h | ⟨a, b, rfl, hb⟩
    · by_cases hc : c = '\n'
      · exact Or.inr ⟨[], s, by rw [hc]; rfl, h⟩
      · exact Or.inl (by simp [Ne.symm hc, h])
    · exact Or.inr ⟨c :: a, b, rfl, hb⟩

end Oxmux.Lib.Lines
