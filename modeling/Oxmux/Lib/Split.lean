import Oxmux.Lib.Lines
import Mathlib.Data.List.Basic

/-! Splitting a text at every occurrence of a separator, and into the lines
that `str::lines` gives. Nothing here is specific to one program. -/

namespace Oxmux.Lib
open Lines

/-- The pieces of a text at the leftmost occurrences of a separator that do
not overlap. The counter passes over the rest of an occurrence just found. -/
def splitFrom (sep : Text) : Nat → Text → List Text
  | _, [] => [[]]
  | skip + 1, _ :: s => splitFrom sep skip s
  | 0, c :: s =>
    if startsWith sep (c :: s) then [] :: splitFrom sep (sep.length - 1) s
    else (splitFrom sep 0 s).modifyHead (c :: ·)

/-- `str::split` at a separator that is not empty. -/
def splitStr (sep s : Text) : List Text := splitFrom sep 0 s

/-- `str::strip_suffix` of one character, where it is there. -/
def stripSuffix (d : Char) (s : Text) : Text := if s.getLast? = some d then s.dropLast else s

/-- `str::lines`: a carriage return before the newline goes with it, and an
unfinished last line is a line unless it is empty. -/
def strLines (s : Text) : List Text :=
  (splitLines s).1.map (stripSuffix '\r') ++
    (if (splitLines s).2 = [] then [] else [(splitLines s).2])

/-- A loop over a list whose counter passes over what was read already. -/
theorem skipping_eq_drop {α β : Type*} {f : Nat → List α → β} (hnil : ∀ k, f k [] = f 0 [])
    (hskip : ∀ k a as, f (k + 1) (a :: as) = f k as) (k : Nat) (as : List α) :
    f k as = f 0 (as.drop k) := by
  induction as generalizing k with
  | nil => simpa using hnil k
  | cons a as ih =>
    cases k with
    | zero => rfl
    | succ k => exact (hskip k a as).trans (ih k)

/-! ## Pieces -/

section Pieces
variable {sep : Text}

theorem splitFrom_skip (a s : Text) : splitFrom sep a.length (a ++ s) = splitStr sep s := by
  have hskip := skipping_eq_drop (f := splitFrom sep) (fun k => by cases k <;> rfl)
    (fun _ _ _ => rfl) a.length (a ++ s)
  rw [hskip, List.drop_left, splitStr]

theorem splitFrom_ne_nil (skip : Nat) (s : Text) : splitFrom sep skip s ≠ [] := by
  induction s generalizing skip with
  | nil => cases skip <;> simp [splitFrom]
  | cons c s ih =>
    cases skip with
    | succ k => exact ih k
    | zero =>
      unfold splitFrom
      split
      · simp
      · intro h
        exact ih 0 (by simpa [List.modifyHead_eq_nil_iff] using h)

/-- **The first piece** ends where the first occurrence begins. -/
theorem splitStr_append {a b : Text} (hsep : sep ≠ [])
    (h : ∀ x y, a = x ++ y → y ≠ [] → startsWith sep (y ++ (sep ++ b)) = false) :
    splitStr sep (a ++ (sep ++ b)) = a :: splitStr sep b := by
  induction a with
  | nil =>
    cases sep with
    | nil => exact absurd rfl hsep
    | cons d ds =>
      have hs : startsWith (d :: ds) (d :: (ds ++ b)) = true := startsWith_append (d :: ds) b
      simp only [List.nil_append, List.cons_append, splitStr, splitFrom, hs, if_true,
        List.length_cons, Nat.add_sub_cancel]
      exact congrArg _ (splitFrom_skip ds b)
  | cons c a ih =>
    have hc : startsWith sep (c :: (a ++ (sep ++ b))) = false := h [] (c :: a) rfl (by simp)
    have ha : splitStr sep (a ++ (sep ++ b)) = a :: splitStr sep b := by
      apply ih
      intro x y hxy hy
      exact h (c :: x) y (by rw [hxy]; rfl) hy
    rw [splitStr] at ha
    simp only [List.cons_append, splitStr, splitFrom, hc, Bool.false_eq_true, if_false, ha,
      List.modifyHead_cons]

/-- A text in which no occurrence begins is one piece. -/
theorem splitStr_single {a : Text}
    (h : ∀ x y, a = x ++ y → y ≠ [] → startsWith sep y = false) : splitStr sep a = [a] := by
  induction a with
  | nil => rfl
  | cons c a ih =>
    have hc : startsWith sep (c :: a) = false := h [] (c :: a) rfl (by simp)
    have ha : splitStr sep a = [a] := ih fun x y hxy hy => h (c :: x) y (by rw [hxy]; rfl) hy
    rw [splitStr] at ha
    simp only [splitStr, splitFrom, hc, Bool.false_eq_true, if_false, ha, List.modifyHead_cons]

theorem startsWith_cons_ne {c d : Char} (h : d ≠ c) (ds s : Text) :
    startsWith (d :: ds) (c :: s) = false := by
  simp [startsWith, stripPrefix, h]

/-- A text without the separator's first character holds no beginning of one. -/
theorem startsWith_of_not_mem {d : Char} (ds : Text) {a x y : Text} (h : d ∉ a)
    (hxy : a = x ++ y) (hy : y ≠ []) (b : Text) : startsWith (d :: ds) (y ++ b) = false := by
  cases y with
  | nil => exact absurd rfl hy
  | cons c y =>
    have hc : d ≠ c := by
      rintro rfl
      exact h (by simp [hxy])
    exact startsWith_cons_ne hc ds _

theorem splitStr_append_of_not_mem {d : Char} (ds : Text) {a : Text} (h : d ∉ a) (b : Text) :
    splitStr (d :: ds) (a ++ (d :: ds ++ b)) = a :: splitStr (d :: ds) b :=
  splitStr_append (by simp) fun _ _ hxy hy => startsWith_of_not_mem ds h hxy hy _

/-- **Splitting undoes joining** for fields without the separator's first
character. -/
theorem splitStr_intercalate {d : Char} {ds : Text} {fields : List Text} (hne : fields ≠ [])
    (h : ∀ f ∈ fields, d ∉ f) :
    splitStr (d :: ds) (List.intercalate (d :: ds) fields) = fields := by
  induction fields with
  | nil => exact absurd rfl hne
  | cons f fields ih =>
    have hf : d ∉ f := h f List.mem_cons_self
    cases fields with
    | nil =>
      simp only [List.intercalate_singleton]
      apply splitStr_single
      intro x y hxy hy
      simpa using startsWith_of_not_mem ds hf hxy hy []
    | cons g fields =>
      have hrest := ih (by simp) fun x hx => h x (List.mem_cons_of_mem _ hx)
      rw [List.intercalate_cons_cons, List.append_assoc, splitStr_append_of_not_mem ds hf, hrest]

/-- Where the separator stands, there are two pieces at least. -/
theorem two_le_length_splitStr (hsep : sep ≠ []) (a b : Text) :
    2 ≤ (splitStr sep (a ++ (sep ++ b))).length := by
  have hfound : ∀ c s, startsWith sep (c :: s) = true → 2 ≤ (splitStr sep (c :: s)).length := by
    intro c s hs
    have hpos := List.length_pos_iff.mpr (@splitFrom_ne_nil sep (sep.length - 1) s)
    simp only [splitStr, splitFrom, hs, if_true, List.length_cons]
    omega
  induction a with
  | nil =>
    cases sep with
    | nil => exact absurd rfl hsep
    | cons d ds => exact hfound d (ds ++ b) (startsWith_append (d :: ds) b)
  | cons c a ih =>
    cases hs : startsWith sep (c :: (a ++ (sep ++ b))) with
    | true => exact hfound c _ hs
    | false =>
      simp only [List.cons_append, splitStr, splitFrom, hs, Bool.false_eq_true, if_false,
        List.length_modifyHead]
      exact ih

/-! ### A separator of one character that is repeated -/

section Run
variable {d : Char} {k : Nat}

/-- No occurrence begins in a text that has none and does not end in the
character. -/
theorem splitStr_run {a : Text} (hk : 0 < k) (ha : ¬ List.replicate k d <:+: a)
    (hl : a.getLast? ≠ some d) (b : Text) :
    splitStr (List.replicate k d) (a ++ (List.replicate k d ++ b)) =
      a :: splitStr (List.replicate k d) b := by
  refine splitStr_append (by simp; omega) fun x y hxy hy => ?_
  cases hs : startsWith (List.replicate k d) (y ++ (List.replicate k d ++ b)) with
  | false => rfl
  | true =>
    exfalso
    obtain ⟨r, hr⟩ := Option.isSome_iff_exists.mp hs
    have hp : List.replicate k d <+: y ++ (List.replicate k d ++ b) :=
      ⟨r, (stripPrefix_eq_some hr).symm⟩
    have hy' : y <+: y ++ (List.replicate k d ++ b) := List.prefix_append _ _
    rcases Nat.le_total k y.length with hlen | hlen
    · -- the occurrence lies in the text
      have hin : List.replicate k d <+: y := List.prefix_of_prefix_length_le hp hy' (by simpa)
      exact ha (hin.isInfix.trans ⟨x, [], by simp [hxy]⟩)
    · -- it begins with the end of the text
      have hin : y <+: List.replicate k d := List.prefix_of_prefix_length_le hy' hp (by simpa)
      have hlast : y.getLast hy = d := List.eq_of_mem_replicate (hin.subset (List.getLast_mem hy))
      apply hl
      rw [hxy, List.getLast?_append, List.getLast?_eq_some_getLast hy, hlast]
      rfl

/-- A text is one that does not end in the character, and a run of it. -/
theorem exists_run (a : Text) : ∃ a' j, a = a' ++ List.replicate j d ∧ a'.getLast? ≠ some d := by
  induction a using List.reverseRecOn with
  | nil => exact ⟨[], 0, rfl, by simp⟩
  | append_singleton a c ih =>
    by_cases hc : c = d
    · obtain ⟨a', j, rfl, hl⟩ := ih
      exact ⟨a', j + 1, by rw [hc, List.replicate_succ', List.append_assoc], hl⟩
    · exact ⟨a ++ [c], 0, by simp, by simpa using hc⟩

/-- **A field without an occurrence** is the first piece, but for the run at its
end, which goes to the next piece. -/
theorem splitStr_field {a : Text} (hk : 0 < k) (ha : ¬ List.replicate k d <:+: a) (b : Text) :
    ∃ a' j, j < k ∧ splitStr (List.replicate k d) (a ++ (List.replicate k d ++ b)) =
      a' :: splitStr (List.replicate k d) (List.replicate j d ++ b) := by
  obtain ⟨a', j, rfl, hl⟩ := exists_run (d := d) a
  have hj : j < k := by
    by_contra hle
    have hrun : List.replicate j d = List.replicate k d ++ List.replicate (j - k) d := by
      rw [List.replicate_append_replicate]
      congr 1
      omega
    exact ha ⟨a', List.replicate (j - k) d, by rw [hrun, List.append_assoc]⟩
  have hcomm : a' ++ List.replicate j d ++ (List.replicate k d ++ b) =
      a' ++ (List.replicate k d ++ (List.replicate j d ++ b)) := by
    have hjk : List.replicate j d ++ List.replicate k d =
        List.replicate k d ++ List.replicate j d := by
      rw [List.replicate_append_replicate, List.replicate_append_replicate, Nat.add_comm]
    rw [List.append_assoc, ← List.append_assoc (List.replicate j d), hjk, List.append_assoc]
  refine ⟨a', j, hj, ?_⟩
  rw [hcomm]
  exact splitStr_run hk (fun hin => ha (hin.trans (List.prefix_append _ _).isInfix)) hl _

/-- The next piece is the run and its own field, which lacks the character. -/
theorem splitStr_run_field {a : Text} {j : Nat} (hj : j < k) (ha : d ∉ a) (hne : a ≠ [])
    (b : Text) :
    splitStr (List.replicate k d) (List.replicate j d ++ (a ++ (List.replicate k d ++ b))) =
      (List.replicate j d ++ a) :: splitStr (List.replicate k d) b := by
  rw [← List.append_assoc]
  refine splitStr_run (by omega) (fun hin => ?_) (fun hl => ?_) b
  · have hcount := hin.count_le d
    rw [List.count_append, List.count_replicate_self, List.count_replicate_self,
      List.count_eq_zero_of_not_mem ha] at hcount
    omega
  · rw [List.getLast?_append, List.getLast?_eq_some_getLast hne] at hl
    exact ha (Option.some.inj hl ▸ List.getLast_mem hne)

end Run

end Pieces

/-! ## Lines -/

theorem stripSuffix_eq_self {d : Char} {s : Text} (h : d ∉ s) : stripSuffix d s = s := by
  unfold stripSuffix
  rw [if_neg fun hl => h (List.mem_of_getLast? hl)]

/-- Lines written one under the other are read back, unless one ends in a
carriage return. -/
theorem strLines_joinLines {ls : List Text} (hnl : ∀ l ∈ ls, '\n' ∉ l)
    (hcr : ∀ l ∈ ls, stripSuffix '\r' l = l) : strLines (joinLines ls) = ls := by
  have hs : splitLines (joinLines ls) = (ls, []) := by
    simpa [splitLines] using splitLines_joinLines hnl []
  have hmap : ls.map (stripSuffix '\r') = ls.map id := List.map_congr_left hcr
  simp [strLines, hs, hmap]

end Oxmux.Lib
