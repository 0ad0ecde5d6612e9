import Mathlib.Data.List.Nodup
import Mathlib.Data.List.ReduceOption

/-! Filling the gaps of a list from the left: an entry that is there stays, a gap
gets the first candidate that was not used before it. Nothing here is specific to
one program. -/

namespace Oxmux.Lib.Filling

variable {κ : Type*} [DecidableEq κ]

/-- The candidate that a gap gets. -/
def firstUnused (ids used : List κ) : Option κ := ids.find? (· ∉ used)

/-- The list without its gaps, or with those for which no candidate is left. -/
def fill (ids : List κ) : List κ → List (Option κ) → List (Option κ)
  | _, [] => []
  | used, some p :: entries => some p :: fill ids (used ++ [p]) entries
  | used, none :: entries =>
    match firstUnused ids used with
    | some q => some q :: fill ids (used ++ [q]) entries
    | none => none :: fill ids used entries

section Steps
variable {ids used : List κ} {entries : List (Option κ)} {p q : κ}

theorem fill_some : fill ids used (some p :: entries) =
    some p :: fill ids (used ++ [p]) entries := rfl

theorem fill_found (h : firstUnused ids used = some q) :
    fill ids used (none :: entries) = some q :: fill ids (used ++ [q]) entries := by
  rw [fill, h]

theorem fill_none (h : firstUnused ids used = none) :
    fill ids used (none :: entries) = none :: fill ids used entries := by
  rw [fill, h]

theorem not_mem_of_find (h : firstUnused ids used = some q) : q ∉ used := by
  simpa using List.find?_some h

theorem all_used_of_find (h : firstUnused ids used = none) : ∀ x ∈ ids, x ∈ used := by
  simpa using List.find?_eq_none.mp h

end Steps

theorem fill_keeps (ids used : List κ) {entries : List (Option κ)} {i : Nat} {p : κ}
    (h : entries[i]? = some (some p)) : (fill ids used entries)[i]? = some (some p) := by
  induction entries generalizing used i with
  | nil => cases h
  | cons e entries ih =>
    cases i with
    | zero =>
      obtain rfl : e = some p := by simpa using h
      rfl
    | succ i =>
      rw [List.getElem?_cons_succ] at h
      cases e with
      | some p' => exact ih (used ++ [p']) h
      | none =>
        cases hf : firstUnused ids used with
        | some q =>
          rw [fill_found hf]
          exact ih (used ++ [q]) h
        | none =>
          rw [fill_none hf]
          exact ih used h

/-- What stands in the list was an entry, or was not used before. -/
theorem mem_fill {ids used : List κ} {entries : List (Option κ)} {x : κ}
    (h : some x ∈ fill ids used entries) : some x ∈ entries ∨ x ∈ ids ∧ x ∉ used := by
  induction entries generalizing used with
  | nil => cases h
  | cons e entries ih =>
    have hrest {used' : List κ} (hsub : ∀ y ∈ used, y ∈ used')
        (h : some x ∈ fill ids used' entries) : some x ∈ e :: entries ∨ x ∈ ids ∧ x ∉ used := by
      rcases ih h with h | ⟨hx, hn⟩
      · exact Or.inl (List.mem_cons_of_mem _ h)
      · exact Or.inr ⟨hx, fun hu => hn (hsub x hu)⟩
    cases e with
    | some p =>
      rw [fill_some] at h
      rcases List.mem_cons.mp h with h | h
      · exact Or.inl (h ▸ List.mem_cons_self)
      · exact hrest (fun y hy => List.mem_append_left _ hy) h
    | none =>
      cases hf : firstUnused ids used with
      | some q =>
        rw [fill_found hf] at h
        rcases List.mem_cons.mp h with h | h
        · obtain rfl := Option.some.inj h
          exact Or.inr ⟨List.mem_of_find?_eq_some hf, not_mem_of_find hf⟩
        · exact hrest (fun y hy => List.mem_append_left _ hy) h
      | none =>
        rw [fill_none hf] at h
        exact hrest (fun _ hy => hy) (List.mem_of_ne_of_mem (by simp) h)

/-- A gap stays only when every candidate is used. -/
theorem fill_full {ids used : List κ} {entries : List (Option κ)}
    (h : none ∈ fill ids used entries) :
    ∀ x ∈ ids, x ∈ used ∨ some x ∈ fill ids used entries := by
  induction entries generalizing used with
  | nil => cases h
  | cons e entries ih =>
    intro x hx
    have hrest {p : κ} (h : none ∈ fill ids (used ++ [p]) entries) :
        x ∈ used ∨ some x ∈ some p :: fill ids (used ++ [p]) entries := by
      rcases ih h x hx with hu | hm
      · rcases List.mem_append.mp hu with hu | hp
        · exact Or.inl hu
        · rw [List.mem_singleton.mp hp]
          exact Or.inr List.mem_cons_self
      · exact Or.inr (List.mem_cons_of_mem _ hm)
    cases e with
    | some p => exact hrest (List.mem_of_ne_of_mem (by simp) h)
    | none =>
      cases hf : firstUnused ids used with
      | some q =>
        rw [fill_found hf] at h ⊢
        exact hrest (List.mem_of_ne_of_mem (by simp) h)
      | none => exact Or.inl (all_used_of_find hf x hx)

/-! ## Repetitions -/

omit [DecidableEq κ] in
/-- No value stands in two places of a list with gaps. -/
theorem nodup_reduceOption_iff {l : List (Option κ)} : l.reduceOption.Nodup ↔
    ∀ (i j : Nat) (x : κ), l[i]? = some (some x) → l[j]? = some (some x) → i = j := by
  induction l with
  | nil => simp
  | cons e l ih =>
    have htail (h : ∀ (i j : Nat) (x : κ), (e :: l)[i]? = some (some x) →
        (e :: l)[j]? = some (some x) → i = j) : ∀ (i j : Nat) (x : κ),
        l[i]? = some (some x) → l[j]? = some (some x) → i = j :=
      fun i j x hi hj => Nat.succ.inj (h (i + 1) (j + 1) x hi hj)
    cases e with
    | none =>
      rw [List.reduceOption_cons_of_none, ih]
      refine ⟨?_, htail⟩
      intro h i j x hi hj
      cases i with
      | zero => cases hi
      | succ i =>
        cases j with
        | zero => cases hj
        | succ j => exact congrArg _ (h i j x hi hj)
    | some p =>
      rw [List.reduceOption_cons_of_some, List.nodup_cons, ih, List.reduceOption_mem_iff]
      constructor
      · rintro ⟨hp, h⟩ i j x hi hj
        have hne {k : Nat} (hk : l[k]? = some (some p)) : False := hp (List.mem_of_getElem? hk)
        cases i with
        | zero =>
          obtain rfl : p = x := by simpa using hi
          cases j with
          | zero => rfl
          | succ j => exact (hne hj).elim
        | succ i =>
          cases j with
          | zero =>
            obtain rfl : p = x := by simpa using hj
            exact (hne hi).elim
          | succ j => exact congrArg _ (h i j x hi hj)
      · intro h
        refine ⟨?_, htail h⟩
        intro hp
        obtain ⟨k, hk⟩ := List.mem_iff_getElem?.mp hp
        exact absurd (h 0 (k + 1) p rfl hk) (by simp)

/-- No gap takes an entry that stands behind it. -/
def Apart (ids : List κ) : List κ → List (Option κ) → Prop
  | _, [] => True
  | used, some p :: entries => Apart ids (used ++ [p]) entries
  | used, none :: entries =>
    (∀ q, firstUnused ids used = some q → some q ∉ entries) ∧
      Apart ids (used ++ (firstUnused ids used).toList) entries

/-- Entries that are not repeated, and not used yet. -/
structure Fresh (used : List κ) (entries : List (Option κ)) : Prop where
  nodup : entries.reduceOption.Nodup
  unused : ∀ p, some p ∈ entries → p ∉ used

omit [DecidableEq κ] in
theorem Fresh.tail {used : List κ} {entries : List (Option κ)} {p : κ}
    (h : Fresh used (some p :: entries)) :
    some p ∉ entries ∧ Fresh (used ++ [p]) entries := by
  have hnodup := h.nodup
  rw [List.reduceOption_cons_of_some, List.nodup_cons, List.reduceOption_mem_iff] at hnodup
  refine ⟨hnodup.1, hnodup.2, ?_⟩
  intro x hx hu
  rcases List.mem_append.mp hu with hu | hp
  · exact h.unused x (List.mem_cons_of_mem _ hx) hu
  · rw [List.mem_singleton.mp hp] at hx
    exact hnodup.1 hx

omit [DecidableEq κ] in
theorem Fresh.skip {used : List κ} {entries : List (Option κ)}
    (h : Fresh used (none :: entries)) : Fresh used entries :=
  ⟨by simpa using h.nodup, fun p hp => h.unused p (List.mem_cons_of_mem _ hp)⟩

omit [DecidableEq κ] in
theorem Fresh.use {used : List κ} {entries : List (Option κ)} {q : κ} (h : Fresh used entries)
    (hq : some q ∉ entries) : Fresh (used ++ [q]) entries := by
  refine ⟨h.nodup, ?_⟩
  intro x hx hu
  rcases List.mem_append.mp hu with hu | hp
  · exact h.unused x hx hu
  · rw [List.mem_singleton.mp hp] at hx
    exact hq hx

/-- **Nothing is repeated exactly if the gaps stay apart from the entries.** -/
theorem nodup_fill_iff {ids used : List κ} {entries : List (Option κ)}
    (h : Fresh used entries) :
    (fill ids used entries).reduceOption.Nodup ↔ Apart ids used entries := by
  induction entries generalizing used with
  | nil => simp [fill, Apart]
  | cons e entries ih =>
    cases e with
    | some p =>
      obtain ⟨hp, htail⟩ := h.tail
      have hnot : some p ∉ fill ids (used ++ [p]) entries := by
        intro hm
        rcases mem_fill hm with hm | ⟨-, hn⟩
        · exact hp hm
        · exact hn (by simp)
      rw [fill_some, List.reduceOption_cons_of_some, List.nodup_cons, List.reduceOption_mem_iff,
        ih htail]
      exact and_iff_right hnot
    | none =>
      have hskip := h.skip
      cases hf : firstUnused ids used with
      | some q =>
        rw [fill_found hf, List.reduceOption_cons_of_some, List.nodup_cons,
          List.reduceOption_mem_iff, Apart, hf]
        by_cases hq : some q ∈ entries
        · obtain ⟨i, hi⟩ := List.mem_iff_getElem?.mp hq
          have hm := List.mem_of_getElem? (fill_keeps ids (used ++ [q]) hi)
          simp [hm, hq]
        · have hnot : some q ∉ fill ids (used ++ [q]) entries := by
            intro hm
            rcases mem_fill hm with hm | ⟨-, hn⟩
            · exact hq hm
            · exact hn (by simp)
          rw [ih (hskip.use hq)]
          simp [hnot, hq]
      | none =>
        rw [fill_none hf, List.reduceOption_cons_of_none, ih hskip, Apart, hf]
        simp

/-! ## Counting -/

/-- The candidates before one of them that are neither used nor entries. -/
def free (ids used : List κ) (entries : List (Option κ)) (p : κ) : List κ :=
  (ids.takeWhile (· ≠ p)).filter fun q => q ∉ used ∧ some q ∉ entries

/-- Before each entry there are no more gaps than free candidates before it. -/
def Enough (ids used : List κ) (entries : List (Option κ)) : Prop :=
  ∀ j p, entries[j]? = some (some p) →
    (entries.take j).count none ≤ (free ids used entries p).length

section Counting
variable {ids used : List κ} {entries : List (Option κ)} {p q : κ}

theorem free_cons_some (ids used : List κ) (entries : List (Option κ)) (p x : κ) :
    free ids used (some p :: entries) x = free ids (used ++ [p]) entries x := by
  unfold free
  apply List.filter_congr
  intro q _
  simp only [List.mem_cons, List.mem_append, Option.some.injEq, List.not_mem_nil, or_false, not_or,
    and_assoc]

theorem free_cons_none (ids used : List κ) (entries : List (Option κ)) (x : κ) :
    free ids used (none :: entries) x = free ids used entries x := by
  unfold free
  apply List.filter_congr
  intro q _
  simp

/-- The candidate that a gap takes is one of those that were free. -/
theorem mem_takeWhile_of_find (hf : firstUnused ids used = some q) (hp : p ∈ ids)
    (hu : p ∉ used) (hne : q ≠ p) : q ∈ ids.takeWhile (· ≠ p) := by
  obtain ⟨-, as, bs, rfl, has⟩ := List.find?_eq_some_iff_append.mp hf
  have hused : ∀ x ∈ as, x ∈ used := by simpa using has
  have hbefore : ∀ x ∈ as, (decide (x ≠ p)) = true := by
    intro x hx
    refine decide_eq_true ?_
    rintro rfl
    exact hu (hused x hx)
  rw [List.takeWhile_append_of_pos hbefore, List.takeWhile_cons_of_pos (by simpa using hne)]
  exact List.mem_append_right _ List.mem_cons_self

theorem length_free (hids : ids.Nodup) (hf : firstUnused ids used = some q)
    (hq : some q ∉ entries) (hp : p ∈ ids) (hu : p ∉ used) (hne : q ≠ p) :
    (free ids used entries p).length = (free ids (used ++ [q]) entries p).length + 1 := by
  have hmem : q ∈ free ids used entries p :=
    List.mem_filter.mpr ⟨mem_takeWhile_of_find hf hp hu hne, by simp [not_mem_of_find hf, hq]⟩
  have hnodup : (free ids used entries p).Nodup :=
    (hids.sublist (List.takeWhile_sublist _)).filter _
  have herase : free ids (used ++ [q]) entries p = (free ids used entries p).erase q := by
    rw [hnodup.erase_eq_filter, free, free, List.filter_filter]
    apply List.filter_congr
    intro x _
    by_cases hx : x = q <;> simp [hx]
  have hpos := List.length_pos_of_mem hmem
  rw [herase, List.length_erase_of_mem hmem]
  omega

/-- Before the candidate that a gap takes nothing is free. -/
theorem free_of_find (hf : firstUnused ids used = some q) : free ids used entries q = [] := by
  obtain ⟨-, as, bs, rfl, has⟩ := List.find?_eq_some_iff_append.mp hf
  have hused : ∀ x ∈ as, x ∈ used := by simpa using has
  have hbefore : ∀ x ∈ as, (decide (x ≠ q)) = true := by
    intro x hx
    refine decide_eq_true ?_
    rintro rfl
    exact not_mem_of_find hf (hused x hx)
  rw [free, List.takeWhile_append_of_pos hbefore, List.takeWhile_cons_of_neg (by simp),
    List.append_nil, List.filter_eq_nil_iff]
  intro x hx
  simp [hused x hx]

theorem enough_cons_some :
    Enough ids used (some p :: entries) ↔ Enough ids (used ++ [p]) entries := by
  constructor
  · intro hall j x hj
    have hx := hall (j + 1) x hj
    rw [free_cons_some] at hx
    simpa using hx
  · intro hall j x hj
    cases j with
    | zero => exact Nat.zero_le _
    | succ j =>
      rw [free_cons_some]
      simpa using hall j x hj

/-- A gap uses the candidate that it takes, which is no entry. -/
theorem enough_cons_none (hids : ids.Nodup) (hf : firstUnused ids used = some q)
    (hq : some q ∉ entries) (hmem : ∀ p, some p ∈ entries → p ∈ ids ∧ p ∉ used) :
    Enough ids used (none :: entries) ↔ Enough ids (used ++ [q]) entries := by
  have hlen (x : κ) (hx : some x ∈ entries) :=
    length_free hids hf hq (hmem x hx).1 (hmem x hx).2 (by rintro rfl; exact hq hx)
  constructor
  · intro hall j x hj
    have hx := hall (j + 1) x hj
    rw [free_cons_none, hlen x (List.mem_of_getElem? hj), List.take_succ_cons,
      List.count_cons_self] at hx
    omega
  · intro hall j x hj
    cases j with
    | zero => exact Nat.zero_le _
    | succ j =>
      rw [List.getElem?_cons_succ] at hj
      have hx := hall j x hj
      rw [free_cons_none, hlen x (List.mem_of_getElem? hj), List.take_succ_cons,
        List.count_cons_self]
      omega

/-- A gap that takes an entry has taken what was not free. -/
theorem not_enough_cons_none (hf : firstUnused ids used = some q) (hq : some q ∈ entries) :
    ¬ Enough ids used (none :: entries) := by
  intro hall
  obtain ⟨i, hi⟩ := List.mem_iff_getElem?.mp hq
  have hlt := hall (i + 1) q hi
  rw [free_of_find hf, List.take_succ_cons, List.count_cons_self] at hlt
  exact absurd hlt (by simp)

theorem enough_of_no_entry (h : ∀ p, some p ∉ entries) : Enough ids used entries :=
  fun _ p hj => absurd (List.mem_of_getElem? hj) (h p)

/-- **The gaps stay apart from the entries exactly if there is enough for them.** -/
theorem apart_iff_enough (hids : ids.Nodup) (hmem : ∀ p, some p ∈ entries → p ∈ ids)
    (h : Fresh used entries) : Apart ids used entries ↔ Enough ids used entries := by
  induction entries generalizing used with
  | nil => simp [Apart, Enough]
  | cons e entries ih =>
    have hmem' : ∀ p, some p ∈ entries → p ∈ ids := fun p hp =>
      hmem p (List.mem_cons_of_mem _ hp)
    cases e with
    | some p => rw [Apart, ih hmem' h.tail.2, enough_cons_some]
    | none =>
      have hskip := h.skip
      cases hf : firstUnused ids used with
      | none =>
        -- nothing is left, so nothing is kept behind the gap
        have hnone : ∀ p, some p ∉ entries := fun p hp =>
          hskip.unused p hp (all_used_of_find hf p (hmem' p hp))
        have hleft : Apart ids used (none :: entries) := by
          rw [Apart, hf]
          refine ⟨fun q hq => absurd hq (by simp), ?_⟩
          rw [Option.toList_none, List.append_nil]
          exact (ih hmem' hskip).mpr (enough_of_no_entry hnone)
        exact iff_of_true hleft (enough_of_no_entry fun p hp =>
          hnone p (List.mem_of_ne_of_mem (by simp) hp))
      | some q =>
        rw [Apart, hf]
        by_cases hq : some q ∈ entries
        · exact iff_of_false (fun ha => ha.1 q rfl hq) (not_enough_cons_none hf hq)
        · rw [Option.toList_some, ih hmem' (hskip.use hq),
            enough_cons_none hids hf hq fun p hp => ⟨hmem' p hp, hskip.unused p hp⟩]
          refine and_iff_right fun x hx => ?_
          rw [← Option.some.inj hx]
          exact hq

end Counting

/-- **When nothing is repeated**: before each entry there are no more gaps than
candidates before it that are no entries. -/
theorem nodup_iff_enough {ids : List κ} {entries : List (Option κ)} (hids : ids.Nodup)
    (hmem : ∀ p, some p ∈ entries → p ∈ ids) (hnodup : entries.reduceOption.Nodup) :
    (fill ids [] entries).reduceOption.Nodup ↔ Enough ids [] entries := by
  have hfresh : Fresh [] entries := ⟨hnodup, fun _ _ => by simp⟩
  rw [nodup_fill_iff hfresh, apart_iff_enough hids hmem hfresh]

end Oxmux.Lib.Filling
