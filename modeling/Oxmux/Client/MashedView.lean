import Oxmux.Client.PaneId
import Oxmux.Lib.Filling

/-! `autoFill` of the grid view (`client/src/components/MashedView.vue`): a slot
whose pane is still there keeps it, another one gets the first pane that was not
used so far. -/

namespace Oxmux.Client.MashedView
open Oxmux.Lib Filling

/-- What the loop reads of an entry of `allPanes`. -/
structure AvailablePane where
  sessionId : Text
  id : Text
  deriving DecidableEq

def AvailablePane.qualifiedId (p : AvailablePane) : Text := qualifyPaneId p.sessionId p.id

/-- The loop's two variables. -/
structure AutoFill where
  slots : List (Option Text)
  used : List Text

/-- The assignment of a slot if its pane is there; the empty text counts as none. -/
def stillThere (available : List AvailablePane) (existing : Option Text) : Option Text :=
  existing.filter fun id => id ≠ [] && available.any (·.qualifiedId = id)

def fillSlot (available : List AvailablePane) (r : AutoFill) (existing : Option Text) :
    AutoFill :=
  match stillThere available existing with
  | some id => { slots := r.slots ++ [some id], used := r.used ++ [id] }
  | none =>
    match available.find? (·.qualifiedId ∉ r.used) with
    | some next =>
      { slots := r.slots ++ [some next.qualifiedId], used := r.used ++ [next.qualifiedId] }
    | none => { r with slots := r.slots ++ [none] }

/-- `autoFill`: the assignments behind it. A slot without an entry has none. -/
def autoFill (gridSize : Nat) (available : List AvailablePane)
    (assignments : List (Option Text)) : List (Option Text) :=
  ((List.range (gridSize * gridSize)).foldl
    (fun r i => fillSlot available r assignments[i]?.join) { slots := [], used := [] }).slots

/-- Every pane once, only panes that are there, each where it was, and no slot
empty while a pane has none. -/
structure Filled (gridSize : Nat) (available : List AvailablePane)
    (assignments slots : List (Option Text)) : Prop where
  once : ∀ (i j : Nat) (id : Text), slots[i]? = some (some id) → slots[j]? = some (some id) → i = j
  there : ∀ id, some id ∈ slots → id ∈ available.map (·.qualifiedId)
  keeps : ∀ i < gridSize * gridSize, ∀ id, assignments[i]? = some (some id) →
    id ∈ available.map (·.qualifiedId) → slots[i]? = some (some id)
  full : none ∈ slots → ∀ id ∈ available.map (·.qualifiedId), some id ∈ slots

/-- No pane that is there is assigned twice. -/
def NoneRepeated (available : List AvailablePane) (assignments : List (Option Text)) : Prop :=
  ∀ (i j : Nat) (id : Text),
    assignments[i]? = some (some id) → assignments[j]? = some (some id) →
    id ∈ available.map (·.qualifiedId) → i = j

/-- What the slots of the grid keep. -/
def keptSlots (gridSize : Nat) (available : List AvailablePane)
    (assignments : List (Option Text)) : List (Option Text) :=
  (List.range (gridSize * gridSize)).map fun i => stillThere available assignments[i]?.join

/-! ## The loop fills the gaps -/

theorem qualifiedId_ne_nil (p : AvailablePane) : p.qualifiedId ≠ [] := by
  simp [AvailablePane.qualifiedId, qualifyPaneId, separator]

theorem stillThere_eq_some {available : List AvailablePane} {existing : Option Text} {id : Text} :
    stillThere available existing = some id ↔
      existing = some id ∧ id ∈ available.map (·.qualifiedId) := by
  rw [stillThere, Option.filter_eq_some_iff]
  simp only [ne_eq, Bool.and_eq_true, decide_eq_true_eq, List.any_eq_true, List.mem_map]
  constructor
  · rintro ⟨he, -, hp⟩
    exact ⟨he, hp⟩
  · rintro ⟨he, p, hp, rfl⟩
    exact ⟨he, qualifiedId_ne_nil p, p, hp, rfl⟩

theorem firstUnused_qualifiedId (available : List AvailablePane) (used : List Text) :
    firstUnused (available.map (·.qualifiedId)) used =
      (available.find? (·.qualifiedId ∉ used)).map (·.qualifiedId) := by
  rw [firstUnused, List.find?_map]
  congr 2
  funext p
  exact decide_eq_decide.mpr Iff.rfl

theorem foldl_fillSlot (available : List AvailablePane) (existing : List (Option Text))
    (r : AutoFill) : (existing.foldl (fillSlot available) r).slots =
      r.slots ++ fill (available.map (·.qualifiedId)) r.used
        (existing.map (stillThere available)) := by
  induction existing generalizing r with
  | nil => simp [fill]
  | cons e existing ih =>
    rw [List.foldl_cons, ih, List.map_cons]
    unfold fillSlot
    cases hs : stillThere available e with
    | some id => simp [fill_some]
    | none =>
      have hfind := firstUnused_qualifiedId available r.used
      cases hf : available.find? (·.qualifiedId ∉ r.used) with
      | some next =>
        rw [hf] at hfind
        simp [fill_found hfind]
      | none =>
        rw [hf] at hfind
        simp [fill_none hfind]

/-- **The loop fills the gaps between the slots that keep their pane.** -/
theorem autoFill_eq (gridSize : Nat) (available : List AvailablePane)
    (assignments : List (Option Text)) : autoFill gridSize available assignments =
      fill (available.map (·.qualifiedId)) [] (keptSlots gridSize available assignments) := by
  have hfold := foldl_fillSlot available
    ((List.range (gridSize * gridSize)).map fun i => assignments[i]?.join)
    { slots := [], used := [] }
  rw [List.foldl_map, List.map_map] at hfold
  exact hfold

/-! ## What is filled -/

section Grid
variable {gridSize : Nat} {available : List AvailablePane} {assignments : List (Option Text)}

theorem keptSlots_getElem? {i : Nat} {id : Text} :
    (keptSlots gridSize available assignments)[i]? = some (some id) ↔
      i < gridSize * gridSize ∧ assignments[i]? = some (some id) ∧
        id ∈ available.map (·.qualifiedId) := by
  have hjoin : assignments[i]?.join = some id ↔ assignments[i]? = some (some id) := by
    rw [Option.join_eq_some_iff]
  rw [keptSlots, List.getElem?_map, Option.map_eq_some_iff]
  constructor
  · rintro ⟨k, hk, hs⟩
    obtain ⟨hlt, rfl⟩ : i < gridSize * gridSize ∧ i = k := by
      simpa [List.getElem?_range, List.getElem?_eq_some_iff] using hk
    rw [stillThere_eq_some, hjoin] at hs
    exact ⟨hlt, hs⟩
  · rintro ⟨hlt, hs⟩
    refine ⟨i, by simp [List.getElem?_range hlt], ?_⟩
    rw [stillThere_eq_some, hjoin]
    exact hs

theorem mem_keptSlots {id : Text} (h : some id ∈ keptSlots gridSize available assignments) :
    id ∈ available.map (·.qualifiedId) := by
  obtain ⟨i, hi⟩ := List.mem_iff_getElem?.mp h
  exact (keptSlots_getElem?.mp hi).2.2

theorem nodup_keptSlots (h : NoneRepeated available assignments) :
    (keptSlots gridSize available assignments).reduceOption.Nodup := by
  rw [nodup_reduceOption_iff]
  intro i j id hi hj
  have hi := (keptSlots_getElem?.mp hi).2
  have hj := (keptSlots_getElem?.mp hj).2
  exact h i j id hi.1 hj.1 hi.2

/-- **The grid is filled as it should be exactly if no slot that keeps its pane has
more gaps before it than panes before that pane which no slot keeps.** -/
theorem autoFill_filled_iff (gridSize : Nat) (available : List AvailablePane)
    (assignments : List (Option Text)) (hids : (available.map (·.qualifiedId)).Nodup)
    (hrep : NoneRepeated available assignments) :
    Filled gridSize available assignments (autoFill gridSize available assignments) ↔
      Enough (available.map (·.qualifiedId)) [] (keptSlots gridSize available assignments) := by
  have hiff := nodup_iff_enough hids (fun p hp => mem_keptSlots hp)
    (@nodup_keptSlots gridSize available assignments hrep)
  rw [← hiff, nodup_reduceOption_iff, autoFill_eq]
  constructor
  · intro h
    exact h.once
  · intro honce
    refine ⟨honce, ?_, ?_, ?_⟩
    · intro id hid
      rcases mem_fill hid with hid | ⟨hid, -⟩
      · exact mem_keptSlots hid
      · exact hid
    · intro i hi id hassigned hid
      exact fill_keeps _ _ (keptSlots_getElem?.mpr ⟨hi, hassigned, hid⟩)
    · intro hnone id hid
      exact (fill_full hnone id hid).resolve_left (by simp)

end Grid

def paneA : AvailablePane := { sessionId := "a".toList, id := "%0".toList }

def paneB : AvailablePane := { sessionId := "b".toList, id := "%0".toList }

/-- A pane that keeps the first slot, and a gap behind it. -/
theorem autoFill_filled_behind : Filled 2 [paneA, paneB] [some paneA.qualifiedId]
    (autoFill 2 [paneA, paneB] [some paneA.qualifiedId]) := by
  refine (autoFill_filled_iff 2 [paneA, paneB] [some paneA.qualifiedId] (by decide) ?_).mpr ?_
  · intro i j id hi hj _
    have hlt {k : Nat} (hk : [some paneA.qualifiedId][k]? = some (some id)) : k < 1 :=
      (List.getElem?_eq_some_iff.mp hk).1
    have hi := hlt hi
    have hj := hlt hj
    omega
  · intro j id hj
    cases j with
    | zero => exact Nat.zero_le _
    | succ j =>
      have hassigned := (keptSlots_getElem?.mp hj).2.1
      simp at hassigned

/-- A gap before the slot of the only pane takes it too. -/
theorem autoFill_repeats : ¬∀ gridSize available assignments,
    (available.map AvailablePane.qualifiedId).Nodup → NoneRepeated available assignments →
      Filled gridSize available assignments (autoFill gridSize available assignments) := by
  intro hall
  have hrep : NoneRepeated [paneA] [none, some paneA.qualifiedId] := by
    intro i j id hi hj _
    have hone {k : Nat} (hk : [none, some paneA.qualifiedId][k]? = some (some id)) : k = 1 := by
      rcases k with _ | _ | k
      · simp at hk
      · rfl
      · simp at hk
    rw [hone hi, hone hj]
  have h := (hall 2 [paneA] [none, some paneA.qualifiedId] (by decide) hrep).once 0 1
    paneA.qualifiedId (by decide) (by decide)
  exact absurd h (by decide)

end Oxmux.Client.MashedView
