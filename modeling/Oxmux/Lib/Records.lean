import Mathlib.Data.List.Nodup
import Mathlib.Logic.Function.Basic

/-! Lists of records with a key. Such a list presents a partial function of the
keys; a record that is appended, replaced or deleted changes it at its key
alone. -/

namespace Oxmux.Lib.Records

variable {α κ : Type*} [DecidableEq κ] {key : α → κ}

/-- The list has one record for every key at which the function has a value. -/
structure Presents (key : α → κ) (records : List α) (f : κ → Option α) : Prop where
  nodup : (records.map key).Nodup
  found : ∀ k, records.find? (fun a => key a = k) = f k

/-- The first record with the key gives way to another one. -/
def replace (key : α → κ) (a : α) : List α → List α
  | [] => []
  | b :: records => if key b = key a then a :: records else b :: replace key a records

theorem replace_eq_set (key : α → κ) (a : α) (records : List α) :
    (match records.findIdx? fun b => key b = key a with
      | some i => records.set i a
      | none => records) = replace key a records := by
  induction records with
  | nil => rfl
  | cons b records ih =>
    rw [List.findIdx?_cons, replace]
    by_cases hb : key b = key a
    · simp [hb]
    · rw [← ih]
      simp only [hb, decide_false, Bool.false_eq_true, if_false]
      cases records.findIdx? fun b => decide (key b = key a) <;> rfl

theorem replace_of_not_mem {a : α} {records : List α} (h : key a ∉ records.map key) :
    replace key a records = records := by
  induction records with
  | nil => rfl
  | cons b records ih =>
    rw [List.map_cons, List.mem_cons, not_or] at h
    rw [replace, if_neg (Ne.symm h.1), ih h.2]

theorem map_replace (key : α → κ) (a : α) (records : List α) :
    (replace key a records).map key = records.map key := by
  induction records with
  | nil => rfl
  | cons b records ih =>
    rw [replace]
    split
    · next hb => rw [List.map_cons, List.map_cons, hb]
    · rw [List.map_cons, List.map_cons, ih]

theorem find_replace (a : α) (records : List α) (k : κ) :
    (replace key a records).find? (fun b => key b = k) =
      (records.find? fun b => key b = k).map fun b => if k = key a then a else b := by
  induction records with
  | nil => rfl
  | cons b records ih =>
    rw [replace]
    by_cases hb : key b = key a
    · rw [if_pos hb]
      by_cases hk : key a = k
      · simp [hk, hb]
      · have hk' : k ≠ key a := Ne.symm hk
        simp [hk, hb, hk']
    · rw [if_neg hb]
      by_cases hk : key b = k
      · have hk' : k ≠ key a := fun h => hb (hk.trans h)
        simp [hk, hk']
      · simp only [List.find?_cons, hk, decide_false, ih]

section
variable {records : List α} {f g : κ → Option α}

theorem Presents.unique (hf : Presents key records f) (hg : Presents key records g) : f = g :=
  funext fun k => (hf.found k).symm.trans (hg.found k)

theorem Presents.eq_none_iff (h : Presents key records f) {k : κ} :
    f k = none ↔ k ∉ records.map key := by
  rw [← h.found, List.find?_eq_none, List.mem_map, not_exists]
  refine forall_congr' fun a => ?_
  rw [not_and, decide_eq_true_eq]

theorem Presents.append {a : α} (h : Presents key records f) (hnew : f (key a) = none) :
    Presents key (records ++ [a]) (Function.update f (key a) (some a)) := by
  refine ⟨?_, fun k => ?_⟩
  · rw [List.map_append, List.map_singleton, List.nodup_append]
    refine ⟨h.nodup, by simp, fun k hk k' hk' => ?_⟩
    rw [List.mem_singleton] at hk'
    rintro rfl
    exact h.eq_none_iff.mp hnew (hk' ▸ hk)
  · rw [List.find?_append, h.found]
    by_cases hk : k = key a
    · subst hk
      simp [hnew]
    · have hne : ¬ key a = k := Ne.symm hk
      simp [hk, hne]

theorem Presents.delete (h : Presents key records f) (k : κ) :
    Presents key (records.filter fun a => key a ≠ k) (Function.update f k none) := by
  refine ⟨h.nodup.sublist (List.filter_sublist.map key), fun k' => ?_⟩
  rw [List.find?_filter]
  by_cases hk : k' = k
  · subst hk
    rw [Function.update_self, List.find?_eq_none]
    intro a _
    simp
  · rw [Function.update_of_ne hk, ← h.found]
    congr 1
    funext a
    by_cases ha : key a = k'
    · simp [ha, hk]
    · simp [ha]

/-- A record whose key is not there replaces none. -/
theorem Presents.replace (h : Presents key records f) (a : α) :
    Presents key (replace key a records)
      (Function.update f (key a) ((f (key a)).map fun _ => a)) := by
  refine ⟨(map_replace key a records).symm ▸ h.nodup, fun k => ?_⟩
  rw [find_replace, h.found]
  by_cases hk : k = key a
  · subst hk
    simp
  · simp [hk]

end

end Oxmux.Lib.Records
