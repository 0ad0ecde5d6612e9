import Mathlib.Data.List.Basic

/-! Maps that are iterated in the order in which their keys came in: a new key
goes to the end, a key that is set again keeps its place. -/

namespace Oxmux.Lib

variable {κ α β : Type*} [DecidableEq κ]

abbrev Table (κ α : Type*) := List (κ × α)

namespace Table

def keys (t : Table κ α) : List κ := t.map Prod.fst

def get (k : κ) : Table κ α → Option α
  | [] => none
  | e :: t => if e.1 = k then some e.2 else get k t

def set (k : κ) (a : α) : Table κ α → Table κ α
  | [] => [(k, a)]
  | e :: t => if e.1 = k then (k, a) :: t else e :: set k a t

def delete (k : κ) (t : Table κ α) : Table κ α := t.filter fun e => e.1 ≠ k

@[simp] theorem get_nil (k : κ) : get k ([] : Table κ α) = none := rfl

@[simp] theorem get_set_self (k : κ) (a : α) (t : Table κ α) : get k (set k a t) = some a := by
  induction t with
  | nil => simp [set, get]
  | cons e t ih =>
    by_cases h : e.1 = k
    · simp [set, get, h]
    · simp [set, get, h, ih]

theorem get_set_ne {k k' : κ} (h : k' ≠ k) (a : α) (t : Table κ α) :
    get k' (set k a t) = get k' t := by
  induction t with
  | nil => simp [set, get, Ne.symm h]
  | cons e t ih =>
    by_cases he : e.1 = k
    · simp [set, get, he, Ne.symm h]
    · by_cases he' : e.1 = k'
      · simp [set, get, he', h]
      · simp [set, get, he, he', ih]

@[simp] theorem get_delete_self (k : κ) (t : Table κ α) : get k (delete k t) = none := by
  induction t with
  | nil => rfl
  | cons e t ih =>
    by_cases h : e.1 = k
    · simpa [delete, h] using ih
    · simpa [delete, h, get] using ih

theorem get_delete_ne {k k' : κ} (h : k' ≠ k) (t : Table κ α) :
    get k' (delete k t) = get k' t := by
  induction t with
  | nil => rfl
  | cons e t ih =>
    by_cases he : e.1 = k
    · have he' : e.1 ≠ k' := fun h' => h (h'.symm.trans he)
      have hd : delete k (e :: t) = delete k t := by simp [delete, he]
      rw [hd, ih, get, if_neg he']
    · have hd : delete k (e :: t) = e :: delete k t := by simp [delete, he]
      rw [hd, get, get, ih]

theorem mem_keys_iff {k : κ} {t : Table κ α} : k ∈ t.keys ↔ (get k t).isSome = true := by
  induction t with
  | nil => simp [keys]
  | cons e t ih =>
    by_cases h : e.1 = k
    · simp [keys, get, h]
    · have h' : k ≠ e.1 := Ne.symm h
      simpa [keys, get, h, h'] using ih

theorem mem_keys_set {k k' : κ} {a : α} {t : Table κ α} :
    k' ∈ (set k a t).keys ↔ k' = k ∨ k' ∈ t.keys := by
  rw [mem_keys_iff, mem_keys_iff]
  by_cases h : k' = k
  · simp [h]
  · simp [get_set_ne h, h]

theorem mem_keys_delete {k k' : κ} {t : Table κ α} :
    k' ∈ (delete k t).keys ↔ k' ≠ k ∧ k' ∈ t.keys := by
  rw [mem_keys_iff, mem_keys_iff]
  by_cases h : k' = k
  · simp [h]
  · simp [get_delete_ne h, h]

theorem get_of_mem {t : Table κ α} (h : t.keys.Nodup) {e : κ × α} (he : e ∈ t) :
    get e.1 t = some e.2 := by
  induction t with
  | nil => cases he
  | cons e' t ih =>
    rw [keys, List.map_cons, List.nodup_cons] at h
    rcases List.mem_cons.mp he with rfl | he
    · simp [get]
    · have hne : e'.1 ≠ e.1 := fun hk => h.1 (hk ▸ List.mem_map_of_mem he)
      rw [get, if_neg hne, ih h.2 he]

theorem mem_of_get {k : κ} {a : α} {t : Table κ α} (h : get k t = some a) : (k, a) ∈ t := by
  induction t with
  | nil => cases h
  | cons e t ih =>
    rw [get] at h
    split at h
    · next he => exact List.mem_cons.mpr (.inl (Prod.ext he.symm (Option.some.inj h).symm))
    · exact List.mem_cons_of_mem e (ih h)

theorem mem_set_self (k : κ) (a : α) (t : Table κ α) : (k, a) ∈ set k a t :=
  mem_of_get (get_set_self k a t)

/-- An entry is the one that was set, or was there before. -/
theorem mem_of_mem_set {k : κ} {a : α} {t : Table κ α} {e : κ × α} (h : e ∈ set k a t) :
    e = (k, a) ∨ e ∈ t := by
  induction t with
  | nil => exact .inl (List.mem_singleton.mp h)
  | cons e' t ih =>
    rw [set] at h
    split at h
    · exact (List.mem_cons.mp h).imp_right (List.mem_cons_of_mem _)
    · rcases List.mem_cons.mp h with rfl | h
      · exact .inr List.mem_cons_self
      · exact (ih h).imp_right (List.mem_cons_of_mem _)

theorem get_filter (p : κ → Prop) [DecidablePred p] (k : κ) (t : Table κ α) :
    get k (t.filter fun e => p e.1) = if p k then get k t else none := by
  induction t with
  | nil => simp
  | cons e t ih =>
    by_cases hp : p e.1
    · rw [List.filter_cons_of_pos (by simpa using hp)]
      by_cases he : e.1 = k
      · have hk : p k := he ▸ hp
        simp [get, he, hk]
      · simp only [get, if_neg he, ih]
    · rw [List.filter_cons_of_neg (by simpa using hp), ih]
      by_cases hk : p k
      · have he : e.1 ≠ k := fun he => hp (he ▸ hk)
        simp only [get, if_neg he]
      · simp only [if_neg hk]

theorem get_delete (k k' : κ) (t : Table κ α) :
    get k' (delete k t) = if k' ≠ k then get k' t else none :=
  get_filter (· ≠ k) k' t

/-- A key without a value is not there to delete. -/
theorem delete_of_get {k : κ} {t : Table κ α} (h : get k t = none) : delete k t = t := by
  rw [delete, List.filter_eq_self]
  intro e he
  have hk : k ∉ t.keys := by simp [mem_keys_iff, h]
  exact decide_eq_true fun hek => hk (hek ▸ List.mem_map_of_mem he)

theorem delete_delete (k : κ) (t : Table κ α) : delete k (delete k t) = delete k t :=
  delete_of_get (get_delete_self k t)

theorem delete_comm (k k' : κ) (t : Table κ α) :
    delete k (delete k' t) = delete k' (delete k t) := by
  rw [delete, delete, delete, delete, List.filter_comm]

def mapValues (f : κ → α → β) (t : Table κ α) : Table κ β := t.map fun e => (e.1, f e.1 e.2)

theorem get_mapValues (f : κ → α → β) (k : κ) (t : Table κ α) :
    get k (mapValues f t) = (get k t).map (f k) := by
  induction t with
  | nil => rfl
  | cons e t ih =>
    by_cases h : e.1 = k
    · simp [mapValues, get, h]
    · simpa [mapValues, get, h] using ih

omit [DecidableEq κ] in
@[simp] theorem keys_mapValues (f : κ → α → β) (t : Table κ α) : (mapValues f t).keys = t.keys := by
  simp [mapValues, keys]

theorem nodup_keys_set {t : Table κ α} (h : t.keys.Nodup) (k : κ) (a : α) :
    (set k a t).keys.Nodup := by
  induction t with
  | nil => simp [set, keys]
  | cons e t ih =>
    rw [keys, List.map_cons, List.nodup_cons] at h
    by_cases he : e.1 = k
    · rw [set, if_pos he, keys, List.map_cons, List.nodup_cons]
      exact he ▸ h
    · rw [set, if_neg he, keys, List.map_cons, List.nodup_cons]
      refine ⟨fun hm => ?_, ih h.2⟩
      rcases mem_keys_set.mp hm with hk | hm
      · exact he hk
      · exact h.1 hm

theorem nodup_keys_delete {t : Table κ α} (h : t.keys.Nodup) (k : κ) : (delete k t).keys.Nodup :=
  h.sublist (List.filter_sublist.map _)

/-! ## Counting entries -/

theorem countP_set_new {k : κ} {t : Table κ α} (h : get k t = none) (a : α) (p : κ × α → Bool) :
    (set k a t).countP p = t.countP p + if p (k, a) then 1 else 0 := by
  induction t with
  | nil => simp [set, List.countP_cons]
  | cons e t ih =>
    by_cases he : e.1 = k
    · simp [get, he] at h
    · rw [get, if_neg he] at h
      rw [set, if_neg he, List.countP_cons, List.countP_cons, ih h]
      omega

theorem countP_delete {k : κ} {a : α} {t : Table κ α} (hn : t.keys.Nodup) (h : get k t = some a)
    (p : κ × α → Bool) : (delete k t).countP p + (if p (k, a) then 1 else 0) = t.countP p := by
  induction t with
  | nil => cases h
  | cons e t ih =>
    rw [keys, List.map_cons, List.nodup_cons] at hn
    by_cases he : e.1 = k
    · rw [get, if_pos he] at h
      obtain rfl : e = (k, a) := Prod.ext he (Option.some.inj h)
      have hnone : get k t = none := by
        rw [← Option.not_isSome_iff_eq_none, ← mem_keys_iff]
        exact hn.1
      have hd : delete k ((k, a) :: t) = t := by
        rw [delete, List.filter_cons_of_neg (by simp)]
        exact delete_of_get hnone
      rw [hd, List.countP_cons]
    · rw [get, if_neg he] at h
      have hd : delete k (e :: t) = e :: delete k t := by simp [delete, he]
      rw [hd, List.countP_cons, List.countP_cons, ← ih hn.2 h]
      omega

end Table

end Oxmux.Lib
