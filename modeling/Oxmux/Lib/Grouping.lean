import Mathlib.Data.List.Induction

/-! Rows that are grouped under keys by a find-or-push loop: each item goes to
the row that has its key, and an item whose key no row has opens a new row at
the end. Nothing here is specific to one program. -/

namespace Oxmux.Lib

variable {α ρ κ : Type*} [DecidableEq κ]

/-- The first row with the key `k` is changed; without such a row the new one
is pushed and changed. -/
def upsert (key : ρ → κ) (k : κ) (new : ρ) (change : ρ → ρ) : List ρ → List ρ
  | [] => [change new]
  | r :: rows => if key r = k then change r :: rows else r :: upsert key k new change rows

section Upsert
variable {key : ρ → κ} {k : κ} {new : ρ} {change : ρ → ρ}

/-- A change that keeps the key adds at most the key it is for. -/
theorem keys_upsert (hnew : key new = k) (hchange : ∀ r, key (change r) = key r) (rows : List ρ) :
    (upsert key k new change rows).map key =
      if k ∈ rows.map key then rows.map key else rows.map key ++ [k] := by
  induction rows with
  | nil => simp [upsert, hchange, hnew]
  | cons r rows ih =>
    by_cases h : key r = k
    · simp [upsert, h, hchange]
    · have hk : k ≠ key r := Ne.symm h
      simp only [upsert, h, if_false, List.map_cons, ih, List.mem_cons, hk, false_or]
      split <;> rfl

/-- A row after the loop's body: the new one, the one with the key, or another. -/
theorem mem_upsert {rows : List ρ} (hrows : (rows.map key).Nodup) {r : ρ}
    (h : r ∈ upsert key k new change rows) :
    (k ∉ rows.map key ∧ r = change new) ∨ (∃ r' ∈ rows, key r' = k ∧ r = change r') ∨
      (r ∈ rows ∧ key r ≠ k) := by
  induction rows with
  | nil => exact Or.inl ⟨by simp, by simpa [upsert] using h⟩
  | cons r' rows ih =>
    rw [List.map_cons, List.nodup_cons] at hrows
    by_cases hk : key r' = k
    · simp only [upsert, hk, if_true, List.mem_cons] at h
      rcases h with rfl | h
      · exact Or.inr (Or.inl ⟨r', List.mem_cons_self, hk, rfl⟩)
      · refine Or.inr (Or.inr ⟨List.mem_cons_of_mem _ h, ?_⟩)
        intro hr
        exact hrows.1 (hk.trans hr.symm ▸ List.mem_map_of_mem h)
    · simp only [upsert, hk, if_false, List.mem_cons] at h
      rcases h with rfl | h
      · exact Or.inr (Or.inr ⟨List.mem_cons_self, hk⟩)
      · rcases ih hrows.2 h with ⟨hn, rfl⟩ | ⟨r'', hr'', hk', rfl⟩ | ⟨hr, hne⟩
        · exact Or.inl ⟨by simp only [List.map_cons, List.mem_cons, not_or]
                           exact ⟨Ne.symm hk, hn⟩, rfl⟩
        · exact Or.inr (Or.inl ⟨r'', List.mem_cons_of_mem _ hr'', hk', rfl⟩)
        · exact Or.inr (Or.inr ⟨List.mem_cons_of_mem _ hr, hne⟩)

end Upsert

omit [DecidableEq κ] in
/-- A list without repetitions, with one more element behind it. -/
theorem eraseDups_concat [BEq κ] [LawfulBEq κ] (ks : List κ) (k : κ) :
    (ks ++ [k]).eraseDups = if k ∈ ks then ks.eraseDups else ks.eraseDups ++ [k] := by
  rw [List.eraseDups_append]
  by_cases h : k ∈ ks
  · have hk : [k].removeAll ks = [] := by simp [List.removeAll, h]
    rw [hk, if_pos h, List.eraseDups_nil, List.append_nil]
  · have hk : [k].removeAll ks = [k] := by simp [List.removeAll, h]
    rw [hk, if_neg h]
    rfl

/-! ## Grouping a list of items -/

/-- How items are put into rows: the key of an item and of a row, the row that
an item opens, and what an item adds to its row. Neither changes the key. -/
structure Grouping (α ρ κ : Type*) where
  keyOf : α → κ
  key : ρ → κ
  new : α → ρ
  add : ρ → α → ρ
  key_new : ∀ x, key (new x) = keyOf x
  key_add : ∀ r x, key (add r x) = key r

namespace Grouping
variable (g : Grouping α ρ κ)

def insert (rows : List ρ) (x : α) : List ρ :=
  upsert g.key (g.keyOf x) (g.new x) (g.add · x) rows

def rows (xs : List α) : List ρ := xs.foldl g.insert []

/-- The items with one key, in order. -/
def members (k : κ) (xs : List α) : List α := xs.filter (g.keyOf · = k)

theorem rows_concat (xs : List α) (x : α) : g.rows (xs ++ [x]) = g.insert (g.rows xs) x := by
  simp [rows]

theorem members_concat_self (xs : List α) (x : α) :
    g.members (g.keyOf x) (xs ++ [x]) = g.members (g.keyOf x) xs ++ [x] := by
  simp [members]

theorem members_concat_ne {k : κ} {x : α} (h : g.keyOf x ≠ k) (xs : List α) :
    g.members k (xs ++ [x]) = g.members k xs := by
  simp [members, h]

/-- **One row a key**, in the order in which the keys first occur. -/
theorem keys_rows [BEq κ] [LawfulBEq κ] (xs : List α) :
    (g.rows xs).map g.key = (xs.map g.keyOf).eraseDups := by
  induction xs using List.reverseRecOn with
  | nil => rfl
  | append_singleton xs x ih =>
    have hkeys := keys_upsert (g.key_new x) (g.key_add · x) (g.rows xs)
    rw [rows_concat, insert, hkeys, ih, List.map_append, List.map_singleton, eraseDups_concat]
    simp only [List.mem_eraseDups]

theorem exists_mem_rows {xs : List α} {x : α} (h : x ∈ xs) :
    ∃ r ∈ g.rows xs, g.key r = g.keyOf x := by
  have hk : g.keyOf x ∈ (g.rows xs).map g.key := by
    rw [keys_rows, List.mem_eraseDups]
    exact List.mem_map_of_mem h
  exact List.mem_map.mp hk

theorem mem_members {xs : List α} {x : α} {k : κ} :
    x ∈ g.members k xs ↔ x ∈ xs ∧ g.keyOf x = k := by
  simp [members]

theorem nodup_keys (xs : List α) : ((g.rows xs).map g.key).Nodup := by
  induction xs using List.reverseRecOn with
  | nil => exact List.nodup_nil
  | append_singleton xs x ih =>
    rw [rows_concat, insert, keys_upsert (g.key_new x) (g.key_add · x)]
    split
    · exact ih
    · next h => exact List.nodup_append.mpr ⟨ih, by simp, by simpa using h⟩

/-- **A row holds what its members added**, the first of which opened it. -/
theorem eq_of_mem_rows {xs : List α} {r : ρ} (h : r ∈ g.rows xs) :
    ∃ x rest, g.members (g.key r) xs = x :: rest ∧ r = (x :: rest).foldl g.add (g.new x) := by
  induction xs using List.reverseRecOn generalizing r with
  | nil => cases h
  | append_singleton xs x ih =>
    rw [rows_concat] at h
    rcases mem_upsert (g.nodup_keys xs) h with ⟨hn, rfl⟩ | ⟨r', hr', hk, rfl⟩ | ⟨hr, hne⟩
    · -- the item opens its row: no item before it has the key
      have hnone : g.members (g.keyOf x) xs = [] := by
        rw [members, List.filter_eq_nil_iff]
        intro y hy hk
        rw [keys_rows, List.mem_eraseDups] at hn
        exact hn (List.mem_map.mpr ⟨y, hy, by simpa using hk⟩)
      refine ⟨x, [], ?_, rfl⟩
      rw [g.key_add, g.key_new, members_concat_self, hnone]
      rfl
    · obtain ⟨y, rest, hm, hr⟩ := ih hr'
      refine ⟨y, rest ++ [x], ?_, ?_⟩
      · rw [g.key_add, hk, members_concat_self, ← hk, hm]
        rfl
      · rw [← List.cons_append, List.foldl_append, ← hr]
        rfl
    · rw [members_concat_ne g (Ne.symm hne)]
      exact ih hr

theorem head?_keys (xs : List α) :
    ((g.rows xs).map g.key).head? = (xs.map g.keyOf).head? := by
  cases xs with
  | nil => rfl
  | cons x xs =>
    rw [keys_rows, List.map_cons, List.eraseDups_cons]
    rfl

/-- The row that a group of items makes. -/
def row : List α → Option ρ
  | [] => none
  | x :: rest => some ((x :: rest).foldl g.add (g.new x))

variable {g} {r : ρ}

omit [DecidableEq κ] in
theorem key_foldl (xs : List α) (r : ρ) : g.key (xs.foldl g.add r) = g.key r := by
  induction xs generalizing r with
  | nil => rfl
  | cons x xs ih => rw [List.foldl_cons, ih, g.key_add]

omit [DecidableEq κ] in
theorem key_of_row {x : α} {rest : List α} (h : g.row (x :: rest) = some r) :
    g.key r = g.keyOf x := by
  rw [← Option.some.inj h, key_foldl, g.key_new]

theorem exists_item {xs : List α} (h : r ∈ g.rows xs) : ∃ x ∈ xs, g.keyOf x = g.key r := by
  obtain ⟨x, rest, hm, -⟩ := g.eq_of_mem_rows h
  exact ⟨x, g.mem_members.mp (hm ▸ List.mem_cons_self)⟩

theorem mem_rows_iff {xs : List α} : r ∈ g.rows xs ↔ g.row (g.members (g.key r) xs) = some r := by
  constructor
  · intro h
    obtain ⟨x, rest, hm, hr⟩ := g.eq_of_mem_rows h
    rw [hm, row, ← hr]
  · intro h
    cases hm : g.members (g.key r) xs with
    | nil =>
      rw [hm] at h
      cases h
    | cons x rest =>
      have hx := g.mem_members.mp (hm ▸ List.mem_cons_self : x ∈ g.members (g.key r) xs)
      obtain ⟨r', hr', hk⟩ := g.exists_mem_rows hx.1
      obtain ⟨y, rest', hm', rfl⟩ := g.eq_of_mem_rows hr'
      rw [hk, hx.2, hm] at hm'
      rw [hm, row, (List.cons.inj hm').1, (List.cons.inj hm').2] at h
      rw [← Option.some.inj h]
      exact hr'

end Grouping

end Oxmux.Lib
