import Mathlib.Data.List.Lex
import Mathlib.Data.List.Sort
import Oxmux.Lib.Grouping

/-! A map with its keys in order that collects items under them, as against the
find-or-push loop of `Grouping`, which keeps the keys in the order of their first
occurrence. Nothing here is specific to one program. -/

namespace Oxmux.Lib

variable {α ρ κ : Type*} [LinearOrder κ]

namespace Ordered

/-- The item goes behind those under its key; a new key goes where it stands in
order. -/
def push (k : κ) (x : α) : List (κ × List α) → List (κ × List α)
  | [] => [(k, [x])]
  | (k', xs) :: m =>
    if k < k' then (k, [x]) :: (k', xs) :: m
    else if k = k' then (k', xs ++ [x]) :: m
    else (k', xs) :: push k x m

def collect (keyOf : α → κ) (xs : List α) : List (κ × List α) :=
  xs.foldl (fun m x => push (keyOf x) x m) []

/-- Each key once, in order. -/
def Sorted (m : List (κ × List α)) : Prop := m.Pairwise (·.1 < ·.1)

variable {k : κ} {x : α} {m : List (κ × List α)} {e : κ × List α}

/-- An entry behind a push: an old one of another key, the one of the key with
the item behind its own, or a new one. -/
theorem push_cases (h : Sorted m) (he : e ∈ push k x m) :
    e ∈ m ∧ e.1 ≠ k ∨ (∃ xs, (k, xs) ∈ m ∧ e = (k, xs ++ [x])) ∨
      (∀ e' ∈ m, e'.1 ≠ k) ∧ e = (k, [x]) := by
  induction m with
  | nil => exact .inr (.inr ⟨by simp, List.mem_singleton.mp he⟩)
  | cons e₀ m ih =>
    obtain ⟨k', xs⟩ := e₀
    obtain ⟨hk, hm⟩ := List.pairwise_cons.mp h
    rw [push] at he
    split at he
    · next hlt =>
      have hout : ∀ e' ∈ (k', xs) :: m, e'.1 ≠ k := by
        intro e' he'
        rcases List.mem_cons.mp he' with rfl | he'
        · exact hlt.ne'
        · exact (hlt.trans (hk e' he')).ne'
      rcases List.mem_cons.mp he with rfl | he
      · exact .inr (.inr ⟨hout, rfl⟩)
      · exact .inl ⟨he, hout e he⟩
    · split at he
      · next heq =>
        subst heq
        rcases List.mem_cons.mp he with rfl | he
        · exact .inr (.inl ⟨xs, List.mem_cons_self, rfl⟩)
        · exact .inl ⟨List.mem_cons_of_mem _ he, (hk e he).ne'⟩
      · next hne =>
        rcases List.mem_cons.mp he with rfl | he
        · exact .inl ⟨List.mem_cons_self, Ne.symm hne⟩
        · rcases ih hm he with ⟨he, hek⟩ | ⟨ys, hy, rfl⟩ | ⟨hout, rfl⟩
          · exact .inl ⟨List.mem_cons_of_mem _ he, hek⟩
          · exact .inr (.inl ⟨ys, List.mem_cons_of_mem _ hy, rfl⟩)
          · exact .inr (.inr ⟨List.forall_mem_cons.mpr ⟨Ne.symm hne, hout⟩, rfl⟩)

/-- The key of the item is there behind a push, and so are the keys before it. -/
theorem mem_keys_push {k' : κ} (h : k' = k ∨ k' ∈ m.map (·.1)) :
    k' ∈ (push k x m).map (·.1) := by
  induction m with
  | nil => simpa [push] using h
  | cons e₀ m ih =>
    obtain ⟨k₀, xs⟩ := e₀
    rw [push]
    split
    · simpa using h
    · split
      · next heq =>
        subst heq
        simpa using h
      · rw [List.map_cons, List.mem_cons] at h ⊢
        rcases h with h | h | h
        · exact .inr (ih (.inl h))
        · exact .inl h
        · exact .inr (ih (.inr h))

theorem Sorted.push (h : Sorted m) : Sorted (push k x m) := by
  induction m with
  | nil => exact List.pairwise_singleton _ _
  | cons e m ih =>
    obtain ⟨k', xs⟩ := e
    obtain ⟨hk, hm⟩ := List.pairwise_cons.mp h
    rw [Ordered.push]
    split
    · next hlt =>
      refine List.pairwise_cons.mpr ⟨fun e he => ?_, h⟩
      rcases List.mem_cons.mp he with rfl | he
      · exact hlt
      · exact hlt.trans (hk e he)
    · next hge =>
      split
      · exact List.pairwise_cons.mpr ⟨hk, hm⟩
      · next hne =>
        have hlt : k' < k := lt_of_le_of_ne (not_lt.mp hge) (Ne.symm hne)
        refine List.pairwise_cons.mpr ⟨fun e he => ?_, ih hm⟩
        rcases push_cases hm he with ⟨he, -⟩ | ⟨ys, -, rfl⟩ | ⟨-, rfl⟩
        · exact hk e he
        · exact hlt
        · exact hlt

theorem push_map {β : Type*} (f : α → β) (m : List (κ × List α)) :
    push k (f x) (m.map fun e => (e.1, e.2.map f)) =
      (push k x m).map fun e => (e.1, e.2.map f) := by
  induction m with
  | nil => rfl
  | cons e m ih =>
    obtain ⟨k', xs⟩ := e
    rw [List.map_cons, push, push]
    split
    · rfl
    · split
      · simp
      · rw [ih, List.map_cons]

variable (keyOf : α → κ)

theorem collect_concat (xs : List α) (x : α) :
    collect keyOf (xs ++ [x]) = push (keyOf x) x (collect keyOf xs) := by
  simp [collect]

theorem sorted_collect (xs : List α) : Sorted (collect keyOf xs) := by
  induction xs using List.reverseRecOn with
  | nil => exact List.Pairwise.nil
  | append_singleton xs x ih =>
    rw [collect_concat]
    exact ih.push

theorem collect_map {β : Type*} (f : β → α) (xs : List β) :
    collect keyOf (xs.map f) = (collect (keyOf ∘ f) xs).map fun e => (e.1, e.2.map f) := by
  induction xs using List.reverseRecOn with
  | nil => rfl
  | append_singleton xs x ih =>
    rw [List.map_append, List.map_singleton, collect_concat, ih, push_map, collect_concat,
      Function.comp_apply]

theorem mem_keys_collect {xs : List α} {x : α} (h : x ∈ xs) :
    keyOf x ∈ (collect keyOf xs).map (·.1) := by
  induction xs using List.reverseRecOn with
  | nil => cases h
  | append_singleton xs y ih =>
    rw [collect_concat]
    rcases List.mem_append.mp h with h | h
    · exact mem_keys_push (.inr (ih h))
    · rw [List.mem_singleton.mp h]
      exact mem_keys_push (.inl rfl)

/-- **What is collected under a key** are its items, in their order, of which
there is at least one. -/
theorem eq_of_mem_collect {xs : List α} (h : e ∈ collect keyOf xs) :
    e.2 = xs.filter (keyOf · = e.1) ∧ e.2 ≠ [] := by
  induction xs using List.reverseRecOn generalizing e with
  | nil => cases h
  | append_singleton xs x ih =>
    rw [collect_concat] at h
    rw [List.filter_append]
    rcases push_cases (sorted_collect keyOf xs) h with ⟨he, hne⟩ | ⟨ys, hy, rfl⟩ | ⟨hout, rfl⟩
    · obtain ⟨hf, hn⟩ := ih he
      rw [List.filter_cons_of_neg (by simpa using Ne.symm hne), List.filter_nil, List.append_nil]
      exact ⟨hf, hn⟩
    · obtain ⟨hf, -⟩ := ih hy
      rw [List.filter_cons_of_pos (by simp), List.filter_nil, ← hf]
      exact ⟨rfl, by simp⟩
    · have hnone : xs.filter (keyOf · = keyOf x) = [] := by
        rw [List.filter_eq_nil_iff]
        intro y hy hk
        obtain ⟨e', he', hek⟩ := List.mem_map.mp (mem_keys_collect keyOf hy)
        exact hout e' he' (hek.trans (of_decide_eq_true hk))
      rw [List.filter_cons_of_pos (by simp), List.filter_nil, hnone]
      exact ⟨rfl, by simp⟩

/-! ## Rows by a key -/

/-- The rows in the order of their keys. -/
def byKey (key : ρ → κ) (rows : List ρ) : List ρ := rows.mergeSort (key · ≤ key ·)

/-- Rows in the order of their keys, each of which stands there once, are in no
other order. -/
theorem eq_of_ordered {key : ρ → κ} {rows rows' : List ρ} (h : rows.Pairwise (key · ≤ key ·))
    (h' : rows'.Pairwise (key · ≤ key ·)) (hn : (rows.map key).Nodup) (hp : rows.Perm rows') :
    rows = rows' := by
  have hanti : ∀ r r', r ∈ rows → r' ∈ rows' → key r ≤ key r' → key r' ≤ key r → r = r' := by
    intro r r' hr hr' hle hge
    exact List.inj_on_of_nodup_map hn hr (hp.symm.subset hr') (le_antisymm hle hge)
  exact hp.eq_of_pairwise hanti h h'

theorem pairwise_byKey (key : ρ → κ) (rows : List ρ) :
    (byKey key rows).Pairwise (key · ≤ key ·) := by
  have htrans : ∀ a b c, decide (key a ≤ key b) → decide (key b ≤ key c) →
      decide (key a ≤ key c) := by
    intro a b c hab hbc
    exact decide_eq_true ((of_decide_eq_true hab).trans (of_decide_eq_true hbc))
  have htotal : ∀ a b, decide (key a ≤ key b) || decide (key b ≤ key a) := by
    intro a b
    simpa using le_total (key a) (key b)
  exact (List.pairwise_mergeSort htrans htotal rows).imp of_decide_eq_true

theorem byKey_perm (key : ρ → κ) (rows : List ρ) : (byKey key rows).Perm rows :=
  List.mergeSort_perm _ _

theorem byKey_eq_of_perm (key : ρ → κ) {rows rows' : List ρ} (hn : (rows.map key).Nodup)
    (hp : rows.Perm rows') : byKey key rows = byKey key rows' :=
  eq_of_ordered (pairwise_byKey key rows) (pairwise_byKey key rows')
    (((byKey_perm key rows).map key).nodup_iff.mpr hn)
    (((byKey_perm key rows).trans hp).trans (byKey_perm key rows').symm)

end Ordered

/-! ## The rows of a grouping, in order -/

namespace Grouping

variable [DecidableEq κ] {g : Grouping α ρ κ} {xs : List α}

theorem members_of_mem_collect {e : κ × List α} (h : e ∈ Ordered.collect g.keyOf xs) :
    g.members e.1 xs = e.2 := by
  rw [(Ordered.eq_of_mem_collect g.keyOf h).1]
  exact List.filter_congr fun _ _ => decide_eq_decide.mpr Iff.rfl

/-- Of the groups that are collected each makes a row. -/
theorem row_of_mem_collect {e : κ × List α} (h : e ∈ Ordered.collect g.keyOf xs) :
    ∃ r, g.row e.2 = some r ∧ g.key r = e.1 := by
  obtain ⟨-, hn⟩ := Ordered.eq_of_mem_collect g.keyOf h
  cases he : e.2 with
  | nil => exact absurd he hn
  | cons x rest =>
    have hm := members_of_mem_collect h
    rw [he] at hm
    have hx : x ∈ g.members e.1 xs := hm ▸ List.mem_cons_self
    exact ⟨_, rfl, (key_of_row rfl).trans (g.mem_members.mp hx).2⟩

/-- **Both loops make the same rows**: the map with its keys in order has them in
that order. -/
theorem filterMap_collect (xs : List α) :
    (Ordered.collect g.keyOf xs).filterMap (fun e => g.row e.2) =
      Ordered.byKey g.key (g.rows xs) := by
  have hlt : ((Ordered.collect g.keyOf xs).filterMap fun e => g.row e.2).Pairwise
      (g.key · < g.key ·) := by
    rw [List.pairwise_filterMap]
    refine (Ordered.sorted_collect g.keyOf xs).imp_of_mem ?_
    intro e e' he he' hlt r hr r' hr'
    obtain ⟨r₁, h₁, hk₁⟩ := row_of_mem_collect he
    obtain ⟨r₂, h₂, hk₂⟩ := row_of_mem_collect he'
    rw [hr, Option.some.injEq] at h₁
    rw [hr', Option.some.injEq] at h₂
    rw [h₁, h₂, hk₁, hk₂]
    exact hlt
  have hperm : ((Ordered.collect g.keyOf xs).filterMap fun e => g.row e.2).Perm (g.rows xs) := by
    rw [List.perm_ext_iff_of_nodup (hlt.imp fun h he => absurd (he ▸ h) (lt_irrefl _))
      (List.Nodup.of_map _ (g.nodup_keys xs))]
    intro r
    rw [List.mem_filterMap, mem_rows_iff]
    constructor
    · rintro ⟨e, he, hr⟩
      obtain ⟨r', hr', hk⟩ := row_of_mem_collect he
      rw [hr, Option.some.injEq] at hr'
      rw [hr', hk, members_of_mem_collect he, hr, hr']
    · intro hr
      obtain ⟨x, hx, hkx⟩ := exists_item (mem_rows_iff.mpr hr)
      obtain ⟨e, he, hk⟩ := List.mem_map.mp (Ordered.mem_keys_collect g.keyOf hx)
      refine ⟨e, he, ?_⟩
      rw [← members_of_mem_collect he, hk, hkx]
      exact hr
  exact Ordered.eq_of_ordered (hlt.imp le_of_lt) (Ordered.pairwise_byKey g.key _)
    ((hperm.map g.key).nodup_iff.mpr (g.nodup_keys xs))
    (hperm.trans (Ordered.byKey_perm g.key _).symm)

end Grouping
end Oxmux.Lib
