import Mathlib.Data.List.Perm.Basic
import Mathlib.Data.List.Nodup

/-! Searching a collection whose order of iteration is not fixed: which of the
entries that fit is found is up to the order, unless there is only one. -/

namespace Oxmux.Lib

variable {α : Type*} {p : α → Bool} {l : List α}

/-- With one entry that fits, every order finds it. -/
theorem find?_of_length_filter_le_one (h : (l.filter p).length ≤ 1) {order : List α}
    (hperm : order.Perm l) : order.find? p = (l.filter p).getLast? := by
  have hfilter : (order.filter p).Perm (l.filter p) := hperm.filter p
  have heq : order.filter p = l.filter p := by
    match hl : l.filter p, h with
    | [], _ => exact List.perm_nil.mp (hl ▸ hfilter)
    | [a], _ => exact List.perm_singleton.mp (hl ▸ hfilter)
  rw [← List.head?_filter, heq]
  match l.filter p, h with
  | [], _ => rfl
  | [a], _ => rfl

/-- **What every order finds.** All of them find the last entry that fits exactly
if no two entries fit. -/
theorem find?_any_order_iff (hl : l.Nodup) :
    (∀ order : List α, order.Perm l → order.find? p = (l.filter p).getLast?) ↔
      (l.filter p).length ≤ 1 := by
  refine ⟨fun h => ?_, fun h order hperm => find?_of_length_filter_le_one h hperm⟩
  -- the entries that fit, the first one in front
  have hfirst := h (l.filter p ++ l.filter (fun a => !p a)) (List.filter_append_perm p l)
  have hnodup : (l.filter p).Nodup := hl.filter p
  have hfit : ∀ a ∈ l.filter p, p a = true := fun a ha => (List.mem_filter.mp ha).2
  match hf : l.filter p with
  | [] => simp
  | [a] => simp
  | a :: b :: rest =>
    exfalso
    rw [hf] at hfirst hnodup hfit
    rw [List.cons_append, List.find?_cons_of_pos (hfit a List.mem_cons_self),
      List.getLast?_cons_cons] at hfirst
    exact (List.nodup_cons.mp hnodup).1 (List.mem_of_getLast? hfirst.symm)

end Oxmux.Lib
