import Oxmux.Lib.Runs

/-! Threads that share a state and take their steps in any order. A pick names
the thread and gives what the world answers to its step. -/

namespace Oxmux.Lib

variable {σ τ α : Type*}

structure Threads (σ τ : Type*) where
  shared : σ
  locals : List τ

namespace Threads

variable (act : Nat → α → σ → τ → σ × τ)

/-- The step of one thread; the others keep what is theirs. -/
def step (s : Threads σ τ) (pick : Nat × α) : Threads σ τ :=
  match s.locals[pick.1]? with
  | some t =>
    let r := act pick.1 pick.2 s.shared t
    { shared := r.1, locals := s.locals.set pick.1 r.2 }
  | none => s

variable {act} {s : Threads σ τ} {pick : Nat × α} {t u : τ}

theorem step_some (h : s.locals[pick.1]? = some t) :
    step act s pick = { shared := (act pick.1 pick.2 s.shared t).1
                        locals := s.locals.set pick.1 (act pick.1 pick.2 s.shared t).2 } := by
  rw [step, h]

theorem step_none (h : s.locals[pick.1]? = none) : step act s pick = s := by
  rw [step, h]

/-- The thread at a place after the step took it, or is the one that was there. -/
theorem getElem?_step {j : Nat} (h : s.locals[pick.1]? = some t)
    (hu : (step act s pick).locals[j]? = some u) :
    j = pick.1 ∧ u = (act pick.1 pick.2 s.shared t).2 ∨ j ≠ pick.1 ∧ s.locals[j]? = some u := by
  rw [step_some h] at hu
  by_cases hj : j = pick.1
  · subst hj
    rw [List.getElem?_set_self (List.getElem?_eq_some_iff.mp h).1, Option.some.injEq] at hu
    exact .inl ⟨rfl, hu.symm⟩
  · rw [List.getElem?_set_ne (Ne.symm hj)] at hu
    exact .inr ⟨hj, hu⟩

/-- A thread after the step is the one that took it, or was there before. -/
theorem mem_of_step (h : s.locals[pick.1]? = some t) (hu : u ∈ (step act s pick).locals) :
    u = (act pick.1 pick.2 s.shared t).2 ∨ u ∈ s.locals := by
  rw [step_some h] at hu
  exact (List.mem_or_eq_of_mem_set hu).symm

/-- A thread before the step is the one that took it, or is still there. -/
theorem mem_step (h : s.locals[pick.1]? = some t) (hu : u ∈ s.locals) :
    u = t ∨ u ∈ (step act s pick).locals := by
  rw [step_some h]
  obtain ⟨j, hj, rfl⟩ := List.getElem_of_mem hu
  by_cases he : j = pick.1
  · left
    subst he
    exact Option.some.inj ((List.getElem?_eq_getElem hj).symm.trans h)
  · right
    have hset : (s.locals.set pick.1 (act pick.1 pick.2 s.shared t).2)[j]? = some s.locals[j] := by
      rw [List.getElem?_set_ne (Ne.symm he), List.getElem?_eq_getElem hj]
    exact List.mem_of_getElem? hset

theorem mem_step_self (h : s.locals[pick.1]? = some t) :
    (act pick.1 pick.2 s.shared t).2 ∈ (step act s pick).locals := by
  obtain ⟨hlt, -⟩ := List.getElem?_eq_some_iff.mp h
  rw [step_some h]
  exact List.mem_set hlt _

/-! ## Noninterference -/

/-- The rule for two runs side by side: a thread that takes the same steps in both
stays the same, and what it sees stays alike, if what the others do cannot be
seen by it. -/
theorem run_alone {i : Nat} {I : Threads σ τ → Prop} {R : σ → σ → Prop}
    (hI : ∀ s pick, I s → I (step act s pick))
    (hown : ∀ s s' a t, I s → I s' → s.locals[i]? = some t → s'.locals[i]? = some t →
      R s.shared s'.shared → R (act i a s.shared t).1 (act i a s'.shared t).1 ∧
        (act i a s.shared t).2 = (act i a s'.shared t).2)
    (hother : ∀ s s' pick, I s → pick.1 ≠ i → R s.shared s' → R (step act s pick).shared s')
    {s s' : Threads σ τ} (hs : I s) (hs' : I s') (hR : R s.shared s'.shared)
    (hl : s.locals[i]? = s'.locals[i]?) (picks : List (Nat × α)) :
    R (Runs.run (step act) s picks).shared
        (Runs.run (step act) s' (picks.filter (·.1 = i))).shared ∧
      (Runs.run (step act) s picks).locals[i]? =
        (Runs.run (step act) s' (picks.filter (·.1 = i))).locals[i]? := by
  induction picks generalizing s s' with
  | nil => exact ⟨hR, hl⟩
  | cons pick picks ih =>
    by_cases hp : pick.1 = i
    · subst hp
      rw [List.filter_cons_of_pos (by simp), Runs.run_cons, Runs.run_cons]
      cases ht : s.locals[pick.1]? with
      | none =>
        rw [step_none ht, step_none (hl ▸ ht)]
        exact ih hs hs' hR hl
      | some t =>
        have ht' : s'.locals[pick.1]? = some t := hl ▸ ht
        obtain ⟨hR', hl'⟩ := hown s s' pick.2 t hs hs' ht ht' hR
        refine ih (hI s pick hs) (hI s' pick hs') ?_ ?_
        · rw [step_some ht, step_some ht']
          exact hR'
        · rw [step_some ht, step_some ht',
            List.getElem?_set_self (List.getElem?_eq_some_iff.mp ht).1,
            List.getElem?_set_self (List.getElem?_eq_some_iff.mp ht').1, hl']
    · rw [List.filter_cons_of_neg (by simpa using hp), Runs.run_cons]
      refine ih (hI s pick hs) hs' (hother s s'.shared pick hs hp hR) ?_
      rw [← hl]
      cases ht : s.locals[pick.1]? with
      | none => rw [step_none ht]
      | some t =>
        rw [step_some ht]
        exact List.getElem?_set_ne hp

end Threads

end Oxmux.Lib
