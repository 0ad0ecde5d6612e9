import Mathlib.Order.Basic

/-! Runs of a state machine whose step is a function of the state and a choice:
an input, an answer of the environment, or the scheduler's pick. A choice that
is not ready leaves the state as it is, so every list of choices is a run. -/

namespace Oxmux.Lib.Runs

variable {σ α : Type*} (step : σ → α → σ)

def run (s : σ) (as : List α) : σ := as.foldl step s

/-- `P` holds in every state of the run. -/
def Always (P : σ → Prop) : σ → List α → Prop
  | s, [] => P s
  | s, a :: as => P s ∧ Always P (step s a) as

/-- `C` holds of every choice of the run, in the state it is made in. -/
def EachStep (C : σ → α → Prop) : σ → List α → Prop
  | _, [] => True
  | s, a :: as => C s a ∧ EachStep C (step s a) as

instance decidableEachStep {C : σ → α → Prop} [∀ s a, Decidable (C s a)] :
    (s : σ) → (as : List α) → Decidable (EachStep step C s as)
  | _, [] => inferInstanceAs (Decidable True)
  | s, a :: as =>
    have := decidableEachStep (C := C) (step s a) as
    inferInstanceAs (Decidable (C s a ∧ EachStep step C (step s a) as))

/-- The states that some run reaches. -/
def Reachable (init s : σ) : Prop := ∃ as, run step init as = s

/-- The states that a run reaches all of whose states satisfy `U` and all of whose
steps satisfy `C`. -/
inductive ReachableUnder (U : σ → Prop) (C : σ → α → Prop) (init : σ) : σ → Prop
  | init (h : U init) : ReachableUnder U C init init
  | next {s : σ} (h : ReachableUnder U C init s) (a : α) (hC : C s a) (hU : U (step s a)) :
      ReachableUnder U C init (step s a)

variable {step}

@[simp] theorem run_nil (s : σ) : run step s [] = s := rfl

@[simp] theorem run_cons (s : σ) (a : α) (as : List α) :
    run step s (a :: as) = run step (step s a) as := rfl

theorem run_append (s : σ) (as bs : List α) :
    run step s (as ++ bs) = run step (run step s as) bs := by
  simp [run]

theorem Always.head {P : σ → Prop} {s : σ} {as : List α} (h : Always step P s as) : P s := by
  cases as with
  | nil => exact h
  | cons a as => exact h.1

/-- `Always` speaks of the states behind every beginning of the run. -/
theorem always_iff_forall {P : σ → Prop} {s : σ} {as : List α} :
    Always step P s as ↔ ∀ pre post, as = pre ++ post → P (run step s pre) := by
  induction as generalizing s with
  | nil =>
    refine ⟨fun h pre post e => ?_, fun h => h [] [] rfl⟩
    rw [(List.nil_eq_append_iff.mp e).1]
    exact h
  | cons a as ih =>
    refine ⟨fun h pre post e => ?_, fun h => ⟨h [] _ rfl, ih.mpr fun pre post e => ?_⟩⟩
    · cases pre with
      | nil => exact h.1
      | cons b pre =>
        obtain ⟨hb, hp⟩ := List.cons.inj e
        rw [run_cons, ← hb]
        exact ih.mp h.2 pre post hp
    · exact h (a :: pre) post (by rw [e]; rfl)

theorem Always.last {P : σ → Prop} {s : σ} {as : List α} (h : Always step P s as) :
    P (run step s as) :=
  always_iff_forall.mp h as [] (by simp)

theorem Always.and {P Q : σ → Prop} {s : σ} {as : List α} (hP : Always step P s as)
    (hQ : Always step Q s as) : Always step (fun s => P s ∧ Q s) s as := by
  induction as generalizing s with
  | nil => exact ⟨hP, hQ⟩
  | cons a as ih => exact ⟨⟨hP.1, hQ.1⟩, ih hP.2 hQ.2⟩

/-- **The invariant rule.** What every step preserves holds in every state. -/
theorem always_of_invariant {P : σ → Prop} {s : σ} (h₀ : P s)
    (hstep : ∀ s a, P s → P (step s a)) (as : List α) : Always step P s as := by
  induction as generalizing s with
  | nil => exact h₀
  | cons a as ih => exact ⟨h₀, ih (hstep s a h₀)⟩

/-- Two properties that agree under an invariant hold along the same runs. -/
theorem always_congr {P Q I : σ → Prop} {s : σ} (hI : I s) (hstep : ∀ s a, I s → I (step s a))
    (hPQ : ∀ s, I s → (P s ↔ Q s)) (as : List α) : Always step P s as ↔ Always step Q s as := by
  induction as generalizing s with
  | nil => exact hPQ s hI
  | cons a as ih => exact and_congr (hPQ s hI) (ih (hstep s a hI))

/-- An invariant holds in every reachable state. -/
theorem Reachable.invariant {P : σ → Prop} {init s : σ} (h : Reachable step init s)
    (h₀ : P init) (hstep : ∀ s a, P s → P (step s a)) : P s := by
  obtain ⟨as, rfl⟩ := h
  exact (always_of_invariant h₀ hstep as).last

theorem reachable_init (init : σ) : Reachable step init init := ⟨[], rfl⟩

theorem Reachable.next {init s : σ} (h : Reachable step init s) (a : α) :
    Reachable step init (step s a) := by
  obtain ⟨as, rfl⟩ := h
  exact ⟨as ++ [a], by simp [run_append]⟩

theorem ReachableUnder.invariant {P U : σ → Prop} {C : σ → α → Prop} {init s : σ}
    (h : ReachableUnder step U C init s) (h₀ : P init)
    (hstep : ∀ s a, P s → C s a → U (step s a) → P (step s a)) : P s := by
  induction h with
  | init hU => exact h₀
  | next h a hC hU ih => exact hstep _ a ih hC hU

/-- What the steps of a run preserve under a condition that all of them satisfy
holds in every state of it, and so does what follows. -/
theorem always_of_eachStep {P I : σ → Prop} {C : σ → α → Prop} {s : σ} (hI : I s)
    (hstep : ∀ s a, I s → C s a → I (step s a)) (hP : ∀ s, I s → P s) {as : List α}
    (h : EachStep step C s as) : Always step P s as := by
  induction as generalizing s with
  | nil => exact hP s hI
  | cons a as ih => exact ⟨hP s hI, ih (hstep s a hI h.1) h.2⟩

/-- What no step brings about holds all along a run at whose end it holds. -/
theorem always_of_last {P : σ → Prop} (hback : ∀ s a, P (step s a) → P s) {s : σ} {as : List α}
    (h : P (run step s as)) : Always step P s as := by
  induction as generalizing s with
  | nil => exact h
  | cons a as ih => exact ⟨hback s a (ih h).head, ih h⟩

/-- `always_of_eachStep` along a run whose states all satisfy `U`. -/
theorem always_of_eachStep_under {P U : σ → Prop} {C : σ → α → Prop} {s : σ} {as : List α}
    (hU : Always step U s as) (hP : P s) (hstep : ∀ s a, U s → P s → C s a → P (step s a))
    (h : EachStep step C s as) : Always step P s as := by
  induction as generalizing s with
  | nil => exact hP
  | cons a as ih => exact ⟨hP, ih hU.2 (hstep s a hU.1 hP h.1) h.2⟩

/-- **The exact condition of a run.** If, from a good state that satisfies the
invariant, a step that may happen leads to a good state exactly under `C` and
then keeps the invariant, the runs all of whose states are good are those all of
whose steps satisfy `C`. -/
theorem always_iff_eachStep_of {P I : σ → Prop} {U C : σ → α → Prop} {s : σ} (hP : P s) (hI : I s)
    (hC : ∀ s a, I s → P s → U s a → (P (step s a) ↔ C s a))
    (hstep : ∀ s a, I s → P s → U s a → C s a → I (step s a)) {as : List α}
    (hU : EachStep step U s as) : Always step P s as ↔ EachStep step C s as := by
  induction as generalizing s with
  | nil => exact iff_of_true hP trivial
  | cons a as ih =>
    constructor
    · intro h
      have ha : C s a := (hC s a hI hP hU.1).mp h.2.head
      exact ⟨ha, (ih h.2.head (hstep s a hI hP hU.1 ha) hU.2).mp h.2⟩
    · intro h
      have hP' : P (step s a) := (hC s a hI hP hU.1).mpr h.1
      exact ⟨hP, (ih hP' (hstep s a hI hP hU.1 h.1) hU.2).mpr h.2⟩

theorem eachStep_of_forall_mem {C : α → Prop} {as : List α} (h : ∀ a ∈ as, C a) (s : σ) :
    EachStep step (fun _ => C) s as := by
  induction as generalizing s with
  | nil => trivial
  | cons a as ih =>
    exact ⟨h a List.mem_cons_self, ih (fun b hb => h b (List.mem_cons_of_mem a hb)) _⟩

theorem EachStep.mono {C D : σ → α → Prop} (h : ∀ s a, C s a → D s a) {s : σ} {as : List α}
    (hC : EachStep step C s as) : EachStep step D s as := by
  induction as generalizing s with
  | nil => trivial
  | cons a as ih => exact ⟨h s a hC.1, ih hC.2⟩

/-- Two conditions that agree in every state hold along the same runs. -/
theorem eachStep_congr {C D : σ → α → Prop} (h : ∀ s a, C s a ↔ D s a) (s : σ) (as : List α) :
    EachStep step C s as ↔ EachStep step D s as :=
  ⟨.mono fun s a => (h s a).mp, .mono fun s a => (h s a).mpr⟩

/-- Two conditions that agree under an invariant, which one of them keeps. -/
theorem eachStep_iff_of_invariant {I : σ → Prop} {C D : σ → α → Prop} {s : σ} (hI : I s)
    (hCD : ∀ s a, I s → (C s a ↔ D s a)) (hstep : ∀ s a, I s → D s a → I (step s a))
    (as : List α) : EachStep step C s as ↔ EachStep step D s as := by
  induction as generalizing s with
  | nil => exact Iff.rfl
  | cons a as ih =>
    constructor
    · intro h
      have ha : D s a := (hCD s a hI).mp h.1
      exact ⟨ha, (ih (hstep s a hI ha)).mp h.2⟩
    · intro h
      exact ⟨(hCD s a hI).mpr h.1, (ih (hstep s a hI h.1)).mpr h.2⟩

/-- What good states that satisfy an invariant make the steps of a run satisfy. -/
theorem eachStep_of_always {P I : σ → Prop} {U D : σ → α → Prop} {s : σ} {as : List α} (hI : I s)
    (hstep : ∀ s a, I s → U s a → I (step s a)) (hD : ∀ s a, I s → P s → U s a → D s a)
    (hU : EachStep step U s as) (hP : Always step P s as) : EachStep step D s as := by
  induction as generalizing s with
  | nil => trivial
  | cons a as ih => exact ⟨hD s a hI hP.1 hU.1, ih (hstep s a hI hU.1) hU.2 hP.2⟩

/-- **The measure rule.** A run that does not raise a quantity that no step
lowers, and every step outside `C` raises, has no step outside `C`. -/
theorem eachStep_of_le_under {β : Type*} [Preorder β] {m : σ → β} {U : σ → Prop}
    {C : σ → α → Prop} {s : σ} {as : List α} (hU : Always step U s as)
    (hmono : ∀ s a, U s → m s ≤ m (step s a))
    (hlt : ∀ s a, U s → ¬ C s a → m s < m (step s a)) (h : m (run step s as) ≤ m s) :
    EachStep step C s as := by
  have hrun (as : List α) : ∀ s, Always step U s as → m s ≤ m (run step s as) := by
    induction as with
    | nil => exact fun s _ => le_refl (m s)
    | cons a as ih => exact fun s hU => (hmono s a hU.1).trans (ih _ hU.2)
  induction as generalizing s with
  | nil => trivial
  | cons a as ih =>
    rw [run_cons] at h
    refine ⟨?_, ih hU.2 (h.trans (hmono s a hU.1))⟩
    by_contra hc
    exact absurd ((hlt s a hU.1 hc).trans_le ((hrun as _ hU.2).trans h)) (lt_irrefl _)

theorem eachStep_of_le {β : Type*} [Preorder β] {m : σ → β} {C : σ → α → Prop}
    (hmono : ∀ s a, m s ≤ m (step s a)) (hlt : ∀ s a, ¬ C s a → m s < m (step s a)) {s : σ}
    {as : List α} (h : m (run step s as) ≤ m s) : EachStep step C s as :=
  eachStep_of_le_under (U := fun _ => True) (always_of_invariant trivial (fun _ _ _ => trivial) as)
    (fun s a _ => hmono s a) (fun s a _ => hlt s a) h

theorem eachStep_true (s : σ) (as : List α) : EachStep step (fun _ _ => True) s as :=
  eachStep_of_forall_mem (fun _ _ => trivial) s

/-- The exact condition where every step may happen. -/
theorem always_iff_eachStep {P I : σ → Prop} {C : σ → α → Prop} {s : σ} (hP : P s) (hI : I s)
    (hC : ∀ s a, I s → P s → (P (step s a) ↔ C s a))
    (hstep : ∀ s a, I s → P s → C s a → I (step s a)) (as : List α) :
    Always step P s as ↔ EachStep step C s as :=
  always_iff_eachStep_of hP hI (fun s a hI hP _ => hC s a hI hP)
    (fun s a hI hP _ => hstep s a hI hP) (eachStep_true s as)

end Oxmux.Lib.Runs
