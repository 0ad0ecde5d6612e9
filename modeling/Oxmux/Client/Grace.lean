import Oxmux.Client.Terminals

/-! The grace period of a terminal. When the last component leaves a pane, its
terminal is to wait half a second for the next one. -/

namespace Oxmux.Client
open Oxmux.Lib Oxmux.Lib.Runs Browser

/-- The browser with an account of the panes that components left: when it was
last, and which terminal they had. -/
structure Graced where
  browser : Browser
  lastDetach : Table Text (Nat × Nat)

namespace Graced

def new : Graced := { browser := .new, lastDetach := [] }

/-- When a pane was left, after this event. -/
def left (g : Graced) : BrowserEvent → Table Text (Nat × Nat)
  | .detach component paneId =>
    match g.browser.terms.get component with
    | some (pane, terminal) =>
      if pane = paneId ∧ paneId ≠ [] then g.lastDetach.set paneId (g.browser.now, terminal)
      else g.lastDetach
    | none => g.lastDetach
  | _ => g.lastDetach

def step (g : Graced) (e : BrowserEvent) : Graced :=
  { browser := g.browser.step e, lastDetach := g.left e }

/-- **Terminals are kept**: each component that shows a pane has the terminal of
the registry, and so has a pane that was left within the grace period. -/
structure Kept (g : Graced) : Prop where
  attached : ∀ component paneId terminal, g.browser.terms.get component = some (paneId, terminal) →
    g.browser.terminalOf paneId = some terminal
  grace : ∀ paneId time terminal, g.lastDetach.get paneId = some (time, terminal) →
    g.browser.now < time + gracePeriod → g.browser.terminalOf paneId = some terminal

/-- If the first timer finds its terminal unused, the others of its pane are due
as well. -/
def EndsLast (b : Browser) : List (Text × Nat) → Prop
  | (paneId, due) :: timers => due ≤ b.now →
    (b.terminalRegistry.get paneId).any (·.refCount ≤ 0) = true →
      ∀ t ∈ timers, t.1 = paneId → t.2 ≤ b.now
  | [] => True

instance (b : Browser) : (timers : List (Text × Nat)) → Decidable (EndsLast b timers)
  | _ :: _ => inferInstanceAs (Decidable (_ → _ → ∀ t ∈ _, _ → _))
  | [] => .isTrue trivial

/-- No timer disposes of a terminal that was left again. -/
def Timely (g : Graced) : BrowserEvent → Prop
  | .timer => EndsLast g.browser g.browser.timers
  | _ => True

instance (g : Graced) : (e : BrowserEvent) → Decidable (g.Timely e)
  | .timer => inferInstanceAs (Decidable (EndsLast _ _))
  | .elapse .. | .mount .. | .detach .. | .frame .. | .store .. => .isTrue trivial

/-- What is known of the timers. -/
structure Accounted (g : Graced) : Prop where
  counted : g.browser.Counted
  past : ∀ paneId time terminal, g.lastDetach.get paneId = some (time, terminal) →
    time ≤ g.browser.now
  started : ∀ paneId due, (paneId, due) ∈ g.browser.timers →
    ∃ time terminal, g.lastDetach.get paneId = some (time, terminal) ∧ due ≤ time + gracePeriod
  pending : ∀ paneId time terminal entry, g.lastDetach.get paneId = some (time, terminal) →
    g.browser.now < time + gracePeriod → g.browser.terminalRegistry.get paneId = some entry →
      entry.refCount ≤ 0 → (paneId, time + gracePeriod) ∈ g.browser.timers

theorem accounted_new : new.Accounted :=
  ⟨counted_new, by simp [new], by simp [new, Browser.new], by simp [new]⟩

theorem kept_new : new.Kept := ⟨by simp [new, Browser.new], by simp [new]⟩

variable {g : Graced}

theorem left_detach {component : Nat} {paneId : Text}
    (hd : g.browser.DetachesMounted (.detach component paneId)) (hp : paneId ≠ []) :
    ∃ terminal, g.browser.terms.get component = some (paneId, terminal) ∧
      g.left (.detach component paneId) = g.lastDetach.set paneId (g.browser.now, terminal) := by
  obtain ⟨terminal, hc⟩ := detachesMounted_iff.mp hd
  exact ⟨terminal, hc, by simp [left, hc, hp]⟩

theorem left_ignored {component : Nat} {paneId : Text}
    (h : ¬ (g.browser.terms.get component).all (·.1 = paneId) = true ∨ paneId = []) :
    g.left (.detach component paneId) = g.lastDetach := by
  cases hc : g.browser.terms.get component with
  | none => simp [left, hc]
  | some term =>
    have hn : ¬ (term.1 = paneId ∧ paneId ≠ []) := by
      rw [hc] at h
      rintro ⟨hp, hne⟩
      exact h.elim (fun h => h (by simp [hp])) hne
    simp only [left, hc, if_neg hn]

/-- A step that is no detach, where time may pass and a timer may end. -/
theorem Accounted.of_subset (h : g.Accounted) {b : Browser} (hc : b.Counted)
    (hn : g.browser.now ≤ b.now) (ht : b.timers ⊆ g.browser.timers)
    (hp : ∀ paneId time terminal entry, g.lastDetach.get paneId = some (time, terminal) →
      b.now < time + gracePeriod → b.terminalRegistry.get paneId = some entry →
        entry.refCount ≤ 0 → (paneId, time + gracePeriod) ∈ b.timers) :
    Accounted { browser := b, lastDetach := g.lastDetach } where
  counted := hc
  past paneId time terminal hd := (h.past paneId time terminal hd).trans hn
  started paneId due hm := h.started paneId due (ht hm)
  pending := hp

/-- The timer of a last detach that is less than the grace period ago does not
end. -/
theorem Accounted.pending_rest (h : g.Accounted) {paneId paneId' : Text} {due : Nat}
    {timers : List (Text × Nat)} (ht : g.browser.timers = (paneId, due) :: timers)
    (hdue : due ≤ g.browser.now) {time terminal : Nat} {entry : TerminalEntry}
    (hl : g.lastDetach.get paneId' = some (time, terminal))
    (hn : g.browser.now < time + gracePeriod)
    (he : g.browser.terminalRegistry.get paneId' = some entry) (hr : entry.refCount ≤ 0) :
    (paneId', time + gracePeriod) ∈ timers := by
  have hm := h.pending paneId' time terminal entry hl hn he hr
  rw [ht] at hm
  rcases List.mem_cons.mp hm with heq | hm
  · obtain ⟨-, rfl⟩ := Prod.mk.inj heq
    omega
  · exact hm

/-- No timer is due later than one that started now. -/
theorem Accounted.due_le (h : g.Accounted) {paneId : Text} {due : Nat}
    (hm : (paneId, due) ∈ g.browser.timers) : due ≤ g.browser.now + gracePeriod := by
  obtain ⟨time, terminal, hl, hdue⟩ := h.started paneId due hm
  have hpast := h.past paneId time terminal hl
  omega

/-- A pane is left, and its terminal may be unused now. -/
theorem Accounted.detached (h : g.Accounted) {b : Browser} (hc : b.Counted) {paneId : Text}
    {entry : TerminalEntry} {terminal : Nat} (hn : b.now = g.browser.now)
    (hreg : b.terminalRegistry = g.browser.terminalRegistry.set paneId entry)
    (ht : b.timers = if entry.refCount ≤ 0 then
      g.browser.timers ++ [(paneId, g.browser.now + gracePeriod)] else g.browser.timers) :
    Accounted
      { browser := b, lastDetach := g.lastDetach.set paneId (g.browser.now, terminal) } := by
  have hsub : g.browser.timers ⊆ b.timers := by
    rw [ht]
    split
    · exact List.subset_append_left _ _
    · exact List.Subset.refl _
  have hmem (p : Text) (due : Nat) (hm : (p, due) ∈ b.timers) :
      (p, due) ∈ g.browser.timers ∨ p = paneId ∧ due = g.browser.now + gracePeriod := by
    rw [ht] at hm
    split at hm
    · exact (List.mem_append.mp hm).imp_right fun hm => Prod.mk.inj (List.mem_singleton.mp hm)
    · exact .inl hm
  refine ⟨hc, fun p time n hl => ?_, fun p due hm => ?_, fun p time n e hl hlt he hr => ?_⟩
  · simp only [hn]
    by_cases hp : p = paneId
    · rw [hp, Table.get_set_self] at hl
      cases hl
      exact Nat.le_refl _
    · rw [Table.get_set_ne hp] at hl
      exact h.past p time n hl
  · by_cases hp : p = paneId
    · refine ⟨g.browser.now, terminal, by rw [hp, Table.get_set_self], ?_⟩
      rcases hmem p due hm with hm | ⟨-, hdue⟩
      · exact h.due_le hm
      · exact hdue.le
    · obtain ⟨time, n, hl, hdue⟩ := h.started p due ((hmem p due hm).resolve_right fun h => hp h.1)
      exact ⟨time, n, by rw [Table.get_set_ne hp]; exact hl, hdue⟩
  · simp only [hn] at hlt
    simp only [hreg] at he
    by_cases hp : p = paneId
    · rw [hp, Table.get_set_self] at hl he
      cases hl
      cases he
      simp only [ht, if_pos hr, hp]
      exact List.mem_append_right _ (List.mem_singleton_self _)
    · rw [Table.get_set_ne hp] at hl he
      exact hsub (h.pending p time n e hl hlt he hr)

/-- **What is known of the timers stays known.** -/
theorem accounted_stepped (h : g.Accounted) {e : BrowserEvent} {b : Browser}
    (hs : g.browser.Stepped e b) (hc : b.Counted) (hd : g.browser.DetachesMounted e) :
    Accounted { browser := b, lastDetach := g.left e } := by
  cases hs with
  | elapsed ms =>
    refine h.of_subset hc (Nat.le_add_right _ _) (List.Subset.refl _) ?_
    intro paneId time terminal entry hl hn he hr
    exact h.pending paneId time terminal entry hl (by simp only at hn; omega) he hr
  | mountIgnored | timerWaits | noFrame | stored =>
    exact h.of_subset hc (Nat.le_refl _) (List.Subset.refl _) h.pending
  | @frameRun frame frames cols rows =>
    obtain ⟨-, hnow, htimers, -⟩ := runFrame_keeps cols rows frame { g.browser with frames }
    refine h.of_subset hc hnow.ge (fun t ht => htimers ▸ ht) ?_
    intro paneId time terminal entry hl hn he hr
    obtain ⟨entry', he', -, hcount⟩ := exists_of_refs
      (refs_runFrame cols rows frame { g.browser with frames } paneId) he
    rw [htimers]
    exact h.pending paneId time terminal entry' hl (hnow ▸ hn) he' (hcount ▸ hr)
  | detachIgnored hi =>
    rw [left_ignored hi]
    exact h
  | @reattached component paneId cols rows existing _ _ he =>
    refine h.of_subset hc (Nat.le_refl _) (List.Subset.refl _) ?_
    intro paneId' time terminal entry hl hn he' hr
    simp only [reattach] at he'
    by_cases hp : paneId' = paneId
    · rw [hp, Table.get_set_self] at he'
      cases he'
      simp only at hr
      exact h.pending paneId' time terminal existing hl hn (hp ▸ he) (by omega)
    · rw [Table.get_set_ne hp] at he'
      exact h.pending paneId' time terminal entry hl hn he' hr
  | @created component paneId cols rows _ _ he =>
    refine h.of_subset hc (Nat.le_refl _) (List.Subset.refl _) ?_
    intro paneId' time terminal entry hl hn he' hr
    simp only [createTerminal] at he'
    by_cases hp : paneId' = paneId
    · rw [hp, Table.get_set_self] at he'
      cases he'
      cases hr
    · rw [Table.get_set_ne hp] at he'
      exact h.pending paneId' time terminal entry hl hn he' hr
  | @detachedUnknown component paneId _ hp he =>
    obtain ⟨terminal, hget, -⟩ := left_detach hd hp
    exact absurd he (h.counted.get_ne_none hget)
  | @detached component paneId entry _ hp he =>
    obtain ⟨terminal, hget, hl⟩ := left_detach hd hp
    rw [hl]
    exact h.detached hc rfl rfl rfl
  | timerKept ht hdue he =>
    refine h.of_subset hc (Nat.le_refl _) (ht ▸ List.subset_cons_self _ _) ?_
    intro paneId' time terminal entry hl hn he' hr
    exact h.pending_rest ht hdue hl hn he' hr
  | timerDisposed ht hdue he hr =>
    refine h.of_subset hc (Nat.le_refl _) (ht ▸ List.subset_cons_self _ _) ?_
    intro paneId' time terminal entry' hl hn he' hr'
    simp only [Table.get_delete] at he'
    split at he'
    · exact h.pending_rest ht hdue hl hn he' hr'
    · cases he'

/-- A component that shows a pane has its terminal, as the counts are right. -/
theorem kept_iff_grace (hc : g.browser.Counted) :
    g.Kept ↔ ∀ paneId time terminal, g.lastDetach.get paneId = some (time, terminal) →
      g.browser.now < time + gracePeriod → g.browser.terminalOf paneId = some terminal :=
  ⟨fun h => h.grace, fun h => ⟨fun component paneId terminal hget => by
    obtain ⟨entry, he, ht⟩ := hc.held component paneId terminal hget
    rw [terminalOf, he, Option.map_some, ht], h⟩⟩

theorem Kept.of_terminalOf (h : g.Kept) {b : Browser} (hc : b.Counted)
    (hn : g.browser.now ≤ b.now)
    (ht : ∀ paneId terminal, g.browser.terminalOf paneId = some terminal →
      b.terminalOf paneId = some terminal) :
    Kept { browser := b, lastDetach := g.lastDetach } :=
  (kept_iff_grace hc).mpr fun paneId time terminal hl hlt =>
    ht paneId terminal (h.grace paneId time terminal hl (Nat.lt_of_le_of_lt hn hlt))

theorem kept_disposed_iff (ha : g.Accounted) (h : g.Kept) {b : Browser} (hc : b.Counted)
    {paneId : Text} {due : Nat} {timers : List (Text × Nat)} {entry : TerminalEntry}
    (ht : g.browser.timers = (paneId, due) :: timers) (hdue : due ≤ g.browser.now)
    (he : g.browser.terminalRegistry.get paneId = some entry) (hr : entry.refCount ≤ 0)
    (hn : b.now = g.browser.now)
    (hreg : b.terminalRegistry = g.browser.terminalRegistry.delete paneId) :
    Kept { browser := b, lastDetach := g.lastDetach } ↔
      ∀ t ∈ timers, t.1 = paneId → t.2 ≤ g.browser.now := by
  have hgone : b.terminalOf paneId = none := by simp [terminalOf, hreg]
  rw [kept_iff_grace hc]
  constructor
  · rintro hk ⟨p, due'⟩ hm rfl
    obtain ⟨time, terminal, hl, hle⟩ := ha.started p due' (ht ▸ List.mem_cons_of_mem _ hm)
    by_contra hlt
    have hk' := hk p time terminal hl (by simp only at hlt ⊢; omega)
    simp only [hgone] at hk'
    cases hk'
  · intro htimely p time terminal hl hlt
    simp only [hn] at hlt
    by_cases hp : p = paneId
    · subst hp
      have hm := ha.pending_rest ht hdue hl hlt he hr
      have hle := htimely _ hm rfl
      simp only at hle
      omega
    · have hkept := h.grace p time terminal hl hlt
      simpa only [terminalOf, hreg, Table.get_delete_ne hp] using hkept

theorem kept_stepped_iff (ha : g.Accounted) (h : g.Kept) {e : BrowserEvent} {b : Browser}
    (hs : g.browser.Stepped e b) (hc : b.Counted) (hd : g.browser.DetachesMounted e) :
    Kept { browser := b, lastDetach := g.left e } ↔ g.Timely e := by
  cases hs with
  | elapsed ms =>
    exact iff_of_true (h.of_terminalOf hc (Nat.le_add_right _ _) fun _ _ ht => ht) trivial
  | mountIgnored | noFrame => exact iff_of_true h trivial
  | stored => exact iff_of_true (h.of_terminalOf hc (Nat.le_refl _) fun _ _ ht => ht) trivial
  | @frameRun frame frames cols rows =>
    obtain ⟨-, hnow, -⟩ := runFrame_keeps cols rows frame { g.browser with frames }
    refine iff_of_true (h.of_terminalOf hc hnow.ge fun paneId terminal ht => ?_) trivial
    have hrefs := refs_runFrame cols rows frame { g.browser with frames } paneId
    exact (terminalOf_of_refs hrefs).trans ht
  | @reattached component paneId cols rows existing _ _ he =>
    refine iff_of_true (h.of_terminalOf hc (Nat.le_refl _) fun paneId' terminal ht => ?_) trivial
    exact (terminalOf_set he (by rfl) (by rfl) paneId').trans ht
  | @created component paneId cols rows _ _ he =>
    refine iff_of_true (h.of_terminalOf hc (Nat.le_refl _) fun paneId' terminal ht => ?_) trivial
    have hp : paneId' ≠ paneId := by
      rintro rfl
      simp [terminalOf, he] at ht
    simpa only [terminalOf, createTerminal, Table.get_set_ne hp] using ht
  | detachIgnored hi =>
    rw [left_ignored hi]
    exact iff_of_true h trivial
  | @detachedUnknown component paneId _ hp he =>
    obtain ⟨terminal, hget, -⟩ := left_detach hd hp
    exact absurd he (ha.counted.get_ne_none hget)
  | @detached component paneId entry _ hp he =>
    obtain ⟨terminal, hget, hl⟩ := left_detach hd hp
    rw [hl]
    refine iff_of_true ((kept_iff_grace hc).mpr fun p time n hl' hlt => ?_) trivial
    refine (terminalOf_set he (by rfl) (by rfl) p).trans ?_
    by_cases hpp : p = paneId
    · rw [hpp, Table.get_set_self] at hl'
      cases hl'
      exact hpp ▸ h.attached component paneId _ hget
    · rw [Table.get_set_ne hpp] at hl'
      exact h.grace p time n hl' hlt
  | timerWaits hw =>
    refine iff_of_true h ?_
    unfold Timely
    cases ht : g.browser.timers with
    | nil => exact trivial
    | cons t timers =>
      intro hdue
      exact absurd (hw t.1 t.2 timers ht) (Nat.not_lt.mpr hdue)
  | @timerKept paneId due timers ht hdue he =>
    refine iff_of_true (h.of_terminalOf hc (Nat.le_refl _) fun _ _ ht => ht) ?_
    simp only [Timely, EndsLast, ht]
    intro _ hany
    obtain ⟨entry, he', hr⟩ := (Option.any_eq_true _ _).mp hany
    have hpos := he entry he'
    simp only [decide_eq_true_eq] at hr
    omega
  | @timerDisposed paneId due timers entry ht hdue he hr =>
    have htimely : g.Timely .timer ↔ ∀ t ∈ timers, t.1 = paneId → t.2 ≤ g.browser.now := by
      simp [Timely, EndsLast, ht, hdue, he, hr]
    exact (kept_disposed_iff ha h hc ht hdue he hr rfl rfl).trans htimely.symm

/-- **Terminals are kept in every state of a run exactly when** no timer ends
the wait of a later detach. -/
theorem kept_iff_timely {es : List BrowserEvent}
    (hd : EachStep step (fun g e => g.browser.DetachesMounted e) new es) :
    Always step Kept new es ↔ EachStep step Timely new es :=
  always_iff_eachStep_of kept_new accounted_new
    (fun g e ha h hd =>
      kept_stepped_iff ha h (g.browser.stepped e) (counted_step ha.counted hd) hd)
    (fun g e ha _ hd _ =>
      accounted_stepped ha (g.browser.stepped e) (counted_step ha.counted hd) hd)
    hd

/-! ## A second detach -/

/-- A component leaves its pane; another one shows it 100 ms later, and leaves it
after 300 ms. -/
def leftTwice : List BrowserEvent :=
  [.mount 0 ['a'] true 80 24, .detach 0 ['a'], .elapse 100, .mount 1 ['a'] true 80 24,
    .elapse 300, .detach 1 ['a'], .elapse 100]

/-- The first timer ends 100 ms after the second detach. -/
theorem first_timer_disposes : ¬ Always step Kept new (leftTwice ++ [.timer]) := by
  intro h
  have hkept := h.last.grace ['a'] 400 0 (by decide +kernel) (by decide +kernel)
  revert hkept
  decide +kernel

/-- With 500 ms between the detaches, the first timer finds the terminal in use. -/
theorem kept_left_once_more :
    Always step Kept new
      [.mount 0 ['a'] true 80 24, .detach 0 ['a'], .elapse 100, .mount 1 ['a'] true 80 24,
        .elapse 400, .timer, .detach 1 ['a'], .elapse 500, .timer] :=
  (kept_iff_timely (by decide +kernel)).mpr (by decide +kernel)

end Graced

end Oxmux.Client
