import Oxmux.Client.Terminals

/-! The output of a mounted terminal. The registry of terminals and the store's
handlers are filled together, and emptied by different events. -/

namespace Oxmux.Client
open Oxmux.Lib Oxmux.Lib.Runs Browser

/-- The browser with the panes that were mounted since they were last detached or
cleaned up. -/
structure Linked where
  browser : Browser
  mounted : List Text

namespace Linked

def new : Linked := { browser := .new, mounted := [] }

def mountedAfter (l : Linked) : BrowserEvent → List Text
  | .mount component paneId container _ _ =>
    if l.browser.terms.get component = none ∧ container = true ∧ paneId ≠ [] then
      paneId :: l.mounted
    else l.mounted
  | .detach _ paneId => l.mounted.filter (· ≠ paneId)
  | .store e => l.mounted.filter fun paneId => !l.browser.store.cleans paneId e.val
  | _ => l.mounted

def step (l : Linked) (e : BrowserEvent) : Linked :=
  { browser := l.browser.step e, mounted := l.mountedAfter e }

/-- **Output arrives**: a mounted pane has a handler, that of its terminal. -/
def Receives (l : Linked) : Prop :=
  ∀ paneId ∈ l.mounted, ∃ terminal, l.browser.terminalOf paneId = some terminal ∧
    l.browser.store.paneHandlers.get paneId = some terminal

/-- A pane whose terminal is found by `mount` has its handler still. -/
def FindsHandler (l : Linked) : BrowserEvent → Prop
  | .mount component paneId container _ _ =>
    l.browser.terms.get component = none → container = true → paneId ≠ [] →
      l.browser.terminalRegistry.get paneId ≠ none →
        l.browser.store.paneHandlers.get paneId ≠ none
  | _ => True

instance (l : Linked) : (e : BrowserEvent) → Decidable (l.FindsHandler e)
  | .mount .. => inferInstanceAs (Decidable (_ → _ → _ → _ → _))
  | .elapse .. | .detach .. | .timer | .frame .. | .store .. => .isTrue trivial

/-- A handler belongs to a terminal of the registry, and a mounted pane is shown. -/
structure Sound (l : Linked) : Prop where
  counted : l.browser.Counted
  handlers : ∀ paneId handler, l.browser.store.paneHandlers.get paneId = some handler →
    l.browser.terminalOf paneId = some handler
  shown : ∀ paneId ∈ l.mounted, ∃ component terminal,
    l.browser.terms.get component = some (paneId, terminal)

theorem sound_new : new.Sound :=
  ⟨counted_new, by simp [new, Browser.new, Store.new], by simp [new]⟩

theorem receives_new : new.Receives := by simp [Receives, new]

variable {l : Linked}

/-! ## What is known -/

theorem not_mounting {component : Nat} {paneId : Text} {container : Bool}
    (h : (l.browser.terms.get component).isSome = true ∨ container = false ∨ paneId = []) :
    ¬ (l.browser.terms.get component = none ∧ container = true ∧ paneId ≠ []) := by
  rintro ⟨hc, hcontainer, hp⟩
  rcases h with h | h | h
  · simp [hc] at h
  · simp [hcontainer] at h
  · exact hp h

theorem mountedAfter_ignored {component : Nat} {paneId : Text} {container : Bool}
    {cols rows : Nat}
    (h : (l.browser.terms.get component).isSome = true ∨ container = false ∨ paneId = []) :
    l.mountedAfter (.mount component paneId container cols rows) = l.mounted :=
  if_neg (not_mounting h)

theorem mountedAfter_mount {component : Nat} {paneId : Text} {cols rows : Nat}
    (hc : l.browser.terms.get component = none) (hp : paneId ≠ []) :
    l.mountedAfter (.mount component paneId true cols rows) = paneId :: l.mounted := by
  simp [mountedAfter, hc, hp]

/-- A component that was not mounted shows the pane now. -/
theorem Sound.shown_mount (h : l.Sound) {component terminal : Nat} {paneId : Text}
    (hc : l.browser.terms.get component = none) :
    ∀ p ∈ paneId :: l.mounted, ∃ c n,
      (l.browser.terms.set component (paneId, terminal)).get c = some (p, n) := by
  intro p hm
  rcases List.mem_cons.mp hm with rfl | hm
  · exact ⟨component, terminal, Table.get_set_self _ _ _⟩
  · obtain ⟨c, n, hget⟩ := h.shown p hm
    have hne : c ≠ component := by
      rintro rfl
      rw [hc] at hget
      cases hget
    exact ⟨c, n, by rw [Table.get_set_ne hne]; exact hget⟩

theorem Sound.shown_detach (h : l.Sound) {component : Nat} {paneId : Text}
    (hc : (l.browser.terms.get component).all (·.1 = paneId) = true) :
    ∀ p ∈ l.mounted.filter (· ≠ paneId), ∃ c n,
      (l.browser.terms.delete component).get c = some (p, n) := by
  intro p hm
  obtain ⟨hm, hp⟩ := List.mem_filter.mp hm
  obtain ⟨c, n, hget⟩ := h.shown p hm
  have hne : c ≠ component := by
    rintro rfl
    simp only [hget, Option.all_some, decide_eq_true_eq] at hc
    simp [hc] at hp
  exact ⟨c, n, by rw [Table.get_delete_ne hne]; exact hget⟩

theorem Sound.ne_of_unused (h : l.Sound) {paneId : Text} {entry : TerminalEntry}
    (he : l.browser.terminalRegistry.get paneId = some entry) (hr : entry.refCount ≤ 0) :
    ∀ p ∈ l.mounted, p ≠ paneId := by
  rintro p hm rfl
  obtain ⟨component, terminal, hget⟩ := h.shown p hm
  have hcount := h.counted.counts p entry he
  have hzero : l.browser.shown p = 0 := by omega
  exact h.counted.shown_eq_zero_iff.mp hzero component terminal hget

theorem Sound.of_eq (h : l.Sound) {b : Browser} (hc : b.Counted)
    (hh : b.store.paneHandlers = l.browser.store.paneHandlers)
    (ht : ∀ paneId, b.terminalOf paneId = l.browser.terminalOf paneId)
    {mounted : List Text} (hs : ∀ paneId ∈ mounted, ∃ component terminal,
      b.terms.get component = some (paneId, terminal)) : Sound { browser := b, mounted } where
  counted := hc
  handlers paneId handler hget := by
    rw [hh] at hget
    exact (ht paneId).trans (h.handlers paneId handler hget)
  shown := hs

theorem paneHandlers_createTerminal (component : Nat) (paneId : Text) (cols rows : Nat)
    (b : Browser) : (b.createTerminal component paneId cols rows).store.paneHandlers =
      b.store.paneHandlers.set paneId b.terminals :=
  (((b.store.registerPaneHandler paneId b.terminals).sends_sendVia _ _).trans
    (Store.sends_sendMsg _ (.r paneId cols rows))).paneHandlers

theorem paneHandlers_unsubscribePane (paneId : Text) (s : Store) :
    (s.unsubscribePane paneId).paneHandlers = s.paneHandlers.delete paneId :=
  (Store.sends_sendVia { s with paneHandlers := s.paneHandlers.delete paneId } _ _).paneHandlers

theorem sound_stepped (h : l.Sound) {e : BrowserEvent} {b : Browser}
    (hs : l.browser.Stepped e b) (hc : b.Counted) (hd : l.browser.DetachesMounted e) :
    Sound { browser := b, mounted := l.mountedAfter e } := by
  cases hs with
  | elapsed | timerKept => exact h.of_eq hc rfl (fun _ => rfl) h.shown
  | timerWaits | noFrame => exact h
  | mountIgnored hi =>
    rw [mountedAfter_ignored hi]
    exact h
  | @reattached component paneId cols rows existing hcomp hp he =>
    rw [mountedAfter_mount hcomp hp]
    exact h.of_eq hc rfl (terminalOf_set he (by rfl) (by rfl)) (h.shown_mount hcomp)
  | @created component paneId cols rows hcomp hp he =>
    rw [mountedAfter_mount hcomp hp]
    refine ⟨hc, fun p handler hget => ?_, h.shown_mount hcomp⟩
    rw [paneHandlers_createTerminal] at hget
    by_cases hpp : p = paneId
    · rw [hpp, Table.get_set_self] at hget
      simpa [terminalOf, createTerminal, hpp] using hget
    · rw [Table.get_set_ne hpp] at hget
      simpa only [terminalOf, createTerminal, Table.get_set_ne hpp] using h.handlers p handler hget
  | @detachIgnored component paneId =>
    exact h.of_eq hc rfl (fun _ => rfl) fun p hm => h.shown p (List.mem_filter.mp hm).1
  | @detachedUnknown component paneId hcomp _ _ =>
    exact h.of_eq hc rfl (fun _ => rfl) (h.shown_detach hcomp)
  | @detached component paneId entry hcomp _ he =>
    exact h.of_eq hc rfl (terminalOf_set he (by rfl) (by rfl)) (h.shown_detach hcomp)
  | @timerDisposed paneId due timers entry _ _ _ _ =>
    refine ⟨hc, fun p handler hget => ?_, h.shown⟩
    simp only [paneHandlers_unsubscribePane, Table.get_delete] at hget
    split at hget
    · next hpp =>
      simpa only [terminalOf, Table.get_delete_ne hpp] using h.handlers p handler hget
    · cases hget
  | @frameRun frame frames cols rows =>
    obtain ⟨hsends, -, -, hterms⟩ := runFrame_keeps cols rows frame { l.browser with frames }
    exact h.of_eq hc hsends.paneHandlers
      (fun p => terminalOf_of_refs (refs_runFrame cols rows frame { l.browser with frames } p))
      (fun p hm => by simpa only [hterms] using h.shown p hm)
  | stored e =>
    refine ⟨hc, fun p handler hget => ?_, fun p hm => h.shown p (List.mem_filter.mp hm).1⟩
    simp only [Store.get_paneHandlers_step e.property] at hget
    split at hget
    · cases hget
    · exact h.handlers p handler hget

/-- The handler of a pane is that of its terminal, so there need only be one. -/
theorem Sound.receives_iff (h : l.Sound) :
    l.Receives ↔ ∀ paneId ∈ l.mounted, l.browser.store.paneHandlers.get paneId ≠ none := by
  refine forall₂_congr fun paneId _ => ⟨?_, fun hn => ?_⟩
  · rintro ⟨terminal, -, hget⟩
    simp [hget]
  · obtain ⟨handler, hget⟩ := Option.ne_none_iff_exists'.mp hn
    exact ⟨handler, h.handlers paneId handler hget, hget⟩

theorem receives_stepped_iff (hl : l.Sound) (h : l.Receives) {e : BrowserEvent} {b : Browser}
    (hs : l.browser.Stepped e b) (hc : b.Counted) (hd : l.browser.DetachesMounted e) :
    Receives { browser := b, mounted := l.mountedAfter e } ↔ l.FindsHandler e := by
  rw [(sound_stepped hl hs hc hd).receives_iff]
  rw [hl.receives_iff] at h
  cases hs with
  | elapsed | timerKept | timerWaits | noFrame => exact iff_of_true h trivial
  | detachIgnored | detachedUnknown | detached =>
    exact iff_of_true (fun p hm => h p (List.mem_filter.mp hm).1) trivial
  | mountIgnored hi =>
    rw [mountedAfter_ignored hi]
    exact iff_of_true h fun hcomp hcontainer hp => absurd ⟨hcomp, hcontainer, hp⟩ (not_mounting hi)
  | @reattached component paneId cols rows existing hcomp hp he =>
    rw [mountedAfter_mount hcomp hp]
    simp only [List.forall_mem_cons]
    constructor
    · intro hn _ _ _ _
      exact hn.1
    · intro hf
      exact ⟨hf hcomp rfl hp (by simp [he]), h⟩
  | @created component paneId cols rows hcomp hp he =>
    rw [mountedAfter_mount hcomp hp]
    refine iff_of_true (fun p hm => ?_) fun _ _ _ hn => absurd he hn
    rw [paneHandlers_createTerminal]
    by_cases hpp : p = paneId
    · simp [hpp]
    · rw [Table.get_set_ne hpp]
      exact h p ((List.mem_cons.mp hm).resolve_left hpp)
  | @timerDisposed paneId due timers entry _ _ he hr =>
    refine iff_of_true (fun p hm => ?_) trivial
    simp only [paneHandlers_unsubscribePane]
    rw [Table.get_delete_ne (hl.ne_of_unused he hr p hm)]
    exact h p hm
  | @frameRun frame frames cols rows =>
    have hsends := (runFrame_keeps cols rows frame { l.browser with frames }).1
    refine iff_of_true (fun p hm => ?_) trivial
    rw [hsends.paneHandlers]
    exact h p hm
  | stored e =>
    refine iff_of_true (fun p hm => ?_) trivial
    obtain ⟨hm, hkeep⟩ := List.mem_filter.mp hm
    simp only [Store.get_paneHandlers_step e.property]
    rw [if_neg (by simpa using hkeep)]
    exact h p hm

/-- **Output arrives in every state of a run exactly when** no terminal that a
`mount` finds has lost its handler. -/
theorem receives_iff_findsHandler {es : List BrowserEvent}
    (hd : EachStep step (fun l e => l.browser.DetachesMounted e) new es) :
    Always step Receives new es ↔ EachStep step FindsHandler new es :=
  always_iff_eachStep_of receives_new sound_new
    (fun l e hl h hd =>
      receives_stepped_iff hl h (l.browser.stepped e) (counted_step hl.counted hd) hd)
    (fun l e hl _ hd _ => sound_stepped hl (l.browser.stepped e) (counted_step hl.counted hd) hd) hd

/-! ## A session that is disconnected and comes back -/

/-- The pane's session is disconnected, and its component goes. -/
def disconnected : List BrowserEvent :=
  [.mount 0 "s::%0".toList true 80 24, .store ⟨.disconnectSession "s".toList, rfl⟩,
    .detach 0 "s::%0".toList, .elapse 100]

/-- The pane is mounted again while its terminal is there still. -/
theorem remounted_without_handler :
    ¬ Always step Receives new (disconnected ++ [.mount 1 "s::%0".toList true 80 24]) := by
  intro h
  obtain ⟨terminal, -, hget⟩ := h.last "s::%0".toList (by decide +kernel)
  have hnone : (run step new
      (disconnected ++ [.mount 1 "s::%0".toList true 80 24])).browser.store.paneHandlers.get
        "s::%0".toList = none := by
    decide +kernel
  rw [hnone] at hget
  cases hget

/-- Mounted again behind the timer, the pane has a new terminal. -/
theorem receives_new_terminal :
    Always step Receives new
      (disconnected ++ [.elapse 400, .timer, .mount 1 "s::%0".toList true 80 24,
        .mount 2 "s::%0".toList true 80 24]) :=
  (receives_iff_findsHandler (by decide +kernel)).mpr (by decide +kernel)

end Linked

end Oxmux.Client
