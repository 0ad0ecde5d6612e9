import Oxmux.Client.Handlers
import Oxmux.Lib.Runs

/-! The terminals of the browser, `client/src/composables/useTerminal.ts`: one for
each pane, shared by the components that show the pane and kept for half a second
when the last of them is gone. Terminals and components are numbered; a terminal's
number is that of its output handler. -/

namespace Oxmux.Client
open Oxmux.Lib Oxmux.Lib.Runs

/-! ## The registry -/

/-- An entry of the registry. `attachedTo` is the component whose container
holds the terminal. -/
structure TerminalEntry where
  terminal : Nat
  attachedTo : Nat
  refCount : Int
  lastSentCols : Nat
  lastSentRows : Nat
  deriving DecidableEq

def TerminalEntry.released (entry : TerminalEntry) : TerminalEntry :=
  { entry with refCount := entry.refCount - 1 }

/-- Whose terminal it is and how often it is used. -/
def TerminalEntry.refs (entry : TerminalEntry) : Nat × Int := (entry.terminal, entry.refCount)

/-- What is still to be done in the next animation frame. -/
inductive Frame where
  | first (paneId : Text)
  | reattached (paneId : Text) (terminal : Nat)

/-- Each timer of `detach` stands with the time at which it is due, each mounted
component with its pane and its `term`. -/
structure Browser where
  store : Store
  now : Nat
  terminalRegistry : Table Text TerminalEntry
  terminals : Nat
  timers : List (Text × Nat)
  frames : List Frame
  terms : Table Nat (Text × Nat)

/-- A `mount` may find its container or not; `cols` and `rows` are the size that fits. -/
inductive BrowserEvent where
  | elapse (ms : Nat)
  | mount (component : Nat) (paneId : Text) (container : Bool) (cols rows : Nat)
  | detach (component : Nat) (paneId : Text)
  | timer
  | frame (cols rows : Nat)
  | store (e : { e : Event // e.ofPane = false })

namespace Browser

def new : Browser where
  store := .new
  now := 0
  terminalRegistry := []
  terminals := 0
  timers := []
  frames := []
  terms := []

/-- `detach` waits so long before a terminal is disposed of. -/
def gracePeriod : Nat := 500

/-- `mount` of a pane that has a terminal. -/
def reattach (component : Nat) (paneId : Text) (existing : TerminalEntry) (b : Browser) :
    Browser :=
  { b with
    terminalRegistry := b.terminalRegistry.set paneId
      { existing with refCount := existing.refCount + 1, attachedTo := component }
    frames := b.frames ++ [.reattached paneId existing.terminal]
    terms := b.terms.set component (paneId, existing.terminal) }

/-- `mount` of a pane that has none: handler, subscription, size. -/
def createTerminal (component : Nat) (paneId : Text) (cols rows : Nat) (b : Browser) : Browser :=
  { b with
    store := ((b.store.registerPaneHandler paneId b.terminals).sendSubscribe paneId).sendResize
      paneId cols rows
    terminalRegistry := b.terminalRegistry.set paneId
      { terminal := b.terminals, attachedTo := component, refCount := 1,
        lastSentCols := cols, lastSentRows := rows }
    terminals := b.terminals + 1
    frames := b.frames ++ [.first paneId]
    terms := b.terms.set component (paneId, b.terminals) }

def mount (component : Nat) (paneId : Text) (container : Bool) (cols rows : Nat) (b : Browser) :
    Browser :=
  if !container || paneId = [] then b
  else match b.terminalRegistry.get paneId with
    | some existing => b.reattach component paneId existing
    | none => b.createTerminal component paneId cols rows

def detach (component : Nat) (paneId : Text) (b : Browser) : Browser :=
  if paneId = [] then b
  else
    let b := { b with terms := b.terms.delete component }
    match b.terminalRegistry.get paneId with
    | some entry =>
      { b with
        terminalRegistry := b.terminalRegistry.set paneId entry.released
        timers := if entry.released.refCount ≤ 0 then
          b.timers ++ [(paneId, b.now + gracePeriod)] else b.timers }
    | none => b

def disposeEntry (paneId : Text) (b : Browser) : Browser :=
  match b.terminalRegistry.get paneId with
  | some _ =>
    { b with
      store := b.store.unsubscribePane paneId
      terminalRegistry := b.terminalRegistry.delete paneId }
  | none => b

def graceOver (paneId : Text) (b : Browser) : Browser :=
  match b.terminalRegistry.get paneId with
  | some current => if current.refCount ≤ 0 then b.disposeEntry paneId else b
  | none => b

def sendResizeIfChanged (paneId : Text) (entry : TerminalEntry) (cols rows : Nat) (b : Browser) :
    Browser :=
  if cols = entry.lastSentCols ∧ rows = entry.lastSentRows then b
  else { b with
    store := b.store.sendResize paneId cols rows
    terminalRegistry := b.terminalRegistry.set paneId
      { entry with lastSentCols := cols, lastSentRows := rows } }

/-- An animation frame. The redraw keeps the entry that it was asked for, which
may have left the registry. -/
def runFrame (cols rows : Nat) (b : Browser) : Frame → Browser
  | .first paneId =>
    match b.terminalRegistry.get paneId with
    | some entry => b.sendResizeIfChanged paneId entry cols rows
    | none => b
  | .reattached paneId terminal =>
    { b with
      store := (b.store.sendSubscribe paneId).sendResize paneId cols rows
      terminalRegistry := match b.terminalRegistry.get paneId with
        | some entry =>
          if entry.terminal = terminal then b.terminalRegistry.set paneId
            { entry with lastSentCols := cols, lastSentRows := rows }
          else b.terminalRegistry
        | none => b.terminalRegistry }

/-- One event. A component mounts once and detaches with the pane that it had;
timers end in the order in which they were started, and not before they are due. -/
def step (b : Browser) : BrowserEvent → Browser
  | .elapse ms => { b with now := b.now + ms }
  | .mount component paneId container cols rows =>
    if (b.terms.get component).isNone then b.mount component paneId container cols rows else b
  | .detach component paneId =>
    if (b.terms.get component).all (·.1 = paneId) then b.detach component paneId else b
  | .timer =>
    match b.timers with
    | (paneId, due) :: timers =>
      if due ≤ b.now then { b with timers }.graceOver paneId else b
    | [] => b
  | .frame cols rows =>
    match b.frames with
    | frame :: frames => { b with frames }.runFrame cols rows frame
    | [] => b
  | .store e => { b with store := b.store.step e.val }

/-! ## What one event does -/

inductive Stepped (b : Browser) : BrowserEvent → Browser → Prop
  | elapsed (ms : Nat) : Stepped b (.elapse ms) { b with now := b.now + ms }
  | mountIgnored {component : Nat} {paneId : Text} {container : Bool} {cols rows : Nat}
      (h : (b.terms.get component).isSome = true ∨ container = false ∨ paneId = []) :
      Stepped b (.mount component paneId container cols rows) b
  | reattached {component : Nat} {paneId : Text} {cols rows : Nat} {existing : TerminalEntry}
      (hc : b.terms.get component = none) (hp : paneId ≠ [])
      (he : b.terminalRegistry.get paneId = some existing) :
      Stepped b (.mount component paneId true cols rows) (b.reattach component paneId existing)
  | created {component : Nat} {paneId : Text} {cols rows : Nat}
      (hc : b.terms.get component = none) (hp : paneId ≠ [])
      (he : b.terminalRegistry.get paneId = none) :
      Stepped b (.mount component paneId true cols rows)
        (b.createTerminal component paneId cols rows)
  | detachIgnored {component : Nat} {paneId : Text}
      (h : ¬ (b.terms.get component).all (·.1 = paneId) = true ∨ paneId = []) :
      Stepped b (.detach component paneId) b
  | detachedUnknown {component : Nat} {paneId : Text}
      (hc : (b.terms.get component).all (·.1 = paneId) = true) (hp : paneId ≠ [])
      (he : b.terminalRegistry.get paneId = none) :
      Stepped b (.detach component paneId) { b with terms := b.terms.delete component }
  | detached {component : Nat} {paneId : Text} {entry : TerminalEntry}
      (hc : (b.terms.get component).all (·.1 = paneId) = true) (hp : paneId ≠ [])
      (he : b.terminalRegistry.get paneId = some entry) :
      Stepped b (.detach component paneId)
        { b with
          terms := b.terms.delete component
          terminalRegistry := b.terminalRegistry.set paneId entry.released
          timers := if entry.released.refCount ≤ 0 then
            b.timers ++ [(paneId, b.now + gracePeriod)] else b.timers }
  | timerWaits (h : ∀ paneId due timers, b.timers = (paneId, due) :: timers → b.now < due) :
      Stepped b .timer b
  | timerKept {paneId : Text} {due : Nat} {timers : List (Text × Nat)}
      (ht : b.timers = (paneId, due) :: timers) (hdue : due ≤ b.now)
      (he : ∀ entry, b.terminalRegistry.get paneId = some entry → 0 < entry.refCount) :
      Stepped b .timer { b with timers }
  | timerDisposed {paneId : Text} {due : Nat} {timers : List (Text × Nat)}
      {entry : TerminalEntry} (ht : b.timers = (paneId, due) :: timers) (hdue : due ≤ b.now)
      (he : b.terminalRegistry.get paneId = some entry) (hr : entry.refCount ≤ 0) :
      Stepped b .timer
        { b with
          timers
          store := b.store.unsubscribePane paneId
          terminalRegistry := b.terminalRegistry.delete paneId }
  | noFrame (cols rows : Nat) : Stepped b (.frame cols rows) b
  | frameRun {frame : Frame} {frames : List Frame} (cols rows : Nat) :
      Stepped b (.frame cols rows) ({ b with frames }.runFrame cols rows frame)
  | stored (e : { e : Event // e.ofPane = false }) :
      Stepped b (.store e) { b with store := b.store.step e.val }

section
variable (b : Browser)

theorem stepped_mount (component : Nat) (paneId : Text) (container : Bool) (cols rows : Nat) :
    b.Stepped (.mount component paneId container cols rows)
      (b.step (.mount component paneId container cols rows)) := by
  simp only [step]
  cases hc : b.terms.get component with
  | some term => exact .mountIgnored (.inl (by simp [hc]))
  | none =>
    simp only [Option.isNone_none, if_true]
    cases container with
    | false => exact .mountIgnored (.inr (.inl rfl))
    | true =>
      by_cases hp : paneId = []
      · rw [show b.mount component paneId true cols rows = b by simp [mount, hp]]
        exact .mountIgnored (.inr (.inr hp))
      · cases he : b.terminalRegistry.get paneId with
        | some existing =>
          rw [show b.mount component paneId true cols rows =
            b.reattach component paneId existing by simp [mount, hp, he]]
          exact .reattached hc hp he
        | none =>
          rw [show b.mount component paneId true cols rows =
            b.createTerminal component paneId cols rows by simp [mount, hp, he]]
          exact .created hc hp he

theorem stepped_detach (component : Nat) (paneId : Text) :
    b.Stepped (.detach component paneId) (b.step (.detach component paneId)) := by
  simp only [step]
  by_cases hc : (b.terms.get component).all (·.1 = paneId) = true
  · rw [if_pos hc]
    by_cases hp : paneId = []
    · rw [show b.detach component paneId = b by simp [detach, hp]]
      exact .detachIgnored (.inr hp)
    · unfold detach
      rw [if_neg hp]
      cases he : b.terminalRegistry.get paneId with
      | none =>
        simp only [he]
        exact .detachedUnknown hc hp he
      | some entry =>
        simp only [he]
        exact .detached hc hp he
  · rw [if_neg hc]
    exact .detachIgnored (.inl hc)

theorem stepped_timer : b.Stepped .timer (b.step .timer) := by
  simp only [step]
  cases ht : b.timers with
  | nil => exact .timerWaits (by simp [ht])
  | cons timer timers =>
    obtain ⟨paneId, due⟩ := timer
    simp only
    by_cases hdue : due ≤ b.now
    · rw [if_pos hdue]
      unfold graceOver
      cases he : b.terminalRegistry.get paneId with
      | none => exact .timerKept ht hdue (by simp [he])
      | some entry =>
        simp only
        by_cases hr : entry.refCount ≤ 0
        · rw [if_pos hr]
          unfold disposeEntry
          simp only [he]
          exact .timerDisposed ht hdue he hr
        · rw [if_neg hr]
          exact .timerKept ht hdue (by simpa [he] using hr)
    · rw [if_neg hdue]
      refine .timerWaits fun paneId' due' timers' h => ?_
      rw [ht] at h
      cases h
      omega

theorem stepped (e : BrowserEvent) : b.Stepped e (b.step e) := by
  cases e with
  | elapse ms => exact .elapsed ms
  | mount component paneId container cols rows =>
    exact b.stepped_mount component paneId container cols rows
  | detach component paneId => exact b.stepped_detach component paneId
  | timer => exact b.stepped_timer
  | frame cols rows =>
    simp only [step]
    split
    · exact .frameRun cols rows
    · exact .noFrame cols rows
  | store e => exact .stored e

end

/-! ## Reference counts -/

/-- How many components show the pane. -/
def shown (paneId : Text) (b : Browser) : Nat := b.terms.countP fun e => e.2.1 = paneId

/-- A component that detaches has mounted its terminal. -/
def DetachesMounted (b : Browser) : BrowserEvent → Prop
  | .detach component paneId => (b.terms.get component).any (·.1 = paneId) = true
  | _ => True

instance (b : Browser) : (e : BrowserEvent) → Decidable (b.DetachesMounted e)
  | .detach .. => inferInstanceAs (Decidable (_ = true))
  | .elapse .. | .mount .. | .timer | .frame .. | .store .. => .isTrue trivial

/-- Every count is that of the components that show the pane, and each of them
has the terminal of the registry. -/
structure Counted (b : Browser) : Prop where
  nodup : b.terms.keys.Nodup
  counts : ∀ paneId entry, b.terminalRegistry.get paneId = some entry →
    entry.refCount = b.shown paneId
  held : ∀ component paneId terminal, b.terms.get component = some (paneId, terminal) →
    ∃ entry, b.terminalRegistry.get paneId = some entry ∧ entry.terminal = terminal

theorem counted_new : new.Counted :=
  ⟨by simp [new, Table.keys], by simp [new], by simp [new]⟩

section
variable {b b' : Browser} {paneId : Text}

theorem Counted.shown_eq_zero_iff (h : b.Counted) :
    b.shown paneId = 0 ↔ ∀ component terminal, b.terms.get component ≠ some (paneId, terminal) := by
  rw [shown, List.countP_eq_zero]
  constructor
  · intro hz component terminal hc
    exact hz _ (Table.mem_of_get hc) (by simp)
  · rintro hn ⟨component, paneId', terminal⟩ he
    have hc := Table.get_of_mem h.nodup he
    simp only [decide_eq_true_eq]
    rintro rfl
    exact hn component terminal hc

theorem Counted.get_ne_none (h : b.Counted) {component terminal : Nat}
    (hc : b.terms.get component = some (paneId, terminal)) :
    b.terminalRegistry.get paneId ≠ none := by
  obtain ⟨entry, he, -⟩ := h.held component paneId terminal hc
  simp [he]

theorem exists_of_refs {o o' : Option TerminalEntry} {entry' : TerminalEntry}
    (hr : o'.map TerminalEntry.refs = o.map TerminalEntry.refs) (he : o' = some entry') :
    ∃ entry, o = some entry ∧ entry.terminal = entry'.terminal ∧
      entry.refCount = entry'.refCount := by
  rw [he, Option.map_some, eq_comm, Option.map_eq_some_iff] at hr
  obtain ⟨entry, ho, heq⟩ := hr
  exact ⟨entry, ho, Prod.ext_iff.mp heq⟩

theorem Counted.of_refs (h : b.Counted)
    (hr : ∀ paneId, (b'.terminalRegistry.get paneId).map TerminalEntry.refs =
      (b.terminalRegistry.get paneId).map TerminalEntry.refs)
    (ht : b'.terms = b.terms) : b'.Counted := by
  refine ⟨ht ▸ h.nodup, fun paneId entry' he' => ?_, fun component paneId terminal hc => ?_⟩
  · obtain ⟨entry, he, -, hcount⟩ := exists_of_refs (hr paneId) he'
    rw [← hcount, shown, ht]
    exact h.counts paneId entry he
  · obtain ⟨entry, he, hterminal⟩ := h.held component paneId terminal (ht ▸ hc)
    obtain ⟨entry', he', hsame, -⟩ := exists_of_refs (hr paneId).symm he
    exact ⟨entry', he', hsame.trans hterminal⟩

/-- A new entry that has the counts of the old one. -/
theorem refs_set {t : Table Text TerminalEntry} {entry entry' : TerminalEntry}
    (he : t.get paneId = some entry) (hr : entry'.refs = entry.refs) (paneId' : Text) :
    ((t.set paneId entry').get paneId').map TerminalEntry.refs =
      (t.get paneId').map TerminalEntry.refs := by
  by_cases hp : paneId' = paneId
  · rw [hp, Table.get_set_self, he, Option.map_some, Option.map_some, hr]
  · rw [Table.get_set_ne hp]

def terminalOf (paneId : Text) (b : Browser) : Option Nat :=
  (b.terminalRegistry.get paneId).map (·.terminal)

theorem terminalOf_of_refs
    (hr : (b'.terminalRegistry.get paneId).map TerminalEntry.refs =
      (b.terminalRegistry.get paneId).map TerminalEntry.refs) :
    b'.terminalOf paneId = b.terminalOf paneId := by
  have h := congrArg (Option.map Prod.fst) hr
  rw [Option.map_map, Option.map_map] at h
  exact h

/-- A new entry that has the terminal of the old one. -/
theorem terminalOf_set {entry entry' : TerminalEntry}
    (he : b.terminalRegistry.get paneId = some entry)
    (hb : b'.terminalRegistry = b.terminalRegistry.set paneId entry')
    (ht : entry'.terminal = entry.terminal) (paneId' : Text) :
    b'.terminalOf paneId' = b.terminalOf paneId' := by
  unfold terminalOf
  rw [hb]
  by_cases hp : paneId' = paneId
  · rw [hp, Table.get_set_self, he, Option.map_some, Option.map_some, ht]
  · rw [Table.get_set_ne hp]

theorem refs_runFrame (cols rows : Nat) (frame : Frame) (b : Browser) (paneId : Text) :
    ((b.runFrame cols rows frame).terminalRegistry.get paneId).map TerminalEntry.refs =
      (b.terminalRegistry.get paneId).map TerminalEntry.refs := by
  cases frame with
  | first paneId' =>
    simp only [runFrame]
    split
    · next entry he =>
      unfold sendResizeIfChanged
      split
      · rfl
      · exact refs_set he (by rfl) paneId
    · rfl
  | reattached paneId' terminal =>
    simp only [runFrame]
    split
    · next entry he =>
      split
      · exact refs_set he (by rfl) paneId
      · rfl
    · rfl

theorem runFrame_keeps (cols rows : Nat) (frame : Frame) (b : Browser) :
    b.store.Sends (b.runFrame cols rows frame).store ∧
      (b.runFrame cols rows frame).now = b.now ∧
      (b.runFrame cols rows frame).timers = b.timers ∧
      (b.runFrame cols rows frame).terms = b.terms := by
  cases frame with
  | first paneId =>
    simp only [runFrame]
    split
    · unfold sendResizeIfChanged
      split
      · exact ⟨.refl _, rfl, rfl, rfl⟩
      · exact ⟨b.store.sends_sendMsg (.r paneId cols rows), rfl, rfl, rfl⟩
    · exact ⟨.refl _, rfl, rfl, rfl⟩
  | reattached paneId terminal =>
    exact ⟨(b.store.sends_sendVia _ _).trans (Store.sends_sendMsg _ (.r paneId cols rows)),
      rfl, rfl, rfl⟩

/-- A component that is not mounted mounts a terminal that has this entry now. -/
theorem Counted.mount (h : b.Counted) {component : Nat} {entry : TerminalEntry}
    (hc : b.terms.get component = none) (hr : entry.refCount = b.shown paneId + 1)
    (hold : ∀ existing, b.terminalRegistry.get paneId = some existing →
      existing.terminal = entry.terminal)
    (hreg : b'.terminalRegistry = b.terminalRegistry.set paneId entry)
    (ht : b'.terms = b.terms.set component (paneId, entry.terminal)) : b'.Counted := by
  have hshown (p : Text) : b'.shown p = b.shown p + if paneId = p then 1 else 0 := by
    rw [shown, ht, Table.countP_set_new hc]
    simp [shown]
  refine ⟨ht ▸ Table.nodup_keys_set h.nodup _ _, fun p e he => ?_, fun c p terminal hget => ?_⟩
  · rw [hshown]
    rw [hreg] at he
    by_cases hp : p = paneId
    · rw [hp, Table.get_set_self] at he
      obtain rfl := Option.some.inj he
      simp [hp, hr]
    · rw [Table.get_set_ne hp] at he
      simpa [Ne.symm hp] using h.counts p e he
  · rw [hreg]
    rw [ht] at hget
    by_cases hcc : c = component
    · rw [hcc, Table.get_set_self] at hget
      cases hget
      exact ⟨entry, Table.get_set_self _ _ _, rfl⟩
    · rw [Table.get_set_ne hcc] at hget
      obtain ⟨e, he, hterminal⟩ := h.held c p terminal hget
      by_cases hp : p = paneId
      · subst hp
        exact ⟨entry, Table.get_set_self _ _ _, (hold e he).symm.trans hterminal⟩
      · exact ⟨e, by rw [Table.get_set_ne hp]; exact he, hterminal⟩

/-- A component that shows the pane releases its entry. -/
theorem Counted.detach (h : b.Counted) {component terminal : Nat} {entry : TerminalEntry}
    (hget : b.terms.get component = some (paneId, terminal))
    (he : b.terminalRegistry.get paneId = some entry)
    (hreg : b'.terminalRegistry = b.terminalRegistry.set paneId entry.released)
    (ht : b'.terms = b.terms.delete component) : b'.Counted := by
  have hshown (p : Text) : b'.shown p + (if paneId = p then 1 else 0) = b.shown p := by
    have hc := Table.countP_delete h.nodup hget fun e => decide (e.2.1 = p)
    simp only [decide_eq_true_eq] at hc
    rw [shown, ht]
    exact hc
  refine ⟨ht ▸ Table.nodup_keys_delete h.nodup _, fun p e he' => ?_, fun c p n hget' => ?_⟩
  · have hp := hshown p
    rw [hreg] at he'
    by_cases hpp : p = paneId
    · rw [hpp, Table.get_set_self] at he'
      obtain rfl := Option.some.inj he'
      have hcount := h.counts paneId entry he
      rw [if_pos hpp.symm] at hp
      simp only [TerminalEntry.released, hcount, hpp] at hp ⊢
      omega
    · rw [Table.get_set_ne hpp] at he'
      rw [if_neg (Ne.symm hpp), Nat.add_zero] at hp
      rw [hp]
      exact h.counts p e he'
  · rw [ht, Table.get_delete] at hget'
    split at hget'
    · obtain ⟨e, he', hterminal⟩ := h.held c p n hget'
      rw [hreg]
      by_cases hpp : p = paneId
      · subst hpp
        rw [he] at he'
        cases he'
        exact ⟨entry.released, Table.get_set_self _ _ _, hterminal⟩
      · exact ⟨e, by rw [Table.get_set_ne hpp]; exact he', hterminal⟩
    · cases hget'

theorem detachesMounted_iff {component : Nat} :
    b.DetachesMounted (.detach component paneId) ↔
      ∃ terminal, b.terms.get component = some (paneId, terminal) := by
  cases h : b.terms.get component with
  | none => simp [DetachesMounted, h]
  | some term => simp [DetachesMounted, h, Prod.ext_iff, eq_comm]

/-- **The counts stay right** where only mounted components detach. -/
theorem counted_step (h : b.Counted) {e : BrowserEvent} (hp : b.DetachesMounted e) :
    (b.step e).Counted := by
  generalize hb : b.step e = b'
  have hs : b.Stepped e b' := hb ▸ b.stepped e
  cases hs with
  | elapsed | timerKept | stored => exact h.of_refs (fun _ => rfl) rfl
  | mountIgnored | detachIgnored | timerWaits | noFrame => exact h
  | @frameRun frame frames cols rows =>
    exact h.of_refs (refs_runFrame cols rows frame { b with frames })
      (runFrame_keeps cols rows frame { b with frames }).2.2.2
  | @reattached component paneId cols rows existing hc _ he =>
    refine h.mount hc ?_ ?_ rfl rfl
    · simp [h.counts paneId existing he]
    · intro existing' he'
      rw [he] at he'
      cases he'
      rfl
  | @created component paneId cols rows hc _ he =>
    have hzero : b.shown paneId = 0 :=
      h.shown_eq_zero_iff.mpr fun c terminal hget => h.get_ne_none hget he
    refine h.mount hc ?_ ?_ rfl rfl
    · simp [hzero]
    · intro existing he'
      rw [he] at he'
      cases he'
  | @detachedUnknown component paneId _ _ he =>
    obtain ⟨terminal, hget⟩ := detachesMounted_iff.mp hp
    exact absurd he (h.get_ne_none hget)
  | @detached component paneId entry _ _ he =>
    obtain ⟨terminal, hget⟩ := detachesMounted_iff.mp hp
    exact h.detach hget he rfl rfl
  | @timerDisposed paneId due timers entry ht hdue he hr =>
    have hzero : b.shown paneId = 0 := by
      have := h.counts paneId entry he
      omega
    refine ⟨h.nodup, fun p e he' => ?_, fun c p terminal hget => ?_⟩
    · by_cases hpp : p = paneId
      · simp [hpp] at he'
      · rw [Table.get_delete_ne hpp] at he'
        exact h.counts p e he'
    · have hpp : p ≠ paneId := by
        rintro rfl
        exact h.shown_eq_zero_iff.mp hzero c terminal hget
      rw [Table.get_delete_ne hpp]
      exact h.held c p terminal hget

end

end Browser

end Oxmux.Client
