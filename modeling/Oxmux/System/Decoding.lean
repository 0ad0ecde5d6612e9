import Oxmux.Client.Decoding

/-! Where the store reads what the server wrote. The two sides name the fields
of panes, accumulators and ICE configurations differently, and the server writes
no field `event`. -/

namespace Oxmux.System
open Oxmux.Lib Oxmux.Session Oxmux.Ws Oxmux.Client

/-! ## The server's values -/

def paneView (p : TmuxPaneInfo) : PaneView where
  id := .string p.id
  index := .number p.index
  cols := .number p.cols
  rows := .number p.rows
  currentCommand := .string p.currentCommand
  isActive := .boolean p.isActive
  isClaude := .boolean p.isClaude

def windowView (w : TmuxWindowInfo) : WindowView where
  id := .string w.id
  name := .string w.name
  index := .number w.index
  layout := .string w.layout
  panes := some (w.panes.map paneView)

def sessionView (s : TmuxSessionInfo) : SessionView where
  id := .string s.id
  name := .string s.name
  windows := some (s.windows.map windowView)

def optString : Option Text → Js
  | some s => .string s
  | none => .undefined

def managedView (s : ManagedSession) : ManagedView where
  id := .string s.id
  name := .string s.name
  status := .string s.status.show
  error := optString s.error
  tmuxSessions := s.tmuxSessions.map sessionView

def claudeView (a : SessionAccumulator) : ClaudeView where
  sessionId := .string a.sessionId
  totalCostUsd := .double a.totalCostUsd
  turnCount := .number a.turnCount.toNat
  fileChanges := some (a.fileChanges.map fun c =>
    { tool := .string c.tool, path := .string c.path, kind := .string c.kind.show })
  lastUsage :=
    let tokens (n : Option UInt32) : Js := n.elim .null fun n => .number n.toNat
    a.lastUsage.map fun u =>
      { inputTokens := tokens u.inputTokens
        outputTokens := tokens u.outputTokens
        cacheReadInputTokens := tokens u.cacheReadInputTokens }
  isComplete := .boolean a.isComplete
  isError := .boolean a.isError

def iceServerView (s : IceServer) : IceServerView where
  urls := some (s.urls.map .string)
  username := optString s.username
  credential := optString s.credential

/-- What the message is meant to be read as. -/
def meaning : ServerMsg → Reading
  | .state sessions => .trees (some (sessions.map sessionView))
  | .tmuxEvent event => .event (some (readEntries (.map event.entries)))
  | .claudeAccumulator sessionId acc => .claude (.string sessionId) (claudeView acc)
  | .iceConfig peerId servers => .ice (.string peerId) (some (servers.map iceServerView))
  | .sessionList sessions => .managedList (sessions.map managedView)
  | .sessionCreated s | .sessionUpdated s | .sessionConnected s | .sessionDisconnected s =>
    .managed (managedView s)
  | _ => .other

/-- The messages with trees, events, accumulators or ICE configurations. -/
def isStructured (msg : ServerMsg) : Bool := meaning msg ≠ .other

/-- No window has a pane, and the index of each is a double. -/
def PaneFree (trees : List TmuxSessionInfo) : Prop :=
  ∀ t ∈ trees, ∀ w ∈ t.windows, w.panes = [] ∧ toNumber w.index = w.index

/-- Only trees are read, and only where they have no panes. -/
def Legible : ServerMsg → Prop
  | .state sessions => PaneFree sessions
  | .sessionList sessions => ∀ s ∈ sessions, PaneFree s.tmuxSessions
  | .sessionCreated s | .sessionUpdated s | .sessionConnected s | .sessionDisconnected s =>
    PaneFree s.tmuxSessions
  | _ => False

/-! ## Trees -/

/-- The command, the activity and the kind of a pane are lost. -/
theorem readPane_entries (p : TmuxPaneInfo) :
    (readPane (.map (TmuxPaneInfo.entries p))).currentCommand = .undefined := rfl

theorem readPane_ne (p : TmuxPaneInfo) : readPane (.map (TmuxPaneInfo.entries p)) ≠ paneView p := by
  intro h
  have hc := congrArg PaneView.currentCommand h
  rw [readPane_entries] at hc
  cases hc

theorem readWindow_iff (w : TmuxWindowInfo) :
    readWindow (.map (TmuxWindowInfo.entries w)) = windowView w ↔
      w.panes = [] ∧ toNumber w.index = w.index := by
  have hr : readWindow (.map (TmuxWindowInfo.entries w)) =
      { windowView w with
        index := .number (toNumber w.index)
        panes :=
          some ((w.panes.map fun p => Pack.map (TmuxPaneInfo.entries p)).map readPane) } := rfl
  rw [hr, windowView, WindowView.mk.injEq]
  simp only [true_and, Js.number.injEq, Option.some.injEq, List.map_map, List.map_inj_left]
  constructor
  · rintro ⟨hi, hp⟩
    refine ⟨List.eq_nil_iff_forall_not_mem.mpr fun p hm => readPane_ne p (hp p hm), hi⟩
  · rintro ⟨hp, hi⟩
    refine ⟨hi, ?_⟩
    simp [hp]

theorem readSession_iff (s : TmuxSessionInfo) :
    readSession (.map (TmuxSessionInfo.entries s)) = sessionView s ↔
      ∀ w ∈ s.windows, w.panes = [] ∧ toNumber w.index = w.index := by
  have hr : readSession (.map (TmuxSessionInfo.entries s)) =
      { sessionView s with
        windows := some ((s.windows.map fun w => Pack.map (TmuxWindowInfo.entries w)).map
          readWindow) } := rfl
  rw [hr, sessionView, SessionView.mk.injEq]
  simp only [true_and, Option.some.injEq, List.map_map, List.map_inj_left, Function.comp_apply,
    readWindow_iff]

def readTrees (trees : List TmuxSessionInfo) : List SessionView :=
  trees.map fun t => readSession (.map (TmuxSessionInfo.entries t))

theorem readTrees_iff (trees : List TmuxSessionInfo) :
    readTrees trees = trees.map sessionView ↔ PaneFree trees := by
  simp only [readTrees, List.map_inj_left, readSession_iff, PaneFree]

/-- Of a session, only the trees may be read wrong. -/
theorem readManaged_pack (s : ManagedSession) : readManaged (packManaged s) =
    { managedView s with tmuxSessions := readTrees s.tmuxSessions } := by
  have htrees (trees : List TmuxSessionInfo) : (packTrees trees) =
      .arr (trees.map fun t => .map (TmuxSessionInfo.entries t)) := rfl
  have hread (trees : List TmuxSessionInfo) :
      (trees.map fun t => Pack.map (TmuxSessionInfo.entries t)).map readSession =
        readTrees trees := by
    rw [readTrees, List.map_map]
    rfl
  cases s with
  | mk id name transport status error tmuxSessions =>
    rw [packManaged]
    cases tmuxSessions with
    | nil => cases error <;> rfl
    | cons t ts =>
      rw [if_neg (List.cons_ne_nil t ts), htrees, ← hread]
      cases error <;> rfl

theorem readManaged_iff (s : ManagedSession) :
    readManaged (packManaged s) = managedView s ↔ PaneFree s.tmuxSessions := by
  rw [readManaged_pack, managedView, ManagedView.mk.injEq, ← readTrees_iff]
  simp only [true_and]

/-! ## Messages -/

theorem read_state (sessions : List TmuxSessionInfo) :
    readMsg (encodeServerMsg (.state sessions)) = .trees (some (readTrees sessions)) := by
  rw [readTrees, ← Function.comp_def readSession, ← List.map_map]
  rfl

theorem read_sessionList (sessions : List ManagedSession) :
    readMsg (encodeServerMsg (.sessionList sessions)) =
      .managedList (sessions.map fun s => readManaged (packManaged s)) := by
  rw [← Function.comp_def readManaged, ← List.map_map]
  rfl

/-- An event, an accumulator, an ICE configuration: the store looks for them
under other names. -/
theorem read_event (event : TmuxEventMsg) :
    readMsg (encodeServerMsg (.tmuxEvent event)) = .event none := by
  cases event <;> rfl

theorem read_claude_sessionId (sessionId : Text) (acc : SessionAccumulator) :
    ∃ v, readMsg (encodeServerMsg (.claudeAccumulator sessionId acc)) =
      .claude (.string sessionId) v ∧ v.sessionId = .undefined :=
  ⟨_, rfl, rfl⟩

theorem read_ice (peerId : Text) (servers : List IceServer) :
    readMsg (encodeServerMsg (.iceConfig peerId servers)) = .ice (.string peerId) none := rfl

/-- **What the store reads of the server's values.** A message with trees, an
event, an accumulator or an ICE configuration is read as what it means exactly
if it has trees and no window of them has a pane, with indices that a double can
hold. No event, no accumulator and no ICE configuration is. -/
theorem readMsg_encodeServerMsg_iff {msg : ServerMsg} (h : isStructured msg = true) :
    readMsg (encodeServerMsg msg) = meaning msg ↔ Legible msg := by
  cases msg with
  | state sessions =>
    rw [read_state, meaning, Legible, Reading.trees.injEq, Option.some.injEq, readTrees_iff]
  | tmuxEvent event =>
    rw [read_event, meaning, Reading.event.injEq]
    exact iff_of_false (by simp) id
  | claudeAccumulator sessionId acc =>
    obtain ⟨v, hr, hv⟩ := read_claude_sessionId sessionId acc
    rw [hr, meaning, Reading.claude.injEq]
    refine iff_of_false (fun ⟨_, he⟩ => ?_) id
    rw [he, claudeView] at hv
    cases hv
  | iceConfig peerId servers =>
    rw [read_ice, meaning, Reading.ice.injEq]
    exact iff_of_false (by simp) id
  | sessionList sessions =>
    rw [read_sessionList, meaning, Legible, Reading.managedList.injEq, List.map_inj_left]
    simp only [readManaged_iff]
  | sessionCreated s | sessionUpdated s | sessionConnected s | sessionDisconnected s =>
    rw [meaning, Legible, ← readManaged_iff, ← Reading.managed.injEq]
    rfl
  | _ => cases h

/-- A connected session whose only window has no pane. -/
theorem readMsg_encodeServerMsg_iff_sample :
    readMsg (encodeServerMsg (.state [{ id := "$0".toList, name := "main".toList, windows :=
      [{ id := "@0".toList, name := "sh".toList, index := 7, layout := [], panes := [] }] }])) =
    meaning (.state [{ id := "$0".toList, name := "main".toList, windows :=
      [{ id := "@0".toList, name := "sh".toList, index := 7, layout := [], panes := [] }] }]) := by
  refine (readMsg_encodeServerMsg_iff (by decide)).mpr fun t ht w hw => ?_
  rw [List.mem_singleton.mp ht] at hw
  rw [List.mem_singleton.mp hw]
  exact ⟨rfl, by decide⟩

/-- The command of the only pane is read as `undefined`. -/
theorem pane_command_undefined : ¬ ∀ msg : ServerMsg, isStructured msg = true →
    readMsg (encodeServerMsg msg) = meaning msg := by
  intro h
  have he := h (.state [.single "%0".toList]) (by decide)
  rw [read_state] at he
  exact absurd he (by decide +kernel)

end Oxmux.System
