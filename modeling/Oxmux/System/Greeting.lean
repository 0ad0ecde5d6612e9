import Mathlib.Data.List.Pairwise
import Oxmux.Agent.WindowTree
import Oxmux.Client.Decoding
import Oxmux.Session.Report

/-! The agent's tree against the one of the SSH transport, for one output of
`tmux list-panes`: what the browser reads of the agent's `sess_connected` reply,
and when these are the windows that the server would send. -/

namespace Oxmux.System
open Oxmux.Lib Lines Oxmux.Session Oxmux.Ws Oxmux.Client Oxmux.Agent

/-! ## Both loops -/

/-- The fields under the names that the transport's parser has for them. -/
def listed (p : PaneInfo) : ListedPane where
  sessId := p.sessionId
  sessName := p.sessionName
  winId := p.windowId
  winName := p.windowName
  winIndex := p.windowIndex
  winLayout := p.layout
  pane := {
    id := p.paneId, index := p.paneIndex, cols := p.cols, rows := p.rows
    currentCommand := p.currentCommand, isActive := p.isActive, isClaude := p.isClaude }

/-- What both read out of the lines. -/
def listedPanes (stdout : Text) : List ListedPane := (paneInfos stdout).map listed

theorem parsePaneListing_eq (stdout : Text) :
    SshTransport.parsePaneListing stdout = sessionGroups.rows (listedPanes stdout) := by
  rw [listedPanes, paneInfos, List.map_map]
  rfl

/-! ## Reading the agent's windows -/

/-- What the browser reads of a window that the server sends. -/
def readSent (w : TmuxWindowInfo) : WindowView := readWindow (.map (TmuxWindowInfo.entries w))

theorem ofJsons_eq_map (js : List Json) : Pack.ofJsons js = js.map Pack.ofJson := by
  induction js with
  | nil => rfl
  | cons j js ih => rw [Pack.ofJsons, ih, List.map_cons]

theorem foldl_add_window (ps : List ListedPane) (w : TmuxWindowInfo) :
    ps.foldl windowGroups.add w = { w with panes := w.panes ++ ps.map (·.pane) } := by
  induction ps generalizing w with
  | nil => simp
  | cons p ps ih =>
    rw [List.foldl_cons, ih]
    simp [windowGroups]

theorem read_panes (panes : List PaneInfo) :
    (Pack.ofJsons (panes.map PaneInfo.toJson)).map readPane =
      (((panes.map listed).map (·.pane)).map fun info =>
        Pack.map (TmuxPaneInfo.entries info)).map readPane := by
  rw [ofJsons_eq_map]
  simp only [List.map_map]
  rfl

/-- A window of the agent is read as the one that the transport makes of its
panes. -/
theorem read_windowJson {panes : List PaneInfo} {w : TmuxWindowInfo}
    (h : windowGroups.row (panes.map listed) = some w) :
    ∃ j, windowJson w.id panes = some j ∧ readWindow (Pack.ofJson j) = readSent w := by
  cases panes with
  | nil => cases h
  | cons p rest =>
    rw [List.map_cons, Grouping.row, Option.some.injEq, foldl_add_window, ← List.map_cons] at h
    subst h
    refine ⟨_, rfl, ?_⟩
    let w := windowGroups.new (listed p)
    exact congrArg (fun views => { readSent w with panes := some views }) (read_panes (p :: rest))

theorem mapM_of_forall {α β γ δ : Type} {f : α → Option β} {g : α → Option γ} {h : β → δ}
    {k : γ → δ} {l : List α}
    (hl : ∀ a ∈ l, ∃ b c, f a = some b ∧ g a = some c ∧ h b = k c) :
    ∃ bs, l.mapM f = some bs ∧ bs.map h = (l.filterMap g).map k := by
  induction l with
  | nil => exact ⟨[], rfl, rfl⟩
  | cons a l ih =>
    obtain ⟨b, c, hf, hg, hhk⟩ := hl a List.mem_cons_self
    obtain ⟨bs, hbs, hmap⟩ := ih fun a ha => hl a (List.mem_cons_of_mem _ ha)
    refine ⟨b :: bs, ?_, ?_⟩
    · rw [List.mapM_cons, hf, hbs]
      rfl
    · rw [List.map_cons, List.filterMap_cons_some hg, List.map_cons, hhk, hmap]

/-- **The agent's windows** are read as those of all listed panes, in the order of
their ids; `unwrap` does not panic. -/
theorem read_buildWindowTree (panes : List PaneInfo) :
    ∃ js, buildWindowTree panes = some js ∧
      js.map (readWindow ∘ Pack.ofJson) =
        (Ordered.byKey TmuxWindowInfo.id (windowGroups.rows (panes.map listed))).map readSent := by
  have hcollect : Ordered.collect windowGroups.keyOf (panes.map listed) =
      (Ordered.collect PaneInfo.windowId panes).map fun e => (e.1, e.2.map listed) :=
    Ordered.collect_map _ listed panes
  have hrows : Ordered.byKey TmuxWindowInfo.id (windowGroups.rows (panes.map listed)) =
      (Ordered.collect windowGroups.keyOf (panes.map listed)).filterMap
        fun e => windowGroups.row e.2 :=
    (Grouping.filterMap_collect (panes.map listed)).symm
  rw [hrows, hcollect, List.filterMap_map]
  apply mapM_of_forall
  intro e he
  obtain ⟨w, hw, hid⟩ := Grouping.row_of_mem_collect (g := windowGroups)
    (hcollect ▸ List.mem_map_of_mem he :
      (e.1, e.2.map listed) ∈ Ordered.collect windowGroups.keyOf (panes.map listed))
  obtain ⟨j, hj, hread⟩ := read_windowJson hw
  have hid' : w.id = e.1 := hid
  exact ⟨j, w, hid' ▸ hj, hw, hread⟩

/-! ## The windows of the tree -/

/-- No window is listed under two sessions. -/
def OwnWindows (ps : List ListedPane) : Prop :=
  ∀ p ∈ ps, ∀ q ∈ ps, p.winId = q.winId → p.sessId = q.sessId

/-- The windows of all sessions, in the order of their ids. -/
def windowsById (trees : List TmuxSessionInfo) : List TmuxWindowInfo :=
  Ordered.byKey TmuxWindowInfo.id (trees.flatMap (·.windows))

section Windows
variable {ps : List ListedPane}

theorem mem_windowIds {s : TmuxSessionInfo} (hs : s ∈ sessionGroups.rows ps) {id : Text} :
    id ∈ s.windows.map (·.id) ↔ ∃ p ∈ ps, p.sessId = s.id ∧ p.winId = id := by
  have hkeys := windowGroups.keys_rows (sessionGroups.members s.id ps)
  rw [← windows_of_mem hs] at hkeys
  rw [show s.windows.map (·.id) = s.windows.map windowGroups.key from rfl, hkeys,
    List.mem_eraseDups, List.mem_map]
  constructor
  · rintro ⟨p, hp, rfl⟩
    obtain ⟨hp, hk⟩ := sessionGroups.mem_members.mp hp
    exact ⟨p, hp, hk, rfl⟩
  · rintro ⟨p, hp, hk, rfl⟩
    exact ⟨p, sessionGroups.mem_members.mpr ⟨hp, hk⟩, rfl⟩

/-- **Each window of the tree stands there once** exactly if none is listed under
two sessions. -/
theorem nodup_windowIds_iff :
    (((sessionGroups.rows ps).flatMap (·.windows)).map (·.id)).Nodup ↔ OwnWindows ps := by
  rw [List.map_flatMap, List.nodup_flatMap]
  constructor
  · rintro ⟨-, hdisj⟩ p hp q hq hid
    obtain ⟨s, hs, hsp⟩ := sessionGroups.exists_mem_rows hp
    obtain ⟨t, ht, htq⟩ := sessionGroups.exists_mem_rows hq
    by_contra hne
    have hst : s ≠ t := fun he => hne (hsp.symm.trans (he ▸ htq))
    have hsymm : Std.Symm (Function.onFun List.Disjoint
        fun s : TmuxSessionInfo => s.windows.map (·.id)) := ⟨fun _ _ h _ ha hb => h hb ha⟩
    exact hdisj.forall hs ht hst ((mem_windowIds hs).mpr ⟨p, hp, hsp.symm, rfl⟩)
      ((mem_windowIds ht).mpr ⟨q, hq, htq.symm, hid.symm⟩)
  · intro h
    constructor
    · intro s hs
      rw [windows_of_mem hs]
      exact windowGroups.nodup_keys _
    · have hkeys := sessionGroups.nodup_keys ps
      rw [List.Nodup, List.pairwise_map] at hkeys
      refine hkeys.imp_of_mem ?_
      intro s t hs ht hne id hids hidt
      obtain ⟨p, hp, hps, hpi⟩ := (mem_windowIds hs).mp hids
      obtain ⟨q, hq, hqt, hqi⟩ := (mem_windowIds ht).mp hidt
      exact hne (hps.symm.trans ((h p hp q hq (hpi.trans hqi.symm)).trans hqt))

theorem members_members_of_own (h : OwnWindows ps) {p : ListedPane} (hp : p ∈ ps) :
    windowGroups.members p.winId (sessionGroups.members p.sessId ps) =
      windowGroups.members p.winId ps := by
  rw [Grouping.members, Grouping.members, List.filter_filter]
  apply List.filter_congr
  intro q hq
  rw [Bool.and_eq_left_iff_imp, decide_eq_true_eq, decide_eq_true_eq]
  exact fun hid => h q hq p hp hid

/-- The windows of the sessions are those of all panes, if each is listed under
one session. -/
theorem perm_windows (h : OwnWindows ps) :
    (windowGroups.rows ps).Perm ((sessionGroups.rows ps).flatMap (·.windows)) := by
  rw [List.perm_ext_iff_of_nodup (List.Nodup.of_map _ (windowGroups.nodup_keys ps))
    (List.Nodup.of_map _ (nodup_windowIds_iff.mpr h))]
  intro w
  have hwindows {s : TmuxSessionInfo} (hs : s ∈ sessionGroups.rows ps) {p : ListedPane}
      (hp : p ∈ ps) (hsess : p.sessId = s.id) (hwin : p.winId = w.id) :
      w ∈ s.windows ↔ w ∈ windowGroups.rows ps := by
    rw [windows_of_mem hs, Grouping.mem_rows_iff, Grouping.mem_rows_iff,
      show windowGroups.key w = w.id from rfl, ← hwin, ← hsess, members_members_of_own h hp]
  rw [List.mem_flatMap]
  constructor
  · intro hw
    obtain ⟨p, hp, hwin⟩ := Grouping.exists_item hw
    obtain ⟨s, hs, hsess⟩ := sessionGroups.exists_mem_rows hp
    exact ⟨s, hs, (hwindows hs hp hsess.symm hwin).mpr hw⟩
  · rintro ⟨s, hs, hw⟩
    obtain ⟨p, hp, hsess, hwin⟩ := (mem_windowIds hs).mp (List.mem_map_of_mem hw)
    exact (hwindows hs hp hsess hwin).mp hw

/-- **The windows by their ids** are the same on both sides exactly if none is
listed under two sessions. -/
theorem read_windows_iff : (Ordered.byKey TmuxWindowInfo.id (windowGroups.rows ps)).map readSent =
    (windowsById (sessionGroups.rows ps)).map readSent ↔ OwnWindows ps := by
  constructor
  · intro h
    have hids := congrArg (List.map WindowView.id) h
    have hid : WindowView.id ∘ readSent = Js.string ∘ TmuxWindowInfo.id := rfl
    rw [List.map_map, List.map_map, hid, ← List.map_map, ← List.map_map] at hids
    have hids' := List.map_injective_iff.mpr (fun _ _ he => Js.string.inj he) hids
    have hp := (Ordered.byKey_perm TmuxWindowInfo.id
      ((sessionGroups.rows ps).flatMap (·.windows))).map TmuxWindowInfo.id
    have hq := (Ordered.byKey_perm TmuxWindowInfo.id (windowGroups.rows ps)).map TmuxWindowInfo.id
    rw [← nodup_windowIds_iff, ← hp.nodup_iff]
    exact hids' ▸ hq.nodup_iff.mpr (windowGroups.nodup_keys ps)
  · intro h
    rw [windowsById,
      Ordered.byKey_eq_of_perm TmuxWindowInfo.id (windowGroups.nodup_keys ps)
        (perm_windows h)]

end Windows

/-! ## The reply -/

def firstId (trees : List TmuxSessionInfo) : Text := ((trees.map (·.id)).head?).getD []

theorem firstId_parsePaneListing (stdout : Text) :
    ((paneInfos stdout).head?.map PaneInfo.sessionId).getD [] =
      firstId (SshTransport.parsePaneListing stdout) := by
  have hhead := sessionGroups.head?_keys (listedPanes stdout)
  have hkeys : (listedPanes stdout).map sessionGroups.keyOf =
      (paneInfos stdout).map PaneInfo.sessionId := by
    rw [listedPanes, List.map_map]
    rfl
  rw [hkeys] at hhead
  rw [firstId, parsePaneListing_eq, ← List.head?_map]
  exact congrArg (·.getD []) hhead.symm

theorem read_sessConnected {uuid name stdout : Text} (stderr : Text) {js : List Json}
    (h : buildWindowTree (paneInfos stdout) = some js) :
    (sessConnected uuid name (some ⟨true, stdout, stderr⟩)).map (readMsg ∘ Pack.ofJson) =
      some (.managed {
        id := .string uuid, name := .string name, status := .string "connected".toList
        error := .undefined
        tmuxSessions := [{
          id := .string (((paneInfos stdout).head?.map PaneInfo.sessionId).getD [])
          name := .string name
          windows := some (js.map (readWindow ∘ Pack.ofJson)) }] }) := by
  have hpanes : (TmuxManager.listPanes (some ⟨true, stdout, stderr⟩)).toOption.getD [] =
      paneInfos stdout := rfl
  rw [sessConnected, hpanes, h, ← List.map_map, ← ofJsons_eq_map]
  rfl

/-- **The agent shows what the server would.** For any output of `list-panes`, the
browser reads the agent's reply as one session with the windows of the tree that
the SSH transport makes of that output, in the order of their ids, exactly if no
window is listed under two sessions. -/
theorem greets_alike_iff (uuid name stdout stderr : Text) :
    let trees := SshTransport.parsePaneListing stdout
    (sessConnected uuid name (some ⟨true, stdout, stderr⟩)).map (readMsg ∘ Pack.ofJson) =
      some (.managed {
        id := .string uuid, name := .string name, status := .string "connected".toList
        error := .undefined
        tmuxSessions := [{
          id := .string (firstId trees), name := .string name
          windows := some ((windowsById trees).map readSent) }] }) ↔
    OwnWindows (listedPanes stdout) := by
  intro trees
  obtain ⟨js, hjs, hread⟩ := read_buildWindowTree (paneInfos stdout)
  rw [read_sessConnected stderr hjs, hread, firstId_parsePaneListing, ← read_windows_iff,
    ← parsePaneListing_eq]
  simp only [Option.some.injEq, Reading.managed.injEq, ManagedView.mk.injEq, List.cons.injEq,
    SessionView.mk.injEq, true_and, and_true]
  exact and_iff_right rfl

end Oxmux.System
