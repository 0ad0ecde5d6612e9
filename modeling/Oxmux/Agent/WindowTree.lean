import Mathlib.Data.Char
import Oxmux.Lib.Ordered
import Oxmux.Session.Listing

/-! The agent's view of its tmux session: `list_panes` of the tmux manager
(`agent/src/tmux_manager.rs`), and `build_window_tree` with the `sess_connected`
reply (`agent/src/quic/server.rs`). The windows come out of a `BTreeMap`, in the
order of their ids as strings. -/

namespace Oxmux.Agent
open Oxmux.Lib Lines Oxmux.Session

structure PaneInfo where
  sessionId : Text
  sessionName : Text
  windowId : Text
  windowName : Text
  windowIndex : Nat
  layout : Text
  paneId : Text
  paneIndex : Nat
  cols : Nat
  rows : Nat
  currentCommand : Text
  isActive : Bool
  isClaude : Bool

def PaneInfo.ofParts (parts : List Text) : PaneInfo :=
  let part (i : Nat) := parts.getD i []
  let cmd := part 10
  { sessionId := part 0
    sessionName := part 1
    windowId := part 2
    windowName := part 3
    windowIndex := (parseUInt 64 (part 4)).getD 0
    layout := part 5
    paneId := part 6
    paneIndex := (parseUInt 64 (part 7)).getD 0
    cols := (parseUInt 16 (part 8)).getD 80
    rows := (parseUInt 16 (part 9)).getD 24
    isClaude := "claude".toList <:+: cmd
    currentCommand := cmd
    isActive := part 11 = ['1'] }

/-- The loop over the lines; one with too few pieces is passed over. -/
def paneInfos (stdout : Text) : List PaneInfo :=
  (((strLines stdout).map (splitStr "|||".toList)).filter (12 ≤ ·.length)).map PaneInfo.ofParts

/-- `list_panes`; without an output, tmux could not be started. -/
def TmuxManager.listPanes (output : Option ProcessOutput) : Except Text (List PaneInfo) :=
  match output with
  | none => .error "failed to run tmux list-panes".toList
  | some output =>
    if output.success then .ok (paneInfos output.stdout)
    else .error ("tmux list-panes failed: ".toList ++ output.stderr)

def PaneInfo.toJson (p : PaneInfo) : Json :=
  .obj [("id".toList, .str p.paneId), ("index".toList, .num p.paneIndex),
    ("cols".toList, .num p.cols), ("rows".toList, .num p.rows),
    ("current_command".toList, .str p.currentCommand), ("is_active".toList, .bool p.isActive),
    ("is_claude".toList, .bool p.isClaude)]

/-- A window, by its id and its panes; without a first one, `unwrap` panics. -/
def windowJson (wid : Text) (panes : List PaneInfo) : Option Json :=
  panes.head?.map fun first =>
    .obj [("id".toList, .str wid), ("name".toList, .str first.windowName),
      ("index".toList, .num first.windowIndex), ("layout".toList, .str first.layout),
      ("panes".toList, .arr (panes.map PaneInfo.toJson))]

def buildWindowTree (panes : List PaneInfo) : Option (List Json) :=
  (Ordered.collect PaneInfo.windowId panes).mapM fun e => windowJson e.1 e.2

/-- The `sess_connected` reply, on what `list_panes` is answered. -/
def sessConnected (uuid sessionName : Text) (output : Option ProcessOutput) : Option Json :=
  let panes := (TmuxManager.listPanes output).toOption.getD []
  (buildWindowTree panes).map fun windows =>
    .obj [("t".toList, .str "sess_connected".toList),
      ("session".toList, .obj [("id".toList, .str uuid), ("name".toList, .str sessionName),
        ("status".toList, .str "connected".toList),
        ("tmux_sessions".toList, .arr [.obj [
          ("id".toList, .str ((panes.head?.map PaneInfo.sessionId).getD [])),
          ("name".toList, .str sessionName), ("windows".toList, .arr windows)]])])]

end Oxmux.Agent
