import Oxmux.Tmux.Escape

/-! The line parser of tmux's control mode, `server/src/tmux/control.rs`. The
parser holds the block it is in, if any; a line changes that and emits at most
one event. -/

namespace Oxmux.Tmux
open Oxmux.Lib

inductive TmuxEvent where
  | output (paneId : Text) (data : Bytes)
  | commandResponse (timestamp flags : Nat) (lines : List Text)
  | sessionChanged (id name : Text)
  | sessionCreated (id name : Text)
  | sessionClosed (id : Text)
  | windowAdd (id : Text)
  | windowClose (id : Text)
  | windowRenamed (id name : Text)
  | layoutChange (windowId layout : Text)
  | paneModeChanged (paneId : Text)
  | exit (reason : Option Text)
  deriving Repr, DecidableEq

structure BlockAccumulator where
  timestamp : Nat
  flags : Nat
  lines : List Text
  deriving Repr, DecidableEq

/-- The parser without its sender: what is emitted is returned instead. -/
structure ControlModeParser where
  inBlock : Option BlockAccumulator
  deriving Repr, DecidableEq

def ControlModeParser.new : ControlModeParser := { inBlock := none }

/-- A line inside a block: the block it leaves open and the event it emits. -/
def feedBlock (block : BlockAccumulator) (line : Text) :
    Option BlockAccumulator × Option TmuxEvent :=
  if startsWith "%end ".toList line then
    (none, some (.commandResponse block.timestamp block.flags block.lines))
  else if startsWith "%error ".toList line then (none, none)
  else (some { block with lines := block.lines ++ [line] }, none)

/-- The block that a `%begin` line opens; a field that does not parse is 0. -/
def beginBlock (rest : Text) : BlockAccumulator :=
  let parts := splitn ' ' 3 rest
  { timestamp := (parts[0]?.bind (parseUInt 64)).getD 0
    flags := (parts[2]?.bind (parseUInt 32)).getD 0
    lines := [] }

/-- A notification line, in the order of the tests of `feed_line`. -/
def notification (line : Text) : Option TmuxEvent :=
  if let some rest := stripPrefix "%output ".toList line then
    (splitOnce ' ' rest).map fun p => .output p.1 (Server.decodeTmuxOutput p.2)
  else if let some rest := stripPrefix "%session-changed ".toList line then
    (splitOnce ' ' rest).map fun p => .sessionChanged p.1 p.2
  else if let some rest := stripPrefix "%session-created ".toList line then
    let parts := splitn ' ' 2 rest
    some (.sessionCreated (parts[0]?.getD []) (parts[1]?.getD []))
  else if let some rest := stripPrefix "%session-closed ".toList line then
    some (.sessionClosed rest)
  else if let some rest := stripPrefix "%window-add ".toList line then
    some (.windowAdd rest)
  else if let some rest := stripPrefix "%window-close ".toList line then
    some (.windowClose rest)
  else if let some rest := stripPrefix "%window-renamed ".toList line then
    (splitOnce ' ' rest).map fun p => .windowRenamed p.1 p.2
  else if let some rest := stripPrefix "%layout-change ".toList line then
    (splitOnce ' ' rest).map fun p => .layoutChange p.1 p.2
  else if let some rest := stripPrefix "%pane-mode-changed ".toList line then
    some (.paneModeChanged rest)
  else if line = "%exit".toList then some (.exit none)
  else if let some rest := stripPrefix "%exit ".toList line then some (.exit (some rest))
  else none

/-- `feed_line`: the parser behind the line and the event sent, if one is. -/
def ControlModeParser.feedLine (p : ControlModeParser) (line : Text) :
    ControlModeParser × Option TmuxEvent :=
  let line := trimEndMatches '\r' line
  match p.inBlock with
  | some block =>
    let r := feedBlock block line
    ({ inBlock := r.1 }, r.2)
  | none =>
    if let some rest := stripPrefix "%begin ".toList line then
      ({ inBlock := some (beginBlock rest) }, none)
    else (p, notification line)

/-- Lines fed one after the other, with the events in the order they are sent. -/
def ControlModeParser.feedLines (p : ControlModeParser) :
    List Text → ControlModeParser × List TmuxEvent
  | [] => (p, [])
  | line :: lines =>
    let r := p.feedLine line
    let rs := ControlModeParser.feedLines r.1 lines
    (rs.1, r.2.toList ++ rs.2)

namespace ControlModeParser

@[simp] theorem feedLines_nil (p : ControlModeParser) : p.feedLines [] = (p, []) := rfl

theorem feedLines_cons (p : ControlModeParser) (line : Text) (lines : List Text) :
    p.feedLines (line :: lines) = (((p.feedLine line).1.feedLines lines).1,
      (p.feedLine line).2.toList ++ ((p.feedLine line).1.feedLines lines).2) := rfl

/-- Feeding on from where the first lines left the parser. -/
theorem feedLines_append (p : ControlModeParser) (xs ys : List Text) :
    p.feedLines (xs ++ ys) = (((p.feedLines xs).1.feedLines ys).1,
      (p.feedLines xs).2 ++ ((p.feedLines xs).1.feedLines ys).2) := by
  induction xs generalizing p with
  | nil => simp
  | cons x xs ih => simp [feedLines_cons, ih]

theorem length_feedLines_le (p : ControlModeParser) (lines : List Text) :
    (p.feedLines lines).2.length ≤ lines.length := by
  induction lines generalizing p with
  | nil => simp
  | cons l ls ih =>
    have h₁ : (p.feedLine l).2.toList.length ≤ 1 := by cases (p.feedLine l).2 <;> simp
    have h₂ := ih (p.feedLine l).1
    simp only [feedLines_cons, List.length_append, List.length_cons]
    omega

/-! ## What one line does -/

theorem feedLine_notification {line : Text} (hcr : line.getLast? ≠ some '\r')
    (hb : stripPrefix "%begin ".toList line = none) :
    new.feedLine line = (new, notification line) := by
  simp only [feedLine, trimEndMatches_eq_self hcr, new, hb]

theorem feedLine_begin {rest : Text} (hcr : ("%begin ".toList ++ rest).getLast? ≠ some '\r') :
    new.feedLine ("%begin ".toList ++ rest) = ({ inBlock := some (beginBlock rest) }, none) := by
  rw [feedLine, trimEndMatches_eq_self hcr]
  simp only [new, stripPrefix_append]

theorem feedLine_block {block : BlockAccumulator} {line : Text}
    (hcr : line.getLast? ≠ some '\r') :
    feedLine { inBlock := some block } line =
      ({ inBlock := (feedBlock block line).1 }, (feedBlock block line).2) := by
  simp only [feedLine, trimEndMatches_eq_self hcr]

/-- Body lines are collected, whatever they look like. -/
theorem feedLines_body (block : BlockAccumulator) {body : List Text}
    (hcr : ∀ l ∈ body, l.getLast? ≠ some '\r')
    (hend : ∀ l ∈ body, startsWith "%end ".toList l = false)
    (herr : ∀ l ∈ body, startsWith "%error ".toList l = false) :
    feedLines { inBlock := some block } body =
      ({ inBlock := some { block with lines := block.lines ++ body } }, []) := by
  induction body generalizing block with
  | nil => simp
  | cons l ls ih =>
    have hl : feedBlock block l = (some { block with lines := block.lines ++ [l] }, none) := by
      simp only [feedBlock, hend l (by simp), herr l (by simp), Bool.false_eq_true, if_false]
    rw [feedLines_cons, feedLine_block (hcr l (by simp)), hl]
    rw [ih _ (fun x hx => hcr x (by simp [hx])) (fun x hx => hend x (by simp [hx]))
      (fun x hx => herr x (by simp [hx]))]
    simp

end ControlModeParser

end Oxmux.Tmux
