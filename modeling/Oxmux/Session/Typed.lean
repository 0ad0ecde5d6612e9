import Oxmux.Session.Address

/-! What was typed into a pane of a session's tmux. Only the commands that the
pane is routed for add to it, and only the deletion of the session ends it. -/

namespace Oxmux.Session
open Oxmux.Lib

/-- The keystrokes among commands that are for a pane. -/
def keystrokes (pane : Text) (cmds : List Command) : Bytes :=
  cmds.flatMap fun
    | .input q data => if q = pane then data else []
    | .resize .. => []

namespace SessionManager

/-- What a session's tmux was given for a pane. -/
def typedInto (id pane : Text) (m : SessionManager) : Bytes :=
  keystrokes pane ((m.sessions id).elim [] (·.transport.executed))

/-- Commands for the pane are executed by the session's transport. -/
def Reaches (id pane : Text) (m : SessionManager) : Prop :=
  m.paneToSession pane = some id ∧ ∃ entry, m.sessions id = some entry ∧ entry.transport.Linked

section
variable {id pane : Text} {m m' : SessionManager}

end

end SessionManager

end Oxmux.Session
