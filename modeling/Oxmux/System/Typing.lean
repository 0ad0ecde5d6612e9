import Oxmux.Client.Keys
import Oxmux.Session.Durable
import Oxmux.Session.Typed
import Oxmux.System.Delivery

/-! From the terminal in the browser to a session's tmux. What tmux was given for
a pane and what the server did not read yet make up what was typed: no keystroke
is lost, doubled or moved on the way. -/

namespace Oxmux.Ws.Server
open Oxmux.Lib Oxmux.Session

variable {κ : Type} [DecidableEq κ]

def typedInto (id pane : Text) (s : Server κ) : Bytes :=
  s.app.sessionManager.typedInto id pane

/-- The input neither deletes the session nor types into the pane. -/
def Spares (id pane : Text) (i : Input κ) : Prop :=
  (∀ c env, i ≠ .message c (.deleteSession id) env) ∧
    ∀ c data sid env, i ≠ .message c (.input pane data sid) env

variable {id pane : Text} {s : Server κ}

end Oxmux.Ws.Server

namespace Oxmux.System
open Oxmux.Lib Oxmux.Lib.Runs Oxmux.Session Oxmux.Ws Oxmux.Client

/-- The keystrokes for a raw pane among messages. -/
def keysFor (pane : Text) (msgs : List Msg) : Bytes :=
  msgs.flatMap fun
    | .i q data => if q = pane then data else []
    | _ => []

namespace Relay

/-- The keystrokes for a pane that a socket wrote and the server did not read. -/
def unread (k : Nat) (pane : Text) (r : Relay) : Bytes :=
  keysFor pane ((wireOf k r.store).drop (r.readUp k))

section
variable {k : Nat} {id pane : Text} {r : Relay}

end

end Relay

/-! ## Typing -/

/-- The system with an account of what a component typed into a pane. -/
structure Typing where
  relay : Relay
  typed : Bytes

namespace Typing

def typedBy (qid : Text) : Pick → Bytes
  | .browser (.sendInput q data) => if q = qid then data else []
  | _ => []

def step (qid : Text) (t : Typing) (p : Pick) : Typing where
  relay := t.relay.step p
  typed := t.typed ++ typedBy qid p

/-- What tmux was given and what is on its way are what was before and then what
was typed. -/
def Kept (k : Nat) (id pane : Text) (first : Bytes) (t : Typing) : Prop :=
  t.relay.server.typedInto id pane ++ t.relay.unread k pane = first ++ t.typed

/-- The runs that are looked at: nobody else types into the pane, and the session
is not deleted. -/
def Undisturbed (k : Nat) (id pane : Text) (t : Typing) (p : Pick) : Prop :=
  ∀ i ∈ t.relay.inputOf p, (∀ c env, i ≠ .message c (.deleteSession id) env) ∧
    ∀ c data sid env, i = .message c (.input pane data sid) env → c = .own k

/-- Keystrokes for a pane id are written to the socket, for this raw pane. -/
def Writes (k : Nat) (pane q : Text) (s : Store) : Prop :=
  s.Online k ∧ s.p2pOf (parseQualifiedPaneId q).sessionId = none ∧
    (Store.rawMsg (.i q [])).pane = pane

/-- What is typed into the pane is written to the socket, and nothing else is
written for it; what the server reads finds its way to the session's tmux. -/
def Conveys (k : Nat) (id pane : Text) (t : Typing) : Pick → Prop
  | .browser (.sendInput q data) => data ≠ [] →
      (q = qualifyPaneId id pane ↔ Writes k pane q t.relay.store)
  | .receive k' _ => k' = k → ∀ data,
      (wireOf k t.relay.store)[t.relay.readUp k]? = some (.i pane data) → data ≠ [] →
      (t.relay.server.clients (.own k)).isSome →
      t.relay.server.app.sessionManager.Reaches id pane
  | _ => True

section
variable {k : Nat} {id pane : Text} {first : Bytes} {t : Typing}

/-- The terminal is typed into, and the server reads what the socket wrote. -/
def typing : List Pick :=
  let env := MsgEnv.working uuidA sampleTree
  [.browser (.sendInput "a::%0".toList [108, 115]), .receive 0 env, .receive 0 env]

end

end Typing

end Oxmux.System
