import Oxmux.Ws.Encoding

/-! What the store reads from a decoded message, `client/src/stores/tmux.ts`. The
message is cast to the store's types, not checked against them: a field that
goes by another name on the wire is read as `undefined`. -/

namespace Oxmux.Client
open Oxmux.Lib Oxmux.Ws

/-- A JavaScript value without its parts. An integer and a double are kept
apart, as they are on the wire. -/
inductive Js where
  | undefined
  | null
  | boolean (b : Bool)
  | number (n : Int)
  | double (bits : UInt64)
  | string (s : Text)
  | object
  deriving DecidableEq

/-- The double next to a natural number; of two, the even one. -/
def toDouble (n : Nat) : Nat :=
  let exponent := n.log2 - 52
  let unit := 2 ^ exponent
  let mantissa := n / unit
  if unit < 2 * (n % unit) ∨ unit = 2 * (n % unit) ∧ mantissa % 2 = 1 then (mantissa + 1) * unit
  else mantissa * unit

/-- The JavaScript number of a MessagePack integer. -/
def toNumber (n : Int) : Int := n.sign * toDouble n.natAbs

def Js.ofPack : Pack → Js
  | .nil => null
  | .bool b => boolean b
  | .int n => number (toNumber n)
  | .float bits => double bits
  | .str s => string s
  | .bin _ | .arr _ | .map _ => object

/-- A property; none if it is `undefined`. -/
def property (key : Text) : Pack → Option Pack
  | .map entries => entries.lookup key
  | _ => none

def readField (key : Text) (v : Pack) : Js := (property key v).elim .undefined Js.ofPack

/-- A property that is an array; none if it is `undefined`. -/
def readItems {α : Type} (read : Pack → α) (key : Text) (v : Pack) : Option (List α) :=
  match property key v with
  | some (.arr items) => some (items.map read)
  | _ => none

/-! ## The store's types -/

structure PaneView where
  id : Js
  index : Js
  cols : Js
  rows : Js
  currentCommand : Js
  isActive : Js
  isClaude : Js
  deriving DecidableEq

structure WindowView where
  id : Js
  name : Js
  index : Js
  layout : Js
  panes : Option (List PaneView)
  deriving DecidableEq

structure SessionView where
  id : Js
  name : Js
  windows : Option (List WindowView)
  deriving DecidableEq

/-- `ManagedSession`, without its transport. -/
structure ManagedView where
  id : Js
  name : Js
  status : Js
  error : Js
  tmuxSessions : List SessionView
  deriving DecidableEq

structure FileChangeView where
  tool : Js
  path : Js
  kind : Js
  deriving DecidableEq

structure UsageView where
  inputTokens : Js
  outputTokens : Js
  cacheReadInputTokens : Js
  deriving DecidableEq

structure ClaudeView where
  sessionId : Js
  totalCostUsd : Js
  turnCount : Js
  fileChanges : Option (List FileChangeView)
  lastUsage : Option UsageView
  isComplete : Js
  isError : Js
  deriving DecidableEq

/-- An ICE server of `IceConfig`. -/
structure IceServerView where
  urls : Option (List Js)
  username : Js
  credential : Js
  deriving DecidableEq

/-- What a message is read as. -/
inductive Reading where
  | trees (sessions : Option (List SessionView))
  | event (event : Option (List (Text × Js)))
  | claude (sessionId : Js) (state : ClaudeView)
  | ice (peerId : Js) (iceServers : Option (List IceServerView))
  | managedList (sessions : List ManagedView)
  | managed (session : ManagedView)
  | other
  deriving DecidableEq

/-! ## Reading -/

def readPane (v : Pack) : PaneView where
  id := readField "id".toList v
  index := readField "index".toList v
  cols := readField "cols".toList v
  rows := readField "rows".toList v
  currentCommand := readField "currentCommand".toList v
  isActive := readField "isActive".toList v
  isClaude := readField "isClaude".toList v

def readWindow (v : Pack) : WindowView where
  id := readField "id".toList v
  name := readField "name".toList v
  index := readField "index".toList v
  layout := readField "layout".toList v
  panes := readItems readPane "panes".toList v

def readSession (v : Pack) : SessionView where
  id := readField "id".toList v
  name := readField "name".toList v
  windows := readItems readWindow "windows".toList v

/-- Missing trees are read as none at all. -/
def readManaged (v : Pack) : ManagedView where
  id := readField "id".toList v
  name := readField "name".toList v
  status := readField "status".toList v
  error := readField "error".toList v
  tmuxSessions := (readItems readSession "tmux_sessions".toList v).getD []

def readFileChange (v : Pack) : FileChangeView where
  tool := readField "tool".toList v
  path := readField "path".toList v
  kind := readField "kind".toList v

def readUsage (v : Pack) : UsageView where
  inputTokens := readField "inputTokens".toList v
  outputTokens := readField "outputTokens".toList v
  cacheReadInputTokens := readField "cacheReadInputTokens".toList v

def readClaude (v : Pack) : ClaudeView where
  sessionId := readField "sessionId".toList v
  totalCostUsd := readField "totalCostUsd".toList v
  turnCount := readField "turnCount".toList v
  fileChanges := readItems readFileChange "fileChanges".toList v
  lastUsage := (property "lastUsage".toList v).map readUsage
  isComplete := readField "isComplete".toList v
  isError := readField "isError".toList v

def readIceServer (v : Pack) : IceServerView where
  urls := readItems Js.ofPack "urls".toList v
  username := readField "username".toList v
  credential := readField "credential".toList v

def readEntries : Pack → List (Text × Js)
  | .map entries => entries.map fun e => (e.1, Js.ofPack e.2)
  | _ => []

/-- What `handleServerMsg` reads, by the type of the message. -/
def readMsg (msg : Pack) : Reading :=
  let t := readField "t".toList msg
  let object (key : Text) : Pack := (property key msg).getD .nil
  if t = .string "s".toList then .trees (readItems readSession "sessions".toList msg)
  else if t = .string "e".toList then .event ((property "event".toList msg).map readEntries)
  else if t = .string "ca".toList then
    .claude (readField "session_id".toList msg) (readClaude (object "state".toList))
  else if t = .string "ice".toList then
    .ice (readField "peer_id".toList msg)
      (readItems readIceServer "iceServers".toList (object "config".toList))
  else if t = .string "sess_list".toList then
    .managedList ((readItems readManaged "sessions".toList msg).getD [])
  else if t = .string "sess_created".toList ∨ t = .string "sess_updated".toList ∨
      t = .string "sess_connected".toList ∨ t = .string "sess_disconnected".toList then
    .managed (readManaged (object "session".toList))
  else .other

end Oxmux.Client
