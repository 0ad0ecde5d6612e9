import Oxmux.Lib.Text

/-! The data of a session, `server/src/session/types.rs` and the tmux trees of
`server/src/ws/protocol.rs`, with the JSON form in which a transport
configuration is stored. -/

namespace Oxmux.Session
open Oxmux.Lib

/-! ## tmux trees -/

structure TmuxPaneInfo where
  id : Text
  index : Nat
  cols : Nat
  rows : Nat
  currentCommand : Text
  isActive : Bool
  isClaude : Bool
  deriving DecidableEq

structure TmuxWindowInfo where
  id : Text
  name : Text
  index : Nat
  layout : Text
  panes : List TmuxPaneInfo
  deriving DecidableEq

structure TmuxSessionInfo where
  id : Text
  name : Text
  windows : List TmuxWindowInfo
  deriving DecidableEq

/-- The pane ids of a tree, in the order in which the loops meet them. -/
def paneIds (tree : List TmuxSessionInfo) : List Text :=
  tree.flatMap fun s => s.windows.flatMap fun w => w.panes.map (·.id)

/-- A tmux session with one window that has one pane. -/
def TmuxSessionInfo.single (pane : Text) : TmuxSessionInfo where
  id := "$0".toList
  name := "main".toList
  windows := [{ id := "@0".toList, name := "sh".toList, index := 0, layout := []
                panes := [{ id := pane, index := 0, cols := 80, rows := 24
                            currentCommand := "sh".toList, isActive := true, isClaude := false }] }]

/-! ## Transport configurations -/

inductive BrowserTransport where
  | websocket
  | quic
  | webrtc
  deriving DecidableEq

inductive SshAuthConfig where
  | agent
  | password (password : Text)
  | privateKey (path : Text) (passphrase : Option Text)
  | uploadedKey (keyId : Text) (passphrase : Option Text)
  deriving DecidableEq

inductive BackendTransport where
  | ssh (host : Text) (port : UInt16) (user : Text) (auth : SshAuthConfig)
  | agent (host : Text) (port : UInt16) (agentId : Option Text)
  | local
  deriving DecidableEq

def BackendTransport.host : BackendTransport → Option Text
  | ssh host .. | agent host .. => some host
  | BackendTransport.local => none

def BackendTransport.isSsh : BackendTransport → Bool
  | ssh .. => true
  | _ => false

structure TransportConfig where
  browser : BrowserTransport
  backend : BackendTransport
  deriving DecidableEq

def defaultSshPort : UInt16 := 22
def defaultAgentPort : UInt16 := 4433

/-- SSH to a host with the agent's keys. -/
def TransportConfig.ssh (host : Text) : TransportConfig :=
  { browser := .websocket, backend := .ssh host defaultSshPort "user".toList .agent }

/-! ## Sessions -/

inductive SessionStatus where
  | created
  | connecting
  | connected
  | reconnecting
  | disconnected
  | error
  deriving DecidableEq

def SessionStatus.show : SessionStatus → Text
  | created => "created".toList
  | connecting => "connecting".toList
  | connected => "connected".toList
  | reconnecting => "reconnecting".toList
  | disconnected => "disconnected".toList
  | error => "error".toList

structure ManagedSession where
  id : Text
  name : Text
  transport : TransportConfig
  status : SessionStatus
  error : Option Text
  tmuxSessions : List TmuxSessionInfo
  deriving DecidableEq

def SshAuthConfig.sanitized : SshAuthConfig → SshAuthConfig
  | password _ => password "***".toList
  | privateKey path _ => privateKey path none
  | uploadedKey keyId _ => uploadedKey keyId none
  | agent => agent

def BackendTransport.sanitized : BackendTransport → BackendTransport
  | ssh host port user auth => ssh host port user auth.sanitized
  | b => b

def ManagedSession.sanitized (s : ManagedSession) : ManagedSession :=
  { s with transport := { s.transport with backend := s.transport.backend.sanitized } }

structure CreateSessionRequest where
  name : Text
  transport : TransportConfig
  deriving DecidableEq

structure UpdateSessionRequest where
  name : Option Text
  deriving DecidableEq

/-! ## The stored form -/

inductive Json where
  | null
  | bool (b : Bool)
  | num (n : Int)
  | str (s : Text)
  | arr (items : List Json)
  | obj (fields : List (Text × Json))

namespace Json

def field (key : Text) : Json → Option Json
  | obj fields => fields.lookup key
  | _ => none

def asStr : Json → Option Text
  | str s => some s
  | _ => none

def asU16 : Json → Option UInt16
  | num n => if 0 ≤ n ∧ n < 65536 then some (.ofNat n.toNat) else none
  | _ => none

def asOptStr : Json → Option (Option Text)
  | null => some none
  | str s => some (some s)
  | _ => none

/-- A field with a default for when it is missing. -/
def fieldOr {α : Type} (key : Text) (default : α) (read : Json → Option α) (j : Json) : Option α :=
  match j.field key with
  | some v => read v
  | none => some default

def ofOptStr : Option Text → Json
  | some s => str s
  | none => null

end Json

open Json

def BrowserTransport.toJson : BrowserTransport → Json
  | websocket => str "websocket".toList
  | quic => str "quic".toList
  | webrtc => str "webrtc".toList

def BrowserTransport.ofJson (j : Json) : Option BrowserTransport :=
  j.asStr.bind fun s =>
    if s = "websocket".toList then some websocket
    else if s = "quic".toList then some quic
    else if s = "webrtc".toList then some webrtc
    else none

def SshAuthConfig.toJson : SshAuthConfig → Json
  | agent => obj [("method".toList, str "agent".toList)]
  | password p => obj [("method".toList, str "password".toList), ("password".toList, str p)]
  | privateKey path pp => obj [("method".toList, str "private_key".toList),
      ("path".toList, str path), ("passphrase".toList, ofOptStr pp)]
  | uploadedKey keyId pp => obj [("method".toList, str "uploaded_key".toList),
      ("key_id".toList, str keyId), ("passphrase".toList, ofOptStr pp)]

def SshAuthConfig.ofJson (j : Json) : Option SshAuthConfig := do
  let method ← (j.field "method".toList).bind asStr
  if method = "agent".toList then some agent
  else if method = "password".toList then
    some (password (← (j.field "password".toList).bind asStr))
  else if method = "private_key".toList then
    some (privateKey (← (j.field "path".toList).bind asStr)
      (← j.fieldOr "passphrase".toList none asOptStr))
  else if method = "uploaded_key".toList then
    some (uploadedKey (← (j.field "key_id".toList).bind asStr)
      (← j.fieldOr "passphrase".toList none asOptStr))
  else none

def BackendTransport.toJson : BackendTransport → Json
  | ssh host port user auth => obj [("type".toList, str "ssh".toList), ("host".toList, str host),
      ("port".toList, num port.toNat), ("user".toList, str user), ("auth".toList, auth.toJson)]
  | agent host port agentId => obj ([("type".toList, str "agent".toList),
      ("host".toList, str host), ("port".toList, num port.toNat)] ++
      agentId.toList.map fun a => ("agent_id".toList, str a))
  | BackendTransport.local => obj [("type".toList, str "local".toList)]

def BackendTransport.ofJson (j : Json) : Option BackendTransport := do
  let type ← (j.field "type".toList).bind asStr
  if type = "ssh".toList then
    some (ssh (← (j.field "host".toList).bind asStr)
      (← j.fieldOr "port".toList defaultSshPort asU16) (← (j.field "user".toList).bind asStr)
      (← j.fieldOr "auth".toList .agent SshAuthConfig.ofJson))
  else if type = "agent".toList then
    some (agent (← (j.field "host".toList).bind asStr)
      (← j.fieldOr "port".toList defaultAgentPort asU16)
      (← j.fieldOr "agent_id".toList none asOptStr))
  else if type = "local".toList then some BackendTransport.local
  else none

def TransportConfig.toJson (c : TransportConfig) : Json :=
  obj [("browser".toList, c.browser.toJson), ("backend".toList, c.backend.toJson)]

def TransportConfig.ofJson (j : Json) : Option TransportConfig := do
  let browser ← j.fieldOr "browser".toList .websocket BrowserTransport.ofJson
  let backend ← (j.field "backend".toList).bind BackendTransport.ofJson
  some { browser, backend }

end Oxmux.Session
