import Oxmux.Lib.Broadcast
import Oxmux.Lib.Table
import Oxmux.Session.Manager
import Oxmux.Ws.Protocol

/-! `AppState` (`server/src/state.rs`), the agent registry, and the message
handler that all client connections share (`server/src/ws/session_handler.rs`). -/

namespace Oxmux.Ws
open Oxmux.Lib Oxmux.Lib.Broadcast Oxmux.Session

/-! ## The shared state -/

structure AgentInfo where
  id : Text
  hostname : Text
  host : Text
  quicPort : Nat
  version : Text
  lastSeen : Nat
  certHash : Option Text
  deriving DecidableEq

/-- The registered agents, in the order in which the map is iterated. -/
abbrev AgentRegistry := List AgentInfo

/-- `register`: an agent that is registered again replaces its entry. -/
def AgentRegistry.register (agent : AgentInfo) (r : AgentRegistry) : AgentRegistry :=
  r.filter (·.id ≠ agent.id) ++ [agent]

def AgentRegistry.findByHost (host : Text) (r : AgentRegistry) : Option AgentInfo :=
  r.find? fun agent => agent.host = host

/-- The buffer of a pane's output channel. -/
def paneCapacity : Nat := 4096

structure AppState where
  paneOutputs : Text → Option (Channel Chunk)
  sessionManager : SessionManager
  agentRegistry : AgentRegistry

def AppState.new (db : List SessionRow) : AppState where
  paneOutputs _ := none
  sessionManager := .new db
  agentRegistry := []

/-- `get_or_create_pane_channel`, with the channel that is then in the map. -/
def AppState.getOrCreatePaneChannel (pane : Text) (s : AppState) : AppState × Channel Chunk :=
  match s.paneOutputs pane with
  | some c => (s, c)
  | none => ({ s with paneOutputs := Function.update s.paneOutputs pane (some .new) }, .new)

/-- A reader task's send of what a session's tmux wrote for a pane. -/
def AppState.publish (sessionId pane : Text) (data : Bytes) (s : AppState) : AppState :=
  let r := s.getOrCreatePaneChannel pane
  { r.1 with
    paneOutputs :=
      Function.update r.1.paneOutputs pane (some (r.2.send { origin := sessionId, pane, data })) }

/-- A deployment that `InstallAgent` starts in the background. -/
structure Deployment where
  sessionId : Text
  host : Text
  port : UInt16
  user : Text
  auth : SshAuthConfig
  deriving DecidableEq

structure ConnectionState where
  userId : Text
  paneSubs : Table Text Receiver
  deployments : List Deployment
  deriving DecidableEq

def ConnectionState.new (userId : Text) : ConnectionState where
  userId
  paneSubs := []
  deployments := []

/-! ## Agent host names -/

/-- The agent's DNS name: the entry of `AGENT_DNS_MAP` for its address, or a
name made of the address. -/
def agentDnsName (dnsMap domain host : Text) : Text :=
  let entries := (dnsMap.splitOn ',').filterMap (splitOnce '=')
  match entries.find? fun e => trim e.1 = host with
  | some e => trim e.2
  | none =>
    "agent-".toList ++ host.map (fun c => if c = '.' then '-' else c) ++ ".".toList ++ domain

/-! ## The message handler -/

/-- What the world outside answers during one message: the TURN servers, and the token
of `create_agent_token`, if it can make one. -/
structure MsgEnv extends Env where
  turn : Except Text (List IceServer)
  agentToken : Option Text
  agentDnsMap : Text
  agentDnsDomain : Text

/-- An environment in which everything works, and tmux has this tree. -/
def MsgEnv.working (uuid : Uuid) (tree : List TmuxSessionInfo) : MsgEnv where
  uuid
  now := 0
  dbRead := true
  dbWrite _ := true
  connection := 0
  connect := none
  listing := .ok tree
  turn := .ok []
  agentToken := some []
  agentDnsMap := []
  agentDnsDomain := []

/-- The reply to a session operation: a message of success, or an error with
the operation's code. -/
def sessionReply {α : Type} (code : Text) (ok : α → ServerMsg) : Except Text α → ServerMsg
  | .ok a => ok a
  | .error e => .error code e

def AppState.withManager {α : Type} (s : AppState)
    (op : SessionManager → SessionManager × Except Text α) : AppState × Except Text α :=
  ({ s with sessionManager := (op s.sessionManager).1 }, (op s.sessionManager).2)

def installAgent (sessionId : Text) (s : AppState) (conn : ConnectionState) :
    ConnectionState × ServerMsg :=
  match s.sessionManager.get sessionId with
  | none => (conn, .error "session_not_found".toList (SessionManager.notFound sessionId))
  | some session =>
    match session.transport.backend with
    | .ssh host port user auth =>
      ({ conn with deployments := conn.deployments ++ [{ sessionId, host, port, user, auth }] },
        .agentStatus sessionId host "installing".toList none none (some 4433))
    | _ => (conn, .error "not_ssh_session".toList "agent install requires an SSH session".toList)

def transportUpgrade (env : MsgEnv) (sessionId target : Text) (s : AppState) : ServerMsg :=
  match s.sessionManager.get sessionId with
  | none => .transportUpgradeFailed sessionId "session not found".toList
  | some session =>
    let upgrade (host : Text) : ServerMsg :=
      match s.agentRegistry.findByHost host with
      | none => .transportUpgradeFailed sessionId ("no agent online for host ".toList ++ host)
      | some agent =>
        match env.agentToken with
        | some token =>
          .transportUpgradeReady sessionId
            (agentDnsName env.agentDnsMap env.agentDnsDomain agent.host) agent.quicPort token
            (some target) agent.certHash
        | none => .transportUpgradeFailed sessionId "failed to create agent JWT".toList
    match session.transport.backend with
    | .ssh host _ _ _ => upgrade host
    | .agent host _ _ => upgrade host
    | BackendTransport.local =>
      .transportUpgradeFailed sessionId "local sessions don't support P2P".toList

/-- `handle_client_msg`: the state and the connection behind a message, and the
reply if there is one. -/
def handleClientMsg (env : MsgEnv) (msg : ClientMsg) (s : AppState) (conn : ConnectionState) :
    AppState × ConnectionState × Option ServerMsg :=
  match msg with
  | .subscribe pane _ =>
    let r := s.getOrCreatePaneChannel pane
    (r.1, { conn with paneSubs := conn.paneSubs.set pane r.2.subscribe }, none)
  | .unsubscribe pane _ => (s, { conn with paneSubs := conn.paneSubs.delete pane }, none)
  | .resize pane cols rows _ =>
    ((s.withManager (·.executeOnPane (.resize pane cols rows))).1, conn, none)
  | .ping ts => (s, conn, some (.pong ts))
  | .iceRequest peerId =>
    (s, conn, some (sessionReply "turn_error".toList (.iceConfig peerId) env.turn))
  | .input pane data _ => ((s.withManager (·.executeOnPane (.input pane data))).1, conn, none)
  | .tmuxCommand _ => (s, conn, none)
  | .signal peerId payload => (s, conn, some (.signal peerId payload))
  | .claudeInput _ _ => (s, conn, none)
  | .createSession req =>
    let r := s.withManager (·.create env.toEnv conn.userId req)
    (r.1, conn, some (sessionReply "session_create_error".toList (.sessionCreated ·.sanitized) r.2))
  | .listSessions =>
    let r := s.withManager (·.loadUserSessions env.toEnv conn.userId)
    (r.1, conn, some (sessionReply "session_list_error".toList
      (fun sessions => .sessionList (sessions.map (·.sanitized))) r.2))
  | .connectSession id =>
    let r := s.withManager (·.connect env.toEnv id)
    (r.1, conn, some (sessionReply "session_connect_error".toList
      (.sessionConnected ·.sanitized) r.2))
  | .disconnectSession id =>
    let r := s.withManager (·.disconnect env.toEnv id)
    (r.1, conn, some (sessionReply "session_disconnect_error".toList
      (.sessionDisconnected ·.sanitized) r.2))
  | .updateSession id request =>
    let r := s.withManager (·.update env.toEnv id request)
    (r.1, conn, some (sessionReply "session_update_error".toList (.sessionUpdated ·.sanitized) r.2))
  | .deleteSession id =>
    let r := s.withManager (·.delete env.toEnv id)
    (r.1, conn, some (sessionReply "session_delete_error".toList (fun _ => .sessionDeleted id) r.2))
  | .refreshSession id =>
    let r := s.withManager (·.refreshTmuxState env.toEnv id)
    (r.1, conn, some (sessionReply "session_refresh_error".toList
      (.sessionConnected ·.sanitized) r.2))
  | .installAgent id =>
    let r := installAgent id s conn
    (s, r.1, some r.2)
  | .transportUpgrade id target => (s, conn, some (transportUpgrade env id target s))
  | .agentStatusRequest host =>
    (s, conn, some (match s.agentRegistry.findByHost host with
      | some agent => .agentStatus [] host "online".toList (some agent.id) (some agent.version)
          (some agent.quicPort)
      | none => .agentStatus [] host "not_installed".toList none none none))

/-- What a receiver has pending, and the receiver behind it. -/
def drainSub (s : AppState) (pane : Text) (r : Receiver) : List Chunk × Receiver :=
  match s.paneOutputs pane with
  | some c => c.drain paneCapacity r
  | none => ([], r)

/-- `drain_pane_outputs`, one receiver after the other in the order of the map:
one output message for every piece that is pending. No message names its
session. -/
def drainPaneOutputs (s : AppState) (conn : ConnectionState) : ConnectionState × List ServerMsg :=
  ({ conn with paneSubs := conn.paneSubs.mapValues fun pane r => (drainSub s pane r).2 },
    conn.paneSubs.flatMap fun sub =>
      (drainSub s sub.1 sub.2).1.map fun data => ServerMsg.output sub.1 data none)

end Oxmux.Ws
