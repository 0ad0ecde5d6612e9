import Oxmux.Client.PaneId
import Oxmux.Lib.Table
import Oxmux.Ws.Protocol

/-! The browser's store, `client/src/stores/tmux.ts`: sessions, pane handlers,
the WebSocket of the control plane and the direct connections to agents. Sockets
and connections are numbered in the order in which they are made; what is
written to them and what the handlers are given is kept in order. -/

namespace Oxmux.Client
open Oxmux.Lib Oxmux.Session Oxmux.Ws

/-! ## Messages and connections -/

structure IceCandidate where
  candidate : Text
  sdpMid : Option Text
  sdpMLineIndex : Option Nat
  usernameFragment : Option Text
  deriving DecidableEq

/-- What the store sends. `attach` is the agent's `sess_connect`, which names
the tmux session; the offer and its candidates are for the agent too. -/
inductive Msg where
  | sub (pane : Text)
  | unsub (pane : Text)
  | i (pane : Text) (data : Bytes)
  | r (pane : Text) (cols rows : Nat)
  | ping (ts : Nat)
  | sessList
  | sessCreate (name : Text) (transport : TransportConfig)
  | sessConnect (sessionId : Text)
  | sessDisconnect (sessionId : Text)
  | sessDelete (sessionId : Text)
  | sessRefresh (sessionId : Text)
  | agentStatus (host : Text)
  | agentInstall (sessionId : Text)
  | transportUpgrade (sessionId target : Text)
  | iceReq (peerId : Text)
  | attach (name : Text)
  | webrtcOffer (sdp : Text)
  | webrtcIce (candidate : IceCandidate)
  deriving DecidableEq

def Msg.isData : Msg → Bool
  | sub _ | unsub _ | i _ _ | r _ _ _ | ping _ => true
  | _ => false

def Msg.pane : Msg → Text
  | sub pane | unsub pane | i pane _ | r pane _ _ => pane
  | _ => []

def Msg.withPane (pane : Text) : Msg → Msg
  | sub _ => sub pane
  | unsub _ => unsub pane
  | i _ data => i pane data
  | r _ cols rows => r pane cols rows
  | m => m

inductive ReadyState where
  | connecting
  | open
  | closing
  | closed
  deriving DecidableEq

inductive ConnectionStatus where
  | disconnected
  | connecting
  | connected
  | reconnecting
  deriving DecidableEq

inductive P2PMode where
  | quic
  | webrtc
  deriving DecidableEq

structure P2PConnection where
  conn : Nat
  mode : P2PMode
  deriving DecidableEq

/-- The store, and what it has outside: the sockets made so far, what was written to
them and to the direct connections, those that were closed, and what the handlers
were given, with the qualified pane they stand for. -/
structure Store where
  managedSessions : List ManagedSession
  activePane : Option Text
  focusedSessionId : Option Text
  connectionStatus : ConnectionStatus
  ws : Option Nat
  sessionTrees : Table Text (List TmuxSessionInfo)
  connectedSessionIds : List Text
  paneHandlers : Table Text Nat
  reconnectTimeout : Bool
  backoffMs : Nat
  wsSend : Option Nat
  p2pConnections : Table Text P2PConnection
  sockets : List ReadyState
  wire : List (Nat × Msg)
  p2pWire : List (Nat × Msg)
  p2pClosed : List Nat
  handed : List (Text × Chunk)
  deriving DecidableEq

namespace Store

def new : Store where
  managedSessions := []
  activePane := none
  focusedSessionId := none
  connectionStatus := .disconnected
  ws := none
  sessionTrees := []
  connectedSessionIds := []
  paneHandlers := []
  reconnectTimeout := false
  backoffMs := 1000
  wsSend := none
  p2pConnections := []
  sockets := []
  wire := []
  p2pWire := []
  p2pClosed := []
  handed := []

def isOpen (socket : Nat) (s : Store) : Bool := s.sockets[socket]? == some .open

/-- `wsSend`: a socket that is not open swallows the message. -/
def sendOn (socket : Nat) (msg : Msg) (s : Store) : Store :=
  if s.isOpen socket then { s with wire := s.wire ++ [(socket, msg)] } else s

def sendWs (msg : Msg) (s : Store) : Store :=
  match s.wsSend with
  | some socket => s.sendOn socket msg
  | none => s

/-- The socket behind `wsSend` is open. -/
def online (s : Store) : Bool := s.wsSend.any fun socket => s.isOpen socket

def sendP2P (conn : Nat) (msg : Msg) (s : Store) : Store :=
  { s with p2pWire := s.p2pWire ++ [(conn, msg)] }

/-- The direct connection of a session; the empty id has none. -/
def p2pOf (sessionId : Text) (s : Store) : Option P2PConnection :=
  if sessionId = [] then none else s.p2pConnections.get sessionId

/-- `p2p?.send || wsSend`. -/
def sendVia (p2p : Option P2PConnection) (msg : Msg) (s : Store) : Store :=
  match p2p with
  | some c => s.sendP2P c.conn msg
  | none => s.sendWs msg

/-- The message that goes on the wire: the session is cut off the pane's id. -/
def rawMsg (msg : Msg) : Msg :=
  let ref := parseQualifiedPaneId msg.pane
  if msg.pane ≠ [] ∧ ref.sessionId ≠ [] then msg.withPane ref.paneId else msg

def sendMsg (msg : Msg) (s : Store) : Store :=
  if msg.isData then
    s.sendVia (s.p2pOf (parseQualifiedPaneId msg.pane).sessionId) (rawMsg msg)
  else s.sendWs msg

/-! ## Panes -/

def sendInput (qid : Text) (data : Bytes) (s : Store) : Store := s.sendMsg (.i qid data)

def sendResize (qid : Text) (cols rows : Nat) (s : Store) : Store := s.sendMsg (.r qid cols rows)

def registerPaneHandler (qid : Text) (handler : Nat) (s : Store) : Store :=
  { s with paneHandlers := s.paneHandlers.set qid handler }

def sendSubscribe (qid : Text) (s : Store) : Store :=
  let ref := parseQualifiedPaneId qid
  s.sendVia (s.p2pOf ref.sessionId) (.sub ref.paneId)

def subscribePane (qid : Text) (handler : Nat) (s : Store) : Store :=
  (s.registerPaneHandler qid handler).sendSubscribe qid

def unsubscribePane (qid : Text) (s : Store) : Store :=
  let ref := parseQualifiedPaneId qid
  { s with paneHandlers := s.paneHandlers.delete qid }.sendVia (s.p2pOf ref.sessionId)
    (.unsub ref.paneId)

/-! ## Direct connections -/

def teardownAllP2P (s : Store) : Store :=
  { s with p2pClosed := s.p2pClosed ++ s.p2pConnections.map (·.2.conn), p2pConnections := [] }

/-- `teardownP2P` of one session; the empty id stands for all. -/
def teardownP2P (sessionId : Text) (s : Store) : Store :=
  if sessionId = [] then s.teardownAllP2P
  else match s.p2pConnections.get sessionId with
    | some c =>
      { s with
        p2pClosed := s.p2pClosed ++ [c.conn], p2pConnections := s.p2pConnections.delete sessionId }
    | none => s

def handlerPanes (sessionId : Text) (s : Store) : List Text :=
  s.paneHandlers.keys.filter fun qid => (parseQualifiedPaneId qid).sessionId = sessionId

/-- A subscription and, if the terminal's size is known, the resize behind it. -/
def subscribeMsgs (sizes : Text → Option (Nat × Nat)) (qid : Text) : List Msg :=
  let pane := (parseQualifiedPaneId qid).paneId
  .sub pane :: match sizes qid with
    | some (cols, rows) => if 0 < cols ∧ 0 < rows then [.r pane cols rows] else []
    | none => []

def resubscribeSessionPanes (sizes : Text → Option (Nat × Nat)) (sessionId : Text) (s : Store) :
    Store :=
  match s.p2pConnections.get sessionId with
  | some c =>
    ((s.handlerPanes sessionId).flatMap (subscribeMsgs sizes)).foldl
      (fun s m => s.sendP2P c.conn m) s
  | none => s

def resubscribePanesViaWS (sizes : Text → Option (Nat × Nat)) (sessionId : Text) (s : Store) :
    Store :=
  ((s.handlerPanes sessionId).flatMap (subscribeMsgs sizes)).foldl (fun s m => s.sendWs m) s

/-- The end of `connectQuicP2P`. -/
def quicConnected (conn : Nat) (sizes : Text → Option (Nat × Nat)) (sessionId : Text) (s : Store) :
    Store :=
  let s := { s with
    p2pConnections := s.p2pConnections.set sessionId { conn, mode := .quic } }
  let s := match s.managedSessions.find? (·.id = sessionId) with
    | some sess => s.sendP2P conn (.attach sess.name)
    | none => s
  s.resubscribeSessionPanes sizes sessionId

/-- The end of `connectWebRtcTransport`. -/
def webrtcConnected (conn : Nat) (sizes : Text → Option (Nat × Nat)) (sessionId : Text)
    (s : Store) : Store :=
  resubscribeSessionPanes sizes sessionId { s with
    p2pConnections := s.p2pConnections.set sessionId { conn, mode := .webrtc } }

/-- The close handler of a direct connection: back to the WebSocket. -/
def p2pLost (sizes : Text → Option (Nat × Nat)) (sessionId : Text) (s : Store) : Store :=
  (s.teardownP2P sessionId).resubscribePanesViaWS sizes sessionId

/-! ## Sessions -/

def disconnectSessionCleanup (sessionId : Text) (s : Store) : Store :=
  let s := s.teardownP2P sessionId
  let connected := s.connectedSessionIds.filter (· ≠ sessionId)
  { s with
    paneHandlers := s.paneHandlers.filter fun e =>
      (parseQualifiedPaneId e.1).sessionId ≠ sessionId
    connectedSessionIds := connected
    sessionTrees := s.sessionTrees.delete sessionId
    focusedSessionId :=
      -- `[...connectedSessionIds][0] || null`: an empty id is no focus either
      if s.focusedSessionId = some sessionId then connected.head?.filter (· ≠ [])
      else s.focusedSessionId
    activePane := s.activePane.filter fun q =>
      q = [] ∨ (parseQualifiedPaneId q).sessionId ≠ sessionId }

def cleanupSession (s : Store) : Store :=
  { s.teardownAllP2P with
    paneHandlers := []
    connectedSessionIds := []
    sessionTrees := []
    focusedSessionId := none
    activePane := none }

def connectSession (sessionId : Text) (s : Store) : Store := s.sendMsg (.sessConnect sessionId)

def disconnectSession (sessionId : Text) (s : Store) : Store :=
  (s.sendWs (.sessDisconnect sessionId)).disconnectSessionCleanup sessionId

def deleteSession (sessionId : Text) (s : Store) : Store :=
  (s.disconnectSessionCleanup sessionId).sendMsg (.sessDelete sessionId)

/-! ## Messages of the server -/

/-- The session that a message without session id is taken to be about. -/
def sourceSession (source sessionId : Option Text) (s : Store) : Text :=
  let truthy := Option.filter (fun t : Text => t ≠ [])
  ((truthy source).or ((truthy sessionId).or s.focusedSessionId)).getD []

/-- `applyTmuxEvent`. Reading the kind of an event that is `undefined` throws,
and nothing is set. -/
def applyTmuxEvent (event : Option TmuxEventMsg) (source : Option Text) (s : Store) : Store :=
  let sid := s.sourceSession source none
  let trees := (s.sessionTrees.get sid).getD []
  if sid = [] then s
  else match event with
    | some (.sessionCreated id name) =>
      { s with sessionTrees := s.sessionTrees.set sid (trees ++ [{ id, name, windows := [] }]) }
    | some (.sessionClosed id) =>
      { s with sessionTrees := s.sessionTrees.set sid (trees.filter fun t => t.id ≠ id) }
    | _ => s

/-- `managedSessions.value[idx] = session`, where a session has this id. -/
def replaceManaged (session : ManagedSession) (sessions : List ManagedSession) :
    List ManagedSession :=
  match sessions.findIdx? fun m => m.id = session.id with
  | some idx => sessions.set idx session
  | none => sessions

/-- The session is one that the store knows. -/
def knows (id : Text) (s : Store) : Bool := s.managedSessions.any fun m => m.id = id

/-- The host of an SSH session, whose agent's status is asked for. -/
def sshHost (session : ManagedSession) : Option Text :=
  match session.transport.backend with
  | .ssh host _ _ _ => if host = [] then none else some host
  | _ => none

def sessConnected (session : ManagedSession) (s : Store) : Store :=
  if s.knows session.id then
    let s := { s with
      managedSessions := replaceManaged session s.managedSessions
      connectedSessionIds :=
        if session.id ∈ s.connectedSessionIds then s.connectedSessionIds
        else s.connectedSessionIds ++ [session.id]
      sessionTrees :=
        if session.tmuxSessions = [] then s.sessionTrees
        else s.sessionTrees.set session.id session.tmuxSessions
      focusedSessionId :=
        if s.focusedSessionId.getD [] = [] then some session.id else s.focusedSessionId }
    match sshHost session with
    | some host => s.sendMsg (.agentStatus host)
    | none => s
  else s

/-- `handleServerMsg`. What it does with agent states, upgrades, ICE answers and
pongs is not part of this state. -/
def handleServerMsg (msg : ServerMsg) (source : Option Text) (s : Store) : Store :=
  match msg with
  | .output pane data sessionId =>
    let qid := qualifyPaneId (s.sourceSession source sessionId) pane
    match s.paneHandlers.get qid with
    | some _ => { s with handed := s.handed ++ [(qid, data)] }
    | none => s
  | .state sessions =>
    let sid := s.sourceSession source none
    if sid = [] then s else { s with sessionTrees := s.sessionTrees.set sid sessions }
  -- the fields of an encoded event stand in the message itself: `msg.event` is undefined
  | .tmuxEvent _ => s.applyTmuxEvent none source
  | .sessionList sessions => { s with managedSessions := sessions }
  | .sessionCreated session => { s with managedSessions := s.managedSessions ++ [session] }
  | .sessionUpdated session =>
    { s with managedSessions := replaceManaged session s.managedSessions }
  | .sessionDeleted id =>
    { s with managedSessions := s.managedSessions.filter (·.id ≠ id) }.disconnectSessionCleanup id
  | .sessionConnected session => s.sessConnected session
  | .sessionDisconnected session =>
    { s with managedSessions := replaceManaged session s.managedSessions }.disconnectSessionCleanup
      session.id
  | _ => s

/-! ## The WebSocket -/

def connect (s : Store) : Store :=
  if s.ws.elim false (fun socket => s.isOpen socket) then s
  else { s with
    connectionStatus := .connecting
    ws := some s.sockets.length
    sockets := s.sockets ++ [.connecting] }

/-- `onopen`: the sessions that were connected before are connected again. -/
def onOpen (socket : Nat) (s : Store) : Store :=
  let s := { s with
    sockets := s.sockets.set socket .open
    connectionStatus := .connected
    backoffMs := 1000
    wsSend := some socket }
  s.connectedSessionIds.foldl (fun s sid => s.sendMsg (.sessConnect sid)) (s.sendMsg .sessList)

/-- `onmessage`: while any direct connection exists, output is not taken from
the WebSocket. -/
def onMessage (msg : ServerMsg) (s : Store) : Store :=
  match msg with
  | .output .. => if s.p2pConnections = [] then s.handleServerMsg msg none else s
  | _ => s.handleServerMsg msg none

def onClose (socket : Nat) (s : Store) : Store :=
  { s with
    sockets := s.sockets.set socket .closed
    connectionStatus := .reconnecting
    wsSend := none
    reconnectTimeout := true }

def reconnect (s : Store) : Store :=
  { s with reconnectTimeout := false, backoffMs := min (s.backoffMs * 2) 30000 }.connect

end Store

end Oxmux.Client
