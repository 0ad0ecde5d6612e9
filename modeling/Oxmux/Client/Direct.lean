import Oxmux.Client.Events

/-! The direct connections to the agents, from the upgrade that begins one to
its last close event. A close handler is set for a connection, but it knows no
more than the session: whatever connection the session has by then is torn down,
and whatever panes it has are subscribed over the WebSocket. -/

namespace Oxmux.Client
open Oxmux.Lib Oxmux.Session

/-! ## Upgrades and their connections -/

/-- The id of a session of the server, which is never empty. -/
abbrev SessionId := { id : Text // id ≠ [] }

/-- The terminals, by pane, with their sizes. -/
abbrev Terminals := Text → Option (Nat × Nat)

/-- An attempt that is up is registered, and its close handler is set. -/
inductive Phase where
  | opening
  | failed
  | up
  deriving DecidableEq

/-- A direct connection that an upgrade tries to make, or that falls back from
WebRTC. It has ended when its read loop has, or its DataChannel is closed. -/
structure Attempt where
  sessionId : SessionId
  mode : P2PMode
  fallback : Bool
  phase : Phase
  ended : Bool
  deriving DecidableEq

/-- What makes a connection call its close handler: `dc.onclose`, a peer
connection that is `failed` or `disconnected`, the end of the QUIC read loop. -/
inductive CloseEvent where
  | dataChannel
  | connectionState
  | readLoop
  deriving DecidableEq

/-- The event can happen. A peer connection that was closed changes its state no
more; the rest happens once. -/
def CloseEvent.fires (closed : Bool) (a : Attempt) : CloseEvent → Bool
  | dataChannel => a.mode = .webrtc && a.phase = .up && !a.ended
  | connectionState => a.mode = .webrtc && !closed
  | readLoop => a.mode = .quic && a.phase ≠ .failed && !a.ended

def CloseEvent.ends : CloseEvent → Bool
  | dataChannel | readLoop => true
  | connectionState => false

/-- A call of a close handler: whether its connection was the registered one of
the session, whether the store or a terminal changed, and which connections were
closed. -/
structure Notice where
  conn : Nat
  registered : Bool
  changed : Bool
  closed : List Nat
  deriving DecidableEq

/-- A registered connection that was lost, with the raw panes that its session had
then, and those panes of it that had a terminal. -/
structure Loss where
  conn : Nat
  panes : List Text
  terminals : List Text
  deriving DecidableEq

/-- The store, the connections by number, and what their close handlers did: the
raw panes that each subscribed over the WebSocket, and the terminals it reset. -/
structure Direct where
  store : Store
  attempts : List Attempt
  resubscribed : List (Nat × Text)
  resets : List (Nat × Text)
  notices : List Notice
  losses : List Loss
  deriving DecidableEq

inductive Act where
  | upgradeReady (sessionId : SessionId) (target : Option Text)
  | established (conn : Nat) (terminals : Terminals)
  | failed (conn : Nat)
  | closed (event : CloseEvent) (conn : Nat) (terminals : Terminals)
  | store (e : Event)

def webrtcP2P : Text := "webrtc_p2p".toList

def Store.isRegistered (conn : Nat) (sessionId : Text) (s : Store) : Bool :=
  (s.p2pConnections.get sessionId).any (·.conn = conn)

namespace Direct

def new : Direct where
  store := .new
  attempts := []
  resubscribed := []
  resets := []
  notices := []
  losses := []

/-- `connectWebRtcTransport`, up to the open DataChannel. -/
def connectWebRtcTransport (sessionId : SessionId) (d : Direct) : Direct :=
  { d with attempts := d.attempts ++
      [{ sessionId, mode := .webrtc, fallback := false, phase := .opening, ended := false }] }

/-- `connectQuicP2P`, up to the answer to `auth`. -/
def connectQuicP2P (sessionId : SessionId) (fallback : Bool) (d : Direct) : Direct :=
  { d with attempts := d.attempts ++
      [{ sessionId, mode := .quic, fallback, phase := .opening, ended := false }] }

def terminalPanes (terminals : Terminals) (sessionId : Text) (s : Store) : List Text :=
  (s.handlerPanes sessionId).filter fun qid => (terminals qid).isSome

def rawPanes (sessionId : Text) (s : Store) : List Text :=
  (s.handlerPanes sessionId).map fun qid => (parseQualifiedPaneId qid).paneId

def lossOf (conn : Nat) (sessionId : Text) (terminals : Terminals) (d : Direct) : Loss where
  conn := conn
  panes := rawPanes sessionId d.store
  terminals := terminalPanes terminals sessionId d.store

/-- The connection is registered and its close handler is set. A read loop that
ended before found no handler to call. -/
def establish (conn : Nat) (a : Attempt) (terminals : Terminals) (d : Direct) : Direct :=
  { d with
    attempts := d.attempts.set conn { a with phase := .up }
    store := match a.mode with
      | .quic => d.store.quicConnected conn terminals a.sessionId
      | .webrtc => d.store.webrtcConnected conn terminals a.sessionId
    losses :=
      if a.ended then d.losses ++ [d.lossOf conn a.sessionId terminals] else d.losses }

/-- A failed WebRTC attempt is followed by a QUIC attempt. Nobody waits for a
QUIC attempt that an upgrade asked for. -/
def fail (conn : Nat) (a : Attempt) (d : Direct) : Direct :=
  let d := { d with attempts := d.attempts.set conn { a with phase := .failed } }
  let torn := { d with store := d.store.teardownP2P a.sessionId }
  match a.mode, a.fallback with
  | .webrtc, _ => torn.connectQuicP2P a.sessionId true
  | .quic, true => torn
  | .quic, false => d

def subsOf (msgs : List Msg) : List Text :=
  msgs.filterMap fun
    | .sub pane => some pane
    | _ => none

/-- The handler that `onClose` set for a connection of this session. It resets the
terminals if there is a `wsSend`; what it subscribes is what it writes, and a socket
that is not open takes nothing. -/
def closeHandler (conn : Nat) (sessionId : Text) (terminals : Terminals) (d : Direct) : Direct :=
  let store := d.store.p2pLost terminals sessionId
  let written := (store.wire.drop d.store.wire.length).map Prod.snd
  { d with
    store
    resubscribed := d.resubscribed ++ (subsOf written).map (conn, ·)
    resets := d.resets ++
      if d.store.wsSend.isSome then (terminalPanes terminals sessionId d.store).map (conn, ·)
      else [] }

def noticeOf (conn : Nat) (sessionId : Text) (terminals : Terminals) (d : Direct) : Notice :=
  let d' := d.closeHandler conn sessionId terminals
  { conn
    registered := d.store.isRegistered conn sessionId
    changed := d'.store ≠ d.store ∨ d'.resets ≠ d.resets
    closed := d'.store.p2pClosed.drop d.store.p2pClosed.length }

def notify (conn : Nat) (sessionId : Text) (terminals : Terminals) (d : Direct) : Direct :=
  { d.closeHandler conn sessionId terminals with
    notices := d.notices ++ [d.noticeOf conn sessionId terminals]
    losses :=
      if d.store.isRegistered conn sessionId then
        d.losses ++ [d.lossOf conn sessionId terminals]
      else d.losses }

/-- A close event; before the connection is up, no handler is set. -/
def close (event : CloseEvent) (conn : Nat) (a : Attempt) (terminals : Terminals) (d : Direct) :
    Direct :=
  let d := { d with attempts := d.attempts.set conn { a with ended := a.ended || event.ends } }
  if a.phase = .up then d.notify conn a.sessionId terminals else d

def step (d : Direct) : Act → Direct
  | .upgradeReady sessionId target =>
    if target = some webrtcP2P then d.connectWebRtcTransport sessionId
    else d.connectQuicP2P sessionId false
  | .established conn terminals =>
    match d.attempts[conn]? with
    | some a => if a.phase = .opening then d.establish conn a terminals else d
    | none => d
  | .failed conn =>
    match d.attempts[conn]? with
    | some a => if a.phase = .opening then d.fail conn a else d
    | none => d
  | .closed event conn terminals =>
    match d.attempts[conn]? with
    | some a =>
      if event.fires (d.store.p2pClosed.contains conn) a then d.close event conn a terminals else d
    | none => d
  | .store e => if e.ofP2P then d else { d with store := d.store.step e }

/-! ## What is asked of the close handlers -/

def entries (conn : Nat) (log : List (Nat × Text)) : List Text :=
  (log.filter (·.1 = conn)).map Prod.snd

/-- A close handler changes something only for the registered connection, of
which it closes no other; and for every connection that was lost, the panes of
its session are subscribed and their terminals reset exactly once. -/
structure OwnOnce (d : Direct) : Prop where
  own : ∀ n ∈ d.notices, n.changed = true → n.registered = true
  only : ∀ n ∈ d.notices, ∀ conn ∈ n.closed, conn = n.conn
  once : ∀ l ∈ d.losses,
    entries l.conn d.resubscribed = l.panes ∧ entries l.conn d.resets = l.terminals

/-- What a call of the close handler of this connection finds: the connection is
registered, and the panes can be subscribed; or the session has no connection,
and there is nothing to subscribe and nothing to reset. -/
def Finds (conn : Nat) (sessionId : Text) (terminals : Terminals) (s : Store) : Prop :=
  match s.p2pConnections.get sessionId with
  | some c => c.conn = conn ∧ (s.online = true ∨ s.handlerPanes sessionId = [])
  | none => (s.online = false ∨ s.handlerPanes sessionId = []) ∧
      (s.wsSend = none ∨ terminalPanes terminals sessionId s = [])

/-- The close handlers are called when they may be, and no connection with panes
is registered that has ended already. -/
def Timely (d : Direct) : Act → Prop
  | .established conn _ =>
    ∀ a, d.attempts[conn]? = some a → a.phase = .opening → a.ended = true →
      d.store.handlerPanes a.sessionId = []
  | .closed event conn terminals =>
    ∀ a, d.attempts[conn]? = some a → event.fires (d.store.p2pClosed.contains conn) a = true →
      a.phase = .up → Finds conn a.sessionId terminals d.store
  | _ => True

end Direct

end Oxmux.Client
