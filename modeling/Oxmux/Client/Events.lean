import Oxmux.Client.Store

/-! What happens to the store: the events of its sockets and direct connections,
and the actions of the components. JavaScript runs one after the other, each to
its end. -/

namespace Oxmux.Client
open Oxmux.Lib Oxmux.Session Oxmux.Ws

/-- What the store's other actions send: nothing about a pane. -/
def Msg.isRequest : Msg → Bool
  | sub _ | unsub _ | i _ _ | r _ _ _ | attach _ | webrtcOffer _ | webrtcIce _ => false
  | _ => true

/-- A socket that is closing has its `onclose` still to come; `connectFailed` is the
error that answers a `sess_connect`. -/
inductive Event where
  | connect
  | opened (socket : Nat)
  | closing (socket : Nat)
  | closed (socket : Nat)
  | reconnectTimer
  | message (socket : Nat) (msg : ServerMsg)
  | connectFailed (socket : Nat) (sessionId code text : Text)
  | p2pMessage (sessionId : Text) (msg : ServerMsg)
  | quicConnected (conn : Nat) (sizes : Text → Option (Nat × Nat)) (sessionId : Text)
  | webrtcConnected (conn : Nat) (sizes : Text → Option (Nat × Nat)) (sessionId : Text)
  | p2pLost (sizes : Text → Option (Nat × Nat)) (sessionId : Text)
  | teardownP2P (sessionId : Text)
  | registerPaneHandler (qid : Text) (handler : Nat)
  | sendSubscribe (qid : Text)
  | subscribePane (qid : Text) (handler : Nat)
  | unsubscribePane (qid : Text)
  | sendInput (qid : Text) (data : Bytes)
  | sendResize (qid : Text) (cols rows : Nat)
  | request (msg : Msg)
  | disconnectSession (sessionId : Text)
  | deleteSession (sessionId : Text)
  | disconnectSessionCleanup (sessionId : Text)
  | cleanupSession
  | focus (sessionId : Option Text)

namespace Store

/-- One event. A socket opens once, closes once, and brings messages while it is
open. -/
def step (s : Store) : Event → Store
  | .connect => s.connect
  | .opened socket => if s.sockets[socket]? = some .connecting then s.onOpen socket else s
  | .closing socket =>
    if s.sockets[socket]? = some .connecting ∨ s.isOpen socket then
      { s with sockets := s.sockets.set socket .closing }
    else s
  | .closed socket => if s.sockets[socket]? = some .closing then s.onClose socket else s
  | .reconnectTimer => if s.reconnectTimeout then s.reconnect else s
  | .message socket msg => if s.isOpen socket then s.onMessage msg else s
  | .connectFailed socket _ code text =>
    if s.isOpen socket then s.onMessage (.error code text) else s
  | .p2pMessage sessionId msg => s.handleServerMsg msg (some sessionId)
  | .quicConnected conn sizes sessionId => s.quicConnected conn sizes sessionId
  | .webrtcConnected conn sizes sessionId => s.webrtcConnected conn sizes sessionId
  | .p2pLost sizes sessionId => s.p2pLost sizes sessionId
  | .teardownP2P sessionId => s.teardownP2P sessionId
  | .registerPaneHandler qid handler => s.registerPaneHandler qid handler
  | .sendSubscribe qid => s.sendSubscribe qid
  | .subscribePane qid handler => s.subscribePane qid handler
  | .unsubscribePane qid => s.unsubscribePane qid
  | .sendInput qid data => s.sendInput qid data
  | .sendResize qid cols rows => s.sendResize qid cols rows
  | .request msg => if msg.isRequest then s.sendMsg msg else s
  | .disconnectSession sessionId => s.disconnectSession sessionId
  | .deleteSession sessionId => s.deleteSession sessionId
  | .disconnectSessionCleanup sessionId => s.disconnectSessionCleanup sessionId
  | .cleanupSession => s.cleanupSession
  | .focus sessionId => { s with focusedSessionId := sessionId }

end Store

/-- The events that make or lose a direct connection. -/
def Event.ofP2P : Event → Bool
  | quicConnected .. | webrtcConnected .. | p2pLost .. => true
  | _ => false

end Oxmux.Client
