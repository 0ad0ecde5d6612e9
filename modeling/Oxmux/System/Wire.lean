import Oxmux.Client.Reconnect
import Oxmux.Ws.Server

/-! From the store to the server: what a message of the browser is to the server
that decodes it, and what the store's actions put on the wire. -/

namespace Oxmux.System
open Oxmux.Lib Oxmux.Session Oxmux.Ws Oxmux.Client

/-- `decode_client_msg` of what the store encodes. No message of the store names
the session of its pane; a size beyond a `u16` is not decoded, and neither are the
messages for agents. -/
def decodeClientMsg : Msg → Option ClientMsg
  | .sub pane => some (.subscribe pane none)
  | .unsub pane => some (.unsubscribe pane none)
  | .i pane data => some (.input pane data none)
  | .r pane cols rows =>
    if cols < 65536 ∧ rows < 65536 then some (.resize pane cols rows none) else none
  | .ping ts => some (.ping ts)
  | .sessList => some .listSessions
  | .sessCreate name transport => some (.createSession { name, transport })
  | .sessConnect sessionId => some (.connectSession sessionId)
  | .sessDisconnect sessionId => some (.disconnectSession sessionId)
  | .sessDelete sessionId => some (.deleteSession sessionId)
  | .sessRefresh sessionId => some (.refreshSession sessionId)
  | .agentStatus host => some (.agentStatusRequest host)
  | .agentInstall sessionId => some (.installAgent sessionId)
  | .transportUpgrade sessionId target => some (.transportUpgrade sessionId target)
  | .iceReq peerId => some (.iceRequest peerId)
  | .attach _ | .webrtcOffer _ | .webrtcIce _ => none

/-- The store's message for a command on a session's pane. -/
def commandMsg (sessionId : Text) : Command → Msg
  | .input pane data => .i (qualifyPaneId sessionId pane) data
  | .resize pane cols rows => .r (qualifyPaneId sessionId pane) cols rows

theorem isData_commandMsg (sessionId : Text) (cmd : Command) :
    (commandMsg sessionId cmd).isData = true := by
  cases cmd <;> rfl

/-- Without a direct connection a message for a pane goes to the WebSocket. -/
theorem sendMsg_online {msg : Msg} {st : Store} {socket : Nat} (hd : msg.isData = true)
    (ho : st.Online socket) (hp : st.p2pOf (parseQualifiedPaneId msg.pane).sessionId = none) :
    (st.sendMsg msg).wire = st.wire ++ [(socket, Store.rawMsg msg)] := by
  obtain ⟨hs, ho⟩ := ho
  rw [Store.sendMsg, if_pos hd, hp]
  simp only [Store.sendVia, Store.sendWs, hs, Store.sendOn, ho, if_true]

/-- What is written is the message with the raw pane. -/
theorem sendMsg_wire {msg : Msg} {st : Store} {socket : Nat} {w : Msg} (hd : msg.isData = true)
    (h : (st.sendMsg msg).wire = st.wire ++ [(socket, w)]) : w = Store.rawMsg msg := by
  have hlen : (st.sendMsg msg).wire ≠ st.wire := by simp [h]
  rw [Store.sendMsg, if_pos hd] at h hlen
  generalize Store.rawMsg msg = raw at h hlen
  cases hp : st.p2pOf (parseQualifiedPaneId msg.pane).sessionId with
  | some c =>
    rw [hp] at hlen
    exact absurd rfl hlen
  | none =>
    simp only [hp, Store.sendVia, Store.sendWs] at h
    cases hw : st.wsSend with
    | none => simp [hw] at h
    | some k =>
      simp only [hw, Store.sendOn] at h
      split at h
      · simp only [List.append_cancel_left_eq, List.cons.injEq, Prod.mk.injEq, and_true] at h
        exact h.2.symm
      · simp at h

/-- **The session is cut off** the pane's id. -/
theorem rawMsg_commandMsg {sessionId : Text} (h : IsUuid sessionId) (cmd : Command) :
    Store.rawMsg (commandMsg sessionId cmd) = match cmd with
      | .input pane data => .i pane data
      | .resize pane cols rows => .r pane cols rows := by
  have hne : ∀ pane, qualifyPaneId sessionId pane ≠ [] := by
    intro pane hq
    exact h.1 (List.append_eq_nil_iff.mp (List.append_eq_nil_iff.mp hq).1).1
  cases cmd with
  | input pane data => simp [commandMsg, Store.rawMsg, Msg.pane, Msg.withPane, h.1, h.2, hne]
  | resize pane cols rows => simp [commandMsg, Store.rawMsg, Msg.pane, Msg.withPane, h.1, h.2, hne]

/-- The server runs the command on the raw pane. -/
theorem handle_commandMsg {sessionId : Text} (h : IsUuid sessionId) {cmd : Command}
    {msg : ClientMsg} (hm : decodeClientMsg (Store.rawMsg (commandMsg sessionId cmd)) = some msg)
    (env : MsgEnv) (s : AppState) (conn : ConnectionState) :
    (handleClientMsg env msg s conn).1 = (s.withManager (·.executeOnPane cmd)).1 := by
  rw [rawMsg_commandMsg h] at hm
  cases cmd with
  | input pane data =>
    cases hm
    rfl
  | resize pane cols rows =>
    simp only [decodeClientMsg] at hm
    split at hm
    · cases hm
      rfl
    · cases hm

end Oxmux.System
