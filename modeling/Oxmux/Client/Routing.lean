import Oxmux.Client.Registered

/-! Where the store's messages go: to the direct connection of the session that
a pane's id names, or to the WebSocket. -/

namespace Oxmux.Client
open Oxmux.Lib Oxmux.Session

/-! ## Messages of any shape -/

inductive MsgType where
  | sub
  | unsub
  | i
  | r
  | ping
  | sessCreate
  | sessList
  | sessConnect
  | sessDisconnect
  | sessDelete
  | sessRefresh
  | sessUpdate
  | agentStatus
  | agentInstall
  | transportUpgrade
  | iceReq
  | other (t : Text)
  deriving DecidableEq

def controlMsgTypes : List MsgType :=
  [.sessCreate, .sessList, .sessConnect, .sessDisconnect, .sessDelete, .sessRefresh, .sessUpdate,
    .agentStatus, .agentInstall, .transportUpgrade, .iceReq]

def dataMsgTypes : List MsgType := [.sub, .unsub, .i, .r, .ping]

/-- A message as `sendMsg` takes it: its type, its pane, and what else it has. -/
structure Message (φ : Type) where
  t : MsgType
  pane : Option Text
  fields : φ

inductive Sender where
  | p2p (conn : Nat)
  | ws (socket : Nat)
  deriving DecidableEq

variable {φ : Type}

def Message.raw (msg : Message φ) : Message φ :=
  let qid := msg.pane.getD []
  let ref := parseQualifiedPaneId qid
  if qid ≠ [] ∧ ref.sessionId ≠ [] then { msg with pane := some ref.paneId } else msg

/-- `sendMsg`: the sender, and what it is given. -/
def Store.send (msg : Message φ) (s : Store) : Option (Sender × Message φ) :=
  let ws := s.wsSend.map Sender.ws
  if msg.t ∈ dataMsgTypes then
    let p2p := s.p2pOf (parseQualifiedPaneId (msg.pane.getD [])).sessionId
    ((p2p.map fun c => Sender.p2p c.conn).or ws).map (·, msg.raw)
  else if msg.t ∈ controlMsgTypes then ws.map (·, msg)
  else ws.map (·, msg)

/-- No type is one of both. -/
theorem not_mem_dataMsgTypes {t : MsgType} (h : t ∈ controlMsgTypes) : t ∉ dataMsgTypes := by
  revert t
  decide

/-- **A control message** goes to no direct connection. -/
theorem Store.send_control {s : Store} {msg out : Message φ} (hc : msg.t ∈ controlMsgTypes)
    (conn : Nat) : s.send msg ≠ some (.p2p conn, out) := by
  intro h
  simp only [send, if_neg (not_mem_dataMsgTypes hc), ite_self] at h
  obtain ⟨k, hk, he⟩ := Option.map_eq_some_iff.mp h
  obtain ⟨socket, -, rfl⟩ := Option.map_eq_some_iff.mp hk
  cases he

/-! ## The messages of the store -/

inductive FieldValue where
  | text (s : Text)
  | num (n : Nat)
  | data (bytes : Bytes)
  | transport (config : TransportConfig)
  | candidate (init : IceCandidate)

namespace Msg

def type : Msg → MsgType
  | sub _ => .sub
  | unsub _ => .unsub
  | i _ _ => .i
  | r _ _ _ => .r
  | ping _ => .ping
  | sessList => .sessList
  | sessCreate _ _ => .sessCreate
  | sessConnect _ | attach _ => .sessConnect
  | sessDisconnect _ => .sessDisconnect
  | sessDelete _ => .sessDelete
  | sessRefresh _ => .sessRefresh
  | agentStatus _ => .agentStatus
  | agentInstall _ => .agentInstall
  | transportUpgrade _ _ => .transportUpgrade
  | iceReq _ => .iceReq
  | webrtcOffer _ => .other "webrtc_offer".toList
  | webrtcIce _ => .other "webrtc_ice".toList

def fields : Msg → List (Text × FieldValue)
  | sub _ | unsub _ | sessList => []
  | i _ data => [("data".toList, .data data)]
  | r _ cols rows => [("cols".toList, .num cols), ("rows".toList, .num rows)]
  | ping ts => [("ts".toList, .num ts)]
  | sessCreate name config => [("name".toList, .text name), ("transport".toList, .transport config)]
  | sessConnect id | sessDisconnect id | sessDelete id | sessRefresh id | agentInstall id =>
    [("session_id".toList, .text id)]
  | agentStatus host => [("host".toList, .text host)]
  | transportUpgrade id target =>
    [("session_id".toList, .text id), ("target".toList, .text target)]
  | iceReq peerId => [("peer_id".toList, .text peerId)]
  | attach name => [("name".toList, .text name)]
  | webrtcOffer sdp => [("sdp".toList, .text sdp)]
  | webrtcIce init => [("candidate".toList, .candidate init)]

def message (m : Msg) : Message (List (Text × FieldValue)) where
  t := m.type
  pane :=
    match m with
    | sub pane | unsub pane | i pane _ | r pane _ _ => some pane
    | _ => none
  fields := m.fields

theorem isData_eq (m : Msg) : m.isData = decide (m.type ∈ dataMsgTypes) := by
  cases m <;> rfl

theorem raw_message (m : Msg) : m.message.raw = (Store.rawMsg m).message := by
  have hpane : m.message.pane.getD [] = m.pane := by cases m <;> rfl
  simp only [Message.raw, Store.rawMsg, hpane]
  split
  · next h => cases m <;> first | rfl | exact absurd rfl h.1
  · rfl

theorem rawMsg_eq_self {m : Msg} (h : m.isData = false) : Store.rawMsg m = m := by
  cases m <;> first | rfl | cases h

end Msg

/-- What a sender does with a message. -/
def Store.hand (k : Sender) (m : Msg) (s : Store) : Store :=
  match k with
  | .p2p conn => s.sendP2P conn m
  | .ws socket => s.sendOn socket m

/-- **The store's `sendMsg`** is that of messages of any shape. -/
theorem Store.sendMsg_eq_send (m : Msg) (s : Store) :
    ∃ k : Option Sender, s.send m.message = k.map (·, (rawMsg m).message) ∧
      s.sendMsg m = k.elim s fun k => s.hand k (rawMsg m) := by
  have hpane : m.message.pane.getD [] = m.pane := by cases m <;> rfl
  have hws : ∀ m', s.sendWs m' = (s.wsSend.map Sender.ws).elim s fun k => s.hand k m' := by
    intro m'
    unfold sendWs
    cases s.wsSend <;> rfl
  by_cases hd : m.isData = true
  · have ht : m.message.t ∈ dataMsgTypes := of_decide_eq_true (m.isData_eq ▸ hd)
    refine ⟨_, by simp only [send, if_pos ht, hpane, m.raw_message]; rfl, ?_⟩
    rw [sendMsg, if_pos hd]
    cases s.p2pOf (parseQualifiedPaneId m.pane).sessionId with
    | some c => rfl
    | none => exact hws _
  · rw [Bool.not_eq_true] at hd
    have ht : m.message.t ∉ dataMsgTypes := of_decide_eq_false (m.isData_eq ▸ hd)
    refine ⟨s.wsSend.map Sender.ws, ?_, ?_⟩
    · rw [Msg.rawMsg_eq_self hd, send, if_neg ht, ite_self]
    · rw [sendMsg, hd, if_neg Bool.false_ne_true, Msg.rawMsg_eq_self hd]
      exact hws m

/-! ## Messages for a pane -/

/-- A message for a pane of the session was sent at most once: on the direct
connection that is registered for the session, or else on the WebSocket if it is
open. -/
def Store.Routed (s s' : Store) (sessionId : Text) (m : Msg) : Prop :=
  match s.p2pConnections.get sessionId with
  | some c => s'.p2pWire = s.p2pWire ++ [(c.conn, m)] ∧ s'.wire = s.wire
  | none => s'.p2pWire = s.p2pWire ∧ s'.wire = s.wire ++ s.onWire [m]

theorem Store.routed_sendVia {sessionId : Text} (h : sessionId ≠ []) (m : Msg) (s : Store) :
    s.Routed (s.sendVia (s.p2pOf sessionId) m) sessionId m := by
  simp only [Routed, p2pOf, if_neg h]
  cases s.p2pConnections.get sessionId with
  | some c => exact ⟨rfl, rfl⟩
  | none =>
    simp only [sendVia]
    rw [sendWs_eq]
    exact ⟨rfl, rfl⟩

section
variable {sessionId : Text} (hs : sessionId ≠ []) (hc : ':' ∉ sessionId)
include hs hc

theorem Store.routed_sendMsg {m : Msg} (hd : m.isData = true) {pane : Text}
    (hp : m.pane = qualifyPaneId sessionId pane) (s : Store) :
    s.Routed (s.sendMsg m) sessionId (m.withPane pane) := by
  have hq : qualifyPaneId sessionId pane ≠ [] := by
    intro h
    exact hs (List.append_eq_nil_iff.mp (List.append_eq_nil_iff.mp h).1).1
  have hraw : rawMsg m = m.withPane pane := by
    simp only [rawMsg, hp, parse_qualifyPaneId hc]
    exact if_pos ⟨hq, hs⟩
  rw [sendMsg, if_pos hd, hraw, hp, parse_qualifyPaneId hc]
  exact routed_sendVia hs _ s

theorem Store.routed_sendSubscribe (pane : Text) (s : Store) :
    s.Routed (s.sendSubscribe (qualifyPaneId sessionId pane)) sessionId (.sub pane) := by
  rw [sendSubscribe, parse_qualifyPaneId hc]
  exact routed_sendVia hs _ s

theorem Store.routed_unsubscribePane (pane : Text) (s : Store) :
    s.Routed (s.unsubscribePane (qualifyPaneId sessionId pane)) sessionId (.unsub pane) := by
  rw [unsubscribePane, parse_qualifyPaneId hc]
  exact routed_sendVia hs _ { s with
    paneHandlers := s.paneHandlers.delete (qualifyPaneId sessionId pane) }

/-- **Where a pane's messages go**, and that no control message goes to an agent. -/
theorem routing_sound (s : Store) (pane : Text) (data : Bytes) (cols rows : Nat) :
    s.Routed (s.sendInput (qualifyPaneId sessionId pane) data) sessionId (.i pane data) ∧
      s.Routed (s.sendResize (qualifyPaneId sessionId pane) cols rows) sessionId
        (.r pane cols rows) ∧
      s.Routed (s.sendSubscribe (qualifyPaneId sessionId pane)) sessionId (.sub pane) ∧
      s.Routed (s.unsubscribePane (qualifyPaneId sessionId pane)) sessionId (.unsub pane) ∧
      (∀ (φ : Type) (msg out : Message φ) (conn : Nat), msg.t ∈ controlMsgTypes →
        s.send msg ≠ some (.p2p conn, out)) ∧
      ∀ m : Msg, m.type ∈ controlMsgTypes → (s.sendMsg m).p2pWire = s.p2pWire := by
  refine ⟨Store.routed_sendMsg hs hc rfl rfl s, Store.routed_sendMsg hs hc rfl rfl s,
    Store.routed_sendSubscribe hs hc pane s, Store.routed_unsubscribePane hs hc pane s,
    fun φ msg out conn h => Store.send_control h conn, fun m h => ?_⟩
  have hd : m.isData = false := by
    rw [m.isData_eq]
    exact decide_eq_false (not_mem_dataMsgTypes h)
  rw [Store.sendMsg, hd, if_neg Bool.false_ne_true, Store.sendWs_eq]

end

/-- Two sessions with direct connections, beside an open WebSocket. -/
def Store.twoConnections : Store :=
  { Store.new with
    wsSend := some 0
    sockets := [.open]
    p2pConnections :=
      [("s1".toList, { conn := 3, mode := .quic }), ("s2".toList, { conn := 5, mode := .quic })] }

/-- A pane whose own id has the separator in it. -/
theorem routing_sound_sample :
    (Store.twoConnections.sendSubscribe "s1::%0::1".toList).p2pWire =
        [(3, .sub "%0::1".toList)] ∧
      (Store.twoConnections.sendSubscribe "s1::%0::1".toList).wire = [] := by
  have hget : Store.twoConnections.p2pConnections.get "s1".toList =
      some { conn := 3, mode := .quic } := by decide
  have h := @routing_sound "s1".toList (by decide) (by decide) Store.twoConnections
    "%0::1".toList [] 0 0
  have hsub := h.2.2.1
  rw [Store.Routed, hget] at hsub
  exact hsub

end Oxmux.Client
