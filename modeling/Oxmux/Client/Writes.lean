import Oxmux.Client.Events

/-! What an event of the store does to the world: which subscriptions it writes
to the WebSocket, and what it hands to the panes' handlers. -/

namespace Oxmux.Client
open Oxmux.Lib Oxmux.Session Oxmux.Ws

/-- The messages that say which panes a connection hears. -/
def Msg.isSub : Msg → Bool
  | sub _ | unsub _ => true
  | _ => false

namespace Store

/-- The socket that `wsSend` writes to. -/
def Online (s : Store) (socket : Nat) : Prop := s.wsSend = some socket ∧ s.isOpen socket = true

def onWire (s : Store) (msgs : List Msg) : List (Nat × Msg) :=
  match s.wsSend with
  | some socket => if s.isOpen socket then msgs.map (socket, ·) else []
  | none => []

theorem onWire_append (s : Store) (msgs msgs' : List Msg) :
    s.onWire (msgs ++ msgs') = s.onWire msgs ++ s.onWire msgs' := by
  unfold onWire
  split
  · split <;> simp
  · rfl

@[simp] theorem onWire_nil (s : Store) : s.onWire [] = [] := by
  unfold onWire
  split
  · split <;> rfl
  · rfl

theorem mem_onWire {s : Store} {socket : Nat} {msg : Msg} {msgs : List Msg} :
    (socket, msg) ∈ s.onWire msgs ↔ s.Online socket ∧ msg ∈ msgs := by
  unfold onWire Online
  cases s.wsSend with
  | none => simp
  | some k =>
    by_cases hk : s.isOpen k = true
    · simp only [hk, if_true, List.mem_map, Prod.mk.injEq, Option.some.injEq]
      constructor
      · rintro ⟨m, hm, rfl, rfl⟩
        exact ⟨⟨rfl, hk⟩, hm⟩
      · rintro ⟨⟨rfl, -⟩, hm⟩
        exact ⟨msg, hm, rfl, rfl⟩
    · simp only [hk, Bool.false_eq_true, if_false, List.not_mem_nil, Option.some.injEq, false_iff]
      rintro ⟨⟨rfl, ho⟩, -⟩
      exact hk ho

theorem onWire_offline {s : Store} (h : s.online = false) (msgs : List Msg) :
    s.onWire msgs = [] := by
  unfold onWire
  cases hw : s.wsSend with
  | none => rfl
  | some k =>
    rw [online, hw, Option.any_some] at h
    exact if_neg (by simp [h])

theorem onWire_online {s : Store} (h : s.online = true) :
    ∃ k, ∀ msgs, s.onWire msgs = msgs.map (k, ·) := by
  obtain ⟨k, hw, hopen⟩ := (Option.any_eq_true _ _).mp h
  refine ⟨k, fun msgs => ?_⟩
  simp only [onWire, hw, hopen, if_true]

theorem sendWs_eq (msg : Msg) (s : Store) :
    s.sendWs msg = { s with wire := s.wire ++ s.onWire [msg] } := by
  rcases Option.eq_none_or_eq_some s.wsSend with hw | ⟨k, hw⟩
  · have h : s.onWire [msg] = [] := by simp only [onWire, hw]
    have h' : s.sendWs msg = s := by simp only [sendWs, hw]
    rw [h, List.append_nil, h']
  · by_cases hk : s.isOpen k = true
    · have h : s.onWire [msg] = [(k, msg)] := by simp [onWire, hw, hk]
      rw [h]
      simp only [sendWs, hw, sendOn, hk, if_true]
    · have h : s.onWire [msg] = [] := by simp [onWire, hw, hk]
      have h' : s.sendWs msg = s := by simp [sendWs, hw, sendOn, hk]
      rw [h, List.append_nil, h']

/-- `s'` keeps the sockets of `s`; in between, the subscriptions `subs` were
written to the WebSocket and `given` was handed over. -/
structure Wrote (s s' : Store) (subs : List Msg) (given : List (Text × Chunk)) : Prop where
  sockets : s'.sockets = s.sockets
  wsSend : s'.wsSend = s.wsSend
  timer : s'.reconnectTimeout = s.reconnectTimeout
  wire : ∃ msgs, s'.wire = s.wire ++ s.onWire msgs ∧ msgs.filter Msg.isSub = subs
  handed : s'.handed = s.handed ++ given

section
variable {s s' s'' : Store} {subs subs' : List Msg} {given given' : List (Text × Chunk)}

theorem Wrote.of_eq (hk : s'.sockets = s.sockets) (hs : s'.wsSend = s.wsSend)
    (ht : s'.reconnectTimeout = s.reconnectTimeout) (hw : s'.wire = s.wire)
    (hh : s'.handed = s.handed) : s.Wrote s' [] [] :=
  ⟨hk, hs, ht, ⟨[], by simp [hw], rfl⟩, by simp [hh]⟩

theorem Wrote.refl (s : Store) : s.Wrote s [] [] := .of_eq rfl rfl rfl rfl rfl

theorem Wrote.online (h : s.Wrote s' subs given) (socket : Nat) :
    s'.Online socket ↔ s.Online socket := by
  simp only [Online, isOpen, h.sockets, h.wsSend]

theorem Wrote.onWire (h : s.Wrote s' subs given) (msgs : List Msg) :
    s'.onWire msgs = s.onWire msgs := by
  unfold Store.onWire isOpen
  rw [h.sockets, h.wsSend]

theorem Wrote.trans (h : s.Wrote s' subs given) (h' : s'.Wrote s'' subs' given') :
    s.Wrote s'' (subs ++ subs') (given ++ given') where
  sockets := h'.sockets.trans h.sockets
  wsSend := h'.wsSend.trans h.wsSend
  timer := h'.timer.trans h.timer
  wire := by
    obtain ⟨msgs, hw, hf⟩ := h.wire
    obtain ⟨msgs', hw', hf'⟩ := h'.wire
    refine ⟨msgs ++ msgs', ?_, by rw [List.filter_append, hf, hf']⟩
    rw [hw', hw, h.onWire, onWire_append, List.append_assoc]
  handed := by rw [h'.handed, h.handed, List.append_assoc]

/-- What goes before says nothing about a pane, and hands nothing over. -/
theorem Wrote.trans_silent (h : s.Wrote s' [] []) (h' : s'.Wrote s'' subs' given') :
    s.Wrote s'' subs' given' := h.trans h'

/-- A subscription is on the wire if it was before, or is written now. -/
theorem Wrote.mem_wire (h : s.Wrote s' subs given) {socket : Nat} {msg : Msg}
    (hm : msg.isSub = true) :
    (socket, msg) ∈ s'.wire ↔ (socket, msg) ∈ s.wire ∨ (s.Online socket ∧ msg ∈ subs) := by
  obtain ⟨msgs, hw, rfl⟩ := h.wire
  rw [hw, List.mem_append, mem_onWire, List.mem_filter]
  simp [hm]

end

/-! ## Sending -/

theorem wrote_sendWs (msg : Msg) (s : Store) :
    s.Wrote (s.sendWs msg) ([msg].filter Msg.isSub) [] := by
  rw [sendWs_eq]
  exact ⟨rfl, rfl, rfl, ⟨[msg], rfl, rfl⟩, by simp⟩

theorem wrote_sendP2P (conn : Nat) (msg : Msg) (s : Store) : s.Wrote (s.sendP2P conn msg) [] [] :=
  .of_eq rfl rfl rfl rfl rfl

/-- Over a direct connection nothing is written to the WebSocket. -/
theorem wrote_sendVia (p2p : Option P2PConnection) (msg : Msg) (s : Store) :
    s.Wrote (s.sendVia p2p msg) (if p2p = none then [msg].filter Msg.isSub else []) [] := by
  cases p2p with
  | none => exact wrote_sendWs msg s
  | some c => exact wrote_sendP2P c.conn msg s

theorem wrote_foldl_sendWs (msgs : List Msg) (s : Store) :
    s.Wrote (msgs.foldl (fun s m => s.sendWs m) s) (msgs.filter Msg.isSub) [] := by
  induction msgs generalizing s with
  | nil => exact .refl s
  | cons msg msgs ih =>
    have h := (wrote_sendWs msg s).trans (ih _)
    rwa [← List.filter_append] at h

theorem wrote_foldl_sendP2P (conn : Nat) (msgs : List Msg) (s : Store) :
    s.Wrote (msgs.foldl (fun s m => s.sendP2P conn m) s) [] [] := by
  induction msgs generalizing s with
  | nil => exact .refl s
  | cons msg msgs ih => exact (wrote_sendP2P conn msg s).trans (ih _)

theorem isSub_rawMsg (msg : Msg) : (rawMsg msg).isSub = msg.isSub := by
  simp only [rawMsg]
  split
  · cases msg <;> rfl
  · rfl

/-- What `sendMsg` sends is no subscription unless it was given one. -/
theorem wrote_sendMsg {msg : Msg} (h : msg.isSub = false) (s : Store) :
    s.Wrote (s.sendMsg msg) [] [] := by
  unfold sendMsg
  split
  · have hv := wrote_sendVia (s.p2pOf (parseQualifiedPaneId msg.pane).sessionId) (rawMsg msg) s
    rwa [List.filter_singleton, isSub_rawMsg, h, cond_false, ite_self] at hv
  · have hw := wrote_sendWs msg s
    rwa [List.filter_singleton, h, cond_false] at hw

theorem wrote_foldl_sessConnect (ids : List Text) (s : Store) :
    s.Wrote (ids.foldl (fun s sid => s.sendMsg (.sessConnect sid)) s) [] [] := by
  induction ids generalizing s with
  | nil => exact .refl s
  | cons id ids ih => exact (wrote_sendMsg rfl s).trans (ih _)

/-! ## What each action writes -/

theorem wrote_teardownP2P (sessionId : Text) (s : Store) :
    s.Wrote (s.teardownP2P sessionId) [] [] := by
  unfold teardownP2P
  split
  · exact .of_eq rfl rfl rfl rfl rfl
  · split
    · exact .of_eq rfl rfl rfl rfl rfl
    · exact .refl s

theorem handlerPanes_teardownP2P (id sessionId : Text) (s : Store) :
    (s.teardownP2P id).handlerPanes sessionId = s.handlerPanes sessionId := by
  unfold teardownP2P
  split
  · rfl
  · split <;> rfl

theorem wrote_sendSubscribe (qid : Text) (s : Store) :
    s.Wrote (s.sendSubscribe qid)
      (if s.p2pOf (parseQualifiedPaneId qid).sessionId = none then
        [.sub (parseQualifiedPaneId qid).paneId] else []) [] :=
  wrote_sendVia _ _ s

theorem wrote_unsubscribePane (qid : Text) (s : Store) :
    s.Wrote (s.unsubscribePane qid)
      (if s.p2pOf (parseQualifiedPaneId qid).sessionId = none then
        [.unsub (parseQualifiedPaneId qid).paneId] else []) [] := by
  have hd : s.Wrote { s with paneHandlers := s.paneHandlers.delete qid } [] [] :=
    .of_eq rfl rfl rfl rfl rfl
  exact hd.trans (wrote_sendVia _ _ _)

theorem filter_subscribeMsgs (sizes : Text → Option (Nat × Nat)) (qid : Text) :
    (subscribeMsgs sizes qid).filter Msg.isSub = [.sub (parseQualifiedPaneId qid).paneId] := by
  unfold subscribeMsgs
  simp only
  split
  · split <;> rfl
  · rfl

theorem wrote_resubscribePanesViaWS (sizes : Text → Option (Nat × Nat)) (sessionId : Text)
    (s : Store) :
    s.Wrote (s.resubscribePanesViaWS sizes sessionId)
      ((s.handlerPanes sessionId).map fun qid => .sub (parseQualifiedPaneId qid).paneId) [] := by
  have h := wrote_foldl_sendWs ((s.handlerPanes sessionId).flatMap (subscribeMsgs sizes)) s
  simp only [List.filter_flatMap, filter_subscribeMsgs] at h
  rw [List.map_eq_flatMap]
  exact h

theorem wrote_resubscribeSessionPanes (sizes : Text → Option (Nat × Nat)) (sessionId : Text)
    (s : Store) : s.Wrote (s.resubscribeSessionPanes sizes sessionId) [] [] := by
  unfold resubscribeSessionPanes
  split
  · exact wrote_foldl_sendP2P _ _ s
  · exact .refl s

theorem wrote_p2pLost (sizes : Text → Option (Nat × Nat)) (sessionId : Text) (s : Store) :
    s.Wrote (s.p2pLost sizes sessionId)
      ((s.handlerPanes sessionId).map fun qid => .sub (parseQualifiedPaneId qid).paneId) [] := by
  have h := (wrote_teardownP2P sessionId s).trans
    (wrote_resubscribePanesViaWS sizes sessionId (s.teardownP2P sessionId))
  rwa [handlerPanes_teardownP2P] at h

theorem wrote_webrtcConnected (conn : Nat) (sizes : Text → Option (Nat × Nat)) (sessionId : Text)
    (s : Store) : s.Wrote (s.webrtcConnected conn sizes sessionId) [] [] := by
  refine Wrote.trans_silent ?_ (wrote_resubscribeSessionPanes sizes sessionId _)
  exact .of_eq rfl rfl rfl rfl rfl

theorem wrote_quicConnected (conn : Nat) (sizes : Text → Option (Nat × Nat)) (sessionId : Text)
    (s : Store) : s.Wrote (s.quicConnected conn sizes sessionId) [] [] := by
  refine Wrote.trans_silent ?_ (wrote_resubscribeSessionPanes sizes sessionId _)
  simp only
  split <;> exact .of_eq rfl rfl rfl rfl rfl

theorem wrote_disconnectSessionCleanup (sessionId : Text) (s : Store) :
    s.Wrote (s.disconnectSessionCleanup sessionId) [] [] :=
  (wrote_teardownP2P sessionId s).trans (.of_eq rfl rfl rfl rfl rfl)

theorem wrote_disconnectSession (sessionId : Text) (s : Store) :
    s.Wrote (s.disconnectSession sessionId) [] [] :=
  (wrote_sendWs (.sessDisconnect sessionId) s).trans (wrote_disconnectSessionCleanup sessionId _)

theorem wrote_deleteSession (sessionId : Text) (s : Store) :
    s.Wrote (s.deleteSession sessionId) [] [] :=
  (wrote_disconnectSessionCleanup sessionId s).trans (wrote_sendMsg rfl _)

/-! ## What each message does -/

theorem wrote_sessConnected (session : ManagedSession) (s : Store) :
    s.Wrote (s.sessConnected session) [] [] := by
  unfold sessConnected
  split
  · simp only
    split
    · refine Wrote.trans_silent ?_ (wrote_sendMsg rfl _)
      exact .of_eq rfl rfl rfl rfl rfl
    · exact .of_eq rfl rfl rfl rfl rfl
  · exact .refl s

theorem wrote_applyTmuxEvent (event : Option TmuxEventMsg) (source : Option Text) (s : Store) :
    s.Wrote (s.applyTmuxEvent event source) [] [] := by
  simp only [applyTmuxEvent]
  split
  · exact .refl s
  · split <;> exact .of_eq rfl rfl rfl rfl rfl

/-- What a message hands over: an output, to the handler of the pane that it is
taken to be for. -/
def handsOver (s : Store) (source : Option Text) : ServerMsg → List (Text × Chunk)
  | .output pane data sessionId =>
    let qid := qualifyPaneId (s.sourceSession source sessionId) pane
    if (s.paneHandlers.get qid).isSome then [(qid, data)] else []
  | _ => []

/-- **No message of the server makes the store subscribe a pane.** -/
theorem wrote_handleServerMsg (msg : ServerMsg) (source : Option Text) (s : Store) :
    s.Wrote (s.handleServerMsg msg source) [] (s.handsOver source msg) := by
  cases msg with
  | output pane data sessionId =>
    simp only [handleServerMsg, handsOver]
    split
    · next h =>
      rw [h]
      exact ⟨rfl, rfl, rfl, ⟨[], by simp, rfl⟩, rfl⟩
    · next h =>
      rw [h]
      exact .refl s
  | state sessions =>
    simp only [handleServerMsg]
    split <;> exact .of_eq rfl rfl rfl rfl rfl
  | tmuxEvent event => exact wrote_applyTmuxEvent none source s
  | sessionConnected session => exact wrote_sessConnected session s
  | sessionDeleted id =>
    refine Wrote.trans_silent ?_ (wrote_disconnectSessionCleanup id _)
    exact .of_eq rfl rfl rfl rfl rfl
  | sessionDisconnected session =>
    refine Wrote.trans_silent ?_ (wrote_disconnectSessionCleanup session.id _)
    exact .of_eq rfl rfl rfl rfl rfl
  | _ => exact .of_eq rfl rfl rfl rfl rfl

/-- While a direct connection exists, output is dropped. -/
theorem onMessage_eq (msg : ServerMsg) (s : Store) :
    s.onMessage msg = s.handleServerMsg msg none ∨ s.onMessage msg = s ∧ s.p2pConnections ≠ [] := by
  cases msg with
  | output pane data sessionId =>
    simp only [onMessage]
    split
    · exact .inl rfl
    · next h => exact .inr ⟨rfl, h⟩
  | _ => exact .inl rfl

theorem onMessage_dropped {msg : ServerMsg} {s : Store} (h : s.handsOver none msg ≠ [])
    (hp : s.p2pConnections ≠ []) : s.onMessage msg = s := by
  cases msg with
  | output pane data sessionId => simp only [onMessage, if_neg hp]
  | _ => exact absurd rfl h

theorem wrote_onMessage (msg : ServerMsg) (s : Store) :
    s.Wrote (s.onMessage msg) [] (if s.p2pConnections = [] then s.handsOver none msg else []) := by
  by_cases hp : s.p2pConnections = []
  · rcases onMessage_eq msg s with h | ⟨-, hne⟩
    · rw [h, if_pos hp]
      exact wrote_handleServerMsg msg none s
    · exact absurd hp hne
  · rw [if_neg hp]
    by_cases hh : s.handsOver none msg = []
    · rcases onMessage_eq msg s with h | ⟨h, -⟩
      · rw [h, ← hh]
        exact wrote_handleServerMsg msg none s
      · exact h.symm ▸ .refl s
    · exact (onMessage_dropped hh hp).symm ▸ .refl s

/-! ## What an event writes -/

/-- The panes that an event asks the WebSocket to subscribe: the one that a
component names, if its session has no direct connection, and those of a session
that lost its direct connection. -/
def asks (s : Store) : Event → List Text
  | .sendSubscribe qid | .subscribePane qid _ =>
    if s.p2pOf (parseQualifiedPaneId qid).sessionId = none then [qid] else []
  | .p2pLost _ sessionId => s.handlerPanes sessionId
  | _ => []

/-- The pane that an event asks the WebSocket to unsubscribe. -/
def drops (s : Store) : Event → List Text
  | .unsubscribePane qid =>
    if s.p2pOf (parseQualifiedPaneId qid).sessionId = none then [qid] else []
  | _ => []

def subMsgs (s : Store) (e : Event) : List Msg :=
  (s.asks e).map (fun qid => .sub (parseQualifiedPaneId qid).paneId) ++
    (s.drops e).map fun qid => .unsub (parseQualifiedPaneId qid).paneId

/-- What an event hands over. -/
def gives (s : Store) : Event → List (Text × Chunk)
  | .message socket msg =>
    if s.isOpen socket ∧ s.p2pConnections = [] then s.handsOver none msg else []
  | .p2pMessage sessionId msg => s.handsOver (some sessionId) msg
  | _ => []

end Store

/-- The events that make, open or close a socket. -/
def Event.ofSocket : Event → Bool
  | connect | opened _ | closing _ | closed _ | reconnectTimer => true
  | _ => false

/-- **What an event writes and hands over**, if it concerns no socket's life. -/
theorem Store.wrote_step {e : Event} (h : e.ofSocket = false) (s : Store) :
    s.Wrote (s.step e) (s.subMsgs e) (s.gives e) := by
  cases e with
  | connect | opened | closing | closed | reconnectTimer => cases h
  | message socket msg =>
    simp only [step, gives]
    by_cases ho : s.isOpen socket = true
    · simp only [ho, if_true, true_and]
      exact wrote_onMessage msg s
    · simp only [ho, Bool.false_eq_true, if_false, false_and]
      exact .refl s
  | connectFailed socket sessionId code text =>
    simp only [step]
    split
    · exact wrote_handleServerMsg (.error code text) none s
    · exact .refl s
  | p2pMessage sessionId msg => exact wrote_handleServerMsg msg _ s
  | quicConnected conn sizes sessionId => exact wrote_quicConnected conn sizes sessionId s
  | webrtcConnected conn sizes sessionId => exact wrote_webrtcConnected conn sizes sessionId s
  | p2pLost sizes sessionId =>
    simp only [step, subMsgs, asks, drops, List.map_nil, List.append_nil]
    exact wrote_p2pLost sizes sessionId s
  | teardownP2P sessionId => exact wrote_teardownP2P sessionId s
  | registerPaneHandler qid handler => exact .of_eq rfl rfl rfl rfl rfl
  | sendSubscribe qid =>
    have hs := wrote_sendSubscribe qid s
    simp only [step, subMsgs, asks, drops]
    split_ifs at hs ⊢ <;> exact hs
  | subscribePane qid handler =>
    have hr : s.Wrote (s.registerPaneHandler qid handler) [] [] := .of_eq rfl rfl rfl rfl rfl
    have hs := hr.trans (wrote_sendSubscribe qid (s.registerPaneHandler qid handler))
    have hp : (s.registerPaneHandler qid handler).p2pOf (parseQualifiedPaneId qid).sessionId =
      s.p2pOf (parseQualifiedPaneId qid).sessionId := rfl
    rw [hp] at hs
    simp only [step, subMsgs, asks, drops]
    split_ifs at hs ⊢ <;> exact hs
  | unsubscribePane qid =>
    have hs := wrote_unsubscribePane qid s
    simp only [step, subMsgs, asks, drops]
    split_ifs at hs ⊢ <;> exact hs
  | sendInput qid data => exact wrote_sendMsg (rfl : (Msg.i qid data).isSub = false) s
  | sendResize qid cols rows => exact wrote_sendMsg (rfl : (Msg.r qid cols rows).isSub = false) s
  | request msg =>
    simp only [step]
    split
    · refine wrote_sendMsg ?_ s
      cases msg <;> first | rfl | contradiction
    · exact .refl s
  | disconnectSession sessionId => exact wrote_disconnectSession sessionId s
  | deleteSession sessionId => exact wrote_deleteSession sessionId s
  | disconnectSessionCleanup sessionId => exact wrote_disconnectSessionCleanup sessionId s
  | cleanupSession => exact .of_eq rfl rfl rfl rfl rfl
  | focus sessionId => exact .of_eq rfl rfl rfl rfl rfl

end Oxmux.Client
