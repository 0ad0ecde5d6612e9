import Oxmux.Client.Writes

/-! Which direct connections the store has registered: what takes one away, and
that only `quicConnected` and `webrtcConnected` bring one. -/

namespace Oxmux.Client
open Oxmux.Lib Oxmux.Session Oxmux.Ws

namespace Store

/-- Nothing happened but that messages were written. -/
def Sends (s s' : Store) : Prop := ∃ wire p2pWire, s' = { s with wire, p2pWire }

theorem Sends.refl (s : Store) : s.Sends s := ⟨s.wire, s.p2pWire, rfl⟩

theorem Sends.trans {s s' s'' : Store} (h : s.Sends s') (h' : s'.Sends s'') : s.Sends s'' := by
  obtain ⟨_, _, rfl⟩ := h
  obtain ⟨wire, p2pWire, rfl⟩ := h'
  exact ⟨wire, p2pWire, rfl⟩

theorem Sends.p2pConnections {s s' : Store} (h : s.Sends s') :
    s'.p2pConnections = s.p2pConnections := by
  obtain ⟨_, _, rfl⟩ := h
  rfl

theorem Sends.connectedSessionIds {s s' : Store} (h : s.Sends s') :
    s'.connectedSessionIds = s.connectedSessionIds := by
  obtain ⟨_, _, rfl⟩ := h
  rfl

/-- The sessions stay, with their direct connections and their trees. -/
structure SameSessions (s s' : Store) : Prop where
  managed : s'.managedSessions = s.managedSessions
  conns : s'.p2pConnections = s.p2pConnections
  ids : s'.connectedSessionIds = s.connectedSessionIds
  trees : s'.sessionTrees = s.sessionTrees

theorem SameSessions.refl (s : Store) : s.SameSessions s := ⟨rfl, rfl, rfl, rfl⟩

theorem SameSessions.trans {s s' s'' : Store} (h : s.SameSessions s') (h' : s'.SameSessions s'') :
    s.SameSessions s'' :=
  ⟨h'.managed.trans h.managed, h'.conns.trans h.conns, h'.ids.trans h.ids,
    h'.trees.trans h.trees⟩

theorem Sends.same {s s' : Store} (h : s.Sends s') : s.SameSessions s' := by
  obtain ⟨_, _, rfl⟩ := h
  exact ⟨rfl, rfl, rfl, rfl⟩

section
variable (s : Store)

theorem sends_sendWs (msg : Msg) : s.Sends (s.sendWs msg) :=
  ⟨_, s.p2pWire, sendWs_eq msg s⟩

theorem sends_sendVia (p2p : Option P2PConnection) (msg : Msg) : s.Sends (s.sendVia p2p msg) := by
  cases p2p with
  | none => exact s.sends_sendWs msg
  | some c => exact ⟨s.wire, _, rfl⟩

theorem sends_sendMsg (msg : Msg) : s.Sends (s.sendMsg msg) := by
  unfold sendMsg
  split
  · exact s.sends_sendVia _ _
  · exact s.sends_sendWs _

theorem sends_foldl {α : Type} {f : Store → α → Store} (hf : ∀ s a, Sends s (f s a))
    (as : List α) : s.Sends (as.foldl f s) := by
  induction as generalizing s with
  | nil => exact .refl s
  | cons a as ih => exact (hf s a).trans (ih _)

theorem sends_resubscribeSessionPanes (sizes : Text → Option (Nat × Nat)) (sessionId : Text) :
    s.Sends (s.resubscribeSessionPanes sizes sessionId) := by
  unfold resubscribeSessionPanes
  split
  · next c _ => exact s.sends_foldl (fun s m => s.sends_sendVia (some c) m) _
  · exact .refl s

theorem sends_resubscribePanesViaWS (sizes : Text → Option (Nat × Nat)) (sessionId : Text) :
    s.Sends (s.resubscribePanesViaWS sizes sessionId) :=
  s.sends_foldl (fun s m => s.sends_sendWs m) _

theorem sends_quicConnected (conn : Nat) (sizes : Text → Option (Nat × Nat)) (sessionId : Text) :
    Sends { s with p2pConnections := s.p2pConnections.set sessionId { conn, mode := .quic } }
      (s.quicConnected conn sizes sessionId) := by
  refine Sends.trans ?_ (sends_resubscribeSessionPanes _ sizes sessionId)
  simp only
  split
  · exact sends_sendVia _ (some { conn, mode := .quic }) _
  · exact .refl _

theorem sends_webrtcConnected (conn : Nat) (sizes : Text → Option (Nat × Nat)) (sessionId : Text) :
    Sends { s with p2pConnections := s.p2pConnections.set sessionId { conn, mode := .webrtc } }
      (s.webrtcConnected conn sizes sessionId) :=
  sends_resubscribeSessionPanes _ sizes sessionId

theorem same_onOpen (socket : Nat) : s.SameSessions (s.onOpen socket) := by
  have h := fun s₀ : Store => ((sends_sendMsg s₀ .sessList).trans
    (sends_foldl _ (fun s sid => s.sends_sendMsg (.sessConnect sid)) s.connectedSessionIds)).same
  exact ⟨(h _).managed, (h _).conns, (h _).ids, (h _).trees⟩

theorem same_connect : s.SameSessions s.connect := by
  unfold connect
  split <;> exact ⟨rfl, rfl, rfl, rfl⟩

theorem same_applyTmuxEvent (source : Option Text) :
    s.SameSessions (s.applyTmuxEvent none source) := by
  simp only [applyTmuxEvent]
  split <;> exact .refl s

end

/-- What `sess_connected` does: it disconnects nothing, and brings a tree of its
session only. -/
structure Joins (session : ManagedSession) (s s' : Store) : Prop where
  conns : s'.p2pConnections = s.p2pConnections
  ids : s.connectedSessionIds ⊆ s'.connectedSessionIds
  trees : s'.sessionTrees = s.sessionTrees ∨
    session.id ∈ s'.connectedSessionIds ∧
      s'.sessionTrees = s.sessionTrees.set session.id session.tmuxSessions

section
variable {session : ManagedSession} {s s' s'' : Store}

theorem Joins.same (h : Joins session s s') (h' : s'.SameSessions s'') : Joins session s s'' where
  conns := h'.conns.trans h.conns
  ids := h'.ids ▸ h.ids
  trees := by
    rw [h'.trees, h'.ids]
    exact h.trees

theorem Joins.of_eq (hc : s'.p2pConnections = s.p2pConnections)
    (hi : s'.connectedSessionIds = if session.id ∈ s.connectedSessionIds then
      s.connectedSessionIds else s.connectedSessionIds ++ [session.id])
    (ht : s'.sessionTrees = if session.tmuxSessions = [] then s.sessionTrees else
      s.sessionTrees.set session.id session.tmuxSessions) : Joins session s s' where
  conns := hc
  ids := by
    rw [hi]
    split
    · exact List.Subset.refl _
    · exact List.subset_append_left _ _
  trees := by
    rw [hi, ht]
    split
    · exact .inl rfl
    · refine .inr ⟨?_, rfl⟩
      split
      · assumption
      · simp

theorem joins_sessConnected (session : ManagedSession) (s : Store) :
    Joins session s (s.sessConnected session) := by
  unfold sessConnected
  split
  · simp only
    split
    · refine Joins.same ?_ (sends_sendMsg _ _).same
      exact .of_eq rfl rfl rfl
    · exact .of_eq rfl rfl rfl
  · exact ⟨rfl, List.Subset.refl _, .inl rfl⟩

end

/-- Every direct connection that `s'` has was one of `s`. -/
def Sheds (s s' : Store) : Prop :=
  ∀ sessionId c, s'.p2pConnections.get sessionId = some c →
    s.p2pConnections.get sessionId = some c

theorem Sheds.of_eq {s s' : Store} (h : s'.p2pConnections = s.p2pConnections) : s.Sheds s' :=
  fun _ _ hc => h ▸ hc

theorem get_delete {sessionId id : Text} {t : Table Text P2PConnection} {c : P2PConnection}
    (h : (t.delete id).get sessionId = some c) : sessionId ≠ id ∧ t.get sessionId = some c := by
  have hne : sessionId ≠ id := by
    rintro rfl
    simp at h
  exact ⟨hne, by rwa [Table.get_delete_ne hne] at h⟩

theorem sheds_teardownP2P (id : Text) (s : Store) : s.Sheds (s.teardownP2P id) := by
  intro sessionId c h
  unfold teardownP2P at h
  split at h
  · cases h
  · split at h
    · exact (get_delete h).2
    · exact h

theorem get_teardownP2P_self {id : Text} (hid : id ≠ []) (s : Store) :
    (s.teardownP2P id).p2pConnections.get id = none := by
  simp only [teardownP2P, if_neg hid]
  split
  · exact Table.get_delete_self id _
  · assumption

/-- What an event does to the direct connections and the connected sessions, if
it makes or loses no direct connection. -/
inductive Turns (s s' : Store) : Prop
  | keeps (conns : s'.p2pConnections = s.p2pConnections)
      (ids : s.connectedSessionIds ⊆ s'.connectedSessionIds)
  | tears (id : Text) (conns : s'.p2pConnections = (s.teardownP2P id).p2pConnections)
      (ids : s'.connectedSessionIds = s.connectedSessionIds)
  | leaves (id : Text) (conns : s'.p2pConnections = (s.teardownP2P id).p2pConnections)
      (ids : s'.connectedSessionIds = s.connectedSessionIds.filter (· ≠ id))
  | clears (conns : s'.p2pConnections = [])

section
variable {s s' s'' : Store}

theorem SameSessions.turns (h : s.SameSessions s') : s.Turns s' :=
  .keeps h.conns (h.ids ▸ List.Subset.refl _)

theorem Turns.refl (s : Store) : s.Turns s := (SameSessions.refl s).turns

/-- Messages written before or after do not count. -/
theorem Turns.sends (h : s.Turns s') (h' : s'.Sends s'') : s.Turns s'' := by
  obtain ⟨wire, p2pWire, rfl⟩ := h'
  cases h with
  | keeps conns ids => exact .keeps conns ids
  | tears id conns ids => exact .tears id conns ids
  | leaves id conns ids => exact .leaves id conns ids
  | clears conns => exact .clears conns

theorem connectedSessionIds_teardownP2P (id : Text) (s : Store) :
    (s.teardownP2P id).connectedSessionIds = s.connectedSessionIds := by
  unfold teardownP2P
  split
  · rfl
  · split <;> rfl

theorem teardownP2P_congr (h : s'.p2pConnections = s.p2pConnections) (id : Text) :
    (s'.teardownP2P id).p2pConnections = (s.teardownP2P id).p2pConnections := by
  unfold teardownP2P
  rw [h]
  split
  · rfl
  · split
    · rfl
    · exact h

/-- A session is cleaned up in a store that has the same sessions. -/
theorem turns_disconnectSessionCleanup (hc : s'.p2pConnections = s.p2pConnections)
    (hi : s'.connectedSessionIds = s.connectedSessionIds) (id : Text) :
    s.Turns (s'.disconnectSessionCleanup id) := by
  refine .leaves id (teardownP2P_congr hc id) ?_
  rw [← hi, ← connectedSessionIds_teardownP2P id s']
  rfl

theorem Turns.sheds (h : s.Turns s') : s.Sheds s' := by
  cases h with
  | keeps conns _ => exact .of_eq conns
  | tears id conns _ | leaves id conns _ =>
    intro k c hk
    rw [conns] at hk
    exact sheds_teardownP2P id s k c hk
  | clears conns =>
    intro k c hk
    rw [conns] at hk
    cases hk

end

theorem turns_handleServerMsg (msg : ServerMsg) (source : Option Text) (s : Store) :
    s.Turns (s.handleServerMsg msg source) := by
  cases msg with
  | output pane data sessionId =>
    simp only [handleServerMsg]
    split <;> exact .keeps rfl (List.Subset.refl _)
  | state sessions =>
    simp only [handleServerMsg]
    split <;> exact .keeps rfl (List.Subset.refl _)
  | tmuxEvent event => exact (s.same_applyTmuxEvent source).turns
  | sessionConnected session =>
    have h := joins_sessConnected session s
    exact .keeps h.conns h.ids
  | sessionDeleted id =>
    exact @turns_disconnectSessionCleanup s
      { s with managedSessions := s.managedSessions.filter (·.id ≠ id) } rfl rfl id
  | sessionDisconnected session =>
    exact @turns_disconnectSessionCleanup s
      { s with managedSessions := replaceManaged session s.managedSessions } rfl rfl session.id
  | _ => exact .keeps rfl (List.Subset.refl _)

theorem turns_onMessage (msg : ServerMsg) (s : Store) : s.Turns (s.onMessage msg) := by
  rcases onMessage_eq msg s with h | ⟨h, -⟩
  · rw [h]
    exact turns_handleServerMsg msg none s
  · rw [h]
    exact .refl s

end Store

/-- The events that connect, disconnect or show a session, or may bring a message
that does. -/
def Event.ofSessions : Event → Bool
  | message .. | p2pMessage .. | quicConnected .. | webrtcConnected .. | p2pLost ..
  | teardownP2P .. | disconnectSession .. | deleteSession .. | disconnectSessionCleanup ..
  | cleanupSession => true
  | _ => false

/-- **The other events** leave the sessions alone. -/
theorem Store.same_step {e : Event} (h : e.ofSessions = false) (s : Store) :
    s.SameSessions (s.step e) := by
  cases e with
  | message | p2pMessage | quicConnected | webrtcConnected | p2pLost | teardownP2P
  | disconnectSession | deleteSession | disconnectSessionCleanup | cleanupSession => cases h
  | connect => exact s.same_connect
  | opened socket =>
    simp only [step]
    split
    · exact s.same_onOpen socket
    · exact .refl s
  | closing socket | closed socket =>
    simp only [step]
    split <;> exact ⟨rfl, rfl, rfl, rfl⟩
  | reconnectTimer =>
    simp only [step]
    split
    · refine SameSessions.trans ?_ (same_connect _)
      exact ⟨rfl, rfl, rfl, rfl⟩
    · exact .refl s
  | connectFailed socket sessionId code text =>
    simp only [step]
    split <;> exact .refl s
  | registerPaneHandler qid handler | focus sessionId => exact ⟨rfl, rfl, rfl, rfl⟩
  | sendSubscribe qid => exact (s.sends_sendVia _ _).same
  | subscribePane qid handler | unsubscribePane qid =>
    refine SameSessions.trans ?_ (sends_sendVia _ _ _).same
    exact ⟨rfl, rfl, rfl, rfl⟩
  | sendInput qid data => exact (s.sends_sendMsg (.i qid data)).same
  | sendResize qid cols rows => exact (s.sends_sendMsg (.r qid cols rows)).same
  | request msg =>
    simp only [step]
    split
    · exact (s.sends_sendMsg msg).same
    · exact .refl s

/-- **What an event does** to the direct connections, if it makes or loses none. -/
theorem Store.turns_step {e : Event} (h : e.ofP2P = false) (s : Store) : s.Turns (s.step e) := by
  cases e with
  | quicConnected | webrtcConnected | p2pLost => cases h
  | message socket msg =>
    simp only [step]
    split
    · exact turns_onMessage msg s
    · exact .refl s
  | p2pMessage sessionId msg => exact turns_handleServerMsg msg _ s
  | teardownP2P sessionId =>
    exact .tears sessionId rfl (connectedSessionIds_teardownP2P sessionId s)
  | disconnectSession sessionId =>
    have hs := s.sends_sendWs (.sessDisconnect sessionId)
    exact turns_disconnectSessionCleanup hs.p2pConnections hs.connectedSessionIds sessionId
  | deleteSession sessionId =>
    exact (turns_disconnectSessionCleanup rfl rfl sessionId).sends
      (sends_sendMsg _ (.sessDelete sessionId))
  | disconnectSessionCleanup sessionId => exact turns_disconnectSessionCleanup rfl rfl sessionId
  | cleanupSession => exact .clears rfl
  | _ => exact (same_step rfl s).turns

/-- No other event registers a direct connection. -/
theorem Store.sheds_step {e : Event} (h : e.ofP2P = false) (s : Store) : s.Sheds (s.step e) :=
  (s.turns_step h).sheds

/-! ## The close handler and `teardownP2P` -/

namespace Store

theorem foldl_sendWs (msgs : List Msg) (s : Store) :
    msgs.foldl (fun s m => s.sendWs m) s = { s with wire := s.wire ++ s.onWire msgs } := by
  induction msgs generalizing s with
  | nil => simp
  | cons msg msgs ih =>
    have hon : (s.sendWs msg).onWire msgs = s.onWire msgs := (wrote_sendWs msg s).onWire msgs
    rw [List.foldl_cons, ih, hon, sendWs_eq]
    simp only [List.append_assoc]
    rw [← onWire_append, List.singleton_append]

theorem teardownP2P_some {sessionId : Text} {s : Store} {c : P2PConnection} (hid : sessionId ≠ [])
    (hc : s.p2pConnections.get sessionId = some c) : s.teardownP2P sessionId = { s with
      p2pClosed := s.p2pClosed ++ [c.conn]
      p2pConnections := s.p2pConnections.delete sessionId } := by
  simp only [teardownP2P, if_neg hid, hc]

theorem teardownP2P_none {sessionId : Text} {s : Store} (hid : sessionId ≠ [])
    (hc : s.p2pConnections.get sessionId = none) : s.teardownP2P sessionId = s := by
  simp only [teardownP2P, if_neg hid, hc]

theorem teardownP2P_keeps (sessionId : Text) (s : Store) :
    (s.teardownP2P sessionId).wire = s.wire ∧
      (s.teardownP2P sessionId).handlerPanes sessionId = s.handlerPanes sessionId ∧
      ∀ msgs, (s.teardownP2P sessionId).onWire msgs = s.onWire msgs := by
  unfold teardownP2P teardownAllP2P
  split
  · exact ⟨rfl, rfl, fun _ => rfl⟩
  · split <;> exact ⟨rfl, rfl, fun _ => rfl⟩

/-- A close handler does what `teardownP2P` does, and writes the subscriptions. -/
theorem p2pLost_eq (sizes : Text → Option (Nat × Nat)) (sessionId : Text) (s : Store) :
    s.p2pLost sizes sessionId = { s.teardownP2P sessionId with
      wire := s.wire ++ s.onWire ((s.handlerPanes sessionId).flatMap (subscribeMsgs sizes)) } := by
  obtain ⟨hwire, hpanes, hon⟩ := s.teardownP2P_keeps sessionId
  rw [p2pLost, resubscribePanesViaWS, foldl_sendWs, hpanes, hon, hwire]

theorem p2pConnections_p2pLost (sizes : Text → Option (Nat × Nat)) (sessionId : Text) (s : Store) :
    (s.p2pLost sizes sessionId).p2pConnections = (s.teardownP2P sessionId).p2pConnections := by
  rw [p2pLost_eq]

/-- The connections that a close handler closes. -/
theorem p2pClosed_p2pLost (sizes : Text → Option (Nat × Nat)) {sessionId : Text}
    (hid : sessionId ≠ []) (s : Store) :
    (s.p2pLost sizes sessionId).p2pClosed =
      s.p2pClosed ++ ((s.p2pConnections.get sessionId).map (·.conn)).toList := by
  rw [p2pLost_eq]
  cases hc : s.p2pConnections.get sessionId with
  | some c => simp [teardownP2P_some hid hc]
  | none => simp [teardownP2P_none hid hc]

/-- Without a connection, and without panes or an open socket, nothing happens. -/
theorem p2pLost_idle {sessionId : Text} (hid : sessionId ≠ []) {s : Store}
    (sizes : Text → Option (Nat × Nat)) (hc : s.p2pConnections.get sessionId = none)
    (hp : s.online = false ∨ s.handlerPanes sessionId = []) :
    s.p2pLost sizes sessionId = s := by
  have hwire : s.onWire ((s.handlerPanes sessionId).flatMap (subscribeMsgs sizes)) = [] := by
    rcases hp with hw | hp
    · exact onWire_offline hw _
    · simp [hp]
  rw [p2pLost_eq, teardownP2P_none hid hc, hwire, List.append_nil]

end Store

end Oxmux.Client
