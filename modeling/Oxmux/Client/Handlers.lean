import Oxmux.Client.Registered

/-! Which output handlers an event of the store takes away: those of a session
that is cleaned up, and no others. -/

namespace Oxmux.Client
open Oxmux.Lib Oxmux.Session Oxmux.Ws

/-- The pane's session is cleaned up on this message. -/
def cleanedByMsg (qid : Text) : ServerMsg → Bool
  | .sessionDeleted id => (parseQualifiedPaneId qid).sessionId = id
  | .sessionDisconnected session => (parseQualifiedPaneId qid).sessionId = session.id
  | _ => false

/-- The events that give a pane a handler or take it away by themselves. -/
def Event.ofPane : Event → Bool
  | registerPaneHandler .. | subscribePane .. | unsubscribePane _ => true
  | _ => false

namespace Store

/-- The pane's session is cleaned up by this event. -/
def cleans (s : Store) (qid : Text) : Event → Bool
  | .message socket msg => s.isOpen socket && cleanedByMsg qid msg
  | .p2pMessage _ msg => cleanedByMsg qid msg
  | .disconnectSession id | .deleteSession id | .disconnectSessionCleanup id =>
    (parseQualifiedPaneId qid).sessionId = id
  | .cleanupSession => true
  | _ => false

/-- The handlers of some panes are gone, and `ws` is the same. -/
structure Drops (s s' : Store) (gone : Text → Bool) : Prop where
  ws : s'.ws = s.ws
  paneHandlers : s'.paneHandlers = s.paneHandlers.filter fun e => !gone e.1

section
variable {s s' s'' : Store} {gone : Text → Bool}

theorem Drops.of_eq (hw : s'.ws = s.ws) (hp : s'.paneHandlers = s.paneHandlers) :
    s.Drops s' fun _ => false :=
  ⟨hw, by simp [hp]⟩

theorem Sends.ws (h : s.Sends s') : s'.ws = s.ws := by
  obtain ⟨_, _, rfl⟩ := h
  rfl

theorem Sends.paneHandlers (h : s.Sends s') : s'.paneHandlers = s.paneHandlers := by
  obtain ⟨_, _, rfl⟩ := h
  rfl

theorem Sends.drops (h : s.Sends s') : s.Drops s' fun _ => false := .of_eq h.ws h.paneHandlers

theorem Drops.sends (h : s.Drops s' gone) (h' : s'.Sends s'') : s.Drops s'' gone := by
  obtain ⟨_, _, rfl⟩ := h'
  exact ⟨h.ws, h.paneHandlers⟩

theorem drops_teardownP2P (id : Text) (s : Store) : s.Drops (s.teardownP2P id) fun _ => false := by
  unfold teardownP2P
  split
  · exact .of_eq rfl rfl
  · split <;> exact .of_eq rfl rfl

/-- A session is cleaned up in a store that has the same handlers. -/
theorem drops_disconnectSessionCleanup (s s' : Store) (hw : s'.ws = s.ws)
    (hp : s'.paneHandlers = s.paneHandlers) (id : Text) :
    s.Drops (s'.disconnectSessionCleanup id) fun qid =>
      (parseQualifiedPaneId qid).sessionId = id := by
  have h := drops_teardownP2P id s'
  refine ⟨h.ws.trans hw, ?_⟩
  have hpanes : (s'.teardownP2P id).paneHandlers = s.paneHandlers := by
    rw [h.paneHandlers, hp]
    simp
  unfold disconnectSessionCleanup
  simp [hpanes]

end

theorem drops_applyTmuxEvent (event : Option TmuxEventMsg) (source : Option Text) (s : Store) :
    s.Drops (s.applyTmuxEvent event source) fun _ => false := by
  simp only [applyTmuxEvent]
  split
  · exact .of_eq rfl rfl
  · split <;> exact .of_eq rfl rfl

/-- `sess_connected` takes no handler away. -/
theorem drops_sessConnected (session : ManagedSession) (s : Store) :
    s.Drops (s.sessConnected session) fun _ => false := by
  unfold sessConnected
  split
  · simp only
    split
    · exact .of_eq (sends_sendMsg _ _).ws (sends_sendMsg _ _).paneHandlers
    · exact .of_eq rfl rfl
  · exact .of_eq rfl rfl

theorem drops_handleServerMsg (msg : ServerMsg) (source : Option Text) (s : Store) :
    s.Drops (s.handleServerMsg msg source) fun qid => cleanedByMsg qid msg := by
  cases msg with
  | output pane data sessionId =>
    simp only [handleServerMsg]
    split <;> exact .of_eq rfl rfl
  | state sessions =>
    simp only [handleServerMsg]
    split <;> exact .of_eq rfl rfl
  | tmuxEvent event => exact drops_applyTmuxEvent none source s
  | sessionConnected session => exact drops_sessConnected session s
  | sessionDeleted id =>
    exact drops_disconnectSessionCleanup s
      { s with managedSessions := s.managedSessions.filter (·.id ≠ id) } rfl rfl id
  | sessionDisconnected session =>
    exact drops_disconnectSessionCleanup s
      { s with managedSessions := replaceManaged session s.managedSessions } rfl rfl session.id
  | _ => exact .of_eq rfl rfl

theorem drops_onMessage (msg : ServerMsg) (s : Store) :
    s.Drops (s.onMessage msg) fun qid => cleanedByMsg qid msg := by
  have h : s.onMessage msg = s.handleServerMsg msg none ∨
      s.onMessage msg = s ∧ ∀ qid, cleanedByMsg qid msg = false := by
    cases msg with
    | output pane data sessionId =>
      simp only [onMessage]
      split
      · exact .inl rfl
      · exact .inr ⟨rfl, fun _ => rfl⟩
    | _ => exact .inl rfl
  rcases h with h | ⟨h, hc⟩
  · rw [h]
    exact drops_handleServerMsg msg none s
  · simp only [h, hc]
    exact .of_eq rfl rfl

/-- **What an event takes away**, if it concerns neither a pane nor a socket's
life. -/
theorem drops_step {e : Event} (hp : e.ofPane = false) (hs : e.ofSocket = false) (s : Store) :
    s.Drops (s.step e) fun qid => s.cleans qid e := by
  cases e with
  | connect | opened | closing | closed | reconnectTimer => cases hs
  | registerPaneHandler | subscribePane | unsubscribePane => cases hp
  | message socket msg =>
    simp only [step, cleans]
    split
    · next ho => simpa [ho] using drops_onMessage msg s
    · next ho => simpa [ho] using Drops.of_eq (s := s) rfl rfl
  | connectFailed socket sessionId code text =>
    simp only [step]
    split
    · exact drops_onMessage (.error code text) s
    · exact .of_eq rfl rfl
  | p2pMessage sessionId msg => exact drops_handleServerMsg msg (some sessionId) s
  | quicConnected conn sizes sessionId =>
    have hs := s.sends_quicConnected conn sizes sessionId
    exact .of_eq hs.ws hs.paneHandlers
  | webrtcConnected conn sizes sessionId =>
    have hs := s.sends_webrtcConnected conn sizes sessionId
    exact .of_eq hs.ws hs.paneHandlers
  | p2pLost sizes sessionId =>
    exact (drops_teardownP2P sessionId s).sends (sends_resubscribePanesViaWS _ sizes sessionId)
  | teardownP2P sessionId => exact drops_teardownP2P sessionId s
  | sendSubscribe qid => exact (s.sends_sendVia _ _).drops
  | sendInput qid data => exact (s.sends_sendMsg (.i qid data)).drops
  | sendResize qid cols rows => exact (s.sends_sendMsg (.r qid cols rows)).drops
  | request msg =>
    simp only [step]
    split
    · exact (s.sends_sendMsg msg).drops
    · exact .of_eq rfl rfl
  | disconnectSession sessionId =>
    have hs := s.sends_sendWs (.sessDisconnect sessionId)
    exact drops_disconnectSessionCleanup s _ hs.ws hs.paneHandlers sessionId
  | deleteSession sessionId =>
    exact (drops_disconnectSessionCleanup s s rfl rfl sessionId).sends
      (sends_sendMsg _ (.sessDelete sessionId))
  | disconnectSessionCleanup sessionId => exact drops_disconnectSessionCleanup s s rfl rfl sessionId
  | cleanupSession => exact ⟨rfl, by simp [cleans, step, cleanupSession]⟩
  | focus sessionId => exact .of_eq rfl rfl

theorem drops_onOpen (socket : Nat) (s : Store) : s.Drops (s.onOpen socket) fun _ => false := by
  have h := fun s₀ : Store => (sends_sendMsg s₀ .sessList).trans
    (sends_foldl _ (fun s sid => s.sends_sendMsg (.sessConnect sid)) s.connectedSessionIds)
  exact .of_eq (h _).ws (h _).paneHandlers

theorem paneHandlers_connect (s : Store) : s.connect.paneHandlers = s.paneHandlers := by
  unfold connect
  split <;> rfl

/-- **Which handlers an event takes away**, if it is not about one pane. -/
theorem paneHandlers_step {e : Event} (hp : e.ofPane = false) (s : Store) :
    (s.step e).paneHandlers = s.paneHandlers.filter fun h => !s.cleans h.1 e := by
  cases hs : e.ofSocket with
  | false => exact (drops_step hp hs s).paneHandlers
  | true =>
    have hkeep : (s.step e).paneHandlers = s.paneHandlers := by
      cases e with
      | connect => exact s.paneHandlers_connect
      | opened socket =>
        simp only [step]
        split
        · simpa using (s.drops_onOpen socket).paneHandlers
        · rfl
      | closing | closed =>
        simp only [step]
        split <;> rfl
      | reconnectTimer =>
        simp only [step]
        split
        · exact paneHandlers_connect { s with
            reconnectTimeout := false, backoffMs := min (s.backoffMs * 2) 30000 }
        · rfl
      | _ => cases hs
    have hclean (qid : Text) : s.cleans qid e = false := by
      cases e with
      | connect | opened | closing | closed | reconnectTimer => rfl
      | _ => cases hs
    simp [hkeep, hclean]

theorem get_paneHandlers_step {e : Event} (hp : e.ofPane = false) (s : Store) (qid : Text) :
    (s.step e).paneHandlers.get qid =
      if s.cleans qid e = true then none else s.paneHandlers.get qid := by
  have hget := Table.get_filter (fun qid => ¬ s.cleans qid e = true) qid s.paneHandlers
  rw [paneHandlers_step hp, ← ite_not]
  simpa using hget

theorem ws_step {e : Event} (hs : e.ofSocket = false) (s : Store) : (s.step e).ws = s.ws := by
  cases hp : e.ofPane with
  | false => exact (drops_step hp hs s).ws
  | true =>
    cases e with
    | registerPaneHandler qid handler => rfl
    | subscribePane qid handler =>
      exact ((s.registerPaneHandler qid handler).sends_sendVia _ _).drops.ws
    | unsubscribePane qid => exact (sends_sendVia _ _ _).drops.ws
    | _ => cases hp

end Store

end Oxmux.Client
