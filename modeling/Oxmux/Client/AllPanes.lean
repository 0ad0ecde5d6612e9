import Oxmux.Client.Registered
import Oxmux.Lib.Runs

/-! The panes that the views offer, `allPanes` of `client/src/stores/tmux.ts`: all
panes of all trees that the store keeps, each under its qualified id. A tree comes
in with `sess_connected` or with a state message, and goes with its session. -/

namespace Oxmux.Client
open Oxmux.Lib Oxmux.Session Oxmux.Ws

structure OfferedPane where
  pane : TmuxPaneInfo
  qualifiedId : Text
  sessionId : Text
  sessionName : Text
  deriving DecidableEq

def stateOf : ServerMsg → Option (List TmuxSessionInfo)
  | .state sessions => some sessions
  | _ => none

theorem eq_of_stateOf {msg : ServerMsg} {sessions : List TmuxSessionInfo}
    (h : stateOf msg = some sessions) : msg = .state sessions := by
  cases msg with
  | state sessions' => rw [Option.some.inj h]
  | _ => cases h

namespace Store

/-- `ms?.name || sessionId`. -/
def sessionName (sessionId : Text) (s : Store) : Text :=
  match s.managedSessions.find? (·.id = sessionId) with
  | some ms => if ms.name = [] then sessionId else ms.name
  | none => sessionId

def allPanes (s : Store) : List OfferedPane :=
  s.sessionTrees.flatMap fun e =>
    e.2.flatMap fun tree => tree.windows.flatMap fun win => win.panes.map fun pane =>
      { pane, qualifiedId := qualifyPaneId e.1 pane.id, sessionId := e.1
        sessionName := s.sessionName e.1 }

/-- Every pane that is offered is one of a connected session. -/
def OffersConnected (s : Store) : Prop :=
  ∀ p ∈ s.allPanes, p.sessionId ∈ s.connectedSessionIds

/-- A tree with a pane is one of a connected session. -/
def Belongs (s : Store) (sessionId : Text) (tree : List TmuxSessionInfo) : Prop :=
  paneIds tree = [] ∨ sessionId ∈ s.connectedSessionIds

/-- A state message is about a connected session, or shows no pane. -/
def Fits (s : Store) (source : Option Text) (msg : ServerMsg) : Prop :=
  ∀ sessions ∈ stateOf msg, s.sourceSession source none ≠ [] →
    s.Belongs (s.sourceSession source none) sessions

/-- A state message that an event brings fits. -/
def TreesFit (s : Store) : Event → Prop
  | .message socket msg => s.isOpen socket → s.Fits none msg
  | .p2pMessage sessionId msg => s.Fits (some sessionId) msg
  | _ => True

theorem offersConnected_iff (s : Store) :
    s.OffersConnected ↔ ∀ e ∈ s.sessionTrees, s.Belongs e.1 e.2 := by
  constructor
  · intro h e he
    by_cases hp : paneIds e.2 = []
    · exact .inl hp
    · obtain ⟨id, hid⟩ := List.exists_mem_of_ne_nil _ hp
      obtain ⟨tree, ht, hid⟩ := List.mem_flatMap.mp hid
      obtain ⟨win, hw, hid⟩ := List.mem_flatMap.mp hid
      obtain ⟨pane, hpane, -⟩ := List.mem_map.mp hid
      refine .inr (h { pane, qualifiedId := qualifyPaneId e.1 pane.id, sessionId := e.1
                       sessionName := s.sessionName e.1 } ?_)
      exact List.mem_flatMap.mpr ⟨e, he, List.mem_flatMap.mpr ⟨tree, ht,
        List.mem_flatMap.mpr ⟨win, hw, List.mem_map_of_mem hpane⟩⟩⟩
  · intro h p hp
    obtain ⟨e, he, hp⟩ := List.mem_flatMap.mp hp
    obtain ⟨tree, ht, hp⟩ := List.mem_flatMap.mp hp
    obtain ⟨win, hw, hp⟩ := List.mem_flatMap.mp hp
    obtain ⟨pane, hpane, rfl⟩ := List.mem_map.mp hp
    rcases h e he with hnone | hid
    · have hmem : pane.id ∈ paneIds e.2 := List.mem_flatMap.mpr ⟨tree, ht,
        List.mem_flatMap.mpr ⟨win, hw, List.mem_map_of_mem hpane⟩⟩
      rw [hnone] at hmem
      cases hmem
    · exact hid

/-- What an event makes of the trees and of the connected sessions, if it brings no
state message. -/
inductive Regrows (s s' : Store) : Prop
  | keeps (trees : s'.sessionTrees = s.sessionTrees)
      (ids : s.connectedSessionIds ⊆ s'.connectedSessionIds)
  | grows (id : Text) (tree : List TmuxSessionInfo)
      (trees : s'.sessionTrees = s.sessionTrees.set id tree)
      (ids : s.connectedSessionIds ⊆ s'.connectedSessionIds) (there : id ∈ s'.connectedSessionIds)
  | leaves (id : Text) (trees : s'.sessionTrees = s.sessionTrees.delete id)
      (ids : s'.connectedSessionIds = s.connectedSessionIds.filter (· ≠ id))
  | clears (trees : s'.sessionTrees = [])

section
variable {s s' s'' : Store}

theorem Belongs.mono {id : Text} {tree : List TmuxSessionInfo} (h : s.Belongs id tree)
    (ids : s.connectedSessionIds ⊆ s'.connectedSessionIds) : s'.Belongs id tree :=
  h.imp_right fun hid => ids hid

/-- **Such an event offers no pane of another session.** -/
theorem Regrows.offers (h : s.Regrows s') (hs : s.OffersConnected) : s'.OffersConnected := by
  rw [offersConnected_iff] at hs ⊢
  intro e he
  cases h with
  | keeps trees ids =>
    rw [trees] at he
    exact (hs e he).mono ids
  | grows id tree trees ids there =>
    rw [trees] at he
    rcases Table.mem_of_mem_set he with rfl | he
    · exact .inr there
    · exact (hs e he).mono ids
  | leaves id trees ids =>
    rw [trees] at he
    obtain ⟨he, hne⟩ := List.mem_filter.mp he
    refine (hs e he).imp_right fun hid => ?_
    rw [ids]
    exact List.mem_filter.mpr ⟨hid, hne⟩
  | clears trees =>
    rw [trees] at he
    cases he

theorem SameSessions.regrows (h : s.SameSessions s') : s.Regrows s' :=
  .keeps h.trees (h.ids ▸ List.Subset.refl _)

theorem Joins.regrows {session : ManagedSession} (h : Joins session s s') : s.Regrows s' := by
  rcases h.trees with ht | ⟨hid, ht⟩
  · exact .keeps ht h.ids
  · exact .grows session.id session.tmuxSessions ht h.ids hid

theorem Regrows.sends (h : s.Regrows s') (h' : s'.Sends s'') : s.Regrows s'' := by
  obtain ⟨wire, p2pWire, rfl⟩ := h'
  cases h with
  | keeps trees ids => exact .keeps trees ids
  | grows id tree trees ids there => exact .grows id tree trees ids there
  | leaves id trees ids => exact .leaves id trees ids
  | clears trees => exact .clears trees

theorem sessionTrees_teardownP2P (id : Text) (s : Store) :
    (s.teardownP2P id).sessionTrees = s.sessionTrees := by
  unfold teardownP2P
  split
  · rfl
  · split <;> rfl

/-- A session is cleaned up in a store that has the same trees and sessions. -/
theorem regrows_disconnectSessionCleanup (ht : s'.sessionTrees = s.sessionTrees)
    (hi : s'.connectedSessionIds = s.connectedSessionIds) (id : Text) :
    s.Regrows (s'.disconnectSessionCleanup id) := by
  refine .leaves id ?_ ?_
  · rw [← ht, ← sessionTrees_teardownP2P id s']
    rfl
  · rw [← hi, ← connectedSessionIds_teardownP2P id s']
    rfl

end

theorem regrows_handleServerMsg {msg : ServerMsg} (h : stateOf msg = none) (source : Option Text)
    (s : Store) : s.Regrows (s.handleServerMsg msg source) := by
  cases msg with
  | state sessions => cases h
  | output pane data sessionId =>
    simp only [handleServerMsg]
    split <;> exact .keeps rfl (List.Subset.refl _)
  | tmuxEvent event => exact (s.same_applyTmuxEvent source).regrows
  | sessionConnected session => exact (joins_sessConnected session s).regrows
  | sessionDeleted id =>
    exact @regrows_disconnectSessionCleanup s
      { s with managedSessions := s.managedSessions.filter (·.id ≠ id) } rfl rfl id
  | sessionDisconnected session =>
    exact @regrows_disconnectSessionCleanup s
      { s with managedSessions := replaceManaged session s.managedSessions } rfl rfl session.id
  | _ => exact .keeps rfl (List.Subset.refl _)

theorem regrows_onMessage {msg : ServerMsg} (h : stateOf msg = none) (s : Store) :
    s.Regrows (s.onMessage msg) := by
  rcases onMessage_eq msg s with heq | ⟨heq, -⟩
  · rw [heq]
    exact regrows_handleServerMsg h none s
  · rw [heq]
    exact (SameSessions.refl s).regrows

/-- A state message sets the tree of the session that it is taken to be about. -/
theorem offers_handleServerMsg_iff (msg : ServerMsg) (source : Option Text) {s : Store}
    (hs : s.OffersConnected) :
    (s.handleServerMsg msg source).OffersConnected ↔ s.Fits source msg := by
  cases hmsg : stateOf msg with
  | none =>
    refine iff_of_true ((regrows_handleServerMsg hmsg source s).offers hs) ?_
    intro sessions h
    rw [hmsg] at h
    cases h
  | some sessions =>
    obtain rfl := eq_of_stateOf hmsg
    have hfits : s.Fits source (.state sessions) ↔ (s.sourceSession source none ≠ [] →
        s.Belongs (s.sourceSession source none) sessions) := by
      simp [Fits, stateOf]
    have hset : s.handleServerMsg (.state sessions) source =
        if s.sourceSession source none = [] then s
        else { s with
          sessionTrees := s.sessionTrees.set (s.sourceSession source none) sessions } := rfl
    rw [hfits, hset]
    split
    · next hsid => exact iff_of_true hs fun hne => absurd hsid hne
    · next hsid =>
      rw [offersConnected_iff] at hs ⊢
      constructor
      · exact fun h _ => h _ (Table.mem_set_self _ _ _)
      · intro h e he
        rcases Table.mem_of_mem_set he with rfl | he
        · exact h hsid
        · exact hs e he

/-- The WebSocket hands on every message but output. -/
theorem offers_onMessage_iff (msg : ServerMsg) {s : Store} (hs : s.OffersConnected) :
    (s.onMessage msg).OffersConnected ↔ s.Fits none msg := by
  cases msg with
  | output pane data sessionId =>
    exact iff_of_true ((regrows_onMessage rfl s).offers hs) fun sessions h => by cases h
  | _ => exact offers_handleServerMsg_iff _ none hs

theorem regrows_teardownP2P (id : Text) (s : Store) : s.Regrows (s.teardownP2P id) :=
  .keeps (sessionTrees_teardownP2P id s)
    ((connectedSessionIds_teardownP2P id s).symm ▸ List.Subset.refl _)

/-- **What an event makes of the trees**, if it brings no message. -/
theorem regrows_step {e : Event} (hmsg : ∀ socket msg, e ≠ .message socket msg)
    (hp2p : ∀ sessionId msg, e ≠ .p2pMessage sessionId msg) (s : Store) :
    s.Regrows (s.step e) := by
  cases e with
  | message socket msg => exact absurd rfl (hmsg socket msg)
  | p2pMessage sessionId msg => exact absurd rfl (hp2p sessionId msg)
  | quicConnected conn sizes sessionId =>
    have hs := (s.sends_quicConnected conn sizes sessionId).same
    exact .keeps hs.trees (hs.ids ▸ List.Subset.refl _)
  | webrtcConnected conn sizes sessionId =>
    have hs := (s.sends_webrtcConnected conn sizes sessionId).same
    exact .keeps hs.trees (hs.ids ▸ List.Subset.refl _)
  | p2pLost sizes sessionId =>
    exact (s.regrows_teardownP2P sessionId).sends (sends_resubscribePanesViaWS _ sizes sessionId)
  | teardownP2P sessionId => exact s.regrows_teardownP2P sessionId
  | disconnectSession sessionId =>
    have hs := (s.sends_sendWs (.sessDisconnect sessionId)).same
    exact regrows_disconnectSessionCleanup hs.trees hs.ids sessionId
  | deleteSession sessionId =>
    exact (regrows_disconnectSessionCleanup rfl rfl sessionId).sends
      (sends_sendMsg _ (.sessDelete sessionId))
  | disconnectSessionCleanup sessionId => exact regrows_disconnectSessionCleanup rfl rfl sessionId
  | cleanupSession => exact .clears rfl
  | _ => exact (same_step rfl s).regrows

/-- One event, from a store that offers what it should. -/
theorem offers_step_iff {s : Store} (hs : s.OffersConnected) (e : Event) :
    (s.step e).OffersConnected ↔ s.TreesFit e := by
  cases e with
  | message socket msg =>
    simp only [step, TreesFit]
    split
    · next hopen =>
      exact (offers_onMessage_iff msg hs).trans ⟨fun h _ => h, fun h => h hopen⟩
    · next hopen => exact iff_of_true hs fun h => absurd h hopen
  | p2pMessage sessionId msg => exact offers_handleServerMsg_iff msg (some sessionId) hs
  | _ =>
    refine iff_of_true (Regrows.offers (regrows_step ?_ ?_ s) hs) trivial
    all_goals intro _ _ h; cases h

/-- **The views offer panes of connected sessions only**, in every state of a run,
exactly if each state message that shows a pane is about a session that is
connected when it comes. -/
theorem offers_connected_iff (es : List Event) :
    Runs.Always step OffersConnected new es ↔ Runs.EachStep step TreesFit new es := by
  have hnew : new.OffersConnected := by
    intro p hp
    cases hp
  refine Runs.always_iff_eachStep (I := fun _ => True) hnew trivial ?_ ?_ es
  · exact fun s e _ hs => offers_step_iff hs e
  · exact fun _ _ _ _ _ => trivial

end Store

end Oxmux.Client
