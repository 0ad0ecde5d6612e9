import Oxmux.Client.Registered
import Oxmux.Lib.Records

/-! The store's sessions. They follow the server's answers, of which only the
list carries all of them; nothing that the browser does changes them. -/

namespace Oxmux.Client
open Oxmux.Lib Oxmux.Lib.Records Oxmux.Session Oxmux.Ws

/-- The message tells of sessions. -/
def tells : ServerMsg → Bool
  | .sessionList _ | .sessionCreated _ | .sessionUpdated _ | .sessionDeleted _
  | .sessionConnected _ | .sessionDisconnected _ => true
  | _ => false

/-- What a message makes of the store's sessions. -/
def follow (sessions : List ManagedSession) : ServerMsg → List ManagedSession
  | .sessionList sessions => sessions
  | .sessionCreated session => sessions ++ [session]
  | .sessionUpdated session | .sessionConnected session | .sessionDisconnected session =>
    replace (fun s : ManagedSession => s.id) session sessions
  | .sessionDeleted id => sessions.filter (·.id ≠ id)
  | _ => sessions

theorem follow_of_quiet {msg : ServerMsg} (h : tells msg = false)
    (sessions : List ManagedSession) : follow sessions msg = sessions := by
  cases msg <;> first | rfl | cases h

theorem foldl_follow_of_quiet {msgs : List ServerMsg} (h : ∀ msg ∈ msgs, tells msg = false)
    (sessions : List ManagedSession) : msgs.foldl follow sessions = sessions := by
  induction msgs with
  | nil => rfl
  | cons msg msgs ih =>
    rw [List.foldl_cons, follow_of_quiet (h msg List.mem_cons_self)]
    exact ih fun msg' hm => h msg' (List.mem_cons_of_mem msg hm)

namespace Store

theorem replaceManaged_eq (session : ManagedSession) (sessions : List ManagedSession) :
    replaceManaged session sessions = replace (fun s : ManagedSession => s.id) session sessions :=
  replace_eq_set _ session sessions

/-! ## What leaves the sessions alone -/

@[simp] theorem managedSessions_teardownP2P (sessionId : Text) (s : Store) :
    (s.teardownP2P sessionId).managedSessions = s.managedSessions := by
  unfold teardownP2P
  split
  · rfl
  · split <;> rfl

@[simp] theorem managedSessions_disconnectSessionCleanup (sessionId : Text) (s : Store) :
    (s.disconnectSessionCleanup sessionId).managedSessions = s.managedSessions := by
  simp [disconnectSessionCleanup]

/-! ## What changes them -/

/-- **The store follows the server's messages.** -/
theorem managedSessions_handleServerMsg (msg : ServerMsg) (source : Option Text) (s : Store) :
    (s.handleServerMsg msg source).managedSessions = follow s.managedSessions msg := by
  cases msg with
  | output pane data sessionId =>
    simp only [handleServerMsg]
    split <;> rfl
  | state sessions =>
    simp only [handleServerMsg]
    split <;> rfl
  | tmuxEvent event =>
    simp only [handleServerMsg, applyTmuxEvent]
    split <;> rfl
  | sessionUpdated session => exact replaceManaged_eq session _
  | sessionDeleted id => simp [handleServerMsg, follow]
  | sessionDisconnected session => simp [handleServerMsg, follow, replaceManaged_eq]
  | sessionConnected session =>
    simp only [handleServerMsg, sessConnected, follow]
    split
    · split
      · exact (sends_sendMsg _ _).same.managed.trans (replaceManaged_eq session _)
      · exact replaceManaged_eq session _
    · next hknows =>
      -- a session that is not known is replaced nowhere
      rw [replace_of_not_mem]
      intro hm
      obtain ⟨s', hs', hid⟩ := List.mem_map.mp hm
      exact hknows (List.any_eq_true.mpr ⟨s', hs', decide_eq_true hid⟩)
  | _ => rfl

theorem managedSessions_onMessage (msg : ServerMsg) (s : Store) :
    (s.onMessage msg).managedSessions = follow s.managedSessions msg := by
  cases msg with
  | output pane data sessionId =>
    simp only [onMessage]
    split
    · exact managedSessions_handleServerMsg _ none s
    · rfl
  | _ => exact managedSessions_handleServerMsg _ none s

/-- **No other event touches them**, if agents tell of no sessions. -/
theorem managedSessions_step {e : Event} (hmsg : ∀ socket msg, e ≠ .message socket msg)
    (hp2p : ∀ sessionId msg, e = .p2pMessage sessionId msg → tells msg = false) (s : Store) :
    (s.step e).managedSessions = s.managedSessions := by
  cases e with
  | message socket msg => exact absurd rfl (hmsg socket msg)
  | p2pMessage sessionId msg =>
    exact (managedSessions_handleServerMsg msg _ s).trans
      (follow_of_quiet (hp2p sessionId msg rfl) _)
  | quicConnected conn sizes sessionId =>
    exact (s.sends_quicConnected conn sizes sessionId).same.managed
  | webrtcConnected conn sizes sessionId =>
    exact (s.sends_webrtcConnected conn sizes sessionId).same.managed
  | p2pLost sizes sessionId =>
    exact (sends_resubscribePanesViaWS _ sizes sessionId).same.managed.trans
      (managedSessions_teardownP2P sessionId s)
  | teardownP2P sessionId => exact managedSessions_teardownP2P sessionId s
  | disconnectSession sessionId =>
    exact (managedSessions_disconnectSessionCleanup sessionId _).trans
      (s.sends_sendWs (.sessDisconnect sessionId)).same.managed
  | deleteSession sessionId =>
    exact (sends_sendMsg _ (.sessDelete sessionId)).same.managed.trans
      (managedSessions_disconnectSessionCleanup sessionId s)
  | disconnectSessionCleanup sessionId => exact managedSessions_disconnectSessionCleanup sessionId s
  | cleanupSession => rfl
  | _ => exact (same_step rfl s).managed

end Store

end Oxmux.Client
