import Oxmux.Ws.Server

/-! What one user's messages do to another user's sessions. The operations find
a session in memory by its id and ask nobody who owns it; only a session that
was not loaded since the server started is out of reach. -/

namespace Oxmux.Session
open Oxmux.Lib

/-- All that the session manager holds about one session. -/
structure SessionView where
  entry : Option SessionEntry
  routed : Text → Bool
  rows : List SessionRow
  keys : List (Option (Text × Option Text))

namespace SessionManager

def view (id : Text) (m : SessionManager) : SessionView :=
  let rows := m.db.filter fun row => row.id.val = id
  { entry := m.sessions id
    routed := fun pane => m.paneToSession pane == some id
    rows
    keys := rows.map fun row =>
      ((rowToManagedSession row).bind uploadedKeyId).bind m.ephemeralKeys }

def without (id : Text) (m : SessionManager) : SessionManager :=
  { m.removeRoutes id with
    sessions := Function.update m.sessions id none
    db := m.db.filter fun row => row.id.val ≠ id }

theorem sessions_without (id : Text) (m : SessionManager) : (m.without id).sessions id = none := by
  simp [without]

theorem removeRoutes_eq_self {m : SessionManager} (h : m.Sound) {id : Text}
    (hs : m.sessions id = none) : m.removeRoutes id = m := by
  have hr : (fun pane => (m.paneToSession pane).filter (· ≠ id)) = m.paneToSession := by
    funext pane
    cases hp : m.paneToSession pane with
    | none => rfl
    | some id' =>
      have hne : id' ≠ id := by
        rintro rfl
        simpa [hs] using h.routed pane id' hp
      simp [hne]
  rw [removeRoutes, hr]

theorem startsWith_notFound (id : Text) :
    startsWith "session '".toList (notFound id) = true := by
  unfold notFound
  generalize "session '".toList = start
  rw [List.append_assoc]
  exact startsWith_append _ _

/-- A text that does not start like the manager's own error is not that error. -/
theorem ne_notFound {text : Text} (h : startsWith "session '".toList text = false) (id : Text) :
    text ≠ notFound id := by
  rintro rfl
  rw [startsWith_notFound] at h
  cases h

/-! ## The errors of an operation on a session that is in memory -/

section
variable {m : SessionManager} {id : Text} {entry : SessionEntry} {env : Env} {e : Text}

theorem connect_error (hs : m.sessions id = some entry) (h : (m.connect env id).2 = .error e) :
    e ≠ notFound id := by
  cases hc : env.connect with
  | none => simp [connect, hs, hc] at h
  | some failure =>
    simp only [connect, hs, hc, Except.error.injEq] at h
    exact h ▸ ne_notFound failure.error.foreign id

theorem disconnect_error (hs : m.sessions id = some entry)
    (h : (m.disconnect env id).2 = .error e) : e ≠ notFound id := by
  have hr : (m.removeRoutes id).sessions id = some entry := hs
  simp [disconnect, hr] at h

theorem update_error {req : UpdateSessionRequest} (hs : m.sessions id = some entry)
    (h : (m.update env id req).2 = .error e) : e ≠ notFound id := by
  cases hn : req.name with
  | none => simp [update, hs, hn] at h
  | some name =>
    cases hw : env.dbWrite 0 with
    | true => simp [update, hs, hn, hw] at h
    | false =>
      simp only [update, hs, hn, hw, Bool.false_eq_true, if_false, Except.error.injEq] at h
      exact h ▸ ne_notFound (by decide) id

theorem delete_error (hs : m.sessions id = some entry) (h : (m.delete env id).2 = .error e) :
    e ≠ notFound id := by
  have hr : (m.removeRoutes id).sessions id = some entry := hs
  cases hw : env.dbWrite 0 with
  | true => simp [delete, hr, hw] at h
  | false =>
    simp only [delete, hr, hw, Bool.false_eq_true, if_false, Except.error.injEq] at h
    exact h ▸ ne_notFound (by decide) id

theorem refreshTmuxState_error (hs : m.sessions id = some entry)
    (h : (m.refreshTmuxState env id).2 = .error e) : e ≠ notFound id := by
  cases hl : entry.transport.listTmuxSessions env.listing with
  | ok tree => simp [refreshTmuxState, hs, hl] at h
  | error error =>
    simp only [refreshTmuxState, hs, hl, Except.error.injEq] at h
    exact h ▸ ne_notFound error.foreign id

end

end SessionManager

end Oxmux.Session

namespace Oxmux.Ws
open Oxmux.Lib Oxmux.Lib.Runs Oxmux.Session Oxmux.Session.SessionManager

/-! ## Messages about a session -/

def ClientMsg.target : ClientMsg → Option Text
  | .connectSession id => some id
  | .disconnectSession id => some id
  | .updateSession id _ => some id
  | .deleteSession id => some id
  | .refreshSession id => some id
  | .installAgent id => some id
  | .transportUpgrade id _ => some id
  | _ => none

/-- The reply about a session that is not there. -/
def ClientMsg.missingReply : ClientMsg → Option ServerMsg
  | .connectSession id => some (.error "session_connect_error".toList (notFound id))
  | .disconnectSession id => some (.error "session_disconnect_error".toList (notFound id))
  | .updateSession id _ => some (.error "session_update_error".toList (notFound id))
  | .deleteSession id => some (.error "session_delete_error".toList (notFound id))
  | .refreshSession id => some (.error "session_refresh_error".toList (notFound id))
  | .installAgent id => some (.error "session_not_found".toList (notFound id))
  | .transportUpgrade id _ => some (.transportUpgradeFailed id "session not found".toList)
  | _ => none

variable {msg : ClientMsg} {id : Text} {s : AppState}

/-- A session that is not in memory is not found. -/
theorem reply_absent (hm : msg.target = some id) (hs : s.sessionManager.sessions id = none)
    (env : MsgEnv) (conn : ConnectionState) :
    (handleClientMsg env msg s conn).2.2 = msg.missingReply := by
  have hr : (s.sessionManager.removeRoutes id).sessions id = none := hs
  cases msg <;> cases hm <;>
    simp only [handleClientMsg, AppState.withManager, connect, disconnect, update, delete,
      refreshTmuxState, installAgent, transportUpgrade, SessionManager.get, hs, hr,
      sessionReply, ClientMsg.missingReply, Option.map_none]

/-- An operation on a session that is not in memory changes nothing. -/
theorem manager_absent (h : s.sessionManager.Sound) (hm : msg.target = some id)
    (hs : s.sessionManager.sessions id = none) (env : MsgEnv) (conn : ConnectionState) :
    (handleClientMsg env msg s conn).1.sessionManager = s.sessionManager := by
  have hr := removeRoutes_eq_self h hs
  cases msg <;> cases hm <;>
    simp only [handleClientMsg, AppState.withManager, connect, disconnect, update, delete,
      refreshTmuxState, hs, hr]

/-- A reply of success or another error is not an operation's error. -/
theorem sessionReply_ne {α : Type} {code : Text} {ok : α → ServerMsg} {r : Except Text α}
    {text : Text} (hok : ∀ a, ok a ≠ .error code text) (herr : ∀ e, r = .error e → e ≠ text) :
    some (sessionReply code ok r) ≠ some (.error code text) := by
  intro he
  cases r with
  | ok a => exact hok a (Option.some.inj he)
  | error e =>
    simp only [sessionReply, Option.some.injEq, ServerMsg.error.injEq, true_and] at he
    exact herr e rfl he

theorem installAgent_present {entry : SessionEntry}
    (hs : s.sessionManager.sessions id = some entry) (conn : ConnectionState) :
    (installAgent id s conn).2 ≠ .error "session_not_found".toList (notFound id) := by
  unfold installAgent
  simp only [SessionManager.get, hs, Option.map_some]
  split
  · simp
  · intro h
    injection h with h
    exact absurd h (by decide)

theorem transportUpgrade_present {entry : SessionEntry}
    (hs : s.sessionManager.sessions id = some entry) (env : MsgEnv) (target : Text) :
    transportUpgrade env id target s ≠ .transportUpgradeFailed id "session not found".toList := by
  have hfail : ∀ {text : Text}, text.head? ≠ some 's' →
      ServerMsg.transportUpgradeFailed id text ≠
        .transportUpgradeFailed id "session not found".toList := by
    intro text ht h
    injection h with _ h
    exact ht (h ▸ rfl)
  unfold transportUpgrade
  simp only [SessionManager.get, hs, Option.map_some]
  split
  all_goals first | exact hfail (by decide) | skip
  all_goals
    split
    · exact hfail (by simp)
    · split
      · simp
      · exact hfail (by decide)

/-- **A session in memory shows**: no reply about it is the one about a session
that is not there, whoever asks. -/
theorem reply_present (hm : msg.target = some id) {entry : SessionEntry}
    (hs : s.sessionManager.sessions id = some entry) (env : MsgEnv) (conn : ConnectionState) :
    (handleClientMsg env msg s conn).2.2 ≠ msg.missingReply := by
  cases msg with
  | connectSession =>
    cases hm
    exact sessionReply_ne (by simp) fun e he => connect_error hs he
  | disconnectSession =>
    cases hm
    exact sessionReply_ne (by simp) fun e he => disconnect_error hs he
  | updateSession =>
    cases hm
    exact sessionReply_ne (by simp) fun e he => update_error hs he
  | deleteSession =>
    cases hm
    exact sessionReply_ne (by simp) fun e he => delete_error hs he
  | refreshSession =>
    cases hm
    exact sessionReply_ne (by simp) fun e he => refreshTmuxState_error hs he
  | installAgent =>
    cases hm
    exact fun h => installAgent_present hs conn (Option.some.inj h)
  | transportUpgrade =>
    cases hm
    exact fun h => transportUpgrade_present hs env _ (Option.some.inj h)
  | _ => cases hm

/-! ## Users -/

/-- The operation leaves what is held about the session as it is, and is answered
as if the session did not exist. -/
def Unseen (env : MsgEnv) (msg : ClientMsg) (s : AppState) (conn : ConnectionState) (id : Text) :
    Prop :=
  let r := handleClientMsg env msg s conn
  r.1.sessionManager.view id = s.sessionManager.view id ∧
    r.2.2 = (handleClientMsg env msg { s with sessionManager := s.sessionManager.without id }
      conn).2.2

/-- **When another user's session is isolated**: exactly while it is not in
memory, that is, not loaded since the server started. -/
theorem unseen_iff_not_loaded {κ : Type} [DecidableEq κ] {db : List SessionRow} {s : Server κ}
    (hs : Reachable Server.step (.new db) s) {conn : ConnectionState} {row : SessionRow}
    (_hrow : row ∈ s.app.sessionManager.db) (_howner : row.userId ≠ conn.userId)
    {msg : ClientMsg} (hmsg : msg.target = some row.id.val) (env : MsgEnv) :
    Unseen env msg s.app conn row.id.val ↔ s.app.sessionManager.sessions row.id.val = none := by
  have habsent := reply_absent (s := { s.app with
    sessionManager := s.app.sessionManager.without row.id.val }) hmsg
    (sessions_without _ _) env conn
  constructor
  · intro ⟨_, hr⟩
    cases he : s.app.sessionManager.sessions row.id.val with
    | none => rfl
    | some entry => exact absurd (hr.trans habsent) (reply_present hmsg he env conn)
  · intro hn
    refine ⟨?_, (reply_absent hmsg hn env conn).trans habsent.symm⟩
    rw [manager_absent (Server.reachable_sound hs) hmsg hn]

/-- A session that a user stored in an earlier run. -/
def sampleRow : SessionRow where
  id := uuidA
  userId := "v".toList
  name := "main".toList
  transportConfig := (TransportConfig.ssh "host".toList).toJson
  status := "created".toList
  error := none
  createdAt := 0

/-- Before its owner comes, the session cannot be deleted by another user. -/
theorem unseen_iff_not_loaded_sample :
    Unseen (.working uuidB []) (.deleteSession ['a'])
      (Server.new [sampleRow] : Server Nat).app (.new "u".toList) ['a'] ↔
    (Server.new [sampleRow] : Server Nat).app.sessionManager.sessions ['a'] = none :=
  unseen_iff_not_loaded (reachable_init (Server.new [sampleRow] : Server Nat))
    (List.mem_singleton_self sampleRow) (by decide) rfl _

def sampleServer : Server Nat :=
  (Server.new [sampleRow]).step (.accept 0 "v".toList (MsgEnv.working uuidB []).toEnv)

/-- When its owner is there, it can: the message of another user is answered by
`sess_deleted`. -/
theorem other_user_deletes : ¬ ∀ (db : List SessionRow) (s : Server Nat),
    Reachable Server.step (.new db) s → ∀ (conn : ConnectionState) (row : SessionRow),
    row ∈ s.app.sessionManager.db → row.userId ≠ conn.userId → ∀ msg : ClientMsg,
    msg.target = some row.id.val → ∀ env, Unseen env msg s.app conn row.id.val := by
  intro h
  have hrow : sampleRow ∈ sampleServer.app.sessionManager.db := List.mem_singleton_self sampleRow
  have hloaded : (sampleServer.app.sessionManager.sessions ['a']).isSome = true := by decide +kernel
  obtain ⟨entry, he⟩ := Option.isSome_iff_exists.mp hloaded
  have hu := h [sampleRow] sampleServer ((reachable_init _).next _) (.new "u".toList) sampleRow
    hrow (by decide) (.deleteSession ['a']) rfl (.working uuidB [])
  exact reply_present rfl he _ _ (hu.2.trans (reply_absent rfl (sessions_without _ _) _ _))

end Oxmux.Ws
