import Oxmux.Lib.Erasure
import Oxmux.Session.Secrets
import Oxmux.Ws.Server

/-! The server with its clients, without the contents of passwords and
passphrases. Every step works on what is left as on the whole, so that no reply
of a run tells what they are. -/

namespace Oxmux.Ws
open Oxmux.Lib Oxmux.Lib.Runs Oxmux.Session

def AppState.blank (s : AppState) : AppState := { s with sessionManager := s.sessionManager.blank }

def Deployment.blank (d : Deployment) : Deployment := { d with auth := d.auth.blank }

def ConnectionState.blank (conn : ConnectionState) : ConnectionState :=
  { conn with deployments := conn.deployments.map Deployment.blank }

/-- Of all messages only a request for a new session has secrets. -/
def ClientMsg.blank : ClientMsg → ClientMsg
  | createSession req => createSession req.blank
  | msg => msg

/-! ## One message -/

/-- An operation of the session manager that works on what is left; `g` is what
happens to its result. -/
theorem AppState.blank_withManager {α : Type} {g : α → α}
    {op op' : SessionManager → SessionManager × Except Text α}
    (hop : ∀ m, op' m.blank = ((op m).1.blank, (op m).2.map g)) (s : AppState) :
    s.blank.withManager op' = ((s.withManager op).1.blank, (s.withManager op).2.map g) := by
  have h : op' s.blank.sessionManager = _ := hop s.sessionManager
  rw [withManager, h]
  rfl

theorem sessionReply_map {α : Type} {g : α → α} {ok : α → ServerMsg} (hok : ∀ a, ok (g a) = ok a)
    (code : Text) (r : Except Text α) :
    sessionReply code ok (r.map g) = sessionReply code ok r := by
  cases r with
  | error e => rfl
  | ok a => exact hok a

/-- The arm of a session operation: the state behind it, and the reply. -/
theorem blank_sessionArm {α : Type} {g : α → α}
    {op op' : SessionManager → SessionManager × Except Text α}
    (hop : ∀ m, op' m.blank = ((op m).1.blank, (op m).2.map g)) {ok : α → ServerMsg}
    (hok : ∀ a, ok (g a) = ok a) (code : Text) (s : AppState) (conn : ConnectionState) :
    ((s.blank.withManager op').1, conn.blank,
        some (sessionReply code ok (s.blank.withManager op').2)) =
      ((s.withManager op).1.blank, conn.blank,
        some (sessionReply code ok (s.withManager op).2)) := by
  rw [AppState.blank_withManager hop, sessionReply_map hok]

theorem AppState.blank_executeOnPane (cmd : Command) (s : AppState) :
    (s.blank.withManager (·.executeOnPane cmd)).1 =
      (s.withManager (·.executeOnPane cmd)).1.blank := by
  unfold withManager
  exact congrArg (fun m => { s with sessionManager := m })
    (congrArg Prod.fst (SessionManager.blank_executeOnPane cmd s.sessionManager))

theorem AppState.get_blank (id : Text) (s : AppState) :
    s.blank.sessionManager.get id = (s.sessionManager.get id).map ManagedSession.blank := by
  simp only [blank, SessionManager.get, SessionManager.blank, Option.map_map]
  rfl

theorem blank_installAgent (id : Text) (s : AppState) (conn : ConnectionState) :
    installAgent id s.blank conn.blank =
      ((installAgent id s conn).1.blank, (installAgent id s conn).2) := by
  simp only [installAgent, AppState.get_blank]
  cases s.sessionManager.get id with
  | none => rfl
  | some session =>
    obtain ⟨id, name, ⟨browser, backend⟩, status, error, tmuxSessions⟩ := session
    cases backend with
    | ssh host port user auth =>
      refine Prod.ext ?_ rfl
      simp only [ConnectionState.blank, List.map_append]
      rfl
    | _ => rfl

theorem transportUpgrade_blank (env : MsgEnv) (id target : Text) (s : AppState) :
    transportUpgrade env id target s.blank = transportUpgrade env id target s := by
  simp only [transportUpgrade, AppState.get_blank]
  cases s.sessionManager.get id with
  | none => rfl
  | some session =>
    obtain ⟨id, name, ⟨browser, backend⟩, status, error, tmuxSessions⟩ := session
    cases backend <;> rfl

/-- **A message handled without the secrets** has the same reply. -/
theorem handleClientMsg_blank (env : MsgEnv) (msg : ClientMsg) (s : AppState)
    (conn : ConnectionState) :
    handleClientMsg env msg.blank s.blank conn.blank =
      ((handleClientMsg env msg s conn).1.blank, (handleClientMsg env msg s conn).2.1.blank,
        (handleClientMsg env msg s conn).2.2) := by
  cases msg with
  | subscribe pane sessionId =>
    have hs : s.blank.paneOutputs pane = s.paneOutputs pane := rfl
    simp only [ClientMsg.blank, handleClientMsg, AppState.getOrCreatePaneChannel, hs]
    cases s.paneOutputs pane <;> rfl
  | input pane data sessionId =>
    exact Prod.ext (AppState.blank_executeOnPane (.input pane data) s) rfl
  | resize pane cols rows sessionId =>
    exact Prod.ext (AppState.blank_executeOnPane (.resize pane cols rows) s) rfl
  | createSession req =>
    exact blank_sessionArm (fun m => m.blank_create env.toEnv conn.userId req)
      (fun session => by rw [session.sanitized_blank]) _ s conn
  | listSessions =>
    refine blank_sessionArm (fun m => m.blank_loadUserSessions env.toEnv conn.userId)
      (fun sessions => ?_) _ s conn
    simp only [List.map_map, Function.comp_def, ManagedSession.sanitized_blank]
  | connectSession id =>
    exact blank_sessionArm (fun m => m.blank_connect env.toEnv id)
      (fun session => by rw [session.sanitized_blank]) _ s conn
  | disconnectSession id =>
    exact blank_sessionArm (fun m => m.blank_disconnect env.toEnv id)
      (fun session => by rw [session.sanitized_blank]) _ s conn
  | updateSession id request =>
    exact blank_sessionArm (fun m => m.blank_update env.toEnv id request)
      (fun session => by rw [session.sanitized_blank]) _ s conn
  | deleteSession id =>
    exact blank_sessionArm (fun m => m.blank_delete env.toEnv id) (fun _ => rfl) _ s conn
  | refreshSession id =>
    exact blank_sessionArm (fun m => m.blank_refreshTmuxState env.toEnv id)
      (fun session => by rw [session.sanitized_blank]) _ s conn
  | installAgent id =>
    simp only [ClientMsg.blank, handleClientMsg, blank_installAgent]
  | transportUpgrade id target =>
    simp only [ClientMsg.blank, handleClientMsg, transportUpgrade_blank]
  | _ => rfl

/-! ## The server -/

variable {κ : Type} [DecidableEq κ]

/-- Uploaded keys are dropped with the configurations' secrets. -/
def Input.blank : Input κ → Input κ
  | message c msg env => message c msg.blank env
  | deployStatus c deployment status agentId version quicPort =>
    deployStatus c deployment.blank status agentId version quicPort
  | uploadKey keyId _ _ => uploadKey keyId [] none
  | i => i

namespace Server

/-- What was sent and the uploaded keys do not decide the next reply. -/
def forget (s : Server κ) : Server κ where
  app := { s.app with
    sessionManager := { s.app.sessionManager with ephemeralKeys := fun _ => none } }
  clients := s.clients
  outbox _ := []

def blank (s : Server κ) : Server κ where
  app := s.app.blank
  clients c := (s.clients c).map ConnectionState.blank
  outbox _ := []

def reply (s : Server κ) : Input κ → Option ServerMsg
  | .message c msg env => (s.clients c).bind fun conn => (handleClientMsg env msg s.app conn).2.2
  | _ => none

/-- A step that changes the state of one connection. -/
theorem blank_mk (app : AppState) (c : κ) (conn : Option ConnectionState)
    (outbox : κ → List ServerMsg) (s : Server κ) :
    (mk app (Function.update s.clients c conn) outbox).blank =
      { app := app.blank
        clients := Function.update s.blank.clients c (conn.map ConnectionState.blank)
        outbox := fun _ => [] } := by
  simp only [blank, mk.injEq, and_true, true_and]
  funext c'
  by_cases h : c' = c
  · subst h
    simp
  · simp [h]

theorem connected_blank (r : Except Text (List ManagedSession)) :
    connected (r.map (List.map ManagedSession.blank)) =
      (connected r).map ManagedSession.blank := by
  cases r with
  | error e => rfl
  | ok sessions =>
    simp only [connected, Except.map, List.filter_map]
    rfl

theorem blank_disconnects (envs : Text → Session.Env) (sessions : List ManagedSession)
    (app : AppState) :
    (sessions.map ManagedSession.blank).foldl (fun app session =>
        (app.withManager (·.disconnect (envs session.id) session.id)).1) app.blank =
      (sessions.foldl (fun app session =>
        (app.withManager (·.disconnect (envs session.id) session.id)).1) app).blank := by
  induction sessions generalizing app with
  | nil => rfl
  | cons session sessions ih =>
    have h := AppState.blank_withManager
      (fun m => m.blank_disconnect (envs session.id) session.id) app
    rw [List.map_cons, List.foldl_cons, List.foldl_cons, ← ih]
    exact congrArg (fun r : AppState × Except Text ManagedSession =>
      (sessions.map ManagedSession.blank).foldl _ r.1) h

theorem blank_accept (c : κ) (userId : Text) (env : Session.Env) (s : Server κ) :
    (s.accept c userId env).blank = (s.blank.accept c userId env).forget := by
  have hload := AppState.blank_withManager (fun m => m.blank_loadUserSessions env userId) s.app
  refine (blank_mk _ _ _ _ s).trans ?_
  simp only [accept, send, forget, mk.injEq, and_true]
  rw [show s.blank.app = s.app.blank from rfl, hload]
  exact ⟨rfl, rfl⟩

theorem blank_message (c : κ) (msg : ClientMsg) (env : MsgEnv) (conn : ConnectionState)
    (s : Server κ) :
    (s.message c msg env conn).blank = (s.blank.message c msg.blank env conn.blank).forget := by
  have h := handleClientMsg_blank env msg s.app conn
  refine (blank_mk _ _ _ _ s).trans ?_
  simp only [message, send, forget, mk.injEq, and_true]
  rw [show s.blank.app = s.app.blank from rfl, h]
  exact ⟨rfl, rfl⟩

theorem blank_close (c : κ) (envs : Text → Session.Env) (conn : ConnectionState) (s : Server κ) :
    (s.close c envs conn).blank = (s.blank.close c envs conn.blank).forget := by
  have hload := AppState.blank_withManager
    (fun m => m.blank_loadUserSessions (envs []) conn.userId) s.app
  refine (blank_mk _ _ _ _ s).trans ?_
  simp only [close, forget, mk.injEq, and_true]
  refine ⟨?_, rfl⟩
  rw [show s.blank.app = s.app.blank from rfl, show conn.blank.userId = conn.userId from rfl,
    hload, connected_blank, blank_disconnects]
  rfl

omit [DecidableEq κ] in
theorem blank_elim {turn turn' : ConnectionState → Server κ}
    (h : ∀ conn, (turn conn).blank = (turn' conn.blank).forget) (s : Server κ) (c : κ) :
    ((s.clients c).elim s turn).blank = ((s.blank.clients c).elim s.blank turn').forget := by
  have hc : s.blank.clients c = (s.clients c).map ConnectionState.blank := rfl
  rw [hc]
  cases s.clients c with
  | none => rfl
  | some conn => exact h conn

/-- **Every step works on what is left.** -/
theorem blank_step (s : Server κ) (i : Input κ) :
    (s.step i).blank = (s.blank.step i.blank).forget := by
  cases i with
  | accept c userId env =>
    have hnone : (s.blank.clients c).isNone = (s.clients c).isNone := Option.isNone_map
    simp only [Input.blank, step, hnone]
    split
    · exact s.blank_accept c userId env
    · rfl
  | message c msg env => exact blank_elim (fun conn => s.blank_message c msg env conn) s c
  | drain c => exact blank_elim (fun conn => blank_mk _ _ _ _ s) s c
  | close c envs => exact blank_elim (fun conn => s.blank_close c envs conn) s c
  | leave c => exact blank_mk _ _ _ _ s
  | output sessionId pane data =>
    have htask : ((s.blank.app.sessionManager.sessions sessionId).bind (·.transport.readerTask)) =
        ((s.app.sessionManager.sessions sessionId).bind (·.transport.readerTask)) :=
      Option.bind_map
    simp only [Input.blank, step, htask]
    split
    · have hs : s.blank.app.paneOutputs pane = s.app.paneOutputs pane := rfl
      simp only [AppState.publish, AppState.getOrCreatePaneChannel, hs]
      cases s.app.paneOutputs pane <;> rfl
    · rfl
  | deployStatus c deployment status agentId version quicPort =>
    -- Whether it is sent may depend on the secrets of a deployment, but not the state.
    have hsent : ∀ (p : Prop) [Decidable p] (t : Server κ) (msgs : List ServerMsg),
        (if p then t.send c msgs else t).forget = t.forget := by
      intro p _ t msgs
      split <;> rfl
    simp only [Input.blank, step]
    split <;> exact (hsent _ s.blank _).symm
  | registerAgent agent => rfl
  | uploadKey keyId key passphrase => rfl

omit [DecidableEq κ] in
theorem reply_blank (s : Server κ) (i : Input κ) : s.reply i = s.blank.reply i.blank := by
  cases i with
  | message c msg env =>
    have hconn : s.blank.clients c = (s.clients c).map ConnectionState.blank := rfl
    simp only [Input.blank, reply, hconn]
    cases s.clients c with
    | none => rfl
    | some conn =>
      exact (congrArg (·.2.2) (handleClientMsg_blank env msg s.app conn)).symm
  | _ => rfl

/-- No step and no reply depends on a password or a passphrase. -/
theorem erases_blank : Erases (step (κ := κ)) reply (fun s i => (s.step i).forget) reply blank
    Input.blank := ⟨blank_step, reply_blank⟩

/-- **Replies do not depend on secrets.** Two servers in states that are equal but
for the contents of passwords and passphrases, and that get the same inputs but
for these, reply with the same messages. -/
theorem replies_eq {s s' : Server κ} {inputs inputs' : List (Input κ)} (hs : s.blank = s'.blank)
    (hi : inputs.map Input.blank = inputs'.map Input.blank) :
    outputs step reply s inputs = outputs step reply s' inputs' := erases_blank.outputs_eq hs hi

def rowWith (password : Text) : SessionRow where
  id := uuidA
  userId := ['u']
  name := []
  transportConfig := TransportConfig.toJson
    { browser := .websocket, backend := .ssh ['h'] 22 ['r'] (.password password) }
  status := "created".toList
  error := none
  createdAt := 0

/-- A user lists the sessions, and makes and connects another with this
passphrase. -/
def inputsWith (passphrase : Text) : List (Input Unit) :=
  [.accept () ['u'] (.working uuidB []), .message () .listSessions (.working uuidB []),
    .message () (.createSession
      { name := ['n']
        transport :=
          { browser := .websocket
            backend := .ssh ['h'] 22 ['r'] (.privateKey ['k'] (some passphrase)) } })
      (.working uuidB []),
    .message () (.connectSession uuidB.val) (.working uuidB [])]

theorem replies_eq_sample :
    outputs step reply (new [rowWith ['p']]) (inputsWith ['q']) =
      outputs step reply (new [rowWith []]) (inputsWith ['r', 's']) :=
  replies_eq rfl rfl

end Server

end Oxmux.Ws
