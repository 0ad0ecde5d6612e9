import Oxmux.Lib.Runs
import Oxmux.Session.ManagerOps
import Oxmux.Ws.SessionHandler

/-! The server with all its client connections (`server/src/ws/handler.rs`). One
step is one turn of a connection's loop, one output event of a session's reader
task, or one request or background task that changes the shared state. An
operation of the session manager is one step. -/

namespace Oxmux.Ws
open Oxmux.Lib Oxmux.Lib.Runs Oxmux.Session

variable {κ : Type} [DecidableEq κ]

/-- The server, with what it sent to each of its connections, which are told apart
by `κ`. -/
structure Server (κ : Type) where
  app : AppState
  clients : κ → Option ConnectionState
  outbox : κ → List ServerMsg

/-- Nothing is cleaned up when a WebTransport client leaves. -/
inductive Input (κ : Type) where
  | accept (c : κ) (userId : Text) (env : Session.Env)
  | message (c : κ) (msg : ClientMsg) (env : MsgEnv)
  | drain (c : κ)
  | close (c : κ) (envs : Text → Session.Env)
  | leave (c : κ)
  | output (sessionId pane : Text) (data : Bytes)
  | deployStatus (c : κ) (deployment : Deployment) (status : Text) (agentId version : Option Text)
      (quicPort : Option Nat)
  | registerAgent (agent : AgentInfo)
  | uploadKey (keyId : Uuid) (key : Text) (passphrase : Option Text)

namespace Server

/-- The server after its start; the table is what earlier runs left. -/
def new (db : List SessionRow) : Server κ where
  app := .new db
  clients _ := none
  outbox _ := []

def send (c : κ) (msgs : List ServerMsg) (s : Server κ) : Server κ :=
  { s with outbox := Function.update s.outbox c (s.outbox c ++ msgs) }

/-- The start of `handle_socket`. -/
def accept (c : κ) (userId : Text) (env : Session.Env) (s : Server κ) : Server κ :=
  let r := s.app.withManager (·.loadUserSessions env userId)
  let msgs : List ServerMsg := match r.2 with
    | .ok sessions => [.sessionList (sessions.map (·.sanitized))]
    | .error _ => []
  { s with app := r.1, clients := Function.update s.clients c (some (.new userId)) }.send c msgs

def message (c : κ) (msg : ClientMsg) (env : MsgEnv) (conn : ConnectionState) (s : Server κ) :
    Server κ :=
  let r := handleClientMsg env msg s.app conn
  { s with app := r.1, clients := Function.update s.clients c (some r.2.1) }.send c r.2.2.toList

/-- The start of a turn: pending output is sent. -/
def drain (c : κ) (conn : ConnectionState) (s : Server κ) : Server κ :=
  let r := drainPaneOutputs s.app conn
  { s with clients := Function.update s.clients c (some r.1) }.send c r.2

/-- The sessions that are connected among those that were loaded. -/
def connected : Except Text (List ManagedSession) → List ManagedSession
  | .ok sessions => sessions.filter fun session => session.status = .connected
  | .error _ => []

/-- The end of `handle_socket`: the user's connected sessions are disconnected. -/
def close (c : κ) (envs : Text → Session.Env) (conn : ConnectionState) (s : Server κ) : Server κ :=
  let r := s.app.withManager (·.loadUserSessions (envs []) conn.userId)
  { s with
    app := (connected r.2).foldl (fun app session =>
      (app.withManager (·.disconnect (envs session.id) session.id)).1) r.1
    clients := Function.update s.clients c none }

/-- One step. What a connection that is not there would do does not happen, and
only a session whose reader task runs has output. -/
def step (s : Server κ) : Input κ → Server κ
  | .accept c userId env => if (s.clients c).isNone then s.accept c userId env else s
  | .message c msg env => (s.clients c).elim s fun conn => s.message c msg env conn
  | .drain c => (s.clients c).elim s fun conn => s.drain c conn
  | .close c envs => (s.clients c).elim s fun conn => s.close c envs conn
  | .leave c => { s with clients := Function.update s.clients c none }
  | .output sessionId pane data =>
    if ((s.app.sessionManager.sessions sessionId).bind (·.transport.readerTask)).isSome then
      { s with app := s.app.publish sessionId pane data }
    else s
  | .deployStatus c deployment status agentId version quicPort =>
    if (s.clients c).any fun conn => deployment ∈ conn.deployments then
      s.send c [.agentStatus deployment.sessionId deployment.host status agentId version quicPort]
    else s
  | .registerAgent agent =>
    { s with app := { s.app with agentRegistry := s.app.agentRegistry.register agent } }
  | .uploadKey keyId key passphrase =>
    { s with app := { s.app with
      sessionManager := s.app.sessionManager.insertEphemeralKey keyId key passphrase } }

end Server

/-! ## The session manager's part in a step -/

/-- The operation that a message runs. -/
def ClientMsg.ops (env : Session.Env) (userId : Text) : ClientMsg → List Op
  | .input pane data _ => [.execute (.input pane data)]
  | .resize pane cols rows _ => [.execute (.resize pane cols rows)]
  | .createSession req => [.create env userId req]
  | .listSessions => [.load env userId]
  | .connectSession id => [.connect env id]
  | .disconnectSession id => [.disconnect env id]
  | .updateSession id req => [.update env id req]
  | .deleteSession id => [.delete env id]
  | .refreshSession id => [.refresh env id]
  | _ => []

/-- The operations that a step runs, one after the other. -/
def Server.ops (s : Server κ) : Input κ → List Op
  | .accept c userId env => if (s.clients c).isNone then [.load env userId] else []
  | .message c msg env => (s.clients c).elim [] fun conn => msg.ops env.toEnv conn.userId
  | .close c envs => (s.clients c).elim [] fun conn =>
    .load (envs []) conn.userId ::
      (connected (s.app.sessionManager.loadUserSessions (envs []) conn.userId).2).map
        fun session => .disconnect (envs session.id) session.id
  | .uploadKey keyId key passphrase => [.uploadKey keyId key passphrase]
  | _ => []

theorem handleClientMsg_manager (env : MsgEnv) (msg : ClientMsg) (s : AppState)
    (conn : ConnectionState) :
    (handleClientMsg env msg s conn).1.sessionManager =
      (msg.ops env.toEnv conn.userId).foldl SessionManager.apply s.sessionManager := by
  cases msg with
  | subscribe pane sessionId =>
    simp only [handleClientMsg, AppState.getOrCreatePaneChannel]
    split <;> rfl
  | _ => rfl

/-- **A step runs its operations**, and the session manager changes in no other
way. -/
theorem Server.step_manager (s : Server κ) (i : Input κ) :
    (s.step i).app.sessionManager = (s.ops i).foldl SessionManager.apply s.app.sessionManager := by
  cases i with
  | accept c userId env =>
    simp only [step, ops]
    split <;> rfl
  | message c msg env =>
    simp only [step, ops]
    cases s.clients c with
    | none => rfl
    | some conn => exact handleClientMsg_manager env msg s.app conn
  | drain c =>
    simp only [step, ops]
    cases s.clients c <;> rfl
  | close c envs =>
    simp only [step, ops]
    cases s.clients c with
    | none => rfl
    | some conn =>
      simp only [Option.elim_some, close, AppState.withManager, List.foldl_cons, List.foldl_map]
      generalize connected _ = sessions
      suffices h : ∀ app : AppState, (sessions.foldl (fun app session =>
          ({ app with sessionManager := (app.sessionManager.disconnect (envs session.id)
            session.id).1 } : AppState)) app).sessionManager =
          sessions.foldl (fun m session => m.apply (.disconnect (envs session.id) session.id))
            app.sessionManager from h _
      induction sessions with
      | nil => exact fun _ => rfl
      | cons session sessions ih => exact fun app => ih _
  | leave c => rfl
  | output sessionId pane data =>
    simp only [step, ops, AppState.publish, AppState.getOrCreatePaneChannel]
    split
    · split <;> rfl
    · rfl
  | deployStatus c deployment status agentId version quicPort =>
    simp only [step, ops]
    split <;> rfl
  | registerAgent agent => rfl
  | uploadKey keyId key passphrase => rfl

/-- The session manager's invariant holds in every reachable state. -/
theorem Server.sound_step {s : Server κ} (h : s.app.sessionManager.Sound) (i : Input κ) :
    (s.step i).app.sessionManager.Sound := by
  rw [step_manager]
  generalize s.ops i = ops
  generalize s.app.sessionManager = m at h
  induction ops generalizing m with
  | nil => exact h
  | cons op ops ih => exact ih _ (h.apply op)

theorem Server.reachable_sound {db : List SessionRow} {s : Server κ}
    (h : Reachable step (new db) s) : s.app.sessionManager.Sound :=
  h.invariant (P := fun s => s.app.sessionManager.Sound) (SessionManager.sound_new db)
    fun _ i hs => sound_step hs i

end Oxmux.Ws
