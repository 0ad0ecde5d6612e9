import Mathlib.Data.List.Sort
import Mathlib.Logic.Function.Basic
import Oxmux.Session.Transport

/-! `SessionManager` (`server/src/session/manager.rs`) and the session table
(`server/src/db/repo.rs`), one operation after the other. A database write is
numbered by its place in the operation, so that any of them can fail. -/

namespace Oxmux.Session
open Oxmux.Lib

/-- `Uuid::new_v4().to_string()` consists of hexadecimal digits and hyphens. -/
def IsUuid (id : Text) : Prop := id ≠ [] ∧ ':' ∉ id

instance : DecidablePred IsUuid := fun _ => inferInstanceAs (Decidable (_ ∧ _))

abbrev Uuid := { id : Text // IsUuid id }

/-- Two ids, for the sample runs. -/
def uuidA : Uuid := ⟨['a'], by decide⟩

def uuidB : Uuid := ⟨['b'], by decide⟩

structure SessionRow where
  id : Uuid
  userId : Text
  name : Text
  transportConfig : Json
  status : Text
  error : Option Text
  createdAt : Nat

/-- A session that its user `u` stored in an earlier run. -/
def SessionRow.saved (id : Uuid) : SessionRow where
  id
  userId := "u".toList
  name := "main".toList
  transportConfig := (TransportConfig.ssh "host".toList).toJson
  status := "disconnected".toList
  error := none
  createdAt := 0

/-- What the world outside answers during one operation; a connection that is made
has a number. -/
structure Env where
  uuid : Uuid
  now : Nat
  dbRead : Bool
  dbWrite : Nat → Bool
  connection : Nat
  connect : Option ConnectFailure
  listing : Except TransportError (List TmuxSessionInfo)

/-- A world in which everything works; `tree` is what tmux lists. -/
def Env.working (uuid : Uuid) (tree : List TmuxSessionInfo) : Env where
  uuid
  now := 0
  dbRead := true
  dbWrite _ := true
  connection := 0
  connect := none
  listing := .ok tree

structure SessionEntry where
  metadata : ManagedSession
  transport : Transport

structure SessionManager where
  sessions : Text → Option SessionEntry
  paneToSession : Text → Option Text
  db : List SessionRow
  ephemeralKeys : Text → Option (Text × Option Text)

/-! ## The table -/

/-- `row_to_managed_session`. A session that was connected when it was stored is
not connected now; the older format holds the backend alone. -/
def rowToManagedSession (row : SessionRow) : Option ManagedSession :=
  let config := (TransportConfig.ofJson row.transportConfig).or
    ((BackendTransport.ofJson row.transportConfig).map fun backend =>
      { browser := .websocket, backend })
  config.map fun transport =>
    { id := row.id.val
      name := row.name
      transport
      status :=
        if row.status = "created".toList then .created
        else if row.status = "connecting".toList then .connecting
        else if row.status = "connected".toList then .disconnected
        else if row.status = "disconnected".toList then .disconnected
        else if row.status = "error".toList then .error
        else .created
      error := row.error
      tmuxSessions := [] }

/-- `list_sessions_for_user`: newest first. -/
def listSessionsForUser (db : List SessionRow) (userId : Text) : List SessionRow :=
  (db.filter (·.userId = userId)).insertionSort fun a b => b.createdAt ≤ a.createdAt

/-- `UPDATE sessions SET … WHERE id = ?`. -/
def updateRow (id : Text) (f : SessionRow → SessionRow) (db : List SessionRow) : List SessionRow :=
  db.map fun row => if row.id.val = id then f row else row

namespace SessionManager

def new (db : List SessionRow) : SessionManager where
  sessions _ := none
  paneToSession _ := none
  db
  ephemeralKeys _ := none

def updateSessionStatus (ok : Bool) (id : Text) (status : SessionStatus) (error : Option Text)
    (m : SessionManager) : SessionManager :=
  if ok then { m with db := updateRow id (fun r => { r with status := status.show, error }) m.db }
  else m

/-! ## The maps in memory -/

def setEntry (id : Text) (entry : SessionEntry) (m : SessionManager) : SessionManager :=
  { m with sessions := Function.update m.sessions id (some entry) }

/-- `pane_to_session.insert` for every pane of a tree. -/
def insertRoutes (id : Text) (tree : List TmuxSessionInfo) (m : SessionManager) : SessionManager :=
  { m with
    paneToSession :=
      (paneIds tree).foldl (fun r p => Function.update r p (some id)) m.paneToSession }

def removeRoutes (id : Text) (m : SessionManager) : SessionManager :=
  { m with paneToSession := fun p => (m.paneToSession p).filter (· ≠ id) }

/-! ## The operations -/

/-- `session '…' not found`. -/
def notFound (id : Text) : Text := "session '".toList ++ id ++ "' not found".toList

def get (id : Text) (m : SessionManager) : Option ManagedSession := (m.sessions id).map (·.metadata)

def create (env : Env) (userId : Text) (req : CreateSessionRequest) (m : SessionManager) :
    SessionManager × Except Text ManagedSession :=
  let id := env.uuid.val
  if env.dbWrite 0 = true ∧ env.uuid ∉ m.db.map (·.id) then
    let row : SessionRow :=
      { id := env.uuid, userId, name := req.name, transportConfig := req.transport.toJson
        status := "created".toList, error := none, createdAt := env.now }
    let metadata : ManagedSession :=
      { id, name := req.name, transport := req.transport, status := .created, error := none
        tmuxSessions := [] }
    let entry := { metadata, transport := .new req.transport.backend req.name }
    (({ m with db := m.db ++ [row] }).setEntry id entry, .ok metadata)
  else (m, .error "failed to insert session".toList)

/-- One row of `load_user_sessions`: a session that is in memory stays. -/
def loadRow (metadata : ManagedSession) (m : SessionManager) : SessionManager × ManagedSession :=
  match m.sessions metadata.id with
  | some entry => (m, entry.metadata)
  | none =>
    let transport := .new metadata.transport.backend metadata.name
    (m.setEntry metadata.id { metadata, transport }, metadata)

/-- The loop of `load_user_sessions`; a row that cannot be read ends it. -/
def loadRows : List SessionRow → SessionManager → SessionManager × Except Text (List ManagedSession)
  | [], m => (m, .ok [])
  | row :: rows, m =>
    match rowToManagedSession row with
    | none => (m, .error "failed to deserialize transport_config".toList)
    | some metadata =>
      let r := loadRow metadata m
      let rs := loadRows rows r.1
      (rs.1, rs.2.map (r.2 :: ·))

def loadUserSessions (env : Env) (userId : Text) (m : SessionManager) :
    SessionManager × Except Text (List ManagedSession) :=
  if env.dbRead then loadRows (listSessionsForUser m.db userId) m
  else (m, .error "failed to list sessions".toList)

/-- `update`. The name in memory changes before the write. -/
def update (env : Env) (id : Text) (req : UpdateSessionRequest) (m : SessionManager) :
    SessionManager × Except Text ManagedSession :=
  match m.sessions id with
  | none => (m, .error (notFound id))
  | some entry =>
    match req.name with
    | none => (m, .ok entry.metadata)
    | some name =>
      let metadata := { entry.metadata with name }
      let m := m.setEntry id { entry with metadata }
      if env.dbWrite 0 then
        ({ m with db := updateRow id (fun r => { r with name }) m.db }, .ok metadata)
      else (m, .error "failed to update session name".toList)

/-- The ephemeral key that a session's configuration uses. -/
def uploadedKeyId (metadata : ManagedSession) : Option Text :=
  match metadata.transport.backend with
  | .ssh _ _ _ (.uploadedKey keyId _) => some keyId
  | _ => none

def delete (env : Env) (id : Text) (m : SessionManager) :
    SessionManager × Except Text ManagedSession :=
  let m := m.removeRoutes id
  match m.sessions id with
  | none => (m, .error (notFound id))
  | some entry =>
    let m := { m with
      sessions := Function.update m.sessions id none
      ephemeralKeys := match uploadedKeyId entry.metadata with
        | some keyId => Function.update m.ephemeralKeys keyId none
        | none => m.ephemeralKeys }
    if env.dbWrite 0 then ({ m with db := m.db.filter (·.id.val ≠ id) }, .ok entry.metadata)
    else (m, .error "failed to delete session".toList)

/-- `connect`. A listing that fails counts as empty. -/
def connect (env : Env) (id : Text) (m : SessionManager) :
    SessionManager × Except Text ManagedSession :=
  match m.sessions id with
  | none => (m, .error (notFound id))
  | some entry =>
    let m := m.updateSessionStatus (env.dbWrite 0) id .connecting none
    let transport := entry.transport.connect env.connection env.connect
    match env.connect with
    | none =>
      let tmuxSessions := (transport.listTmuxSessions env.listing).toOption.getD []
      let metadata := { entry.metadata with status := .connected, error := none, tmuxSessions }
      let m := (m.insertRoutes id tmuxSessions).setEntry id { metadata, transport }
      (m.updateSessionStatus (env.dbWrite 1) id .connected none, .ok metadata)
    | some failure =>
      let errMsg := failure.error.text
      let metadata := { entry.metadata with status := .error, error := some errMsg }
      let m := m.setEntry id { metadata, transport }
      (m.updateSessionStatus (env.dbWrite 1) id .error (some errMsg), .error errMsg)

/-- `disconnect`. The routes go before the session is looked up. -/
def disconnect (env : Env) (id : Text) (m : SessionManager) :
    SessionManager × Except Text ManagedSession :=
  let m := m.removeRoutes id
  match m.sessions id with
  | none => (m, .error (notFound id))
  | some entry =>
    let metadata := { entry.metadata with status := .disconnected, tmuxSessions := [] }
    let m := m.setEntry id { metadata, transport := entry.transport.disconnect }
    (m.updateSessionStatus (env.dbWrite 0) id .disconnected none, .ok metadata)

/-- `refresh_tmux_state`. Routes of panes that are gone stay. -/
def refreshTmuxState (env : Env) (id : Text) (m : SessionManager) :
    SessionManager × Except Text ManagedSession :=
  match m.sessions id with
  | none => (m, .error (notFound id))
  | some entry =>
    match entry.transport.listTmuxSessions env.listing with
    | .error e => (m, .error e.text)
    | .ok tmuxSessions =>
      let metadata := { entry.metadata with tmuxSessions }
      ((m.insertRoutes id tmuxSessions).setEntry id { entry with metadata }, .ok metadata)

/-- `ephemeral_keys.insert`, at the end of an upload. -/
def insertEphemeralKey (keyId : Uuid) (key : Text) (passphrase : Option Text)
    (m : SessionManager) : SessionManager :=
  { m with ephemeralKeys := Function.update m.ephemeralKeys keyId.val (some (key, passphrase)) }

def commandPane : Command → Text
  | .input pane _ => pane
  | .resize pane _ _ => pane

/-- `send_input_to_pane` and `resize_pane`: the pane's route decides which
transport executes the command. -/
def executeOnPane (cmd : Command) (m : SessionManager) : SessionManager × Except Text Unit :=
  match m.paneToSession (commandPane cmd) with
  | none => (m, .error ("no session owns pane '".toList ++ commandPane cmd ++ "'".toList))
  | some sessionId =>
    match m.sessions sessionId with
    | none => (m, .error (notFound sessionId))
    | some entry =>
      match entry.transport.execute cmd with
      | .ok transport => (m.setEntry sessionId { entry with transport }, .ok ())
      | .error e => (m, .error e)

end SessionManager

end Oxmux.Session
