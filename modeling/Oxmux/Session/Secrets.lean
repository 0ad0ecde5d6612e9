import Oxmux.Session.Manager

/-! Sessions without the contents of their passwords and passphrases, in memory
and in the stored form. Every operation of the session manager works on what is
left as it does on the whole. -/

namespace Oxmux.Session
open Oxmux.Lib

/-! ## Blanking -/

def SshAuthConfig.blank : SshAuthConfig → SshAuthConfig
  | agent => agent
  | password _ => password []
  | privateKey path passphrase => privateKey path (passphrase.map fun _ => [])
  | uploadedKey keyId passphrase => uploadedKey keyId (passphrase.map fun _ => [])

def BackendTransport.blank : BackendTransport → BackendTransport
  | ssh host port user auth => ssh host port user auth.blank
  | b => b

def TransportConfig.blank (c : TransportConfig) : TransportConfig :=
  { c with backend := c.backend.blank }

def ManagedSession.blank (s : ManagedSession) : ManagedSession :=
  { s with transport := s.transport.blank }

def CreateSessionRequest.blank (req : CreateSessionRequest) : CreateSessionRequest :=
  { req with transport := req.transport.blank }

def Transport.blank (t : Transport) : Transport := { t with backend := t.backend.blank }

namespace Json

def blankStr : Json → Json
  | str _ => str []
  | j => j

/-- A change of the fields with this key. -/
def mapField (key : Text) (f : Json → Json) : Json → Json
  | obj fields => obj (fields.map fun e => if e.1 = key then (e.1, f e.2) else e)
  | j => j

def blankAuth (j : Json) : Json :=
  (j.mapField "password".toList blankStr).mapField "passphrase".toList blankStr

def blankBackend (j : Json) : Json := j.mapField "auth".toList blankAuth

/-- A stored transport configuration, also in the older format, which is that of
a backend. -/
def blankConfig (j : Json) : Json := (j.mapField "backend".toList blankBackend).blankBackend

end Json

open Json

def SessionRow.blank (row : SessionRow) : SessionRow :=
  { row with transportConfig := row.transportConfig.blankConfig }

def SessionEntry.blank (e : SessionEntry) : SessionEntry where
  metadata := e.metadata.blank
  transport := e.transport.blank

/-- Uploaded keys are no part of any configuration; they are dropped whole. -/
def SessionManager.blank (m : SessionManager) : SessionManager where
  sessions id := (m.sessions id).map SessionEntry.blank
  paneToSession := m.paneToSession
  db := m.db.map SessionRow.blank
  ephemeralKeys _ := none

/-! ## The stored form -/

theorem field_mapField (key key' : Text) (f : Json → Json) (j : Json) :
    (j.mapField key f).field key' =
      if key' = key then (j.field key').map f else j.field key' := by
  cases j with
  | obj fields =>
    simp only [mapField, field]
    induction fields with
    | nil => simp
    | cons e fields ih =>
      obtain ⟨k, v⟩ := e
      rw [List.map_cons]
      by_cases hk : key' = k
      · subst hk
        split <;> simp_all
      · have hk' : (key' == k) = false := beq_eq_false_iff_ne.mpr hk
        simp only [List.lookup_cons, hk']
        split <;> simp only [List.lookup_cons, hk', ih]
  | _ => simp [mapField, field]

theorem asStr_blankStr (j : Json) : j.blankStr.asStr = j.asStr.map fun _ => [] := by
  cases j <;> rfl

theorem asOptStr_blankStr (j : Json) :
    j.blankStr.asOptStr = j.asOptStr.map (Option.map fun _ => []) := by
  cases j <;> rfl

theorem field_blankAuth_of_ne {key : Text} (h : key ≠ "password".toList)
    (h' : key ≠ "passphrase".toList) (j : Json) : j.blankAuth.field key = j.field key := by
  rw [blankAuth, field_mapField, if_neg h', field_mapField, if_neg h]

theorem field_password (j : Json) : j.blankAuth.field "password".toList =
    (j.field "password".toList).map blankStr := by
  rw [blankAuth, field_mapField, if_neg (by decide), field_mapField, if_pos rfl]

theorem field_passphrase (j : Json) : j.blankAuth.field "passphrase".toList =
    (j.field "passphrase".toList).map blankStr := by
  rw [blankAuth, field_mapField, if_pos rfl, field_mapField, if_neg (by decide)]

theorem passphrase_blankAuth (j : Json) : j.blankAuth.fieldOr "passphrase".toList none asOptStr =
    (j.fieldOr "passphrase".toList none asOptStr).map (Option.map fun _ => []) := by
  rw [fieldOr, fieldOr, field_passphrase]
  cases j.field "passphrase".toList with
  | none => rfl
  | some v => exact asOptStr_blankStr v

theorem field_blankConfig_of_ne {key : Text} (h : key ≠ "auth".toList)
    (h' : key ≠ "backend".toList) (j : Json) : j.blankConfig.field key = j.field key := by
  rw [blankConfig, blankBackend, field_mapField, if_neg h, field_mapField, if_neg h']

/-- **Reading a stored auth method** without its secrets. -/
theorem SshAuthConfig.ofJson_blankAuth (j : Json) :
    SshAuthConfig.ofJson j.blankAuth = (SshAuthConfig.ofJson j).map blank := by
  have hpassword : (j.blankAuth.field "password".toList).bind asStr =
      ((j.field "password".toList).bind asStr).map fun _ => [] := by
    rw [field_password]
    cases j.field "password".toList with
    | none => rfl
    | some v => exact asStr_blankStr v
  unfold ofJson
  rw [field_blankAuth_of_ne (by decide) (by decide), hpassword, passphrase_blankAuth,
    field_blankAuth_of_ne (by decide) (by decide), field_blankAuth_of_ne (by decide) (by decide)]
  cases (j.field "method".toList).bind asStr with
  | none => rfl
  | some method =>
    simp only [Option.bind_eq_bind, Option.bind_some]
    split_ifs
    · rfl
    · cases (j.field "password".toList).bind asStr <;> rfl
    · cases (j.field "path".toList).bind asStr <;>
        cases j.fieldOr "passphrase".toList none asOptStr <;> rfl
    · cases (j.field "key_id".toList).bind asStr <;>
        cases j.fieldOr "passphrase".toList none asOptStr <;> rfl
    · rfl

/-- Reading a backend whose auth method alone has changed. -/
theorem BackendTransport.ofJson_of_auth {j j' : Json}
    (h : ∀ key, key ≠ "auth".toList → key ≠ "backend".toList → j'.field key = j.field key)
    (ha : j'.field "auth".toList = (j.field "auth".toList).map blankAuth) :
    BackendTransport.ofJson j' = (BackendTransport.ofJson j).map blank := by
  have hauth : j'.fieldOr "auth".toList .agent SshAuthConfig.ofJson =
      (j.fieldOr "auth".toList .agent SshAuthConfig.ofJson).map SshAuthConfig.blank := by
    rw [fieldOr, fieldOr, ha]
    cases j.field "auth".toList with
    | none => rfl
    | some v => exact SshAuthConfig.ofJson_blankAuth v
  have hor {α : Type} (key : Text) (hk : key ≠ "auth".toList) (hk' : key ≠ "backend".toList)
      (default : α) (read : Json → Option α) :
      j'.fieldOr key default read = j.fieldOr key default read := by
    rw [fieldOr, fieldOr, h key hk hk']
  unfold ofJson
  rw [h "type".toList (by decide) (by decide), h "host".toList (by decide) (by decide),
    h "user".toList (by decide) (by decide), hor "port".toList (by decide) (by decide),
    hor "port".toList (by decide) (by decide), hor "agent_id".toList (by decide) (by decide), hauth]
  cases (j.field "type".toList).bind asStr with
  | none => rfl
  | some type =>
    simp only [Option.bind_eq_bind, Option.bind_some]
    split_ifs
    · cases (j.field "host".toList).bind asStr <;>
        cases j.fieldOr "port".toList defaultSshPort asU16 <;>
        cases (j.field "user".toList).bind asStr <;>
        cases j.fieldOr "auth".toList SshAuthConfig.agent SshAuthConfig.ofJson <;> rfl
    · cases (j.field "host".toList).bind asStr <;>
        cases j.fieldOr "port".toList defaultAgentPort asU16 <;>
        cases j.fieldOr "agent_id".toList none asOptStr <;> rfl
    · rfl
    · rfl

theorem BackendTransport.ofJson_blankBackend (j : Json) :
    BackendTransport.ofJson j.blankBackend = (BackendTransport.ofJson j).map blank :=
  ofJson_of_auth (fun key hk _ => by rw [blankBackend, field_mapField, if_neg hk])
    (by rw [blankBackend, field_mapField, if_pos rfl])

theorem BackendTransport.ofJson_blankConfig (j : Json) :
    BackendTransport.ofJson j.blankConfig = (BackendTransport.ofJson j).map blank := by
  refine ofJson_of_auth (fun key hk hk' => field_blankConfig_of_ne hk hk' j) ?_
  rw [blankConfig, blankBackend, field_mapField, if_pos rfl, field_mapField, if_neg (by decide)]

theorem TransportConfig.ofJson_blankConfig (j : Json) :
    TransportConfig.ofJson j.blankConfig = (TransportConfig.ofJson j).map blank := by
  have hbackend : j.blankConfig.field "backend".toList =
      (j.field "backend".toList).map blankBackend := by
    rw [blankConfig, blankBackend, field_mapField, if_neg (by decide), field_mapField, if_pos rfl]
  have hbrowser : j.blankConfig.fieldOr "browser".toList .websocket BrowserTransport.ofJson =
      j.fieldOr "browser".toList .websocket BrowserTransport.ofJson := by
    rw [fieldOr, fieldOr, field_blankConfig_of_ne (by decide) (by decide)]
  have hread : (j.blankConfig.field "backend".toList).bind BackendTransport.ofJson =
      ((j.field "backend".toList).bind BackendTransport.ofJson).map BackendTransport.blank := by
    rw [hbackend]
    cases j.field "backend".toList with
    | none => rfl
    | some v => exact BackendTransport.ofJson_blankBackend v
  unfold ofJson
  rw [hread, hbrowser]
  cases (j.field "backend".toList).bind BackendTransport.ofJson <;>
    cases j.fieldOr "browser".toList .websocket BrowserTransport.ofJson <;> rfl

/-- **A stored session is read without its secrets** as it is read with them: an
error shows nothing of them. -/
theorem rowToManagedSession_blank (row : SessionRow) :
    rowToManagedSession row.blank = (rowToManagedSession row).map ManagedSession.blank := by
  simp only [rowToManagedSession, SessionRow.blank, TransportConfig.ofJson_blankConfig,
    BackendTransport.ofJson_blankConfig]
  cases TransportConfig.ofJson row.transportConfig with
  | some c => rfl
  | none => cases BackendTransport.ofJson row.transportConfig <;> rfl

theorem TransportConfig.toJson_blank (c : TransportConfig) :
    c.blank.toJson = c.toJson.blankConfig := by
  cases c with
  | mk browser backend =>
    cases backend with
    | ssh host port user auth =>
      cases auth with
      | agent | password => rfl
      | privateKey _ passphrase | uploadedKey _ passphrase => cases passphrase <;> rfl
    | agent host port agentId => cases agentId <;> rfl
    | «local» => rfl

/-! ## The transport -/

namespace Transport

theorem blank_connect (fresh : Nat) (failure : Option ConnectFailure) (t : Transport) :
    t.blank.connect fresh failure = (t.connect fresh failure).blank := by
  obtain ⟨backend, sessionName, status, connection, controlChannel, readerTask, executed⟩ := t
  cases backend with
  | ssh | agent =>
    cases failure with
    | none => rfl
    | some f =>
      obtain ⟨step, error⟩ := f
      cases step <;> rfl
  | «local» => cases failure <;> rfl

theorem blank_listTmuxSessions (listing : Except TransportError (List TmuxSessionInfo))
    (t : Transport) : t.blank.listTmuxSessions listing = t.listTmuxSessions listing := by
  obtain ⟨backend, sessionName, status, connection, controlChannel, readerTask, executed⟩ := t
  cases backend <;> cases connection <;> rfl

theorem blank_execute (cmd : Command) (t : Transport) :
    t.blank.execute cmd = (t.execute cmd).map blank := by
  obtain ⟨backend, sessionName, status, connection, controlChannel, readerTask, executed⟩ := t
  cases backend with
  | ssh =>
    cases connection with
    | none => rfl
    | some connection =>
      cases controlChannel with
      | none => rfl
      | some channel =>
        simp only [execute, blank, BackendTransport.blank]
        split <;> rfl
  | agent => cases connection <;> rfl
  | «local» => rfl

end Transport

/-! ## The session manager -/

/-- What a client is shown of a session has no secrets to begin with. -/
theorem ManagedSession.sanitized_blank (s : ManagedSession) : s.blank.sanitized = s.sanitized := by
  obtain ⟨id, name, ⟨browser, backend⟩, status, error, tmuxSessions⟩ := s
  cases backend with
  | ssh host port user auth => cases auth <;> rfl
  | _ => rfl

namespace SessionManager

theorem blank_setEntry (id : Text) (entry : SessionEntry) (m : SessionManager) :
    (m.setEntry id entry).blank = m.blank.setEntry id entry.blank := by
  simp only [blank, setEntry, mk.injEq, and_self, and_true]
  funext id'
  by_cases h : id' = id
  · subst h
    simp
  · simp [h]

theorem blank_updateRow (id : Text) {f : SessionRow → SessionRow}
    (hf : ∀ row, f row.blank = (f row).blank) (db : List SessionRow) :
    updateRow id f (db.map SessionRow.blank) = (updateRow id f db).map SessionRow.blank := by
  simp only [updateRow, List.map_map]
  refine List.map_congr_left fun row _ => ?_
  simp only [Function.comp_apply, apply_ite SessionRow.blank, ← hf]
  rfl

theorem blank_updateSessionStatus (ok : Bool) (id : Text) (status : SessionStatus)
    (error : Option Text) (m : SessionManager) :
    (m.updateSessionStatus ok id status error).blank =
      m.blank.updateSessionStatus ok id status error := by
  unfold updateSessionStatus
  split
  · have hdb := blank_updateRow id (f := fun r => { r with status := status.show, error })
      (fun _ => rfl) m.db
    simp only [blank, ← hdb]
  · rfl

/-- The result of an operation without its secrets. -/
def blankResult (r : SessionManager × Except Text ManagedSession) :
    SessionManager × Except Text ManagedSession := (r.1.blank, r.2.map ManagedSession.blank)

theorem blank_create (env : Env) (userId : Text) (req : CreateSessionRequest)
    (m : SessionManager) :
    m.blank.create env userId req.blank = blankResult (m.create env userId req) := by
  have hids : m.blank.db.map (·.id) = m.db.map (·.id) := by
    simp only [blank, List.map_map]
    rfl
  simp only [create, hids]
  split
  · simp only [blankResult, blank_setEntry]
    refine Prod.ext ?_ rfl
    simp only [blank, List.map_append, List.map_singleton, SessionRow.blank,
      CreateSessionRequest.blank, TransportConfig.toJson_blank]
    rfl
  · rfl

theorem blank_loadRow (metadata : ManagedSession) (m : SessionManager) :
    loadRow metadata.blank m.blank =
      ((loadRow metadata m).1.blank, (loadRow metadata m).2.blank) := by
  have hs : m.blank.sessions metadata.blank.id = (m.sessions metadata.id).map SessionEntry.blank :=
    rfl
  simp only [loadRow, hs]
  cases m.sessions metadata.id with
  | some entry => rfl
  | none =>
    simp only [Option.map_none, blank_setEntry]
    rfl

/-- The sessions that are loaded, without their secrets. -/
def blankSessions (r : SessionManager × Except Text (List ManagedSession)) :
    SessionManager × Except Text (List ManagedSession) :=
  (r.1.blank, r.2.map (List.map ManagedSession.blank))

theorem blank_loadRows (rows : List SessionRow) (m : SessionManager) :
    loadRows (rows.map SessionRow.blank) m.blank = blankSessions (loadRows rows m) := by
  induction rows generalizing m with
  | nil => rfl
  | cons row rows ih =>
    rw [List.map_cons, loadRows, loadRows, rowToManagedSession_blank]
    cases rowToManagedSession row with
    | none => rfl
    | some metadata =>
      simp only [Option.map_some, blank_loadRow, ih, blankSessions]
      cases (loadRows rows (loadRow metadata m).1).2 <;> rfl

theorem blank_listSessionsForUser (db : List SessionRow) (userId : Text) :
    listSessionsForUser (db.map SessionRow.blank) userId =
      (listSessionsForUser db userId).map SessionRow.blank := by
  have hsort := List.map_insertionSort (r := fun a b : SessionRow => b.createdAt ≤ a.createdAt)
    (s := fun a b : SessionRow => b.createdAt ≤ a.createdAt) SessionRow.blank
    (db.filter (·.userId = userId)) fun _ _ _ _ => Iff.rfl
  rw [listSessionsForUser, listSessionsForUser, hsort, List.filter_map]
  rfl

theorem blank_loadUserSessions (env : Env) (userId : Text) (m : SessionManager) :
    m.blank.loadUserSessions env userId = blankSessions (m.loadUserSessions env userId) := by
  unfold loadUserSessions
  split
  · rw [← blank_loadRows, ← blank_listSessionsForUser]
    rfl
  · rfl

theorem blank_setEntry_db (id : Text) (entry : SessionEntry) (db : List SessionRow)
    (m : SessionManager) : ({ m.setEntry id entry with db } : SessionManager).blank =
      { m.blank.setEntry id entry.blank with db := db.map SessionRow.blank } := by
  rw [← blank_setEntry]
  rfl

theorem blank_update (env : Env) (id : Text) (req : UpdateSessionRequest) (m : SessionManager) :
    m.blank.update env id req = blankResult (m.update env id req) := by
  have hs : m.blank.sessions id = (m.sessions id).map SessionEntry.blank := rfl
  simp only [update, hs]
  cases m.sessions id with
  | none => rfl
  | some entry =>
    cases req.name with
    | none => rfl
    | some name =>
      have hdb := blank_updateRow id (f := fun r => { r with name }) (fun _ => rfl) m.db
      simp only [Option.map_some]
      split
      · refine Prod.ext ?_ rfl
        have hset := blank_setEntry_db id { entry with metadata := { entry.metadata with name } }
          (updateRow id (fun r => { r with name }) m.db) m
        rw [← hdb] at hset
        exact hset.symm
      · refine Prod.ext ?_ rfl
        simp only [blankResult]
        rw [blank_setEntry]
        rfl

theorem uploadedKeyId_blank (metadata : ManagedSession) :
    uploadedKeyId metadata.blank = uploadedKeyId metadata := by
  obtain ⟨id, name, ⟨browser, backend⟩, status, error, tmuxSessions⟩ := metadata
  cases backend with
  | ssh host port user auth => cases auth <;> rfl
  | _ => rfl

/-- A session that goes, with the key that it may have used. -/
theorem blank_removed (id : Text) (keys keys' : Text → Option (Text × Option Text))
    (h : keys' = fun _ => none) (db : List SessionRow) (m : SessionManager) :
    ({ m with sessions := Function.update m.sessions id none, ephemeralKeys := keys, db } :
      SessionManager).blank =
    { m.blank with
      sessions := Function.update m.blank.sessions id none, ephemeralKeys := keys'
      db := db.map SessionRow.blank } := by
  subst h
  simp only [blank, mk.injEq, and_self, and_true]
  funext id'
  by_cases hid : id' = id
  · subst hid
    simp
  · simp [hid]

theorem blank_removed_row (id : Text) (keys keys' : Text → Option (Text × Option Text))
    (h : keys' = fun _ => none) (m : SessionManager) :
    ({ m with sessions := Function.update m.sessions id none, ephemeralKeys := keys
              db := m.db.filter (·.id.val ≠ id) } : SessionManager).blank =
    { m.blank with
      sessions := Function.update m.blank.sessions id none, ephemeralKeys := keys'
      db := m.blank.db.filter (·.id.val ≠ id) } := by
  have hdb : (m.db.map SessionRow.blank).filter (·.id.val ≠ id) =
      (m.db.filter (·.id.val ≠ id)).map SessionRow.blank := List.filter_map
  have hremoved := blank_removed id keys keys' h (m.db.filter (·.id.val ≠ id)) m
  rwa [← hdb] at hremoved

theorem blank_delete (env : Env) (id : Text) (m : SessionManager) :
    m.blank.delete env id = blankResult (m.delete env id) := by
  have hs : (m.blank.removeRoutes id).sessions id = (m.sessions id).map SessionEntry.blank := rfl
  have hs' : (m.removeRoutes id).sessions id = m.sessions id := rfl
  simp only [delete, hs, hs']
  cases m.sessions id with
  | none => rfl
  | some entry =>
    have hkey : uploadedKeyId entry.blank.metadata = uploadedKeyId entry.metadata :=
      uploadedKeyId_blank _
    simp only [Option.map_some, hkey]
    cases uploadedKeyId entry.metadata with
    | none =>
      split
      · exact Prod.ext (blank_removed_row id _ _ rfl (m.removeRoutes id)).symm rfl
      · exact Prod.ext (blank_removed id _ _ rfl _ (m.removeRoutes id)).symm rfl
    | some keyId =>
      have hkeys := Function.update_eq_self keyId (m.blank.removeRoutes id).ephemeralKeys
      split
      · exact Prod.ext (blank_removed_row id _ _ hkeys (m.removeRoutes id)).symm rfl
      · exact Prod.ext (blank_removed id _ _ hkeys _ (m.removeRoutes id)).symm rfl

theorem blank_insertRoutes (id : Text) (tree : List TmuxSessionInfo) (m : SessionManager) :
    (m.insertRoutes id tree).blank = m.blank.insertRoutes id tree := rfl

theorem blank_connect (env : Env) (id : Text) (m : SessionManager) :
    m.blank.connect env id = blankResult (m.connect env id) := by
  have hs : m.blank.sessions id = (m.sessions id).map SessionEntry.blank := rfl
  simp only [connect, hs]
  cases m.sessions id with
  | none => rfl
  | some entry =>
    have ht : entry.blank.transport.connect env.connection env.connect =
        (entry.transport.connect env.connection env.connect).blank :=
      Transport.blank_connect _ _ _
    simp only [Option.map_some, ht, Transport.blank_listTmuxSessions]
    cases env.connect with
    | none =>
      refine Prod.ext ?_ rfl
      simp only [blankResult, blank_updateSessionStatus, blank_setEntry, blank_insertRoutes]
      rfl
    | some failure =>
      refine Prod.ext ?_ rfl
      simp only [blankResult, blank_updateSessionStatus, blank_setEntry]
      rfl

theorem blank_disconnect (env : Env) (id : Text) (m : SessionManager) :
    m.blank.disconnect env id = blankResult (m.disconnect env id) := by
  have hs : (m.blank.removeRoutes id).sessions id = (m.sessions id).map SessionEntry.blank := rfl
  have hs' : (m.removeRoutes id).sessions id = m.sessions id := rfl
  simp only [disconnect, hs, hs']
  cases m.sessions id with
  | none => rfl
  | some entry =>
    refine Prod.ext ?_ rfl
    simp only [Option.map_some, blankResult, blank_updateSessionStatus, blank_setEntry]
    rfl

theorem blank_refreshTmuxState (env : Env) (id : Text) (m : SessionManager) :
    m.blank.refreshTmuxState env id = blankResult (m.refreshTmuxState env id) := by
  have hs : m.blank.sessions id = (m.sessions id).map SessionEntry.blank := rfl
  simp only [refreshTmuxState, hs]
  cases m.sessions id with
  | none => rfl
  | some entry =>
    have ht : entry.blank.transport.listTmuxSessions env.listing =
        entry.transport.listTmuxSessions env.listing := Transport.blank_listTmuxSessions _ _
    simp only [Option.map_some, ht]
    cases entry.transport.listTmuxSessions env.listing with
    | error e => rfl
    | ok tree =>
      refine Prod.ext ?_ rfl
      simp only [blankResult, blank_setEntry, blank_insertRoutes]
      rfl

theorem blank_executeOnPane (cmd : Command) (m : SessionManager) :
    m.blank.executeOnPane cmd = ((m.executeOnPane cmd).1.blank, (m.executeOnPane cmd).2) := by
  have hp : m.blank.paneToSession = m.paneToSession := rfl
  simp only [executeOnPane, hp]
  cases m.paneToSession (commandPane cmd) with
  | none => rfl
  | some id =>
    have hs : m.blank.sessions id = (m.sessions id).map SessionEntry.blank := rfl
    simp only [hs]
    cases m.sessions id with
    | none => rfl
    | some entry =>
      have ht : entry.blank.transport.execute cmd = (entry.transport.execute cmd).map
        Transport.blank := Transport.blank_execute cmd _
      simp only [Option.map_some, ht]
      cases entry.transport.execute cmd with
      | error e => rfl
      | ok transport =>
        refine Prod.ext ?_ rfl
        simp only [blank_setEntry]
        rfl

end SessionManager

end Oxmux.Session
