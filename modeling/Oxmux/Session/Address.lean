import Oxmux.Lib.Runs
import Oxmux.Session.ManagerOps

/-! The tmux session that a session leads to. Its name is kept three times: in
the transport, in the data that is shown, and in the session's row. -/

namespace Oxmux.Session
open Oxmux.Lib Oxmux.Lib.Runs

/-! ## What is stored is read back -/

namespace SshAuthConfig

theorem ofJson_toJson (auth : SshAuthConfig) : ofJson auth.toJson = some auth := by
  cases auth with
  | agent => rfl
  | password p => rfl
  | privateKey path pp => cases pp <;> rfl
  | uploadedKey keyId pp => cases pp <;> rfl

end SshAuthConfig

theorem Json.fieldOr_of_field {α : Type} {key : Text} {j v : Json} (h : j.field key = some v)
    (default : α) (read : Json → Option α) : j.fieldOr key default read = read v := by
  rw [fieldOr, h]

theorem Json.asU16_num (n : UInt16) : asU16 (num n.toNat) = some n := by
  have hlt := n.toNat_lt
  rw [asU16, if_pos ⟨by omega, by omega⟩]
  simp

namespace BackendTransport

theorem ofJson_toJson (backend : BackendTransport) : ofJson backend.toJson = some backend := by
  cases backend with
  | ssh host port user auth =>
    have htype : (ssh host port user auth).toJson.field "type".toList =
        some (.str "ssh".toList) := rfl
    have hhost : (ssh host port user auth).toJson.field "host".toList = some (.str host) := rfl
    have hport : (ssh host port user auth).toJson.field "port".toList =
        some (.num port.toNat) := rfl
    have huser : (ssh host port user auth).toJson.field "user".toList = some (.str user) := rfl
    have hauth : (ssh host port user auth).toJson.field "auth".toList = some auth.toJson := rfl
    simp only [ofJson, htype, hhost, huser, Json.fieldOr_of_field hport,
      Json.fieldOr_of_field hauth, Json.asU16_num, auth.ofJson_toJson, Json.asStr,
      Option.bind_eq_bind, Option.bind_some, if_true]
  | agent host port agentId =>
    have htype : (agent host port agentId).toJson.field "type".toList =
        some (.str "agent".toList) := rfl
    have hhost : (agent host port agentId).toJson.field "host".toList = some (.str host) := rfl
    have hport : (agent host port agentId).toJson.field "port".toList =
        some (.num port.toNat) := rfl
    have hid : (agent host port agentId).toJson.fieldOr "agent_id".toList none Json.asOptStr =
        some agentId := by
      cases agentId <;> rfl
    have hne : "agent".toList ≠ "ssh".toList := by decide
    simp only [ofJson, htype, hhost, Json.fieldOr_of_field hport, hid, Json.asU16_num, Json.asStr,
      if_neg hne, Option.bind_eq_bind, Option.bind_some, if_true]
  | «local» => rfl

end BackendTransport

theorem TransportConfig.ofJson_toJson (c : TransportConfig) : ofJson c.toJson = some c := by
  have hbrowser : c.toJson.fieldOr "browser".toList .websocket BrowserTransport.ofJson =
      some c.browser := by
    obtain ⟨browser, backend⟩ := c
    cases browser <;> rfl
  have hbackend : c.toJson.field "backend".toList = some c.backend.toJson := rfl
  rw [ofJson, hbrowser, hbackend]
  simp [BackendTransport.ofJson_toJson]

/-! ## Addresses -/

/-- What an entry says about where it leads. -/
structure Address where
  sessionName : Text
  backend : BackendTransport
  name : Text
  config : TransportConfig

/-- The columns that the status of a session leaves alone. -/
structure Columns where
  id : Uuid
  userId : Text
  name : Text
  transportConfig : Json

/-- What is known about where the sessions lead: in memory, and in the table. -/
structure Books where
  memory : Text → Option Address
  table : List Columns

def SessionEntry.address (entry : SessionEntry) : Address where
  sessionName := entry.transport.sessionName
  backend := entry.transport.backend
  name := entry.metadata.name
  config := entry.metadata.transport

def SessionRow.columns (row : SessionRow) : Columns where
  id := row.id
  userId := row.userId
  name := row.name
  transportConfig := row.transportConfig

/-- The configuration in a row, in one of its two formats. -/
def storedConfig (j : Json) : Option TransportConfig :=
  (TransportConfig.ofJson j).or
    ((BackendTransport.ofJson j).map fun backend => { browser := .websocket, backend })

/-- What a row says about where its session leads. -/
def Columns.address (c : Columns) : Option Address :=
  (storedConfig c.transportConfig).map fun config =>
    { sessionName := c.name, backend := config.backend, name := c.name, config }

namespace SessionManager

def books (m : SessionManager) : Books where
  memory id := (m.sessions id).map SessionEntry.address
  table := m.db.map SessionRow.columns

/-- Every session in memory leads to the tmux session whose name is shown, and
its row has that name. -/
def Addressed (m : SessionManager) : Prop :=
  ∀ id entry, m.sessions id = some entry →
    entry.transport.sessionName = entry.metadata.name ∧
      ∃ row ∈ m.db, row.id.val = id ∧ row.name = entry.metadata.name

/-- A server that starts again and loads the owner's sessions leads every session
to where it led before. -/
def Reloads (m : SessionManager) : Prop :=
  ∀ id entry, m.sessions id = some entry → ∃ row ∈ m.db, row.id.val = id ∧
    ∀ env : Env, env.dbRead = true → ∃ entry',
      ((new m.db).loadUserSessions env row.userId).1.sessions id = some entry' ∧
        entry'.transport.backend = entry.transport.backend ∧
        entry'.transport.sessionName = entry.transport.sessionName

end SessionManager

namespace Books

/-- The table has a row for every session, and can be read. -/
structure Sound (b : Books) : Prop where
  ids : (b.table.map (·.id)).Nodup
  readable : ∀ c ∈ b.table, (storedConfig c.transportConfig).isSome
  backed : ∀ id a, b.memory id = some a → a.backend = a.config.backend ∧
    ∃ c ∈ b.table, c.id.val = id ∧ storedConfig c.transportConfig = some a.config

def Addressed (b : Books) : Prop :=
  ∀ id a, b.memory id = some a → a.sessionName = a.name ∧
    ∃ c ∈ b.table, c.id.val = id ∧ c.name = a.name

/-- A session is stored and remembered. -/
def create (c : Columns) (config : TransportConfig) (b : Books) : Books where
  memory := Function.update b.memory c.id.val (some
    { sessionName := c.name, backend := config.backend, name := c.name, config })
  table := b.table ++ [c]

/-- The sessions of some rows are remembered, where they were not. -/
def load (rows : List Columns) (b : Books) : Books :=
  { b with
    memory := fun id =>
      (b.memory id).or ((rows.find? fun c => c.id.val = id).bind Columns.address) }

/-- The name that is shown changes, and with a write that succeeds the row. -/
def rename (id name : Text) (ok : Bool) (b : Books) : Books where
  memory := Function.update b.memory id ((b.memory id).map fun a => { a with name })
  table :=
    if ok then b.table.map fun c => if c.id.val = id then { c with name } else c else b.table

def delete (id : Text) (ok : Bool) (b : Books) : Books where
  memory := Function.update b.memory id none
  table := if ok then b.table.filter (·.id.val ≠ id) else b.table

end Books

namespace SessionManager

/-! ## What each operation does to the books -/

theorem rowToManagedSession_eq (row : SessionRow) :
    (rowToManagedSession row).map (fun metadata => (SessionEntry.ofMetadata metadata).address) =
      row.columns.address := by
  unfold rowToManagedSession Columns.address storedConfig
  simp only [Option.map_map]
  rfl

@[simp] theorem books_updateSessionStatus (ok : Bool) (id : Text) (status : SessionStatus)
    (error : Option Text) (m : SessionManager) :
    (m.updateSessionStatus ok id status error).books = m.books := by
  unfold updateSessionStatus
  split
  · have hrows : (updateRow id (fun r => { r with status := status.show, error }) m.db).map
        SessionRow.columns = m.db.map SessionRow.columns := by
      rw [updateRow, List.map_map]
      refine List.map_congr_left fun row _ => ?_
      simp only [Function.comp]
      split <;> rfl
    simp only [books, hrows]
  · rfl

/-- An entry is put that leads where the old one led. -/
theorem books_setEntry {m : SessionManager} {id : Text} {entry : SessionEntry} (old : SessionEntry)
    (hs : m.sessions id = some old) (ha : entry.address = old.address) :
    (m.setEntry id entry).books = m.books := by
  have hmem : (fun id' => ((m.setEntry id entry).sessions id').map SessionEntry.address) =
      fun id' => (m.sessions id').map SessionEntry.address := by
    funext id'
    by_cases h : id' = id
    · subst h
      simp [setEntry, hs, ha]
    · simp [setEntry, h]
  simp only [books, hmem]
  rfl

/-- Connecting changes nothing about where an entry leads. -/
theorem address_connect {entry : SessionEntry} {metadata : ManagedSession}
    (hn : metadata.name = entry.metadata.name) (ht : metadata.transport = entry.metadata.transport)
    (fresh : Nat) (failure : Option ConnectFailure) :
    (SessionEntry.mk metadata (entry.transport.connect fresh failure)).address = entry.address := by
  simp [SessionEntry.address, hn, ht]

theorem books_connect (env : Env) (id : Text) (m : SessionManager) :
    (m.connect env id).1.books = m.books := by
  unfold connect
  cases hs : m.sessions id with
  | none => rfl
  | some entry =>
    cases env.connect with
    | none =>
      simp only [books_updateSessionStatus]
      rw [books_setEntry entry]
      · exact books_updateSessionStatus (env.dbWrite 0) id .connecting none m
      · simp [insertRoutes, hs]
      · exact address_connect rfl rfl _ _
    | some failure =>
      simp only [books_updateSessionStatus]
      rw [books_setEntry entry]
      · exact books_updateSessionStatus (env.dbWrite 0) id .connecting none m
      · simp [hs]
      · exact address_connect rfl rfl _ _

theorem books_disconnect (env : Env) (id : Text) (m : SessionManager) :
    (m.disconnect env id).1.books = m.books := by
  unfold disconnect
  simp only
  cases hs : (m.removeRoutes id).sessions id with
  | none => rfl
  | some entry =>
    simp only [books_updateSessionStatus]
    rw [books_setEntry entry hs]
    · rfl
    · rfl

theorem books_refreshTmuxState (env : Env) (id : Text) (m : SessionManager) :
    (m.refreshTmuxState env id).1.books = m.books := by
  unfold refreshTmuxState
  cases hs : m.sessions id with
  | none => rfl
  | some entry =>
    cases hl : entry.transport.listTmuxSessions env.listing with
    | error e => simp only [hl]
    | ok tree =>
      simp only [hl]
      rw [books_setEntry entry (by exact hs)]
      · rfl
      · rfl

theorem books_executeOnPane (cmd : Command) (m : SessionManager) :
    (m.executeOnPane cmd).1.books = m.books := by
  unfold executeOnPane
  cases m.paneToSession (commandPane cmd) with
  | none => rfl
  | some id =>
    cases hs : m.sessions id with
    | none => simp only [hs]
    | some entry =>
      cases he : entry.transport.execute cmd with
      | error e => simp only [hs, he]
      | ok transport =>
        simp only [hs, he]
        rw [books_setEntry entry hs]
        rw [Transport.execute_ok he]
        rfl

theorem books_create (env : Env) (userId : Text) (req : CreateSessionRequest) (m : SessionManager) :
    (m.create env userId req).1.books = m.books ∨
      env.uuid ∉ m.db.map (·.id) ∧ (m.create env userId req).1.books = m.books.create
        { id := env.uuid, userId, name := req.name, transportConfig := req.transport.toJson }
        req.transport := by
  unfold create
  simp only
  split
  · next h =>
    refine .inr ⟨h.2, ?_⟩
    have hmem : (fun id => (Function.update m.sessions env.uuid.val (some
        (SessionEntry.mk { id := env.uuid.val, name := req.name, transport := req.transport
                           status := .created, error := none, tmuxSessions := [] }
          (.new req.transport.backend req.name))) id).map SessionEntry.address) =
        Function.update (fun id => (m.sessions id).map SessionEntry.address) env.uuid.val (some
          { sessionName := req.name, backend := req.transport.backend, name := req.name
            config := req.transport }) := by
      funext id
      by_cases h : id = env.uuid.val
      · subst h
        simp [SessionEntry.address, Transport.new]
      · simp [h]
    simp only [books, setEntry, hmem, Books.create, List.map_append]
    rfl
  · exact .inl rfl

/-- A session that is not there, or a request without a name: nothing to do. -/
theorem update_eq_self {id : Text} {req : UpdateSessionRequest} {m : SessionManager}
    (h : m.sessions id = none ∨ req.name = none) (env : Env) : (m.update env id req).1 = m := by
  unfold update
  cases hs : m.sessions id with
  | none => rfl
  | some entry =>
    rcases h with h | h
    · rw [hs] at h
      cases h
    · simp only [h]

theorem books_update {id name : Text} {req : UpdateSessionRequest} {m : SessionManager}
    {entry : SessionEntry} (hs : m.sessions id = some entry) (hn : req.name = some name)
    (env : Env) :
    (m.update env id req).1.books = m.books.rename id name (env.dbWrite 0) := by
  have hmem : (fun id' => (Function.update m.sessions id (some
      { entry with metadata := { entry.metadata with name } }) id').map SessionEntry.address) =
      Function.update m.books.memory id ((m.books.memory id).map fun a => { a with name }) := by
    funext id'
    by_cases h : id' = id
    · subst h
      simp [books, hs, SessionEntry.address]
    · simp [books, h]
  simp only [update, hs, hn]
  cases env.dbWrite 0 with
  | true =>
    have hrows : (updateRow id (fun r => { r with name }) m.db).map SessionRow.columns =
        m.books.table.map fun c => if c.id.val = id then { c with name } else c := by
      rw [updateRow, books, List.map_map, List.map_map]
      refine List.map_congr_left fun row _ => ?_
      by_cases h : row.id.val = id <;> simp [SessionRow.columns, h]
    simp only [setEntry, if_true, Books.rename, ← hmem, ← hrows]
    rfl
  | false =>
    simp only [setEntry, Bool.false_eq_true, if_false, Books.rename, ← hmem]
    rfl

theorem books_delete (env : Env) (id : Text) (m : SessionManager) :
    (m.delete env id).1.books = m.books ∨
      (m.delete env id).1.books = m.books.delete id (env.dbWrite 0) := by
  unfold delete
  simp only
  cases hs : (m.removeRoutes id).sessions id with
  | none => exact .inl rfl
  | some entry =>
    have hmem : (fun id' => (Function.update m.sessions id none id').map SessionEntry.address) =
        Function.update m.books.memory id none := by
      funext id'
      by_cases h : id' = id
      · simp [h]
      · simp [books, h]
    refine .inr ?_
    cases env.dbWrite 0 with
    | true =>
      have hrows : (m.db.filter fun row => row.id.val ≠ id).map SessionRow.columns =
          m.books.table.filter (·.id.val ≠ id) := by
        rw [books, List.filter_map]
        rfl
      simp only [if_true, Books.delete, ← hmem, ← hrows]
      rfl
    | false =>
      simp only [Bool.false_eq_true, if_false, Books.delete, ← hmem]
      rfl

/-- Rows that can be read fill what is not in memory. -/
theorem sessions_loadRows {rows : List SessionRow}
    (hread : ∀ row ∈ rows, (rowToManagedSession row).isSome) (m : SessionManager) (id : Text) :
    (loadRows rows m).1.sessions id = (m.sessions id).or
      ((rows.find? fun row => row.id.val = id).bind fun row =>
        (rowToManagedSession row).map .ofMetadata) := by
  induction rows generalizing m with
  | nil => simp [loadRows]
  | cons row rows ih =>
    obtain ⟨metadata, hrow⟩ := Option.isSome_iff_exists.mp (hread row (by simp))
    have hid : metadata.id = row.id.val := (rowToManagedSession_spec hrow).1
    simp only [loadRows, hrow]
    rw [ih fun row' h => hread row' (by simp [h])]
    by_cases h : row.id.val = id
    · rw [List.find?_cons_of_pos (by simp [h])]
      subst h
      unfold loadRow
      cases hs : m.sessions metadata.id with
      | some entry => simp [← hid, hs]
      | none => simp [← hid, hs, hrow, setEntry, SessionEntry.ofMetadata]
    · rw [List.find?_cons_of_neg (by simp [h])]
      have hkeep : (loadRow metadata m).1.sessions id = m.sessions id := by
        unfold loadRow
        split
        · rfl
        · simp [setEntry, hid, Ne.symm h]
      rw [hkeep]

theorem loadRows_frame (rows : List SessionRow) (m : SessionManager) :
    (loadRows rows m).1.paneToSession = m.paneToSession ∧ (loadRows rows m).1.db = m.db ∧
      (loadRows rows m).1.ephemeralKeys = m.ephemeralKeys := by
  induction rows generalizing m with
  | nil => exact ⟨rfl, rfl, rfl⟩
  | cons row rows ih =>
    unfold loadRows
    cases rowToManagedSession row with
    | none => exact ⟨rfl, rfl, rfl⟩
    | some metadata =>
      obtain ⟨hr, hd, hk⟩ := ih (loadRow metadata m).1
      have hrow : (loadRow metadata m).1.paneToSession = m.paneToSession ∧
          (loadRow metadata m).1.db = m.db ∧
          (loadRow metadata m).1.ephemeralKeys = m.ephemeralKeys := by
        unfold loadRow
        split <;> exact ⟨rfl, rfl, rfl⟩
      exact ⟨hr.trans hrow.1, hd.trans hrow.2.1, hk.trans hrow.2.2⟩

theorem db_loadRows (rows : List SessionRow) (m : SessionManager) :
    (loadRows rows m).1.db = m.db := (loadRows_frame rows m).2.1

theorem mem_listSessionsForUser {db : List SessionRow} {userId : Text} {row : SessionRow} :
    row ∈ listSessionsForUser db userId ↔ row ∈ db ∧ row.userId = userId := by
  rw [listSessionsForUser, List.mem_insertionSort, List.mem_filter, decide_eq_true_eq]

theorem books_load {m : SessionManager} (hread : ∀ row ∈ m.db, (rowToManagedSession row).isSome)
    (env : Env) (userId : Text) :
    (m.loadUserSessions env userId).1.books = m.books ∨
      ∃ rows : List SessionRow, (∀ row ∈ rows, row ∈ m.db) ∧
        (m.loadUserSessions env userId).1.books = m.books.load (rows.map SessionRow.columns) := by
  unfold loadUserSessions
  split
  · have hsub : ∀ row ∈ listSessionsForUser m.db userId, row ∈ m.db :=
      fun row hr => (mem_listSessionsForUser.mp hr).1
    refine .inr ⟨_, hsub, ?_⟩
    have hmem : (fun id => ((loadRows (listSessionsForUser m.db userId) m).1.sessions id).map
        SessionEntry.address) =
        (m.books.load ((listSessionsForUser m.db userId).map SessionRow.columns)).memory := by
      funext id
      rw [sessions_loadRows fun row hr => hread row (hsub row hr)]
      simp only [Books.load, books, List.find?_map]
      cases m.sessions id with
      | some entry => rfl
      | none =>
        simp only [Option.none_or, Option.map_none, Function.comp_def]
        cases hf : (listSessionsForUser m.db userId).find? fun row => row.id.val = id with
        | none =>
          have hf' : (listSessionsForUser m.db userId).find?
              (fun row => decide (row.columns.id.val = id)) = none := hf
          rw [hf']
          rfl
        | some row =>
          have hf' : (listSessionsForUser m.db userId).find?
              (fun row => decide (row.columns.id.val = id)) = some row := hf
          rw [hf', Option.bind_some, Option.map_some, Option.bind_some, Option.map_map]
          exact rowToManagedSession_eq row
    simp only [books, hmem, db_loadRows]
    rfl
  · exact .inl rfl

end SessionManager

/-! ## What the books keep -/

namespace Books

theorem Sound.create {b : Books} (h : b.Sound) {c : Columns} {config : TransportConfig}
    (hnew : c.id ∉ b.table.map (·.id)) (hc : storedConfig c.transportConfig = some config) :
    (b.create c config).Sound where
  ids := by
    rw [Books.create, List.map_append, List.nodup_append]
    refine ⟨h.ids, by simp, fun id hid id' hid' he => ?_⟩
    rw [List.map_singleton, List.mem_singleton] at hid'
    exact hnew (hid' ▸ he ▸ hid)
  readable c' hm := by
    rcases List.mem_append.mp hm with hm | hm
    · exact h.readable c' hm
    · rw [List.mem_singleton.mp hm, hc]
      rfl
  backed id a ha := by
    by_cases he : id = c.id.val
    · subst he
      simp only [Books.create, Function.update_self, Option.some.injEq] at ha
      subst ha
      exact ⟨rfl, c, by simp [Books.create], rfl, hc⟩
    · simp only [Books.create, Function.update_of_ne he] at ha
      obtain ⟨hb, c', hm, hid, hcfg⟩ := h.backed id a ha
      exact ⟨hb, c', List.mem_append_left _ hm, hid, hcfg⟩

theorem Addressed.create {b : Books} (h : b.Addressed) (c : Columns) (config : TransportConfig) :
    (b.create c config).Addressed := by
  intro id a ha
  by_cases he : id = c.id.val
  · subst he
    simp only [Books.create, Function.update_self, Option.some.injEq] at ha
    subst ha
    exact ⟨rfl, c, by simp [Books.create], rfl, rfl⟩
  · simp only [Books.create, Function.update_of_ne he] at ha
    obtain ⟨hn, c', hm, hid, hname⟩ := h id a ha
    exact ⟨hn, c', List.mem_append_left _ hm, hid, hname⟩

theorem mem_load {b : Books} {rows : List Columns} (hrows : ∀ c ∈ rows, c ∈ b.table) {id : Text}
    {a : Address} (h : (b.load rows).memory id = some a) : b.memory id = some a ∨
      ∃ c ∈ b.table, c.id.val = id ∧ ∃ config, storedConfig c.transportConfig = some config ∧
        a = { sessionName := c.name, backend := config.backend, name := c.name, config } := by
  simp only [load, Option.or_eq_some_iff, Option.bind_eq_some_iff] at h
  rcases h with h | ⟨-, c, hf, hc⟩
  · exact .inl h
  · obtain ⟨config, hcfg, ha⟩ := Option.map_eq_some_iff.mp hc
    have hid := List.find?_some hf
    exact .inr ⟨c, hrows c (List.mem_of_find?_eq_some hf), of_decide_eq_true hid, config, hcfg,
      ha.symm⟩

theorem Sound.load {b : Books} (h : b.Sound) {rows : List Columns}
    (hrows : ∀ c ∈ rows, c ∈ b.table) : (b.load rows).Sound where
  ids := h.ids
  readable := h.readable
  backed id a ha := by
    rcases mem_load hrows ha with ha | ⟨c, hm, hid, config, hcfg, rfl⟩
    · exact h.backed id a ha
    · exact ⟨rfl, c, hm, hid, hcfg⟩

theorem Addressed.load {b : Books} (h : b.Addressed) {rows : List Columns}
    (hrows : ∀ c ∈ rows, c ∈ b.table) : (b.load rows).Addressed := by
  intro id a ha
  rcases mem_load hrows ha with ha | ⟨c, hm, hid, config, hcfg, rfl⟩
  · exact h id a ha
  · exact ⟨rfl, c, hm, hid, rfl⟩

theorem Sound.rename {b : Books} (h : b.Sound) (id name : Text) (ok : Bool) :
    (b.rename id name ok).Sound := by
  have hsame : ∀ c ∈ (b.rename id name ok).table, ∃ c' ∈ b.table,
      c.id = c'.id ∧ c.transportConfig = c'.transportConfig := by
    intro c hm
    cases ok with
    | false => exact ⟨c, hm, rfl, rfl⟩
    | true =>
      obtain ⟨c', hm', rfl⟩ := List.mem_map.mp hm
      refine ⟨c', hm', ?_⟩
      split <;> exact ⟨rfl, rfl⟩
  have hback : ∀ c' ∈ b.table, ∃ c ∈ (b.rename id name ok).table,
      c.id = c'.id ∧ c.transportConfig = c'.transportConfig := by
    intro c' hm
    cases ok with
    | false => exact ⟨c', hm, rfl, rfl⟩
    | true =>
      refine ⟨_, List.mem_map.mpr ⟨c', hm, rfl⟩, ?_⟩
      split <;> exact ⟨rfl, rfl⟩
  refine ⟨?_, fun c hm => ?_, fun id' a ha => ?_⟩
  · have hids : (b.rename id name ok).table.map (·.id) = b.table.map (·.id) := by
      cases ok with
      | false => rfl
      | true =>
        simp only [Books.rename, if_true, List.map_map]
        refine List.map_congr_left fun c _ => ?_
        simp only [Function.comp]
        split <;> rfl
    rw [hids]
    exact h.ids
  · obtain ⟨c', hm', -, hcfg⟩ := hsame c hm
    rw [hcfg]
    exact h.readable c' hm'
  · have hold : ∃ a', b.memory id' = some a' ∧ a'.backend = a.backend ∧ a'.config = a.config := by
      by_cases he : id' = id
      · subst he
        simp only [Books.rename, Function.update_self] at ha
        obtain ⟨a', ha', rfl⟩ := Option.map_eq_some_iff.mp ha
        exact ⟨a', ha', rfl, rfl⟩
      · simp only [Books.rename, Function.update_of_ne he] at ha
        exact ⟨a, ha, rfl, rfl⟩
    obtain ⟨a', ha', hbackend, hconfig⟩ := hold
    obtain ⟨hb, c', hm', hid, hcfg⟩ := h.backed id' a' ha'
    obtain ⟨c, hm, hcid, hcc⟩ := hback c' hm'
    exact ⟨hbackend ▸ hconfig ▸ hb, c, hm, by rw [hcid, hid], by rw [hcc, hcfg, hconfig]⟩

/-- A session that leads to one name leads to it after a rename only if it keeps
that name. -/
theorem addressed_rename_iff {b : Books} (h : b.Addressed) {id : Text} {a : Address}
    (ha : b.memory id = some a) (name : Text) (ok : Bool) :
    (b.rename id name ok).Addressed ↔ name = a.name := by
  constructor
  · intro hr
    have hnew : (b.rename id name ok).memory id = some { a with name } := by
      simp [Books.rename, ha]
    exact (hr id _ hnew).1.symm.trans (h id a ha).1
  · rintro rfl id' a' ha'
    have hmem : (b.rename id a.name ok).memory = b.memory := by
      rw [Books.rename, ha, Option.map_some]
      exact Function.update_eq_self_iff.mpr ha.symm
    rw [hmem] at ha'
    obtain ⟨hn, c, hm, hid, hname⟩ := h id' a' ha'
    cases ok with
    | false => exact ⟨hn, c, hm, hid, hname⟩
    | true =>
      refine ⟨hn, _, List.mem_map.mpr ⟨c, hm, rfl⟩, ?_⟩
      by_cases he : c.id.val = id
      · have ha'' : a' = a := by
          rw [← hid, he, ha] at ha'
          exact (Option.some.inj ha').symm
        rw [if_pos he]
        exact ⟨hid, by rw [ha'']⟩
      · rw [if_neg he]
        exact ⟨hid, hname⟩

theorem mem_delete {b : Books} {id id' : Text} {ok : Bool} {a : Address}
    (h : (b.delete id ok).memory id' = some a) : b.memory id' = some a ∧
      ∀ c ∈ b.table, c.id.val = id' → c ∈ (b.delete id ok).table := by
  have hne : id' ≠ id := by
    rintro rfl
    simp [Books.delete] at h
  simp only [Books.delete, Function.update_of_ne hne] at h
  refine ⟨h, fun c hm hid => ?_⟩
  cases ok with
  | false => exact hm
  | true => exact List.mem_filter.mpr ⟨hm, by simp [hid, hne]⟩

theorem Sound.delete {b : Books} (h : b.Sound) (id : Text) (ok : Bool) :
    (b.delete id ok).Sound := by
  have hsub : (b.delete id ok).table.Sublist b.table := by
    cases ok with
    | false => exact .refl _
    | true => exact List.filter_sublist
  refine ⟨h.ids.sublist (hsub.map _), fun c hm => h.readable c (hsub.subset hm), fun id' a ha => ?_⟩
  obtain ⟨ha', hrows⟩ := mem_delete ha
  obtain ⟨hb, c, hm, hid, hcfg⟩ := h.backed id' a ha'
  exact ⟨hb, c, hrows c hm hid, hid, hcfg⟩

theorem Addressed.delete {b : Books} (h : b.Addressed) (id : Text) (ok : Bool) :
    (b.delete id ok).Addressed := by
  intro id' a ha
  obtain ⟨ha', hrows⟩ := mem_delete ha
  obtain ⟨hn, c, hm, hid, hname⟩ := h id' a ha'
  exact ⟨hn, c, hrows c hm hid, hid, hname⟩

end Books

namespace SessionManager

/-! ## Where a server that starts again leads the sessions -/

theorem addressed_iff_books (m : SessionManager) : m.Addressed ↔ m.books.Addressed := by
  constructor
  · intro h id a ha
    obtain ⟨entry, hs, rfl⟩ := Option.map_eq_some_iff.mp ha
    obtain ⟨hn, row, hm, hid, hname⟩ := h id entry hs
    exact ⟨hn, row.columns, List.mem_map_of_mem hm, hid, hname⟩
  · intro h id entry hs
    obtain ⟨hn, c, hm, hid, hname⟩ :=
      h id entry.address (Option.map_eq_some_iff.mpr ⟨entry, hs, rfl⟩)
    obtain ⟨row, hrow, rfl⟩ := List.mem_map.mp hm
    exact ⟨hn, row, hrow, hid, hname⟩

theorem eq_of_id {db : List SessionRow} (hids : (db.map (·.id)).Nodup) {row row' : SessionRow}
    (hm : row ∈ db) (hm' : row' ∈ db) (hid : row.id.val = row'.id.val) : row = row' :=
  List.inj_on_of_nodup_map hids hm hm' (Subtype.ext hid)

theorem find_listSessionsForUser {db : List SessionRow} {userId : Text} {row : SessionRow}
    (hids : (db.map (·.id)).Nodup) (hr : row ∈ db) (hu : row.userId = userId) :
    (listSessionsForUser db userId).find? (fun row' => row'.id.val = row.id.val) = some row := by
  have hsome : ((listSessionsForUser db userId).find?
      (fun row' => row'.id.val = row.id.val)).isSome :=
    List.find?_isSome.mpr ⟨row, mem_listSessionsForUser.mpr ⟨hr, hu⟩, by simp⟩
  obtain ⟨row', hf⟩ := Option.isSome_iff_exists.mp hsome
  have hm := (mem_listSessionsForUser.mp (List.mem_of_find?_eq_some hf)).1
  have hid : row'.id.val = row.id.val := by simpa using List.find?_some hf
  rw [hf, eq_of_id hids hm hr hid]

theorem nodup_ids {m : SessionManager} (h : m.books.Sound) : (m.db.map SessionRow.id).Nodup := by
  have hids := h.ids
  rwa [books, List.map_map] at hids

theorem readable_of_books {m : SessionManager} (h : m.books.Sound) {row : SessionRow}
    (hm : row ∈ m.db) : (rowToManagedSession row).isSome := by
  have hr := h.readable row.columns (List.mem_map_of_mem hm)
  rw [rowToManagedSession, Option.isSome_map]
  exact hr

/-- A server that starts again finds every session of the table that it loads. -/
theorem sessions_reload {m : SessionManager} (h : m.books.Sound) {row : SessionRow}
    (hm : row ∈ m.db) {env : Env} (hr : env.dbRead = true) :
    ((new m.db).loadUserSessions env row.userId).1.sessions row.id.val =
      (rowToManagedSession row).map fun metadata =>
        ⟨metadata, .new metadata.transport.backend metadata.name⟩ := by
  have hread : ∀ row' ∈ listSessionsForUser m.db row.userId, (rowToManagedSession row').isSome :=
    fun row' hr' => readable_of_books h (mem_listSessionsForUser.mp hr').1
  rw [loadUserSessions, if_pos hr, new, sessions_loadRows hread,
    find_listSessionsForUser (nodup_ids h) hm rfl]
  rfl

/-- The transports that are made anew lead where the old ones led. -/
theorem reloads_of_addressed {m : SessionManager} (h : m.books.Sound) (ha : m.Addressed) :
    m.Reloads := by
  intro id entry hs
  obtain ⟨hn, row, hm, hid, hname⟩ := ha id entry hs
  refine ⟨row, hm, hid, fun env hr => ?_⟩
  obtain ⟨hb, c, hc, hcid, hcfg⟩ :=
    h.backed id entry.address (Option.map_eq_some_iff.mpr ⟨entry, hs, rfl⟩)
  obtain ⟨row', hm', rfl⟩ := List.mem_map.mp hc
  have hrow : row' = row := eq_of_id (nodup_ids h) hm' hm (hcid.trans hid.symm)
  subst hrow
  obtain ⟨metadata, hmeta⟩ := Option.isSome_iff_exists.mp (readable_of_books h hm)
  have hread := sessions_reload h hm hr
  rw [hmeta, Option.map_some, hid] at hread
  refine ⟨_, hread, ?_⟩
  have haddr := rowToManagedSession_eq row'
  have hcfg' : storedConfig row'.columns.transportConfig = some entry.metadata.transport := hcfg
  rw [hmeta, Option.map_some, Columns.address, hcfg', Option.map_some, Option.some.injEq] at haddr
  have hbackend := congrArg Address.backend haddr
  have hsession := congrArg Address.sessionName haddr
  exact ⟨hbackend.trans hb.symm, hsession.trans (hname.trans hn.symm)⟩

/-! ## Runs -/

/-- Every operation keeps a row for every session. -/
theorem sound_books_apply {m : SessionManager} (h : m.books.Sound) (op : Op) :
    (m.apply op).books.Sound := by
  cases op with
  | create env userId req =>
    rcases books_create env userId req m with hb | ⟨hnew, hb⟩
    · rw [apply, hb]
      exact h
    · rw [apply, hb]
      refine h.create ?_ ?_
      · rwa [books, List.map_map]
      · rw [storedConfig, TransportConfig.ofJson_toJson, Option.some_or]
  | load env userId =>
    rcases books_load (fun row hm => readable_of_books h hm) env userId with hb | ⟨rows, hrows, hb⟩
    · rw [apply, hb]
      exact h
    · rw [apply, hb]
      refine h.load fun c hc => ?_
      obtain ⟨row, hm, rfl⟩ := List.mem_map.mp hc
      exact List.mem_map_of_mem (hrows row hm)
  | update env id req =>
    cases hs : m.sessions id with
    | none =>
      rw [apply, update_eq_self (.inl hs)]
      exact h
    | some entry =>
      cases hn : req.name with
      | none =>
        rw [apply, update_eq_self (.inr hn)]
        exact h
      | some name =>
        rw [apply, books_update hs hn]
        exact h.rename id name _
  | delete env id =>
    rcases books_delete env id m with hb | hb
    · rw [apply, hb]
      exact h
    · rw [apply, hb]
      exact h.delete id _
  | connect env id => rwa [apply, books_connect]
  | disconnect env id => rwa [apply, books_disconnect]
  | refresh env id => rwa [apply, books_refreshTmuxState]
  | execute cmd => rwa [apply, books_executeOnPane]
  | uploadKey keyId key passphrase => exact h

/-- A rename gives a session in memory the name that it has. -/
def KeepsName (m : SessionManager) : Op → Prop
  | .update _ id req => ∀ entry, m.sessions id = some entry → ∀ name, req.name = some name →
      name = entry.metadata.name
  | _ => True

theorem addressed_update_iff {m : SessionManager} (hb : m.books.Addressed) (env : Env) (id : Text)
    (req : UpdateSessionRequest) :
    (m.apply (.update env id req)).books.Addressed ↔ m.KeepsName (.update env id req) := by
  cases hs : m.sessions id with
  | none =>
    rw [apply, update_eq_self (.inl hs)]
    refine iff_of_true hb fun entry hentry => ?_
    rw [hs] at hentry
    cases hentry
  | some entry =>
    cases hn : req.name with
    | none =>
      rw [apply, update_eq_self (.inr hn)]
      refine iff_of_true hb fun entry _ name hname => ?_
      rw [hn] at hname
      cases hname
    | some name =>
      have hmem : m.books.memory id = some entry.address := by simp [books, hs]
      rw [apply, books_update hs hn, Books.addressed_rename_iff hb hmem]
      constructor
      · rintro rfl entry' hs' name' hn'
        rw [hs, Option.some.injEq] at hs'
        rw [hn, Option.some.injEq] at hn'
        rw [← hs', ← hn']
        rfl
      · intro hk
        exact hk entry hs name hn

theorem addressed_apply_iff {m : SessionManager} (h : m.books.Sound) (ha : m.Addressed) (op : Op) :
    (m.apply op).Addressed ↔ m.KeepsName op := by
  have hb := m.addressed_iff_books.mp ha
  rw [addressed_iff_books]
  cases op with
  | create env userId req =>
    refine iff_of_true ?_ trivial
    rcases books_create env userId req m with he | ⟨-, he⟩
    · rw [apply, he]
      exact hb
    · rw [apply, he]
      exact hb.create _ _
  | load env userId =>
    refine iff_of_true ?_ trivial
    rcases books_load (fun row hm => readable_of_books h hm) env userId with he | ⟨rows, hrows, he⟩
    · rw [apply, he]
      exact hb
    · rw [apply, he]
      refine hb.load fun c hc => ?_
      obtain ⟨row, hm, rfl⟩ := List.mem_map.mp hc
      exact List.mem_map_of_mem (hrows row hm)
  | update env id req => exact addressed_update_iff hb env id req
  | delete env id =>
    refine iff_of_true ?_ trivial
    rcases books_delete env id m with he | he
    · rw [apply, he]
      exact hb
    · rw [apply, he]
      exact hb.delete id _
  | connect env id => exact iff_of_true (by rwa [apply, books_connect]) trivial
  | disconnect env id => exact iff_of_true (by rwa [apply, books_disconnect]) trivial
  | refresh env id => exact iff_of_true (by rwa [apply, books_refreshTmuxState]) trivial
  | execute cmd => exact iff_of_true (by rwa [apply, books_executeOnPane]) trivial
  | uploadKey keyId key passphrase => exact iff_of_true hb trivial

/-- **When every session leads where it would after a restart**: in every state
of a run, exactly if no rename in it changes the name of a session in memory. -/
theorem addressed_iff_keepsName {db : List SessionRow} (hids : (db.map (·.id)).Nodup)
    (hread : ∀ row ∈ db, (rowToManagedSession row).isSome) (ops : List Op) :
    Always apply (fun m => m.Addressed ∧ m.Reloads) (new db) ops ↔
      EachStep apply KeepsName (new db) ops := by
  have hnew : (new db).books.Sound := by
    refine ⟨?_, fun c hc => ?_, fun id a ha => by cases ha⟩
    · rw [books, List.map_map]
      exact hids
    · obtain ⟨row, hm, rfl⟩ := List.mem_map.mp hc
      have hr := hread row hm
      rwa [rowToManagedSession, Option.isSome_map] at hr
  rw [always_congr (Q := Addressed) (I := fun m => m.books.Sound) hnew
    (fun m op h => sound_books_apply h op)
    (fun m h => ⟨fun ha => ha.1, fun ha => ⟨ha, reloads_of_addressed h ha⟩⟩)]
  exact always_iff_eachStep (I := fun m => m.books.Sound) (fun id entry hs => by cases hs) hnew
    (fun m op h ha => addressed_apply_iff h ha op) (fun m op h _ _ => sound_books_apply h op) ops

/-! ## A session is renamed -/

/-- A stored session is loaded and given the name that it has, and another is
created. -/
def keepingOps : List Op :=
  [.load (.working uuidA []) "u".toList,
    .update (.working uuidA []) ['a'] { name := some "main".toList },
    .create (.working uuidB []) "u".toList { name := "one".toList, transport := .ssh ['h'] }]

theorem addressed_iff_keepsName_sample :
    Always apply (fun m => m.Addressed ∧ m.Reloads) (new [.saved uuidA]) keepingOps := by
  have hread : ∀ row ∈ [SessionRow.saved uuidA], (rowToManagedSession row).isSome := by
    simp only [List.forall_mem_singleton]
    decide +kernel
  have hids : ([SessionRow.saved uuidA].map (·.id)).Nodup := List.nodup_singleton _
  refine (addressed_iff_keepsName hids hread keepingOps).mpr ⟨trivial, ?_, trivial, trivial⟩
  intro entry hs name hname
  have hmain : (((new [.saved uuidA]).apply (.load (.working uuidA []) "u".toList)).sessions
      ['a']).map (·.metadata.name) = some "main".toList := by decide +kernel
  rw [hs, Option.map_some, Option.some.injEq] at hmain
  exact (Option.some.inj hname).symm.trans hmain.symm

/-- A user creates a session, and gives it another name. -/
def renameOps : List Op :=
  let env := Env.working uuidA []
  [.create env "u".toList { name := "one".toList, transport := .ssh ['h'] },
    .update env ['a'] { name := some "two".toList }]

/-- The session that is shown as `two` still leads to the tmux session `one`. -/
theorem renamed_leads_elsewhere : ¬ ∀ (db : List SessionRow), (db.map (·.id)).Nodup →
    (∀ row ∈ db, (rowToManagedSession row).isSome) → ∀ ops : List Op,
    Always apply (fun m => m.Addressed ∧ m.Reloads) (new db) ops := by
  intro h
  have ha := (h [] List.nodup_nil (fun row hm => by cases hm) renameOps).last.1
  have hname : ((run apply (new []) renameOps).sessions ['a']).map (fun entry : SessionEntry =>
      (entry.transport.sessionName, entry.metadata.name)) =
      some ("one".toList, "two".toList) := by
    decide +kernel
  obtain ⟨entry, hs, he⟩ := Option.map_eq_some_iff.mp hname
  obtain ⟨hone, htwo⟩ := Prod.mk.inj he
  have hsame := (ha ['a'] entry hs).1
  rw [hone, htwo] at hsame
  exact absurd hsame (by decide)

end SessionManager

end Oxmux.Session
