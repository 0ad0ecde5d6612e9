import Oxmux.Session.Address
import Oxmux.Session.JsonText

/-! Transport configurations in the table (`server/src/db/repo.rs`): the text
that `insert_session` writes, and the two formats that `row_to_managed_session`
reads. -/

namespace Oxmux.Session
open Oxmux.Lib

/-! ## The text -/

namespace Json

mutual

/-- How deep arrays and objects lie in each other. -/
def depth : Json → Nat
  | arr items => itemsDepth items + 1
  | obj fields => fieldsDepth fields + 1
  | _ => 0

def itemsDepth : List Json → Nat
  | [] => 0
  | item :: items => max (depth item) (itemsDepth items)

def fieldsDepth : List (Text × Json) → Nat
  | [] => 0
  | (_, value) :: fields => max (depth value) (fieldsDepth fields)

end

end Json

/-- `serde_json`: the text of a value, and the value of a text. -/
structure SerdeJson where
  toString : Json → Text
  fromStr : Text → Option Json

/-- A text is read as what was written, down to the depth where the reader gives
up. -/
structure SerdeJson.Lawful (serde : SerdeJson) : Prop where
  fromStr_toString : ∀ j, j.depth < 128 → serde.fromStr (serde.toString j) = some j

def SerdeJson.compact : SerdeJson where
  toString := Json.toText
  fromStr := Json.ofText

theorem SerdeJson.compact_lawful : compact.Lawful where
  fromStr_toString j _ := j.ofText_toText

theorem SshAuthConfig.depth_toJson (auth : SshAuthConfig) : auth.toJson.depth = 1 := by
  cases auth with
  | privateKey path passphrase => cases passphrase <;> rfl
  | uploadedKey keyId passphrase => cases passphrase <;> rfl
  | _ => rfl

theorem BackendTransport.depth_toJson (backend : BackendTransport) : backend.toJson.depth ≤ 2 := by
  cases backend with
  | ssh host port user auth => simp [toJson, Json.depth, Json.fieldsDepth, auth.depth_toJson]
  | agent host port agentId => cases agentId <;> simp [toJson, Json.depth, Json.fieldsDepth]
  | «local» => decide

theorem TransportConfig.depth_toJson (config : TransportConfig) : config.toJson.depth ≤ 3 := by
  have h := config.backend.depth_toJson
  cases hb : config.browser <;>
    simp only [toJson, Json.depth, Json.fieldsDepth, hb, BrowserTransport.toJson] <;>
    omega

/-! ## The row -/

/-- A row as it lies in the table. -/
structure StoredRow where
  id : Uuid
  userId : Text
  name : Text
  transportConfig : Text
  status : Text
  error : Option Text
  createdAt : Nat

section
variable (serde : SerdeJson)

def insertSession (id : Uuid) (userId name : Text) (config : TransportConfig) (createdAt : Nat) :
    StoredRow where
  id
  userId
  name
  transportConfig := serde.toString config.toJson
  status := "created".toList
  error := none
  createdAt

namespace StoredRow

def read (row : StoredRow) : Option SessionRow :=
  (serde.fromStr row.transportConfig).map fun transportConfig =>
    { id := row.id, userId := row.userId, name := row.name, transportConfig, status := row.status
      error := row.error, createdAt := row.createdAt }

/-- `row_to_managed_session`. A text that is no JSON is read in neither format. -/
def toManagedSession (row : StoredRow) : Option ManagedSession :=
  (row.read serde).bind rowToManagedSession

end StoredRow

end

/-! ## What is read back -/

section
variable {serde : SerdeJson} {row : StoredRow} {j : Json}

theorem read_insertSession (hserde : serde.Lawful) (id : Uuid) (userId name : Text)
    (config : TransportConfig) (createdAt : Nat) :
    (insertSession serde id userId name config createdAt).read serde =
      some { id, userId, name, transportConfig := config.toJson, status := "created".toList
             error := none, createdAt } := by
  have hdepth : config.toJson.depth < 128 := by
    have := config.depth_toJson
    omega
  simp only [StoredRow.read, insertSession, hserde.fromStr_toString _ hdepth, Option.map_some]

theorem create_db (hserde : serde.Lawful) {env : Env} {m : SessionManager} (userId : Text)
    (req : CreateSessionRequest) (h : env.dbWrite 0 = true ∧ env.uuid ∉ m.db.map (·.id)) :
    (m.create env userId req).1.db = m.db ++
      ((insertSession serde env.uuid userId req.name req.transport env.now).read serde).toList := by
  rw [read_insertSession hserde, SessionManager.create, if_pos h]
  rfl

/-- The transport of a row is what its configuration says in one of the formats. -/
theorem transport_toManagedSession (hj : serde.fromStr row.transportConfig = some j) :
    (row.toManagedSession serde).map (·.transport) = storedConfig j := by
  simp only [StoredRow.toManagedSession, StoredRow.read, hj, Option.map_some, Option.bind_some,
    rowToManagedSession, Option.map_map, storedConfig]
  exact congrFun Option.map_id _

/-- Without the field `backend`, the newer format is not there. -/
theorem ofJson_of_no_backend (h : j.field "backend".toList = none) :
    TransportConfig.ofJson j = none := by
  unfold TransportConfig.ofJson
  rw [h]
  cases j.fieldOr "browser".toList .websocket BrowserTransport.ofJson <;> rfl

theorem BackendTransport.no_backend (backend : BackendTransport) :
    backend.toJson.field "backend".toList = none := by
  cases backend with
  | ssh host port user auth => rfl
  | agent host port agentId => cases agentId <;> rfl
  | «local» => rfl

theorem storedConfig_legacy (backend : BackendTransport) :
    storedConfig backend.toJson = some { browser := .websocket, backend } := by
  rw [storedConfig, ofJson_of_no_backend backend.no_backend, backend.ofJson_toJson]
  rfl

/-- A stored configuration is read back as it was, and one of the older format as
its backend behind the default browser transport; no text of the older format is
taken for one of the newer. -/
theorem stored_config_survives (hserde : serde.Lawful) :
    (∀ id userId name config createdAt,
      ((insertSession serde id userId name config createdAt).toManagedSession serde).map
        (·.transport) = some config) ∧
    ∀ (row : StoredRow) (backend : BackendTransport),
      row.transportConfig = serde.toString backend.toJson →
        (serde.fromStr row.transportConfig).bind TransportConfig.ofJson = none ∧
        (row.toManagedSession serde).map (·.transport) =
          some { browser := .websocket, backend } := by
  refine ⟨fun id userId name config createdAt => ?_, fun row backend hrow => ?_⟩
  · have hdepth : config.toJson.depth < 128 := by
      have := config.depth_toJson
      omega
    rw [transport_toManagedSession (hserde.fromStr_toString _ hdepth), storedConfig,
      config.ofJson_toJson, Option.some_or]
  · have hdepth : backend.toJson.depth < 128 := by
      have := backend.depth_toJson
      omega
    have hread : serde.fromStr row.transportConfig = some backend.toJson := by
      rw [hrow, hserde.fromStr_toString _ hdepth]
    refine ⟨?_, ?_⟩
    · rw [hread, Option.bind_some, ofJson_of_no_backend backend.no_backend]
    · rw [transport_toManagedSession hread, storedConfig_legacy]

theorem stored_config_survives_sample :
    let config : TransportConfig :=
      { browser := .quic
        backend := .ssh "a\"b\n".toList 22 "u\\".toList (.privateKey "k".toList none) }
    ((insertSession .compact uuidA [] [] config 0).toManagedSession .compact).map
      (·.transport) = some config :=
  (stored_config_survives SerdeJson.compact_lawful).1 _ _ _ _ _

end

end Oxmux.Session
