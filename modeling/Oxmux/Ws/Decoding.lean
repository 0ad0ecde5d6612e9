import Mathlib.Algebra.Group.Int.Defs
import Oxmux.Lib.Utf8
import Oxmux.Ws.Encoding

/-! What `decode_client_msg` (`server/src/ws/protocol.rs`) makes of a value. The
decoder is derived: the tag names the variant, the fields are looked up by their
names in any order, further entries are skipped, and a field that stands twice
is an error. -/

namespace Oxmux.Ws
open Oxmux.Lib Oxmux.Session

namespace Pack

/-! ## Values -/

/-- A `String`; bytes are taken if they are UTF-8. -/
def asText : Pack → Option Text
  | str s => some s
  | bin bytes => Utf8.fromUtf8 bytes
  | _ => none

/-- An unsigned integer of this many bits. -/
def asUInt (bits : Nat) : Pack → Option Nat
  | int n => if 0 ≤ n ∧ n < 2 ^ bits then some n.toNat else none
  | _ => none

/-- `bytes::Bytes`: from bytes, a text, or the numbers of a list. -/
def asBytes : Pack → Option Bytes
  | bin bytes => some bytes
  | str s => some (Utf8.encode s)
  | arr items => (items.mapM (asUInt 8)).map fun ns => ns.map UInt8.ofNat
  | _ => none

def asOptText : Pack → Option (Option Text)
  | nil => some none
  | v => (asText v).map some

mutual

/-- The value of the same shape as JSON; bytes and floats have none. -/
def toJson : Pack → Option Json
  | nil => some .null
  | bool b => some (.bool b)
  | int n => some (.num n)
  | str s => some (.str s)
  | arr items => (toJsons items).map .arr
  | map entries => (toFields entries).map .obj
  | float _ | bin _ => none

def toJsons : List Pack → Option (List Json)
  | [] => some []
  | v :: vs => (toJson v).bind fun j => (toJsons vs).map (j :: ·)

def toFields : List (Text × Pack) → Option (List (Text × Json))
  | [] => some []
  | (key, v) :: entries => (toJson v).bind fun j => (toFields entries).map ((key, j) :: ·)

end

/-! ## Fields -/

/-- A field that must be there, once. -/
def required {α : Type} (read : Pack → Option α) (key : Text) (entries : List (Text × Pack)) :
    Option α :=
  match entries.filter (·.1 = key) with
  | [e] => read e.2
  | _ => none

/-- An optional text: not there, or there once. -/
def optional (key : Text) (entries : List (Text × Pack)) : Option (Option Text) :=
  match entries.filter (·.1 = key) with
  | [] => some none
  | [e] => asOptText e.2
  | _ => none

end Pack

open Pack

def readCreateSession (entries : List (Text × Pack)) : Option CreateSessionRequest := do
  some {
    name := ← required asText "name".toList entries
    transport :=
      ← required (fun v => v.toJson.bind TransportConfig.ofJson) "transport".toList entries }

/-- The variant of a tag, from the entries of the message. -/
def readVariant (t : Text) (entries : List (Text × Pack)) : Option ClientMsg :=
  let text (key : String) := required asText key.toList entries
  let sessionId := optional "session_id".toList entries
  if t = "sub".toList then do some (.subscribe (← text "pane") (← sessionId))
  else if t = "unsub".toList then do some (.unsubscribe (← text "pane") (← sessionId))
  else if t = "i".toList then do
    some (.input (← text "pane") (← required asBytes "data".toList entries) (← sessionId))
  else if t = "r".toList then do
    some (.resize (← text "pane") (← required (asUInt 16) "cols".toList entries)
      (← required (asUInt 16) "rows".toList entries) (← sessionId))
  else if t = "cmd".toList then do some (.tmuxCommand (← text "command"))
  else if t = "ice_req".toList then do some (.iceRequest (← text "peer_id"))
  else if t = "sig".toList then do
    some (.signal (← text "peer_id") (← required toJson "payload".toList entries))
  else if t = "claude_in".toList then do
    some (.claudeInput (← text "session_id") (← text "prompt"))
  else if t = "ping".toList then do some (.ping (← required (asUInt 64) "ts".toList entries))
  else if t = "sess_create".toList then do some (.createSession (← readCreateSession entries))
  else if t = "sess_list".toList then some .listSessions
  else if t = "sess_connect".toList then do some (.connectSession (← text "session_id"))
  else if t = "sess_disconnect".toList then do some (.disconnectSession (← text "session_id"))
  else if t = "sess_update".toList then do
    some (.updateSession (← text "session_id") { name := ← optional "name".toList entries })
  else if t = "sess_delete".toList then do some (.deleteSession (← text "session_id"))
  else if t = "sess_refresh".toList then do some (.refreshSession (← text "session_id"))
  else if t = "agent_install".toList then do some (.installAgent (← text "session_id"))
  else if t = "transport_upgrade".toList then do
    some (.transportUpgrade (← text "session_id") (← text "target"))
  else if t = "agent_status".toList then do some (.agentStatusRequest (← text "host"))
  else none

def readClientMsg : Pack → Option ClientMsg
  | .map entries => (required asText "t".toList entries).bind fun t => readVariant t entries
  | _ => none

/-! ## What is encoded is decoded -/

namespace Pack

mutual

/-- **A JSON value is read back.** -/
theorem toJson_ofJson : (j : Json) → toJson (ofJson j) = some j
  | .null | .bool _ | .num _ | .str _ => rfl
  | .arr items => by rw [ofJson, toJson, toJsons_ofJsons items, Option.map_some]
  | .obj fields => by rw [ofJson, toJson, toFields_ofFields fields, Option.map_some]

theorem toJsons_ofJsons : (js : List Json) → toJsons (ofJsons js) = some js
  | [] => rfl
  | j :: js => by
    rw [ofJsons, toJsons, toJson_ofJson j, toJsons_ofJsons js]
    rfl

theorem toFields_ofFields : (fields : List (Text × Json)) → toFields (ofFields fields) = some fields
  | [] => rfl
  | (key, j) :: fields => by
    rw [ofFields, toFields, toJson_ofJson j, toFields_ofFields fields]
    rfl

end

end Pack

/-! ## Messages -/

end Oxmux.Ws
