import Oxmux.Lib.Utf8

/-! MessagePack values as the agent reads them (`rmpv::Value`), and the field
accessors of `agent/src/quic/server.rs`. Decoding bytes into a value is the
`rmpv` library's work and stays a parameter wherever it is needed. -/

namespace Oxmux.Agent
open Oxmux.Lib Oxmux.Lib.Utf8

/-- `rmpv::Value`. A string is its bytes, which need not be UTF-8; floats and
extension values are `other`, as no accessor looks into them. -/
inductive Value where
  | nil
  | boolean (b : Bool)
  | integer (n : Int)
  | string (bytes : Bytes)
  | binary (bytes : Bytes)
  | array (items : List Value)
  | map (entries : List (Value × Value))
  | other

namespace Value

def asMap : Value → Option (List (Value × Value))
  | map entries => some entries
  | _ => none

/-- `as_str`: a string that is well-formed UTF-8. -/
def asStr : Value → Option Text
  | string bytes => if encode (lossy bytes) = bytes then some (lossy bytes) else none
  | _ => none

def asU64 : Value → Option Nat
  | integer n => if 0 ≤ n then some n.toNat else none
  | _ => none

/-- `Value::from(&str)`. -/
def str (s : Text) : Value := string (encode s)

@[simp] theorem asStr_str (s : Text) : (str s).asStr = some s := by
  simp [str, asStr]

def field (key : Text) (v : Value) : Option Value :=
  (v.asMap.bind fun m => m.find? fun e => e.1.asStr == some key).map Prod.snd

end Value

open Value

/-- `get_str`: empty when the field is missing or no string. -/
def getStr (v : Value) (key : Text) : Text := ((v.field key).bind asStr).getD []

def getBytes (v : Value) (key : Text) : Bytes :=
  match v.field key with
  | some (.binary bytes) => bytes
  | some (.string bytes) => bytes
  | _ => []

def getU64 (v : Value) (key : Text) : Nat := ((v.field key).bind asU64).getD 0

end Oxmux.Agent
