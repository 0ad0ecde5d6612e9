import Oxmux.Client.Routing
import Oxmux.Ws.Encoding

/-! What the store's senders encode (`client/src/stores/tmux.ts`): the message is
an object with its type as `t`, and `encode` writes its properties in order. -/

namespace Oxmux.Client
open Oxmux.Lib Oxmux.Session Oxmux.Ws

def MsgType.show : MsgType → Text
  | sub => "sub".toList
  | unsub => "unsub".toList
  | i => "i".toList
  | r => "r".toList
  | ping => "ping".toList
  | sessCreate => "sess_create".toList
  | sessList => "sess_list".toList
  | sessConnect => "sess_connect".toList
  | sessDisconnect => "sess_disconnect".toList
  | sessDelete => "sess_delete".toList
  | sessRefresh => "sess_refresh".toList
  | sessUpdate => "sess_update".toList
  | agentStatus => "agent_status".toList
  | agentInstall => "agent_install".toList
  | transportUpgrade => "transport_upgrade".toList
  | iceReq => "ice_req".toList
  | other t => t

/-- `encode` of a candidate; what is `null` is written. -/
def IceCandidate.pack (init : IceCandidate) : Pack :=
  .map [("candidate".toList, .str init.candidate),
    ("sdpMid".toList, .option (init.sdpMid.map .str)),
    ("sdpMLineIndex".toList, .option (init.sdpMLineIndex.map .nat)),
    ("usernameFragment".toList, .option (init.usernameFragment.map .str))]

def FieldValue.pack : FieldValue → Pack
  | text s => .str s
  | num n => .nat n
  | data bytes => .bin bytes
  | transport config => .ofJson config.toJson
  | candidate init => init.pack

def Message.entries (msg : Message (List (Text × FieldValue))) : List (Text × Pack) :=
  ("t".toList, .str msg.t.show) :: (msg.pane.toList.map fun pane => ("pane".toList, .str pane)) ++
    msg.fields.map fun field => (field.1, field.2.pack)

def encodeMsg (msg : Msg) : Pack := .map msg.message.entries

/-! ## The dialog for a new session -/

inductive BackendType where
  | ssh
  | agent
  | local
  deriving DecidableEq

inductive AuthMethod where
  | agent
  | privateKey
  | password
  | uploadedKey
  deriving DecidableEq

/-- What an input for numbers holds; a fraction is known by its bits. -/
inductive NumberInput where
  | empty
  | int (n : Int)
  | fraction (bits : UInt64)
  deriving DecidableEq

/-- The dialog's fields, `client/src/components/NewSessionDialog.vue`. -/
structure NewSession where
  name : Text
  backendType : BackendType
  browserTransport : BrowserTransport
  host : Text
  sshPort : NumberInput
  agentPort : NumberInput
  user : Text
  authMethod : AuthMethod
  keyPath : Text
  passphrase : Text
  password : Text
  uploadedKeyContent : Text
  uploadedKeyId : Text
  deriving DecidableEq

/-- `String.prototype.trim`, which takes off byte order marks too and leaves
`U+0085`. -/
def isJsSpace (c : Char) : Bool :=
  (isWhitespace c && c ≠ Char.ofNat 0x85) || c = Char.ofNat 0xFEFF

def trimJs (s : Text) : Text := (s.dropWhile isJsSpace).rdropWhile isJsSpace

namespace NewSession

/-- `port || byDefault`. -/
def port (input : NumberInput) (byDefault : UInt16) : Pack :=
  match input with
  | .empty => .nat byDefault.toNat
  | .int n => if n = 0 then .nat byDefault.toNat else .int n
  | .fraction bits => .float bits

/-- The object that says how to log in. An empty passphrase is `undefined`, which
is encoded as nil. -/
def auth (form : NewSession) : Pack :=
  let method (m : String) : Text × Pack := ("method".toList, .str m.toList)
  match form.authMethod with
  | .agent => .map [method "agent"]
  | .privateKey => .map [method "private_key", ("path".toList, .str form.keyPath),
      ("passphrase".toList, if form.passphrase = [] then .nil else .str form.passphrase)]
  | .uploadedKey => .map [method "uploaded_key", ("key_id".toList, .str form.uploadedKeyId)]
  | .password => .map [method "password", ("password".toList, .str form.password)]

def buildTransport (form : NewSession) : Pack :=
  let type (t : String) : Text × Pack := ("type".toList, .str t.toList)
  let backend : Pack := match form.backendType with
    | .ssh => .map [type "ssh", ("host".toList, .str form.host),
        ("port".toList, port form.sshPort defaultSshPort), ("user".toList, .str form.user),
        ("auth".toList, form.auth)]
    | .agent => .map [type "agent", ("host".toList, .str form.host),
        ("port".toList, port form.agentPort defaultAgentPort)]
    | .local => .map [type "local"]
  .map [("browser".toList, .ofJson form.browserTransport.toJson), ("backend".toList, backend)]

/-- The form that is sent: a key is uploaded first, and without its id there is
no session. -/
def uploaded (upload : Option Text) (form : NewSession) : Option NewSession :=
  if form.authMethod = .uploadedKey && form.uploadedKeyContent ≠ [] then
    upload.map fun keyId => { form with uploadedKeyId := keyId }
  else some form

/-- The message that `createSession` of the store sends for a form. -/
def message (form : NewSession) : Pack :=
  .map [("t".toList, .str MsgType.sessCreate.show), ("name".toList, .str (trimJs form.name)),
    ("transport".toList, form.buildTransport)]

def create (upload : Option Text) (form : NewSession) : Option Pack :=
  (form.uploaded upload).map message

end NewSession

end Oxmux.Client
