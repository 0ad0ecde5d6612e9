import Oxmux.Client.Encoding
import Oxmux.Session.Address
import Oxmux.Ws.Decoding
import Oxmux.Ws.SessionHandler

/-! The dialog for a new session, and the session that the server makes of what
it sends. The form takes any number for a port; the server's is 16 bits wide. -/

namespace Oxmux.Client
open Oxmux.Lib Oxmux.Session Oxmux.Ws Pack

/-- A port's number, or a default. -/
def NumberInput.Fits : NumberInput → Prop
  | empty => True
  | int n => 0 ≤ n ∧ n < 65536
  | fraction _ => False

namespace NewSession

/-! ## What the form shows -/

/-- The port that an input stands for: empty and 0 are the default. -/
def portNumber (input : NumberInput) (byDefault : UInt16) : Option UInt16 :=
  match input with
  | .empty => some byDefault
  | .int n =>
    if n = 0 then some byDefault
    else if 0 ≤ n ∧ n < 65536 then some (.ofNat n.toNat) else none
  | .fraction _ => none

def authConfig (keyId : Text) (form : NewSession) : SshAuthConfig :=
  match form.authMethod with
  | .agent => .agent
  | .privateKey =>
    .privateKey form.keyPath (if form.passphrase = [] then none else some form.passphrase)
  | .uploadedKey => .uploadedKey keyId none
  | .password => .password form.password

def backendConfig (keyId : Text) (form : NewSession) : Option BackendTransport :=
  match form.backendType with
  | .ssh => (portNumber form.sshPort defaultSshPort).map fun port =>
      .ssh form.host port form.user (form.authConfig keyId)
  | .agent => (portNumber form.agentPort defaultAgentPort).map fun port =>
      .agent form.host port none
  | .local => some BackendTransport.local

def config (keyId : Text) (form : NewSession) : Option TransportConfig :=
  (form.backendConfig keyId).map fun backend => { browser := form.browserTransport, backend }

end NewSession

end Oxmux.Client
