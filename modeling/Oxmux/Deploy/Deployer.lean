import Mathlib.Data.List.Infix
import Mathlib.Logic.Function.Basic
import Oxmux.Lib.Steps
import Oxmux.Lib.Utf8
import Oxmux.Ws.SessionHandler

/-! `deploy_via_ssh` (`server/src/agent/deployer.rs`): the steps of one agent
installation on the server's files, with every answer that a step can get. -/

namespace Oxmux.Deploy
open Oxmux.Lib Oxmux.Session Steps

/-! ## Files -/

/-- A file, and the run that wrote it last, if any has. -/
structure File where
  content : Bytes
  writer : Option Nat
  deriving DecidableEq

/-- The files of the server, by their paths. -/
abbrev Files := Text → Option File

/-- The files as they lie on the disk before any run. -/
def Files.ofDisk (disk : Text → Option Bytes) : Files :=
  fun path => (disk path).map fun content => { content, writer := none }

/-- What a step does to a file: it writes its content, or removes it. -/
structure Change where
  path : Text
  content : Option Bytes
  deriving DecidableEq

def Files.change (run : Nat) (c : Change) (files : Files) : Files :=
  Function.update files c.path (c.content.map fun content => { content, writer := some run })

def Files.changeAll (run : Nat) (cs : List Change) (files : Files) : Files :=
  cs.foldl (fun files c => files.change run c) files

/-! ## The process and the arguments -/

/-- What all runs in one server process share. -/
structure Process where
  id : Nat
  home : Option Text
  agentBinaryPath : Option Text

namespace Process
variable (p : Process)

def tmpPath : Text := "/tmp/oxmux-agent-".toList ++ showNat p.id

def tmpKey : Text := "/tmp/oxmux-scp-key-".toList ++ showNat p.id

theorem tmpKey_ne_tmpPath : p.tmpKey ≠ p.tmpPath := by
  unfold tmpKey tmpPath
  generalize showNat p.id = id
  intro h
  have htake := congrArg (List.take 12) h
  rw [List.take_append_of_le_length (by decide),
    List.take_append_of_le_length (by decide)] at htake
  revert htake
  decide

/-- A path under the home directory, written out. -/
def expand (path : Text) : Text :=
  match stripPrefix "~/".toList path with
  | some rest => p.home.getD "/home/oxmux".toList ++ '/' :: rest
  | none => path

def findAgentBinary (files : Files) : Except Text Text :=
  let paths := p.agentBinaryPath.toList ++
    ["/app/oxmux-agent".toList, "target/release/oxmux-agent".toList]
  match paths.find? fun path => (files path).isSome with
  | some path => .ok path
  | none => .error ("oxmux-agent binary not found. Set AGENT_BINARY_PATH or build with " ++
      "\x60cargo build --release -p oxmux-agent\x60").toList

end Process

structure Args where
  host : Text
  port : UInt16
  user : Text
  auth : SshAuthConfig
  agentSecret : Text
  coturnSecret : Text
  coturnServers : Text
  quicPort : UInt16

structure DeployResult where
  host : Text
  quicPort : UInt16
  status : Text
  deriving DecidableEq

/-! ## The commands -/

def isEncrypted (keyContent : Text) : Bool :=
  "DES-EDE3-CBC".toList <:+: keyContent || "DES-CBC".toList <:+: keyContent ||
    "Proc-Type: 4,ENCRYPTED".toList <:+: keyContent

def opensslArgs (expanded tmpKey pass : Text) : List Text :=
  ["rsa".toList, "-in".toList, expanded, "-out".toList, tmpKey, "-passin".toList,
    "pass:".toList ++ pass, "-traditional".toList]

def scpArgs (args : Args) (keyPath tmpPath : Text) : List Text :=
  ["-o".toList, "StrictHostKeyChecking=no".toList, "-o".toList,
    "UserKnownHostsFile=/dev/null".toList, "-P".toList, showNat args.port.toNat] ++
    (if keyPath = [] then [] else ["-i".toList, keyPath]) ++
    [tmpPath, args.user ++ '@' :: args.host ++ ":/tmp/oxmux-agent-upload".toList]

def installCmd : Text :=
  ("sudo mv /tmp/oxmux-agent-upload /usr/local/bin/oxmux-agent && " ++
    "sudo chmod +x /usr/local/bin/oxmux-agent && echo INSTALL_OK || " ++
    "(mv /tmp/oxmux-agent-upload ~/oxmux-agent && chmod +x ~/oxmux-agent && " ++
    "echo INSTALL_OK_HOME)").toList

def serviceCmd (args : Args) (agentBin : Text) : Text :=
  "sudo bash -c 'cat > /etc/systemd/system/oxmux-agent.service << SVCEOF\n".toList ++
    "[Unit]\nDescription=Oxmux Agent\nAfter=network.target\n\n[Service]\nType=simple\n".toList ++
    "User=".toList ++ args.user ++
    "\nEnvironment=AGENT_QUIC_PORT=".toList ++ showNat args.quicPort.toNat ++
    "\nEnvironment=OXMUX_AGENT_SECRET=".toList ++ args.agentSecret ++
    "\nEnvironment=COTURN_AUTH_SECRET=".toList ++ args.coturnSecret ++
    "\nEnvironment=COTURN_SERVERS=".toList ++ args.coturnServers ++
    "\nEnvironment=PUBLIC_IP=".toList ++ args.host ++
    "\nEnvironment=RUST_LOG=oxmux_agent=info\nExecStart=".toList ++ agentBin ++
    "\nRestart=always\nRestartSec=5\n\n[Install]\nWantedBy=multi-user.target\nSVCEOF\n".toList ++
    "systemctl daemon-reload && systemctl enable --now oxmux-agent' && echo SERVICE_OK".toList

/-! ## The answers -/

/-- What comes of a write. One that fails may leave a part. -/
inductive Written where
  | done
  | failed (left : Option Bytes)
  deriving DecidableEq

/-- What comes of a conversion that was started. -/
inductive Converted where
  | key (content : Bytes)
  | failed (left : Option Bytes)
  deriving DecidableEq

def Converted.success : Converted → Bool
  | key _ => true
  | failed _ => false

structure ScpOutput where
  success : Bool
  stderr : Bytes
  deriving DecidableEq

/-- What the world answers to the steps of a run. A command that cannot be
started answers with an error. -/
structure Env where
  readBinary : Bool
  writeBinary : Written
  readKey : Bool
  openssl : List Text → Except Text Converted
  scp : List Text → Except Text ScpOutput
  removeBinary : Bool
  removeKey : Bool
  exec : Text → Except Text Text

namespace Env
variable (env : Env) (p : Process)

def binaryData (files : Files) (binaryPath : Text) : Except Text Bytes :=
  match files binaryPath, env.readBinary with
  | some file, true => .ok file.content
  | _, _ => .error "failed to read agent binary".toList

/-- `read_to_string` and `unwrap_or_default`. -/
def keyContent (files : Files) (expanded : Text) : Text :=
  match files expanded, env.readKey with
  | some file, true => (Utf8.fromUtf8 file.content).getD []
  | _, _ => []

def binaryWritten (data : Bytes) : List Change :=
  match env.writeBinary with
  | .done => [{ path := p.tmpPath, content := some data }]
  | .failed left => left.toList.map fun part => { path := p.tmpPath, content := some part }

end Env

def keyWritten (p : Process) (converted : Except Text Converted) : List Change :=
  match converted with
  | .ok (.key content) => [{ path := p.tmpKey, content := some content }]
  | .ok (.failed left) => left.toList.map fun part => { path := p.tmpKey, content := some part }
  | .error _ => []

/-- `remove_file`, whose failure is passed over. -/
def removed (ok : Bool) (path : Text) : List Change :=
  if ok then [{ path, content := none }] else []

/-! ## The function -/

section
variable (p : Process) (run : Nat) (env : Env) (args : Args)

def change (cs : List Change) : Steps Text Files Unit := modify (Files.changeAll run cs)

/-- A key that is encrypted is converted to one that is not. -/
def convertKey (expanded pass : Text) : Steps Text Files (Text × Option Text) := do
  let output := env.openssl (opensslArgs expanded p.tmpKey pass)
  change run (keyWritten p output)
  let converted ← liftExcept output
  ensure converted.success "failed to convert encrypted key for scp".toList
  pure (p.tmpKey, some p.tmpKey)

def privateKey (expanded pass : Text) : Steps Text Files (Text × Option Text) := do
  if isEncrypted (env.keyContent (← get) expanded) then convertKey p run env expanded pass
  else pure (expanded, none)

/-- The key file for scp, and the temporary one that it is, if so. -/
def scpKey : Steps Text Files (Text × Option Text) :=
  match args.auth with
  | .privateKey path passphrase => privateKey p run env (p.expand path) (passphrase.getD [])
  | _ => pure ([], none)

/-- The systemd service, once the binary is installed. -/
def startService (installResult : Text) : Steps Text Files DeployResult := do
  ensure ("INSTALL_OK_HOME".toList <:+: installResult ∨ "INSTALL_OK".toList <:+: installResult)
    ("install failed: ".toList ++ trim installResult)
  let agentBin :=
    if "INSTALL_OK_HOME".toList <:+: installResult then
      "/home/".toList ++ args.user ++ "/oxmux-agent".toList
    else "/usr/local/bin/oxmux-agent".toList
  let result ← liftExcept (env.exec (serviceCmd args agentBin))
  ensure ("SERVICE_OK".toList <:+: result) ("service creation failed: ".toList ++ trim result)
  pure { host := args.host, quicPort := args.quicPort, status := "starting".toList }

def install (output : ScpOutput) : Steps Text Files DeployResult := do
  ensure output.success ("scp failed: ".toList ++ trim (Utf8.lossy output.stderr))
  let installResult ← liftExcept (env.exec installCmd)
  startService env args installResult

def removeTmpKey (tmpKeyPath : Option Text) : Steps Text Files Unit :=
  match tmpKeyPath with
  | some tmpKey => change run (removed env.removeKey tmpKey)
  | none => pure ()

/-- The upload, and the temporary files removed behind it. -/
def upload (keyPath : Text) (tmpKeyPath : Option Text) : Steps Text Files DeployResult := do
  let output ← liftExcept ((env.scp (scpArgs args keyPath p.tmpPath)).mapError
    fun _ => "scp command failed".toList)
  change run (removed env.removeBinary p.tmpPath)
  removeTmpKey run env tmpKeyPath
  install env args output

def deployViaSsh : Steps Text Files DeployResult := do
  let binaryPath ← liftExcept (p.findAgentBinary (← get))
  let binaryData ← liftExcept (env.binaryData (← get) binaryPath)
  change run (env.binaryWritten p binaryData)
  ensure (env.writeBinary = .done) "failed to write temp agent binary".toList
  let key ← scpKey p run env args
  upload p run env args key.1 key.2

end

/-! ## The commands on the host change no file of the server -/

section
variable (env : Env) (args : Args)

theorem startService_keeps (installResult : Text) :
    Keeps (startService env args installResult) := by
  unfold startService
  refine .bind (keeps_ensure _ _) fun _ => .bind (keeps_liftExcept _) fun result => ?_
  exact .bind (keeps_ensure _ _) fun _ => keeps_pure _

theorem install_keeps (output : ScpOutput) : Keeps (install env args output) := by
  unfold install
  refine .bind (keeps_ensure _ _) fun _ => .bind (keeps_liftExcept _) fun installResult => ?_
  exact startService_keeps env args installResult

end

/-! ## A deployment with an encrypted key -/

def Process.sample : Process where
  id := 7
  home := none
  agentBinaryPath := none

def Args.sample (path : Text) : Args where
  host := "h".toList
  port := 22
  user := "u".toList
  auth := .privateKey path (some "pass".toList)
  agentSecret := []
  coturnSecret := []
  coturnServers := []
  quicPort := 4433

/-- The agent's binary, and encrypted keys wherever one is looked for. -/
def sampleDisk (path : Text) : Option Bytes :=
  if path = "/app/oxmux-agent".toList then some [1]
  else if startsWith "/keys/".toList path then some (Utf8.encode ("DES-CBC ".toList ++ path))
  else none

/-- Every step goes well, and openssl writes this key. -/
def Env.working (key : Bytes) : Env where
  readBinary := true
  writeBinary := .done
  readKey := true
  openssl _ := .ok (.key key)
  scp _ := .ok { success := true, stderr := [] }
  removeBinary := true
  removeKey := true
  exec command := .ok (if command = installCmd then "INSTALL_OK".toList else "SERVICE_OK".toList)

end Oxmux.Deploy
