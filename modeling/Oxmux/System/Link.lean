import Oxmux.Agent.Framing
import Oxmux.Client.ReadLoop
import Oxmux.Lib.Pipe
import Oxmux.System.Fallback
import Oxmux.System.Upstream

/-! A session over QUIC: the browser, the agent of its direct connection, and the
bytes between them. The agent is `handle_session` behind the authentication
(`agent/src/quic/server.rs`); the browser is `connectQuicP2P` of
`client/src/stores/tmux.ts` over the read loop of
`client/src/composables/useQuic.ts`. No message of this connection is an offer,
so the agent has no data channel. -/

namespace Oxmux.System
open Oxmux.Lib Oxmux.Lib.Runs Oxmux.Lib.Frames Oxmux.Session Oxmux.Ws Oxmux.Client

/-! ## Messages -/

inductive AgentMsg where
  | connected (id name : Text) (tmuxSessions : List TmuxSessionInfo)
  | output (o : Output)
  | reply (r : Agent.Reply)
  deriving DecidableEq

namespace AgentMsg

/-- What the store makes of it: no session that it knows has the new id, and the
signaling of WebRTC has no case. -/
def handle (sessionId : SessionId) (m : AgentMsg) (s : Store) : Store :=
  match m with
  | .connected .. => s
  | .output o => s.handleServerMsg (o.msg sessionId) (some sessionId.val)
  | .reply (.pong ts) => s.handleServerMsg (.pong ts) (some sessionId.val)
  | .reply .sessList => s.handleServerMsg (.sessionList []) (some sessionId.val)
  | .reply (.webrtcAnswer _) | .reply (.webrtcError _) => s

def output? : AgentMsg → Option Output
  | .output o => some o
  | _ => none

end AgentMsg

structure Codec where
  encode : Msg → Bytes
  readValue : Bytes → Option Agent.Value
  encodeAgent : AgentMsg → Bytes
  decode : Bytes → Option AgentMsg

namespace Codec

variable (codec : Codec)

/-- The message fits its length, and is read as what it is. -/
def Carries (m : Msg) : Prop :=
  Sized (codec.encode m) ∧ codec.readValue (codec.encode m) = some (value (encodeMsg m))

def CarriesAgent (m : AgentMsg) : Prop :=
  Sized (codec.encodeAgent m) ∧ codec.decode (codec.encodeAgent m) = some m

end Codec

/-- What a step of the store writes to a direct connection. -/
def sentTo (conn : Nat) (s s' : Store) : List Msg :=
  ((s'.p2pWire.drop s.p2pWire.length).filter (·.1 = conn)).map (·.2)

def repliesSince (a a' : Agent.State) : List AgentMsg :=
  (a'.replies.drop a.replies.length).map .reply

/-- What the world answers to one message of the browser. To the first one, `hello` is
the new id and the tree, or nothing if the session or the reply fails. -/
structure Answers where
  hello : Text → Option (Text × List TmuxSessionInfo)
  env : Agent.Env

/-! ## The link -/

/-- A session over QUIC: the loops at both ends, the control mode's channel, and the
stream each way. -/
structure Link where
  agent : Agent.State
  running : Bool
  attached : Bool
  outputRx : List Output
  up : Pipe Msg
  down : Pipe AgentMsg
  store : Store

/-- A read takes at most `n` bytes and handles what they complete; `sent` is what the
stream makes of a message. -/
inductive LinkPick where
  | emit (o : Output)
  | forward (sent : Bool)
  | agentRead (n : Nat) (answers : Nat → Answers)
  | hangUp
  | browserRead (n : Nat)
  | browser (e : Event)

namespace Link

variable (codec : Codec) (conn : Nat) (sessionId : SessionId)

/-- The message loop on the payloads that a read completes. -/
def handleFrames (answers : Nat → Answers) : Nat → List Bytes → Agent.State → Agent.State
  | _, [], a => a
  | i, data :: frames, a =>
    handleFrames answers (i + 1) frames
      (Agent.handleMessage codec.readValue (answers i).env a data)

/-- `sess_connected`, if there is something to say. -/
def greet (name : Text) (l : Link) : Option (Text × List TmuxSessionInfo) → Link
  | some (id, trees) =>
    { l with attached := true, down := l.down.write [.connected id name trees] }
  | none => { l with running := false }

/-- The first message names the tmux session. -/
def attach (answers : Answers) (data : Bytes) (l : Link) : Link :=
  match codec.readValue data with
  | some msg => l.greet (Agent.sessionName msg) (answers.hello (Agent.sessionName msg))
  | none => { l with running := false }

def agentRead (n : Nat) (answers : Nat → Answers) (l : Link) : Link :=
  let frames := l.up.completed codec.encode n
  let up := l.up.read codec.encode n
  if l.attached then
    let agent := handleFrames codec answers 0 frames l.agent
    { l with agent, up, down := l.down.write (repliesSince l.agent agent) }
  else match frames with
    | [] => { l with up }
    -- what the read holds behind the first message is lost
    | data :: _ => attach codec (answers 0) data { l with up := { up with buf := [] } }

/-- An output from the channel: of a pane that is not subscribed it is discarded. -/
def forward (o : Output) (sent : Bool) (l : Link) : Link :=
  if o.pane ∈ l.agent.subscribedPanes then
    if sent then { l with down := l.down.write [.output o] } else { l with running := false }
  else l

/-- The read loop of the connection, each message for `handleServerMsg`. -/
def browserRead (n : Nat) (l : Link) : Link :=
  let r := ReadLoop.readChunk codec.decode
    { streamBuf := l.down.buf, extracted := [], handled := [] } (l.down.chunk codec.encodeAgent n)
  { l with
    down := { l.down with
      readUp := l.down.readUp + (l.down.chunk codec.encodeAgent n).length, buf := r.streamBuf }
    store := r.handled.foldl (fun s m => m.handle sessionId s) l.store }

def step (l : Link) : LinkPick → Link
  | .emit o => if l.outputRx.length < 512 then { l with outputRx := l.outputRx ++ [o] } else l
  | .forward sent =>
    match l.running && l.attached, l.outputRx with
    | true, o :: outputs => forward o sent { l with outputRx := outputs }
    | _, _ => l
  | .agentRead n answers => if l.running then l.agentRead codec n answers else l
  | .hangUp => { l with running := false }
  -- a connection that the browser closed is not read any more
  | .browserRead n => if conn ∈ l.store.p2pClosed then l else l.browserRead codec sessionId n
  -- the outputs of other connections are not in this model
  | .browser e =>
    if l.store.gives e = [] then
      { l with
        up := l.up.write (sentTo conn l.store (l.store.step e))
        store := l.store.step e }
    else l

/-- The link behind the authentication. -/
def start (ctrlStdin : Agent.Stdin) (store : Store) : Link where
  agent := .new ctrlStdin
  running := true
  attached := false
  outputRx := []
  up := .empty
  down := .empty
  store

end Link

end Oxmux.System
