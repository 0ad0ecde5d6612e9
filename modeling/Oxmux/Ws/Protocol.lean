import Oxmux.Session.Types

/-! The messages between browser and server, `server/src/ws/protocol.rs`. -/

namespace Oxmux.Ws
open Oxmux.Lib Oxmux.Session

/-- A piece of pane output. Which session's tmux produced it, in which pane, is
kept here for the proofs; nothing in the program sees it. -/
structure Chunk where
  origin : Text
  pane : Text
  data : Bytes
  deriving DecidableEq

structure IceServer where
  urls : List Text
  username : Option Text
  credential : Option Text
  deriving DecidableEq

inductive TmuxEventMsg where
  | sessionCreated (id name : Text)
  | sessionClosed (id : Text)
  | windowCreated (sessionId windowId name : Text)
  | windowClosed (sessionId windowId : Text)
  | paneCreated (windowId : Text) (pane : TmuxPaneInfo)
  | paneClosed (paneId : Text)
  | layoutChanged (windowId layout : Text)
  | paneTitleChanged (paneId title : Text)
  deriving DecidableEq

/-! ## Claude sessions -/

inductive FileChangeKind where
  | create
  | edit
  | delete
  deriving DecidableEq

structure FileChange where
  tool : Text
  path : Text
  kind : FileChangeKind
  deriving DecidableEq

structure TokenUsage where
  inputTokens : Option UInt32
  outputTokens : Option UInt32
  cacheReadInputTokens : Option UInt32
  cacheCreationInputTokens : Option UInt32
  deriving DecidableEq

structure Duration where
  secs : UInt64
  nanos : UInt32
  deriving DecidableEq

/-- `SessionAccumulator`; the cost is an `f64`, by its bits. -/
structure SessionAccumulator where
  sessionId : Text
  totalCostUsd : UInt64
  turnCount : UInt32
  fileChanges : List FileChange
  lastUsage : Option TokenUsage
  isComplete : Bool
  isError : Bool
  duration : Option Duration
  deriving DecidableEq

/-! ## Messages -/

inductive ServerMsg where
  | output (pane : Text) (data : Chunk) (sessionId : Option Text)
  | state (sessions : List TmuxSessionInfo)
  | tmuxEvent (event : TmuxEventMsg)
  | claudeAccumulator (sessionId : Text) (state : SessionAccumulator)
  | iceConfig (peerId : Text) (iceServers : List IceServer)
  | signal (peerId : Text) (payload : Json)
  | error (code message : Text)
  | pong (ts : Nat)
  | sessionList (sessions : List ManagedSession)
  | sessionCreated (session : ManagedSession)
  | sessionUpdated (session : ManagedSession)
  | sessionDeleted (sessionId : Text)
  | sessionConnected (session : ManagedSession)
  | sessionDisconnected (session : ManagedSession)
  | agentStatus (sessionId host status : Text) (agentId version : Option Text)
      (quicPort : Option Nat)
  | transportUpgradeReady (sessionId agentHost : Text) (agentPort : Nat) (agentToken : Text)
      (target certHash : Option Text)
  | transportUpgradeFailed (sessionId error : Text)

inductive ClientMsg where
  | subscribe (pane : Text) (sessionId : Option Text)
  | unsubscribe (pane : Text) (sessionId : Option Text)
  | input (pane : Text) (data : Bytes) (sessionId : Option Text)
  | resize (pane : Text) (cols rows : Nat) (sessionId : Option Text)
  | tmuxCommand (command : Text)
  | iceRequest (peerId : Text)
  | signal (peerId : Text) (payload : Json)
  | claudeInput (sessionId prompt : Text)
  | ping (ts : Nat)
  | createSession (req : CreateSessionRequest)
  | listSessions
  | connectSession (sessionId : Text)
  | disconnectSession (sessionId : Text)
  | updateSession (sessionId : Text) (request : UpdateSessionRequest)
  | deleteSession (sessionId : Text)
  | refreshSession (sessionId : Text)
  | installAgent (sessionId : Text)
  | transportUpgrade (sessionId target : Text)
  | agentStatusRequest (host : Text)

end Oxmux.Ws
