import Oxmux.Ws.Protocol

/-! What `encode_server_msg` (`server/src/ws/protocol.rs`) makes of a message.
The types derive their serialisation: a struct is a map under its own field
names, an enum with a tag has the tag as the first entry of that map, and a
variant around another enum adds its tag to the entries of the inner one. -/

namespace Oxmux.Ws
open Oxmux.Lib Oxmux.Session

/-- A MessagePack value; a float is given by its bits. -/
inductive Pack where
  | nil
  | bool (b : Bool)
  | int (n : Int)
  | float (bits : UInt64)
  | str (s : Text)
  | bin (bytes : Bytes)
  | arr (items : List Pack)
  | map (entries : List (Text × Pack))

namespace Pack

mutual

/-- The value of the same shape, as for `serde_json::Value`. -/
def ofJson : Json → Pack
  | .null => nil
  | .bool b => bool b
  | .num n => int n
  | .str s => str s
  | .arr items => arr (ofJsons items)
  | .obj fields => map (ofFields fields)

def ofJsons : List Json → List Pack
  | [] => []
  | j :: js => ofJson j :: ofJsons js

def ofFields : List (Text × Json) → List (Text × Pack)
  | [] => []
  | (key, j) :: fields => (key, ofJson j) :: ofFields fields

end

def nat (n : Nat) : Pack := int n

/-- An `Option` that is always written. -/
def option : Option Pack → Pack
  | some v => v
  | none => nil

end Pack

open Pack

/-- A field that is skipped if it is `None`. -/
def optField (key : Text) (v : Option Pack) : List (Text × Pack) := v.toList.map (key, ·)

/-! ## tmux trees -/

def TmuxPaneInfo.entries (p : TmuxPaneInfo) : List (Text × Pack) :=
  [("id".toList, str p.id), ("index".toList, nat p.index), ("cols".toList, nat p.cols),
    ("rows".toList, nat p.rows), ("current_command".toList, str p.currentCommand),
    ("is_active".toList, bool p.isActive), ("is_claude".toList, bool p.isClaude)]

def TmuxWindowInfo.entries (w : TmuxWindowInfo) : List (Text × Pack) :=
  [("id".toList, str w.id), ("name".toList, str w.name), ("index".toList, nat w.index),
    ("layout".toList, str w.layout),
    ("panes".toList, arr (w.panes.map fun p => map (TmuxPaneInfo.entries p)))]

def TmuxSessionInfo.entries (s : TmuxSessionInfo) : List (Text × Pack) :=
  [("id".toList, str s.id), ("name".toList, str s.name),
    ("windows".toList, arr (s.windows.map fun w => map (TmuxWindowInfo.entries w)))]

def packTrees (trees : List TmuxSessionInfo) : Pack :=
  arr (trees.map fun t => map (TmuxSessionInfo.entries t))

/-! ## Sessions -/

/-- A managed session. Its transport is written as it is stored. -/
def packManaged (s : ManagedSession) : Pack :=
  map ([("id".toList, str s.id), ("name".toList, str s.name),
    ("transport".toList, ofJson s.transport.toJson), ("status".toList, str s.status.show)] ++
    optField "error".toList (s.error.map str) ++
    if s.tmuxSessions = [] then [] else [("tmux_sessions".toList, packTrees s.tmuxSessions)])

/-! ## Events, accumulators, ICE -/

/-- The entries of an event, its kind first. -/
def TmuxEventMsg.entries : TmuxEventMsg → List (Text × Pack)
  | sessionCreated id name =>
    [("k".toList, str "session_created".toList), ("id".toList, str id), ("name".toList, str name)]
  | sessionClosed id => [("k".toList, str "session_closed".toList), ("id".toList, str id)]
  | windowCreated sessionId windowId name =>
    [("k".toList, str "window_created".toList), ("session_id".toList, str sessionId),
      ("window_id".toList, str windowId), ("name".toList, str name)]
  | windowClosed sessionId windowId =>
    [("k".toList, str "window_closed".toList), ("session_id".toList, str sessionId),
      ("window_id".toList, str windowId)]
  | paneCreated windowId pane =>
    [("k".toList, str "pane_created".toList), ("window_id".toList, str windowId),
      ("pane".toList, map (TmuxPaneInfo.entries pane))]
  | paneClosed paneId => [("k".toList, str "pane_closed".toList), ("pane_id".toList, str paneId)]
  | layoutChanged windowId layout =>
    [("k".toList, str "layout_changed".toList), ("window_id".toList, str windowId),
      ("layout".toList, str layout)]
  | paneTitleChanged paneId title =>
    [("k".toList, str "pane_title_changed".toList), ("pane_id".toList, str paneId),
      ("title".toList, str title)]

def FileChangeKind.show : FileChangeKind → Text
  | create => "create".toList
  | edit => "edit".toList
  | delete => "delete".toList

def FileChange.entries (c : FileChange) : List (Text × Pack) :=
  [("tool".toList, str c.tool), ("path".toList, str c.path), ("kind".toList, str c.kind.show)]

def TokenUsage.entries (u : TokenUsage) : List (Text × Pack) :=
  let tokens (n : Option UInt32) : Pack := option (n.map fun n => nat n.toNat)
  [("input_tokens".toList, tokens u.inputTokens), ("output_tokens".toList, tokens u.outputTokens),
    ("cache_read_input_tokens".toList, tokens u.cacheReadInputTokens),
    ("cache_creation_input_tokens".toList, tokens u.cacheCreationInputTokens)]

def SessionAccumulator.entries (a : SessionAccumulator) : List (Text × Pack) :=
  [("session_id".toList, str a.sessionId), ("total_cost_usd".toList, float a.totalCostUsd),
    ("turn_count".toList, nat a.turnCount.toNat),
    ("file_changes".toList, arr (a.fileChanges.map fun c => map c.entries)),
    ("last_usage".toList, option (a.lastUsage.map fun u => map u.entries)),
    ("is_complete".toList, bool a.isComplete), ("is_error".toList, bool a.isError),
    ("duration".toList, option (a.duration.map fun d =>
      map [("secs".toList, nat d.secs.toNat), ("nanos".toList, nat d.nanos.toNat)]))]

def IceServer.entries (s : IceServer) : List (Text × Pack) :=
  [("urls".toList, arr (s.urls.map str))] ++ optField "username".toList (s.username.map str) ++
    optField "credential".toList (s.credential.map str)

/-! ## Messages -/

def ServerMsg.tag : ServerMsg → Text
  | output .. => "o".toList
  | state _ => "s".toList
  | tmuxEvent _ => "e".toList
  | claudeAccumulator .. => "ca".toList
  | iceConfig .. => "ice".toList
  | signal .. => "sig".toList
  | error .. => "err".toList
  | pong _ => "pong".toList
  | sessionList _ => "sess_list".toList
  | sessionCreated _ => "sess_created".toList
  | sessionUpdated _ => "sess_updated".toList
  | sessionDeleted _ => "sess_deleted".toList
  | sessionConnected _ => "sess_connected".toList
  | sessionDisconnected _ => "sess_disconnected".toList
  | agentStatus .. => "agent_status".toList
  | transportUpgradeReady .. => "transport_upgrade_ready".toList
  | transportUpgradeFailed .. => "transport_upgrade_failed".toList

def ServerMsg.entries : ServerMsg → List (Text × Pack)
  | output pane data sessionId =>
    [("pane".toList, str pane), ("data".toList, bin data.data)] ++
      optField "session_id".toList (sessionId.map str)
  | state sessions => [("sessions".toList, packTrees sessions)]
  | tmuxEvent event => event.entries
  | claudeAccumulator sessionId acc =>
    [("session_id".toList, str sessionId), ("state".toList, map acc.entries)]
  | iceConfig peerId iceServers =>
    [("peer_id".toList, str peerId), ("config".toList,
      map [("ice_servers".toList, arr (iceServers.map fun s => map s.entries))])]
  | signal peerId payload => [("peer_id".toList, str peerId), ("payload".toList, ofJson payload)]
  | error code message => [("code".toList, str code), ("message".toList, str message)]
  | pong ts => [("ts".toList, nat ts)]
  | sessionList sessions => [("sessions".toList, arr (sessions.map packManaged))]
  | sessionCreated session | sessionUpdated session | sessionConnected session
  | sessionDisconnected session => [("session".toList, packManaged session)]
  | sessionDeleted sessionId => [("session_id".toList, str sessionId)]
  | agentStatus sessionId host status agentId version quicPort =>
    [("session_id".toList, str sessionId), ("host".toList, str host),
      ("status".toList, str status)] ++ optField "agent_id".toList (agentId.map str) ++
      optField "version".toList (version.map str) ++
      optField "quic_port".toList (quicPort.map nat)
  | transportUpgradeReady sessionId agentHost agentPort agentToken target certHash =>
    [("session_id".toList, str sessionId), ("agent_host".toList, str agentHost),
      ("agent_port".toList, nat agentPort), ("agent_token".toList, str agentToken)] ++
      optField "target".toList (target.map str) ++
      optField "cert_hash".toList (certHash.map str)
  | transportUpgradeFailed sessionId reason =>
    [("session_id".toList, str sessionId), ("error".toList, str reason)]

def encodeServerMsg (msg : ServerMsg) : Pack := map (("t".toList, str msg.tag) :: msg.entries)

end Oxmux.Ws
