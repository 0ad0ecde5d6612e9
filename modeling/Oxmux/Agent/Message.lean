import Mathlib.Data.Finset.Basic
import Oxmux.Agent.Value
import Oxmux.Lib.Hex

/-! The agent's `handle_message` (`agent/src/quic/server.rs`): one message of
the browser, from the QUIC stream or the data channel. Its error is only logged
by the caller, so the model returns the state it leaves behind. -/

namespace Oxmux.Agent
open Oxmux.Lib

abbrev PeerConnection := Nat

abbrev DataChannel := Nat

/-- `RTCIceCandidateInit`; its line index is always 0. -/
structure Candidate where
  candidate : Text
  sdpMid : Text
  deriving DecidableEq

inductive Reply where
  | pong (ts : Nat)
  | sessList
  | webrtcAnswer (sdp : Text)
  | webrtcError (error : Text)
  deriving DecidableEq

/-- What the world outside answers during one message: the connection and the SDP of
`create_webrtc_answer`, and whether `send_msg` succeeds. -/
structure Env where
  answer : Except Text (PeerConnection × Text)
  replied : Bool

/-- `ctrl_stdin`: not there while control mode restarts, or there but closed. -/
inductive Stdin where
  | missing
  | dead
  | alive
  deriving DecidableEq

/-- What `handle_session` keeps for its connection, and in order its writes to the
control mode, its replies, its calls of `add_ice_candidate` and what it closed. -/
structure State where
  subscribedPanes : Finset Text
  paneDimensions : Text → Option (Nat × Nat)
  webrtcPc : Option PeerConnection
  webrtcRemoteSet : Bool
  webrtcPendingCandidates : List Candidate
  webrtcDc : Option DataChannel
  ctrlStdin : Stdin
  written : List Text
  replies : List Reply
  added : List (PeerConnection × Candidate)
  closed : List PeerConnection

namespace State

/-- The state in which the message loop starts. -/
def new (ctrlStdin : Stdin) : State where
  subscribedPanes := ∅
  paneDimensions _ := none
  webrtcPc := none
  webrtcRemoteSet := false
  webrtcPendingCandidates := []
  webrtcDc := none
  ctrlStdin
  written := []
  replies := []
  added := []
  closed := []

/-- A write to the control mode's standard input, if it is there. -/
def write (a : State) (cmd : Text) : State :=
  if a.ctrlStdin = .alive then { a with written := a.written ++ [cmd] } else a

def send (a : State) (env : Env) (reply : Reply) : State :=
  if env.replied then { a with replies := a.replies ++ [reply] } else a

end State

def isValidPaneId (pane : Text) : Bool :=
  startsWith "%".toList pane && 1 < pane.length && (pane.drop 1).all Char.isDigit

def sendTmuxInput (a : State) (pane : Text) (data : Bytes) : State :=
  if data = [] || !isValidPaneId pane then a
  else a.write ("send-keys -t ".toList ++ pane ++ " -H".toList ++
    data.flatMap (fun byte => ' ' :: showHex byte) ++ "\n".toList)

def resizeCommand (pane : Text) (cols rows : Nat) : Text :=
  let size := pane ++ " -x ".toList ++ showNat cols ++ " -y ".toList ++ showNat rows ++ "\n".toList
  "resize-window -t ".toList ++ size ++ ("resize-pane -t ".toList ++ size)

/-- The line that raises a SIGWINCH where the size stays. -/
def winchCommand (pane : Text) : Text :=
  "run-shell -t ".toList ++ pane ++ " \"kill -WINCH #\x7bpane_pid\x7d\"\n".toList

def handleSub (a : State) (msg : Value) : State :=
  let pane := getStr msg "pane".toList
  if isValidPaneId pane then { a with subscribedPanes := insert pane a.subscribedPanes } else a

def handleUnsub (a : State) (msg : Value) : State :=
  let pane := getStr msg "pane".toList
  if isValidPaneId pane then { a with subscribedPanes := a.subscribedPanes.erase pane } else a

def handleInput (a : State) (msg : Value) : State :=
  sendTmuxInput a (getStr msg "pane".toList) (getBytes msg "data".toList)

/-- `r`: sizes are cut to 16 bits; an unchanged size is followed by a forced
SIGWINCH. -/
def handleResize (a : State) (msg : Value) : State :=
  let pane := getStr msg "pane".toList
  let cols := getU64 msg "cols".toList % 65536
  let rows := getU64 msg "rows".toList % 65536
  if isValidPaneId pane && 0 < cols && 0 < rows then
    let dimsChanged := a.paneDimensions pane ≠ some (cols, rows)
    let a := { a with paneDimensions := Function.update a.paneDimensions pane (some (cols, rows)) }
    a.write (if dimsChanged then resizeCommand pane cols rows
      else resizeCommand pane cols rows ++ winchCommand pane)
  else a

/-- `webrtc_offer`: the previous connection is closed and what belongs to it is
dropped before the answer is made. -/
def handleOffer (env : Env) (a : State) : State :=
  let a := { a with
    webrtcPc := none
    closed := a.closed ++ a.webrtcPc.toList
    webrtcDc := none
    webrtcRemoteSet := false
    webrtcPendingCandidates := [] }
  match env.answer with
  | .ok (pc, answerSdp) => { a with webrtcPc := some pc }.send env (.webrtcAnswer answerSdp)
  | .error e => a.send env (.webrtcError e)

/-- The candidate of a `webrtc_ice` message, an object or a plain string. -/
def iceCandidate (msg : Value) : Candidate :=
  match msg.field "candidate".toList with
  | some val =>
    if val.asMap.isSome then
      { candidate := getStr val "candidate".toList
        sdpMid := ((val.field "sdpMid".toList).bind Value.asStr).getD "0".toList }
    else { candidate := val.asStr.getD [], sdpMid := "0".toList }
  | none => { candidate := [], sdpMid := "0".toList }

/-- A candidate is handed to the connection once its remote description is set, and
queued until then. -/
def takeCandidate (a : State) (candidate : Candidate) : State :=
  if candidate.candidate = [] then a
  else if a.webrtcRemoteSet then
    match a.webrtcPc with
    | some pc => { a with added := a.added ++ [(pc, candidate)] }
    | none => a
  else { a with webrtcPendingCandidates := a.webrtcPendingCandidates ++ [candidate] }

def handleIce (a : State) (msg : Value) : State := takeCandidate a (iceCandidate msg)

def handleValue (env : Env) (a : State) (msg : Value) : State :=
  let t := getStr msg "t".toList
  if t = "sub".toList then handleSub a msg
  else if t = "unsub".toList then handleUnsub a msg
  else if t = "i".toList then handleInput a msg
  else if t = "r".toList then handleResize a msg
  else if t = "ping".toList then a.send env (.pong (getU64 msg "ts".toList))
  else if t = "sess_list".toList then a.send env .sessList
  else if t = "webrtc_offer".toList then handleOffer env a
  else if t = "webrtc_ready".toList then a
  else if t = "webrtc_ice".toList then handleIce a msg
  else a

/-- `handle_message`: bytes that are no MessagePack value change nothing. -/
def handleMessage (readValue : Bytes → Option Value) (env : Env) (a : State) (data : Bytes) :
    State :=
  match readValue data with
  | some msg => handleValue env a msg
  | none => a

end Oxmux.Agent
