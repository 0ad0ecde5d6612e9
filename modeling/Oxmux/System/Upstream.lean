import Oxmux.Agent.Resize
import Oxmux.Client.Encoding
import Oxmux.Session.Address
import Oxmux.System.Wire
import Oxmux.Ws.Decoding

/-! A message of the store at the two ends that may read it: the server's derived
decoder, and the field accessors of the agent. -/

namespace Oxmux.System
open Oxmux.Lib Oxmux.Session Oxmux.Ws Oxmux.Client Pack

/-! ## The server -/

mutual

def value : Pack → Agent.Value
  | .nil => .nil
  | .bool b => .boolean b
  | .int n => .integer n
  | .float _ => .other
  | .str s => .str s
  | .bin bytes => .binary bytes
  | .arr items => .array (values items)
  | .map entries => .map (valueEntries entries)

def values : List Pack → List Agent.Value
  | [] => []
  | v :: vs => value v :: values vs

def valueEntries : List (Text × Pack) → List (Agent.Value × Agent.Value)
  | [] => []
  | (key, v) :: entries => (.str key, value v) :: valueEntries entries

end

theorem field_value (key : Text) (entries : List (Text × Pack)) :
    Agent.Value.field key (value (.map entries)) = (entries.lookup key).map value := by
  rw [value, Agent.Value.field, Agent.Value.asMap, Option.bind_some]
  induction entries with
  | nil => rfl
  | cons e entries ih =>
    obtain ⟨k, v⟩ := e
    rw [valueEntries, List.find?_cons, List.lookup_cons, Agent.Value.asStr_str]
    by_cases hk : key = k
    · simp [hk]
    · have hne : (key == k) = false := by simpa using hk
      have hne' : (some k == some key) = false := by simpa using Ne.symm hk
      rw [hne, hne']
      exact ih

theorem getStr_value {key : Text} {entries : List (Text × Pack)} {s : Text}
    (h : entries.lookup key = some (.str s)) :
    Agent.getStr (value (.map entries)) key = s := by
  rw [Agent.getStr, field_value, h]
  simp [value]

theorem getBytes_value {key : Text} {entries : List (Text × Pack)} {bytes : Bytes}
    (h : entries.lookup key = some (.bin bytes)) :
    Agent.getBytes (value (.map entries)) key = bytes := by
  rw [Agent.getBytes, field_value, h]
  simp [value]

theorem getU64_value {key : Text} {entries : List (Text × Pack)} {n : Nat}
    (h : entries.lookup key = some (nat n)) :
    Agent.getU64 (value (.map entries)) key = n := by
  rw [Agent.getU64, field_value, h]
  simp [nat, value, Agent.Value.asU64]

/-- What a message of the store is to the agent. -/
def act (env : Agent.Env) (a : Agent.State) : Msg → Agent.State
  | .sub pane =>
    if Agent.isValidPaneId pane then { a with subscribedPanes := insert pane a.subscribedPanes }
    else a
  | .unsub pane =>
    if Agent.isValidPaneId pane then { a with subscribedPanes := a.subscribedPanes.erase pane }
    else a
  | .i pane data => Agent.sendTmuxInput a pane data
  | .r pane cols rows => Agent.Agents.resizeTo a pane (cols % 65536, rows % 65536)
  | .ping ts => a.send env (.pong ts)
  | .sessList => a.send env .sessList
  | .webrtcOffer _ => Agent.handleOffer env a
  | .webrtcIce init =>
    Agent.takeCandidate a
      { candidate := init.candidate, sdpMid := init.sdpMid.getD "0".toList }
  | _ => a

/-- The agent reads the candidate; no `sdpMid` counts as "0". -/
theorem iceCandidate_encodeMsg (init : IceCandidate) :
    Agent.iceCandidate (value (encodeMsg (.webrtcIce init))) =
      { candidate := init.candidate, sdpMid := init.sdpMid.getD "0".toList } := by
  have hfield : Agent.Value.field "candidate".toList (value (encodeMsg (.webrtcIce init))) =
      some (value init.pack) := field_value ..
  have hcandidate : Agent.getStr (value init.pack) "candidate".toList = init.candidate :=
    getStr_value rfl
  have hmid : (Agent.Value.field "sdpMid".toList (value init.pack)).bind Agent.Value.asStr =
      init.sdpMid := by
    have hentry : Agent.Value.field "sdpMid".toList (value init.pack) =
        some (value (.option (init.sdpMid.map .str))) := field_value ..
    rw [hentry, Option.bind_some]
    cases init.sdpMid with
    | none => rfl
    | some sdpMid => exact Agent.Value.asStr_str sdpMid
  rw [Agent.iceCandidate, hfield]
  simp only [hcandidate, hmid]
  rfl

theorem handleValue_encodeMsg (env : Agent.Env) (a : Agent.State) (msg : Msg) :
    Agent.handleValue env a (value (encodeMsg msg)) = act env a msg := by
  have ht : Agent.getStr (value (encodeMsg msg)) "t".toList = msg.type.show :=
    getStr_value rfl
  rw [Agent.handleValue, ht]
  cases msg with
  | sub pane =>
    have hp : Agent.getStr (value (encodeMsg (.sub pane))) "pane".toList = pane :=
      getStr_value rfl
    change Agent.handleSub a (value (encodeMsg (.sub pane))) = _
    rw [Agent.handleSub, hp, act]
  | unsub pane =>
    have hp : Agent.getStr (value (encodeMsg (.unsub pane))) "pane".toList = pane :=
      getStr_value rfl
    change Agent.handleUnsub a (value (encodeMsg (.unsub pane))) = _
    rw [Agent.handleUnsub, hp, act]
  | i pane data =>
    have hp : Agent.getStr (value (encodeMsg (.i pane data))) "pane".toList = pane :=
      getStr_value rfl
    have hd : Agent.getBytes (value (encodeMsg (.i pane data))) "data".toList = data :=
      getBytes_value rfl
    change Agent.handleInput a (value (encodeMsg (.i pane data))) = _
    rw [Agent.handleInput, hp, hd, act]
  | r pane cols rows =>
    have hp : Agent.getStr (value (encodeMsg (.r pane cols rows))) "pane".toList = pane :=
      getStr_value rfl
    have hc : Agent.getU64 (value (encodeMsg (.r pane cols rows))) "cols".toList = cols :=
      getU64_value rfl
    have hr : Agent.getU64 (value (encodeMsg (.r pane cols rows))) "rows".toList = rows :=
      getU64_value rfl
    change Agent.handleResize a (value (encodeMsg (.r pane cols rows))) = _
    rw [Agent.Agents.handleResize_eq, Agent.Agents.asked, hp, hc, hr, act]
  | ping ts =>
    have hn : Agent.getU64 (value (encodeMsg (.ping ts))) "ts".toList = ts := getU64_value rfl
    change a.send env (.pong (Agent.getU64 (value (encodeMsg (.ping ts))) "ts".toList)) = _
    rw [hn, act]
  | webrtcIce init =>
    change Agent.takeCandidate a (Agent.iceCandidate (value (encodeMsg (.webrtcIce init)))) = _
    rw [iceCandidate_encodeMsg, act]
  | _ => rfl

/-! ## Both ends -/

/-- What the agent does for a message that the server decodes. -/
def actOn (env : Agent.Env) (a : Agent.State) : ClientMsg → Agent.State
  | .subscribe pane _ =>
    if Agent.isValidPaneId pane then { a with subscribedPanes := insert pane a.subscribedPanes }
    else a
  | .unsubscribe pane _ =>
    if Agent.isValidPaneId pane then { a with subscribedPanes := a.subscribedPanes.erase pane }
    else a
  | .input pane data _ => Agent.sendTmuxInput a pane data
  | .resize pane cols rows _ => Agent.Agents.resizeTo a pane (cols, rows)
  | .ping ts => a.send env (.pong ts)
  | .listSessions => a.send env .sessList
  | _ => a

/-- The same message on either path, as the two ends read it. -/
def ReadAlike (msg : Msg) : Prop :=
  ∃ c, readClientMsg (encodeMsg msg) = some c ∧
    ∀ env a, Agent.handleValue env a (value (encodeMsg msg)) = actOn env a c

end Oxmux.System
