import Oxmux.Client.Writes
import Oxmux.Ws.Relay

/-! What the browser hears over the WebSocket while some of its sessions have a
direct connection. A frame of the server does not name its session, so the
store cannot tell whose it is: it takes it for one of the focused session, and
takes none at all while any direct connection exists. -/

namespace Oxmux.System
open Oxmux.Lib Oxmux.Session Oxmux.Ws Oxmux.Client

/-- No frame of output names its session. -/
theorem sessionId_drainPaneOutputs {app : AppState} {conn : ConnectionState} {pane : Text}
    {data : Chunk} {sessionId : Option Text}
    (h : .output pane data sessionId ∈ (drainPaneOutputs app conn).2) : sessionId = none := by
  obtain ⟨sub, -, hm⟩ := List.mem_flatMap.mp h
  obtain ⟨chunk, -, he⟩ := List.mem_map.mp hm
  cases he
  rfl

/-- The session is connected and has no direct connection, and the pane has a
handler. -/
def Relayed (s : Store) (sessionId pane : Text) : Prop :=
  sessionId ∈ s.connectedSessionIds ∧ s.p2pConnections.get sessionId = none ∧
    (s.paneHandlers.get (qualifyPaneId sessionId pane)).isSome = true

/-- What is asked of the store for a frame with output of a session's pane: it
reaches the pane's handler if the session is relayed, and no handler if the
session has a direct connection. -/
structure Heard (s : Store) (pane : Text) (data : Chunk) (sessionId : Option Text) : Prop where
  relayed : Relayed s data.origin pane → (s.onMessage (.output pane data sessionId)).handed =
    s.handed ++ [(qualifyPaneId data.origin pane, data)]
  direct : (s.p2pConnections.get data.origin).isSome = true →
    (s.onMessage (.output pane data sessionId)).handed = s.handed

theorem handed_onMessage (s : Store) (msg : ServerMsg) :
    (s.onMessage msg).handed =
      s.handed ++ if s.p2pConnections = [] then s.handsOver none msg else [] :=
  (Store.wrote_onMessage msg s).handed

/-- A frame without a session is taken to be of the focused one. -/
theorem handsOver_output (s : Store) (pane : Text) (data : Chunk) :
    s.handsOver none (.output pane data none) =
      if (s.paneHandlers.get (qualifyPaneId (s.focusedSessionId.getD []) pane)).isSome then
        [(qualifyPaneId (s.focusedSessionId.getD []) pane, data)]
      else [] := rfl

/-- **When a frame is heard**: if its session is relayed, exactly if no session
has a direct connection and its own has the focus. -/
theorem heard_iff (s : Store) {app : AppState} {conn : ConnectionState} {pane : Text}
    {data : Chunk} {sessionId : Option Text}
    (hf : .output pane data sessionId ∈ (drainPaneOutputs app conn).2) :
    Heard s pane data sessionId ↔
      (Relayed s data.origin pane →
        s.p2pConnections = [] ∧ s.focusedSessionId.getD [] = data.origin) := by
  cases sessionId_drainPaneOutputs hf
  constructor
  · intro h hr
    have hh := h.relayed hr
    rw [handed_onMessage, List.append_cancel_left_eq] at hh
    split at hh
    · next hp =>
      refine ⟨hp, ?_⟩
      rw [handsOver_output] at hh
      split at hh
      · rw [List.singleton_inj, Prod.mk.injEq] at hh
        exact qualifyPaneId_left_inj.mp hh.1
      · cases hh
    · cases hh
  · intro h
    refine ⟨fun hr => ?_, fun hd => ?_⟩
    · obtain ⟨hp, hs⟩ := h hr
      rw [handed_onMessage, if_pos hp, handsOver_output, hs, if_pos hr.2.2]
    · have hp : s.p2pConnections ≠ [] := by
        intro hp
        rw [hp] at hd
        cases hd
      rw [handed_onMessage, if_neg hp, List.append_nil]

/-- A server that has one piece of output of a pane for one of its connections. -/
def sampleApp (data : Chunk) : AppState :=
  (AppState.new []).publish data.origin data.pane data.data

def sampleSubscribed (pane : Text) : ConnectionState :=
  { ConnectionState.new "u".toList with paneSubs := [(pane, ⟨0⟩)] }

def sampleChunk : Chunk where
  origin := "s2".toList
  pane := "%0".toList
  data := [65]

theorem mem_drain_sample : .output "%0".toList sampleChunk none ∈
    (drainPaneOutputs (sampleApp sampleChunk) (sampleSubscribed "%0".toList)).2 := by
  have hd : sampleChunk ∈ (drainSub (sampleApp sampleChunk) "%0".toList ⟨0⟩).1 := by
    decide +kernel
  exact List.mem_flatMap.mpr ⟨_, List.mem_singleton_self _, List.mem_map_of_mem hd⟩

/-- Two connected sessions; the second has the focus and a handler. -/
def sampleTwoSessions : Store :=
  { Store.new with
    connectedSessionIds := ["s1".toList, "s2".toList]
    focusedSessionId := some "s2".toList
    paneHandlers := [("s2::%0".toList, 0)] }

theorem heard_iff_sample : Heard sampleTwoSessions "%0".toList sampleChunk none :=
  (heard_iff sampleTwoSessions mem_drain_sample).mpr fun _ => ⟨rfl, rfl⟩

/-- The first session has a direct connection, and the second is silent. -/
theorem direct_connection_silences_others : ¬ ∀ (s : Store) (app : AppState)
    (conn : ConnectionState) (pane : Text) (data : Chunk) (sessionId : Option Text),
    .output pane data sessionId ∈ (drainPaneOutputs app conn).2 → Heard s pane data sessionId := by
  intro h
  have hh := (h { sampleTwoSessions with
    p2pConnections := [("s1".toList, { conn := 0, mode := .quic })] } _ _ _ _ _
      mem_drain_sample).relayed ⟨by decide, by decide, by decide⟩
  rw [handed_onMessage, if_neg (by simp)] at hh
  cases hh

end Oxmux.System
