import Oxmux.Agent.Message
import Oxmux.Client.Direct
import Oxmux.Client.Sockets
import Oxmux.Lib.Runs

/-! A session over WebRTC: the agent writes each output on the DataChannel, or
on the QUIC stream that carried the signaling when the channel fails it
(`handle_session` and `create_webrtc_answer` of `agent/src/quic/server.rs`). The
browser (`connectWebRtcTransport` of `client/src/stores/tmux.ts`) takes output
from the channel only. -/

namespace Oxmux.System
open Oxmux.Lib Oxmux.Lib.Runs Oxmux.Ws Oxmux.Client

structure Output where
  pane : Text
  data : Bytes
  deriving DecidableEq

/-- The agent's session, its browser, what was written with success, and what of it
is on the way between them. -/
structure Fallback where
  agent : Agent.State
  isOpen : Agent.DataChannel → Bool
  running : Bool
  overDc : List Output
  overQuic : List Output
  written : List Output
  store : Store

/-- The DataChannel keeps no order, so a read may take any output on the way. -/
inductive Happening where
  | ready (dc : Agent.DataChannel) (isOpen : Bool)
  | opened (dc : Agent.DataChannel)
  | closed (dc : Agent.DataChannel)
  | message (msg : Agent.Value) (env : Agent.Env)
  | output (o : Output) (dcSend quicSend : Bool)
  | readDc (n : Nat)
  | readQuic (n : Nat)
  | browser (e : Event)

/-- The message of an output. The agent names no session. -/
def Output.msg (sessionId : SessionId) (o : Output) : ServerMsg :=
  .output o.pane { origin := sessionId, pane := o.pane, data := o.data } none

def onDataChannel (sessionId : SessionId) (msg : ServerMsg) (s : Store) : Store :=
  s.handleServerMsg msg (some sessionId)

/-- `quicConn.onMessage`, for what is no answer to the offer. -/
def onSignaling (sessionId : SessionId) (msg : ServerMsg) (s : Store) : Store :=
  match msg with
  | .output .. => s
  | _ => s.handleServerMsg msg (some sessionId)

namespace Fallback

def sentViaDc (dcSend : Bool) (f : Fallback) : Bool :=
  match f.agent.webrtcDc with
  | some dc => if f.isOpen dc then dcSend else false
  | none => false

/-- An output of a subscribed pane. When neither path takes it, the loop ends
and the peer connection is closed. -/
def forward (o : Output) (dcSend quicSend : Bool) (f : Fallback) : Fallback :=
  if f.sentViaDc dcSend then { f with overDc := f.overDc ++ [o], written := f.written ++ [o] }
  else if quicSend then { f with overQuic := f.overQuic ++ [o], written := f.written ++ [o] }
  else { f with
    running := false
    agent := { f.agent with
      webrtcPc := none, closed := f.agent.closed ++ f.agent.webrtcPc.toList } }

/-- The browser has the session's direct connection; both paths are closed with
it. -/
def registered (sessionId : SessionId) (f : Fallback) : Bool :=
  (f.store.p2pConnections.get sessionId.val).isSome

def step (sessionId : SessionId) (f : Fallback) : Happening → Fallback
  | .ready dc isOpen => { f with isOpen := Function.update f.isOpen dc isOpen }
  | .opened dc => { f with agent := { f.agent with webrtcDc := some dc } }
  | .closed _ => { f with agent := { f.agent with webrtcDc := none } }
  | .message msg env =>
    if f.running then { f with agent := Agent.handleValue env f.agent msg } else f
  | .output o dcSend quicSend =>
    if f.running ∧ o.pane ∈ f.agent.subscribedPanes then f.forward o dcSend quicSend else f
  | .readDc n =>
    match f.overDc[n]?, f.registered sessionId with
    | some o, true =>
      { f with
        overDc := f.overDc.eraseIdx n
        store := onDataChannel sessionId (o.msg sessionId) f.store }
    | _, _ => f
  | .readQuic n =>
    match f.overQuic[n]?, f.registered sessionId with
    | some o, true =>
      { f with
        overQuic := f.overQuic.eraseIdx n
        store := onSignaling sessionId (o.msg sessionId) f.store }
    | _, _ => f
  -- the outputs of other connections are not in this model
  | .browser e => if f.store.gives e = [] then { f with store := f.store.step e } else f

structure AllRead (f : Fallback) : Prop where
  overDc : f.overDc = []
  overQuic : f.overQuic = []

/-- What a handler is given for an output: its own pane's. -/
def given (sessionId : SessionId) (o : Output) : Text × Chunk :=
  (qualifyPaneId sessionId o.pane, { origin := sessionId, pane := o.pane, data := o.data })

/-- Since `start`, each output that was written was given once to the handler
of its pane, and nothing else was. -/
def Delivered (sessionId : SessionId) (start f : Fallback) : Prop :=
  f.store.handed.Perm (start.store.handed ++ f.written.map (given sessionId))

def handled (sessionId : SessionId) (f : Fallback) (o : Output) : Bool :=
  (f.store.paneHandlers.get (qualifyPaneId sessionId o.pane)).isSome

/-- An output that the QUIC stream would take is written on an open channel, and
an output that is read has a handler. -/
def OnOpenChannel (sessionId : SessionId) (f : Fallback) : Happening → Prop
  | .output o dcSend quicSend => f.running = true → o.pane ∈ f.agent.subscribedPanes →
    (f.agent.webrtcDc.any f.isOpen = true ∧ dcSend = true) ∨ quicSend = false
  | .readDc n => f.registered sessionId = true →
    (f.overDc[n]?).all (f.handled sessionId) = true
  | _ => True

/-! ## The browser's two callbacks -/

/-- **An output from the DataChannel** goes to its pane's handler. -/
theorem handed_onDataChannel (sessionId : SessionId) (o : Output) (f : Fallback) :
    (onDataChannel sessionId (o.msg sessionId) f.store).handed =
      f.store.handed ++ if f.handled sessionId o then [given sessionId o] else [] := by
  have hs : f.store.sourceSession (some sessionId.val) none = sessionId.val := by
    simp [Store.sourceSession, Option.filter_some, sessionId.property]
  have hh := (Store.wrote_handleServerMsg (o.msg sessionId) (some sessionId.val) f.store).handed
  rw [onDataChannel, hh]
  simp only [Store.handsOver, Output.msg, hs, handled, given]
  rfl

/-! ## What one step does -/

/-- What happens to the outputs in one step, and whether the step satisfies the
condition `C`. -/
inductive Moves (sessionId : SessionId) (f f' : Fallback) (C : Prop) : Prop where
  | nothing (holds : C) (overDc : f'.overDc = f.overDc) (overQuic : f'.overQuic = f.overQuic)
    (written : f'.written = f.written) (handed : f'.store.handed = f.store.handed)
  | onChannel (o : Output) (holds : C) (overDc : f'.overDc = f.overDc ++ [o])
    (overQuic : f'.overQuic = f.overQuic) (written : f'.written = f.written ++ [o])
    (handed : f'.store.handed = f.store.handed)
  | onStream (o : Output) (fails : ¬ C) (overDc : f'.overDc = f.overDc)
    (written : f'.written = f.written ++ [o]) (handed : f'.store.handed = f.store.handed)
  | read (n : Nat) (o : Output) (holds : C ↔ f.handled sessionId o = true)
    (isNext : f.overDc[n]? = some o) (overDc : f'.overDc = f.overDc.eraseIdx n)
    (overQuic : f'.overQuic = f.overQuic) (written : f'.written = f.written)
    (handed : f'.store.handed =
      f.store.handed ++ if f.handled sessionId o then [given sessionId o] else [])
  | ignored (n : Nat) (holds : C) (overDc : f'.overDc = f.overDc)
    (overQuic : f'.overQuic = f.overQuic.eraseIdx n) (written : f'.written = f.written)
    (handed : f'.store.handed = f.store.handed)

theorem sentViaDc_eq (dcSend : Bool) (f : Fallback) :
    f.sentViaDc dcSend = (f.agent.webrtcDc.any f.isOpen && dcSend) := by
  unfold sentViaDc
  cases f.agent.webrtcDc with
  | none => rfl
  | some dc => cases h : f.isOpen dc <;> simp [h]

theorem moves_forward (sessionId : SessionId) {f : Fallback} {o : Output} (hr : f.running = true)
    (hp : o.pane ∈ f.agent.subscribedPanes) (dcSend quicSend : Bool) :
    Moves sessionId f (f.forward o dcSend quicSend)
      (OnOpenChannel sessionId f (.output o dcSend quicSend)) := by
  have hC : OnOpenChannel sessionId f (.output o dcSend quicSend) ↔
      f.sentViaDc dcSend = true ∨ quicSend = false := by
    rw [sentViaDc_eq, Bool.and_eq_true]
    exact ⟨fun h => h hr hp, fun h _ _ => h⟩
  unfold forward
  split
  · next hd => exact .onChannel o (hC.mpr (.inl hd)) rfl rfl rfl rfl
  · next hd =>
    split
    · next hq => exact .onStream o (fun h => (hC.mp h).elim hd (by simp [hq])) rfl rfl rfl
    · next hq => exact .nothing (hC.mpr (.inr (by simpa using hq))) rfl rfl rfl rfl

/-- **What one step does to the outputs.** -/
theorem moves_step (sessionId : SessionId) (f : Fallback) (a : Happening) :
    Moves sessionId f (f.step sessionId a) (OnOpenChannel sessionId f a) := by
  cases a with
  | ready | opened | closed => exact .nothing trivial rfl rfl rfl rfl
  | message =>
    rw [step]
    split <;> exact .nothing trivial rfl rfl rfl rfl
  | output o dcSend quicSend =>
    rw [step]
    split
    · next h => exact moves_forward sessionId h.1 h.2 dcSend quicSend
    · next h => exact .nothing (fun hr hp => absurd ⟨hr, hp⟩ h) rfl rfl rfl rfl
  | readDc n =>
    rw [step]
    split
    · next o hn hr =>
      refine .read n o ?_ hn rfl rfl rfl (handed_onDataChannel sessionId o f)
      simp only [OnOpenChannel, hr, hn, Option.all_some, forall_const]
    · next hno =>
      refine .nothing (fun hr => ?_) rfl rfl rfl rfl
      cases hn : f.overDc[n]? with
      | none => rfl
      | some o => exact absurd hr (hno o hn)
  | readQuic n =>
    rw [step]
    split
    · exact .ignored n trivial rfl rfl rfl rfl
    · exact .nothing trivial rfl rfl rfl rfl
  | browser e =>
    rw [step]
    split
    · next hg =>
      refine .nothing trivial rfl rfl rfl ?_
      rw [Store.handed_step, hg, List.append_nil]
    · exact .nothing trivial rfl rfl rfl rfl

/-! ## Runs -/

/-- Nothing is on the stream, and what was written was given or is on the channel. -/
structure Accounted (sessionId : SessionId) (start f : Fallback) : Prop where
  overQuic : f.overQuic = []
  perm : (f.store.handed ++ f.overDc.map (given sessionId)).Perm
    (start.store.handed ++ f.written.map (given sessionId))

theorem Accounted.step {sessionId : SessionId} {start f : Fallback}
    (h : Accounted sessionId start f) {a : Happening} (ha : OnOpenChannel sessionId f a) :
    Accounted sessionId start (f.step sessionId a) := by
  cases moves_step sessionId f a with
  | nothing _ hd hq hw hh => exact ⟨hq.trans h.overQuic, by rw [hh, hd, hw]; exact h.perm⟩
  | onChannel o _ hd hq hw hh =>
    refine ⟨hq.trans h.overQuic, ?_⟩
    rw [hh, hd, hw, List.map_append, List.map_append, ← List.append_assoc, ← List.append_assoc]
    exact h.perm.append_right _
  | onStream o hC => exact absurd ha hC
  | read n o hC hn hd hq hw hh =>
    refine ⟨hq.trans h.overQuic, ?_⟩
    rw [hh, hd, hw, if_pos (hC.mp ha)]
    refine List.Perm.trans ?_ h.perm
    -- the output moves from the channel to what was given
    obtain ⟨hlt, rfl⟩ := List.getElem?_eq_some_iff.mp hn
    rw [List.append_assoc, List.singleton_append, ← List.map_cons]
    exact ((List.getElem_cons_eraseIdx_perm hlt).map _).append_left _
  | ignored n _ hd hq hw hh =>
    refine ⟨?_, by rw [hh, hd, hw]; exact h.perm⟩
    rw [hq, h.overQuic]
    rfl

/-- How many outputs were written that were not given and are not on the channel. -/
def missing (f : Fallback) : Int :=
  f.written.length - (f.store.handed.length + f.overDc.length)

theorem missing_step (sessionId : SessionId) (f : Fallback) (a : Happening) :
    f.missing ≤ (f.step sessionId a).missing ∧
      (¬ OnOpenChannel sessionId f a → f.missing < (f.step sessionId a).missing) := by
  unfold missing
  cases moves_step sessionId f a with
  | nothing hC hd _ hw hh =>
    rw [hd, hw, hh]
    exact ⟨le_refl _, fun h => absurd hC h⟩
  | onChannel o hC hd _ hw hh =>
    rw [hd, hw, hh, List.length_append, List.length_append, List.length_singleton]
    exact ⟨by omega, fun h => absurd hC h⟩
  | onStream o hC hd hw hh =>
    rw [hd, hw, hh, List.length_append, List.length_singleton]
    exact ⟨by omega, fun _ => by omega⟩
  | read n o hC hn hd _ hw hh =>
    have hlt := (List.getElem?_eq_some_iff.mp hn).1
    have hlen := List.length_eraseIdx_of_lt hlt
    rw [hd, hw, hh, List.length_append, hlen]
    by_cases hf : f.handled sessionId o = true
    · rw [if_pos hf, List.length_singleton]
      exact ⟨by omega, fun h => absurd (hC.mpr hf) h⟩
    · rw [if_neg hf, List.length_nil]
      exact ⟨by omega, fun _ => by omega⟩
  | ignored n hC hd _ hw hh =>
    rw [hd, hw, hh]
    exact ⟨le_refl _, fun h => absurd hC h⟩

/-- **When the fallback loses nothing.** In a run that begins with nothing on
the way and ends when all was read, every output that the agent wrote with
success reaches the handler of its pane exactly once, if and only if none was
written on the QUIC stream, and none was read without a handler. -/
theorem delivered_iff (sessionId : SessionId) {start : Fallback} (h₀ : start.AllRead)
    (hw₀ : start.written = []) {as : List Happening}
    (hread : (run (step sessionId) start as).AllRead) :
    Delivered sessionId start (run (step sessionId) start as) ↔
      EachStep (step sessionId) (OnOpenChannel sessionId) start as := by
  constructor
  · intro h
    refine eachStep_of_le (m := missing) (fun f a => (missing_step sessionId f a).1)
      (fun f a => (missing_step sessionId f a).2) ?_
    have hlen := h.length_eq
    rw [List.length_append, List.length_map] at hlen
    unfold missing
    rw [h₀.overDc, hread.overDc, hw₀, hlen]
    simp only [List.length_nil]
    omega
  · intro h
    have hacc : Accounted sessionId start (run (step sessionId) start as) := by
      refine (always_of_eachStep (I := Accounted sessionId start) ?_
        (fun f a hf ha => hf.step ha) (fun _ hf => hf) h).last
      exact ⟨h₀.overQuic, by rw [h₀.overDc, hw₀]⟩
    have hperm := hacc.perm
    rw [hread.overDc, List.map_nil, List.append_nil] at hperm
    exact hperm

/-- One subscribed pane on one open channel, and its handler in the browser. -/
def sampleFallback : Fallback where
  agent := { Agent.State.new .alive with subscribedPanes := {"%0".toList}, webrtcDc := some 0 }
  isOpen dc := dc = 0
  running := true
  overDc := []
  overQuic := []
  written := []
  store :=
    { Store.new with
      paneHandlers := [("s1::%0".toList, 0)]
      p2pConnections := [("s1".toList, { conn := 0, mode := .webrtc })] }

def sampleOutput : Happening := .output { pane := "%0".toList, data := [65] } true true

theorem delivered_iff_sample : Delivered ⟨"s1".toList, by decide⟩ sampleFallback
    (run (step ⟨"s1".toList, by decide⟩) sampleFallback [sampleOutput, .readDc 0]) :=
  (delivered_iff ⟨"s1".toList, by decide⟩ ⟨rfl, rfl⟩ rfl ⟨by decide, by decide⟩).mpr
    ⟨fun _ _ => .inl ⟨by decide, rfl⟩, fun _ => by decide, trivial⟩

/-- The agent sees its channel close, writes on the QUIC stream, and the browser
ignores what it reads there. -/
theorem fallback_output_ignored : ¬ ∀ (sessionId : SessionId) (start : Fallback)
    (as : List Happening), start.AllRead → start.written = [] →
    Always (step sessionId) (fun f => f.registered sessionId = true) start as →
    (run (step sessionId) start as).AllRead →
    Delivered sessionId start (run (step sessionId) start as) := by
  intro h
  have hd := h ⟨"s1".toList, by decide⟩ sampleFallback [.closed 0, sampleOutput, .readQuic 0]
    ⟨rfl, rfl⟩ rfl ⟨rfl, rfl, rfl, by rw [Always]; rfl⟩ ⟨by decide, by decide⟩
  exact absurd hd.length_eq (by decide)

end Fallback

end Oxmux.System
