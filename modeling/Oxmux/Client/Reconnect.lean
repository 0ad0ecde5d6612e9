import Oxmux.Client.Sockets
import Oxmux.Lib.Runs

/-! Subscriptions across a reconnect. The server starts every connection without
subscriptions, and neither `onopen` nor the reply `sess_connected` sends one: a
pane is subscribed on a new socket only if a component asks for it again, or
because a direct connection was lost. -/

namespace Oxmux.Client
open Oxmux.Lib Oxmux.Lib.Runs Oxmux.Session Oxmux.Ws

/-! ## The account of a connection -/

/-- The store with the account of the socket that opened last: how many have opened,
the sessions whose `sess_connect` is not answered yet, those that were reported
connected, and the panes that an event asked it to subscribe. -/
structure Tracked where
  store : Store
  current : Option Nat
  opens : Nat
  pending : List Text
  reported : List Text
  asked : List Text

namespace Tracked

def new : Tracked :=
  { store := .new, current := none, opens := 0, pending := [], reported := [], asked := [] }

/-- The session that an event on the current socket reports connected. -/
def reports (t : Tracked) : Event → List Text
  | .message socket (.sessionConnected session) =>
    if t.current = some socket ∧ t.store.isOpen socket then [session.id] else []
  | _ => []

/-- The session whose `sess_connect` an event on the current socket refuses. -/
def refuses (t : Tracked) : Event → List Text
  | .connectFailed socket sessionId _ _ =>
    if t.current = some socket ∧ t.store.isOpen socket then [sessionId] else []
  | _ => []

/-- What an event asks of the WebSocket is asked if there is an open one. -/
def asks (t : Tracked) (e : Event) : List Text :=
  if t.store.wsSend.any fun socket => t.store.isOpen socket then
    (t.store.asks e).map fun qid => (parseQualifiedPaneId qid).paneId
  else []

def step (t : Tracked) (e : Event) : Tracked :=
  match e with
  | .opened socket =>
    if t.store.sockets[socket]? = some .connecting then
      { store := t.store.onOpen socket
        current := some socket
        opens := t.opens + 1
        pending := t.store.connectedSessionIds
        reported := []
        asked := [] }
    else t
  | e =>
    { t with
      store := t.store.step e
      pending := t.pending.diff (t.reports e ++ t.refuses e)
      reported := t.reported ++ t.reports e
      asked := t.asked ++ t.asks e }

/-- A socket opened again, it is still open, and the `sess_connect`s of its
`onopen` are answered. -/
def Restored (t : Tracked) (socket : Nat) : Prop :=
  2 ≤ t.opens ∧ t.current = some socket ∧ t.store.isOpen socket = true ∧ t.pending = []

/-- The pane has a handler and relies on the WebSocket: its session is connected,
was reported so on this socket, and has no direct connection. -/
def Relies (t : Tracked) (qid : Text) : Prop :=
  qid ∈ t.store.paneHandlers.keys ∧
    (parseQualifiedPaneId qid).sessionId ∈ t.store.connectedSessionIds ∧
    (parseQualifiedPaneId qid).sessionId ∈ t.reported ∧
    t.store.p2pOf (parseQualifiedPaneId qid).sessionId = none

/-- A subscription was sent for every pane that relies on the new socket. -/
def Subscribed (t : Tracked) : Prop :=
  ∀ socket qid, t.Restored socket → t.Relies qid →
    (socket, Msg.sub (parseQualifiedPaneId qid).paneId) ∈ t.store.wire

/-- Every pane that relies on the new socket was asked for since it opened. -/
def Asked (t : Tracked) : Prop :=
  ∀ socket qid, t.Restored socket → t.Relies qid → (parseQualifiedPaneId qid).paneId ∈ t.asked

/-! ## The account agrees with the wire -/

/-- A socket that did not open yet carries no subscription, and the current one
carries those asked for. -/
structure Synced (t : Tracked) : Prop where
  latest : ∀ socket, t.store.wsSend = some socket → t.current = some socket
  opened : ∀ socket, t.current = some socket → t.store.Past socket
  silent : ∀ socket pane, (socket, Msg.sub pane) ∈ t.store.wire → t.store.Past socket
  asked : ∀ socket pane, t.current = some socket →
    ((socket, Msg.sub pane) ∈ t.store.wire ↔ pane ∈ t.asked)

theorem synced_new : new.Synced :=
  ⟨by simp [new, Store.new], by simp [new], by simp [new, Store.new], by simp [new]⟩

/-- What is asked of an open WebSocket is asked of the current one. -/
theorem Synced.mem_asks {t : Tracked} (h : t.Synced) {socket : Nat}
    (hc : t.current = some socket) (e : Event) (pane : Text) :
    pane ∈ t.asks e ↔ t.store.Online socket ∧ .sub pane ∈ t.store.subMsgs e := by
  have hs : Msg.sub pane ∈ t.store.subMsgs e ↔
      pane ∈ (t.store.asks e).map fun qid => (parseQualifiedPaneId qid).paneId := by
    simp [Store.subMsgs]
  rw [hs]
  cases hw : t.store.wsSend with
  | none => simp [asks, Store.Online, hw]
  | some k =>
    obtain rfl : k = socket := Option.some.inj ((h.latest k hw).symm.trans hc)
    by_cases hk : t.store.isOpen k = true
    · simp [asks, Store.Online, hw, hk]
    · simp [asks, Store.Online, hw, hk]

/-- A step that keeps the sockets and writes what is asked for. -/
theorem Synced.of_wrote {t t' : Tracked} {e : Event} (h : t.Synced)
    {given : List (Text × Chunk)} (hw : t.store.Wrote t'.store (t.store.subMsgs e) given)
    (hc : t'.current = t.current)
    (ha : t'.asked = t.asked ++ t.asks e) : t'.Synced where
  latest socket hs := by
    rw [hw.wsSend] at hs
    rw [hc, h.latest socket hs]
  opened socket hs := by
    rw [hc] at hs
    rw [Store.Past, hw.sockets]
    exact h.opened socket hs
  silent socket pane hs := by
    rw [Store.Past, hw.sockets]
    rcases (hw.mem_wire rfl).mp hs with hs | ⟨ho, -⟩
    · exact h.silent socket pane hs
    · exact ho.past
  asked socket pane hs := by
    rw [hc] at hs
    rw [hw.mem_wire rfl, h.asked socket pane hs, ha, List.mem_append, h.mem_asks hs]

/-- A step that writes nothing, where no socket goes back to connecting. -/
theorem Synced.of_same_wire {t t' : Tracked} (h : t.Synced) (hw : t'.store.wire = t.store.wire)
    (hs : t'.store.wsSend = none ∨ t'.store.wsSend = t.store.wsSend)
    (hp : ∀ socket, t.store.Past socket → t'.store.Past socket) (hc : t'.current = t.current)
    (ha : t'.asked = t.asked) : t'.Synced where
  latest socket hk := by
    rcases hs with hs | hs
    · simp [hs] at hk
    · rw [hc, h.latest socket (hs ▸ hk)]
  opened socket hk := hp socket (h.opened socket (hc ▸ hk))
  silent socket pane hk := hp socket (h.silent socket pane (hw ▸ hk))
  asked socket pane hk := by rw [hw, ha, h.asked socket pane (hc ▸ hk)]

theorem synced_step {t : Tracked} (h : t.Synced) (e : Event) : (t.step e).Synced := by
  cases hs : e.ofSocket with
  | false =>
    have hw := Store.wrote_step hs t.store
    cases e with
    | connect | opened | closing | closed | reconnectTimer => cases hs
    | _ => exact h.of_wrote hw rfl rfl
  | true =>
    have hq := fun hne => Store.quiet_step hs hne t.store
    cases e with
    | connect | closing | closed | reconnectTimer =>
      obtain ⟨hw, hsend, -, -, hp⟩ := hq (by simp)
      exact h.of_same_wire hw hsend hp rfl (by simp [step, asks, Store.asks])
    | opened socket =>
      by_cases hk : t.store.sockets[socket]? = some .connecting
      · have hw := t.store.wrote_onOpen socket
        have hsock : (t.store.onOpen socket).sockets = t.store.sockets.set socket .open :=
          hw.sockets
        have hsend : (t.store.onOpen socket).wsSend = some socket := hw.wsSend
        have hsubs : ∀ k pane, (k, Msg.sub pane) ∈ (t.store.onOpen socket).wire ↔
            (k, Msg.sub pane) ∈ t.store.wire := fun k pane => by
          rw [hw.mem_wire rfl]
          simp [Store.opened]
        have hpast : ∀ k, t.store.Past k → (t.store.onOpen socket).Past k :=
          fun k => Store.past_of_set (by simp) hsock
        have hfresh : ∀ pane, (socket, Msg.sub pane) ∉ t.store.wire := by
          intro pane hp
          obtain ⟨state, hstate, hne⟩ := h.silent socket pane hp
          exact hne (Option.some.inj (hstate.symm.trans hk))
        simp only [step, if_pos hk]
        refine ⟨fun k hs => hsend ▸ hs, fun k hs => ?_, fun k pane hs => ?_, fun k pane hs => ?_⟩
        · cases hs
          obtain ⟨hlt, -⟩ := List.getElem?_eq_some_iff.mp hk
          exact ⟨.open, by simp [hsock, hlt], by simp⟩
        · exact hpast k (h.silent k pane ((hsubs k pane).mp hs))
        · cases hs
          simp [hsubs, hfresh]
      · simpa only [step, if_neg hk] using h
    | _ => cases hs

/-! ## Runs -/

theorem Synced.subscribed_iff {t : Tracked} (h : t.Synced) : t.Subscribed ↔ t.Asked := by
  constructor
  · intro hs socket qid hr hq
    exact (h.asked socket _ hr.2.1).mp (hs socket qid hr hq)
  · intro ha socket qid hr hq
    exact (h.asked socket _ hr.2.1).mpr (ha socket qid hr hq)

/-- **When subscriptions survive a reconnect**: in every state of a run, every
pane that relies on the new socket is subscribed there exactly if every such pane
was asked for since that socket opened. -/
theorem subscribed_iff_asked (events : List Event) :
    Always step Subscribed new events ↔ Always step Asked new events :=
  always_congr synced_new (fun _ e h => synced_step h e) (fun _ h => h.subscribed_iff) events

end Tracked

/-! ## A pane that goes silent -/

def sampleSession : ManagedSession where
  id := "s1".toList
  name := "main".toList
  transport := .ssh "host".toList
  status := .connected
  error := none
  tmuxSessions := []

/-- A pane is opened, the socket closes, and the session is connected again on
the next one. -/
def sampleReconnect : List Event :=
  [.connect, .opened 0, .message 0 (.sessionList [sampleSession]),
    .message 0 (.sessionConnected sampleSession),
    .registerPaneHandler "s1::%0".toList 0, .sendSubscribe "s1::%0".toList,
    .closing 0, .closed 0, .reconnectTimer, .opened 1,
    .message 1 (.sessionList [sampleSession]), .message 1 (.sessionConnected sampleSession)]

/-- Behind the reconnect the pane's handler waits on a socket that carries no
subscription. -/
theorem reconnect_loses_subscription :
    ¬ ∀ events, Always Tracked.step Tracked.Subscribed Tracked.new events := by
  intro h
  have hs := (h sampleReconnect).last 1 "s1::%0".toList (by
    refine ⟨?_, ?_, ?_, ?_⟩ <;> decide) (by
    refine ⟨?_, ?_, ?_, ?_⟩ <;> decide)
  exact absurd hs (by decide)

end Oxmux.Client
