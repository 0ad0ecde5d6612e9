import Oxmux.Client.Handlers
import Oxmux.Client.Sockets
import Oxmux.Lib.Runs

/-! How the store keeps its WebSocket up. A socket that is lost is made anew by a
timer, whose delay doubles with every try until a socket opens again. -/

namespace Oxmux.Client
open Oxmux.Lib Oxmux.Lib.Runs Oxmux.Session Oxmux.Ws

namespace Store

/-! ## What the other events leave alone -/

/-- What is shown of the connection, and the delay of the next try. -/
def connection (s : Store) : ConnectionStatus × Nat := (s.connectionStatus, s.backoffMs)

theorem Sends.connection {s s' : Store} (h : s.Sends s') : s'.connection = s.connection := by
  obtain ⟨_, _, rfl⟩ := h
  rfl

theorem connection_teardownP2P (id : Text) (s : Store) :
    (s.teardownP2P id).connection = s.connection := by
  unfold teardownP2P
  split
  · rfl
  · split <;> rfl

theorem connection_disconnectSessionCleanup (id : Text) (s : Store) :
    (s.disconnectSessionCleanup id).connection = s.connection := connection_teardownP2P id s

theorem connection_handleServerMsg (msg : ServerMsg) (source : Option Text) (s : Store) :
    (s.handleServerMsg msg source).connection = s.connection := by
  cases msg with
  | output pane data sessionId =>
    simp only [handleServerMsg]
    split <;> rfl
  | state sessions =>
    simp only [handleServerMsg]
    split <;> rfl
  | tmuxEvent event =>
    simp only [handleServerMsg, applyTmuxEvent]
    split <;> rfl
  | sessionDeleted id => exact connection_disconnectSessionCleanup id _
  | sessionDisconnected session => exact connection_disconnectSessionCleanup session.id _
  | sessionConnected session =>
    simp only [handleServerMsg, sessConnected]
    split
    · split
      · exact (sends_sendMsg _ _).connection
      · rfl
    · rfl
  | _ => rfl

theorem connection_onMessage (msg : ServerMsg) (s : Store) :
    (s.onMessage msg).connection = s.connection := by
  rcases onMessage_eq msg s with h | ⟨h, -⟩
  · exact h ▸ connection_handleServerMsg msg none s
  · rw [h]

theorem connection_step {e : Event} (hs : e.ofSocket = false) (s : Store) :
    (s.step e).connection = s.connection := by
  cases e with
  | connect | opened | closing | closed | reconnectTimer => cases hs
  | message socket msg =>
    simp only [step]
    split
    · exact connection_onMessage msg s
    · rfl
  | connectFailed socket sessionId code text =>
    simp only [step]
    split
    · exact connection_onMessage _ s
    · rfl
  | p2pMessage sessionId msg => exact connection_handleServerMsg msg _ s
  | quicConnected conn sizes sessionId =>
    exact (s.sends_quicConnected conn sizes sessionId).connection
  | webrtcConnected conn sizes sessionId =>
    exact (s.sends_webrtcConnected conn sizes sessionId).connection
  | p2pLost sizes sessionId =>
    exact (sends_resubscribePanesViaWS _ sizes sessionId).connection.trans
      (connection_teardownP2P sessionId s)
  | teardownP2P sessionId => exact connection_teardownP2P sessionId s
  | sendSubscribe qid => exact (s.sends_sendVia _ _).connection
  | subscribePane qid handler => exact (sends_sendVia _ _ _).connection
  | unsubscribePane qid => exact (sends_sendVia _ _ _).connection
  | sendInput qid data => exact (s.sends_sendMsg (.i qid data)).connection
  | sendResize qid cols rows => exact (s.sends_sendMsg (.r qid cols rows)).connection
  | request msg =>
    simp only [step]
    split
    · exact (s.sends_sendMsg msg).connection
    · rfl
  | disconnectSession sessionId =>
    exact (connection_disconnectSessionCleanup sessionId _).trans
      (s.sends_sendWs (.sessDisconnect sessionId)).connection
  | deleteSession sessionId =>
    exact (sends_sendMsg _ _).connection.trans (connection_disconnectSessionCleanup sessionId s)
  | disconnectSessionCleanup sessionId => exact connection_disconnectSessionCleanup sessionId s
  | _ => rfl

theorem connection_onOpen (socket : Nat) (s : Store) :
    (s.onOpen socket).connection = (.connected, 1000) := by
  have h := fun s₀ : Store => (sends_sendMsg s₀ .sessList).trans
    (sends_foldl _ (fun s sid => s.sends_sendMsg (.sessConnect sid)) s.connectedSessionIds)
  exact (h _).connection

/-! ## What is written on opening -/

theorem wire_foldl_sendMsg {msgs : List Msg} (h : ∀ msg ∈ msgs, msg.isData = false) (s : Store) :
    (msgs.foldl (fun s msg => s.sendMsg msg) s).wire = s.wire ++ s.onWire msgs := by
  induction msgs generalizing s with
  | nil => simp
  | cons msg msgs ih =>
    have hsend : s.sendMsg msg = s.sendWs msg := by
      rw [sendMsg, if_neg (by simp [h msg List.mem_cons_self])]
    rw [List.foldl_cons, ih (fun m hm => h m (List.mem_cons_of_mem msg hm)), hsend,
      (wrote_sendWs msg s).onWire, sendWs_eq, List.append_assoc, ← onWire_append]
    rfl

/-- **`onopen`** asks for the sessions and connects those that were connected. -/
theorem wire_onOpen {socket : Nat} {s : Store} (h : socket < s.sockets.length) :
    (s.onOpen socket).wire = s.wire ++
      (.sessList :: s.connectedSessionIds.map .sessConnect).map (socket, ·) := by
  have hopen : (s.opened socket).onWire (.sessList :: s.connectedSessionIds.map .sessConnect) =
      (.sessList :: s.connectedSessionIds.map .sessConnect).map (socket, ·) := by
    simp [onWire, opened, isOpen, h]
  have hfold : s.onOpen socket = (.sessList :: s.connectedSessionIds.map .sessConnect).foldl
      (fun s msg => s.sendMsg msg) (s.opened socket) := by
    rw [List.foldl_cons, List.foldl_map]
    rfl
  rw [hfold, wire_foldl_sendMsg, hopen]
  · rfl
  · intro msg hm
    rcases List.mem_cons.mp hm with rfl | hm
    · rfl
    · obtain ⟨sid, -, rfl⟩ := List.mem_map.mp hm
      rfl

end Store

/-! ## Tries -/

/-- The store with the number of reconnects since a socket opened. -/
structure Tried where
  store : Store
  tries : Nat

namespace Tried

def new : Tried := { store := .new, tries := 0 }

def step (t : Tried) (e : Event) : Tried where
  store := t.store.step e
  tries := match e with
    | .opened socket => if t.store.sockets[socket]? = some .connecting then 0 else t.tries
    | .reconnectTimer => if t.store.reconnectTimeout then t.tries + 1 else t.tries
    | _ => t.tries

/-- The socket that was made last. -/
def last (t : Tried) : Option ReadyState := t.store.sockets.getLast?

/-- The application connects when there is no socket yet, or an open one. -/
def Calm (t : Tried) (e : Event) : Prop := e = .connect → t.last = none ∨ t.last = some .open

/-- What holds while the last socket is in a state. -/
def Phase (t : Tried) : Option ReadyState → Prop
  | none => t.store.reconnectTimeout = false ∧ t.store.wsSend = none ∧
      t.store.connectionStatus = .disconnected
  | some .connecting => t.store.reconnectTimeout = false ∧ t.store.wsSend = none ∧
      t.store.connectionStatus = .connecting
  | some .open => t.store.reconnectTimeout = false ∧
      t.store.wsSend = some (t.store.sockets.length - 1) ∧
      t.store.connectionStatus = .connected ∧ t.tries = 0
  | some .closing => t.store.reconnectTimeout = false
  | some .closed => t.store.reconnectTimeout = true ∧ t.store.wsSend = none ∧
      t.store.connectionStatus = .reconnecting

/-- Only the last socket is alive; while it is, no try is due, and when it is
closed, one is. The delay is doubled with every try, up to half a minute. -/
structure Supervised (t : Tried) : Prop where
  oneSocket : t.store.OneSocket
  ws : t.store.ws = if t.store.sockets = [] then none else some (t.store.sockets.length - 1)
  delay : t.store.backoffMs = min (1000 * 2 ^ t.tries) 30000
  phase : t.Phase t.last

/-- What has to happen for an open socket: what is on its way, and at most one try. -/
def recovery (t : Tried) : List Event :=
  match t.last with
  | some .connecting => [.opened (t.store.sockets.length - 1)]
  | some .closing =>
    [.closed (t.store.sockets.length - 1), .reconnectTimer, .opened t.store.sockets.length]
  | some .closed => [.reconnectTimer, .opened t.store.sockets.length]
  | _ => []

/-- A socket that opened again: the store writes to it, and asked on it for the
sessions and for those that were connected. -/
def Recovered (t t' : Tried) : Prop :=
  t'.last = some .open ∧ t'.store.wsSend = some (t'.store.sockets.length - 1) ∧
    t'.store.wire = t.store.wire ++ (.sessList :: t.store.connectedSessionIds.map .sessConnect).map
      (t'.store.sockets.length - 1, ·)

theorem supervised_new : new.Supervised :=
  ⟨Store.oneSocket_new, rfl, rfl, rfl, rfl, rfl⟩

section
variable {t : Tried}

theorem Supervised.last_of_alive (h : t.Supervised) {k : Nat} {state : ReadyState}
    (hk : t.store.sockets[k]? = some state) (hne : state ≠ .closed) :
    t.last = some state ∧ k = t.store.sockets.length - 1 := by
  have hlen := h.oneSocket.live k state hk hne
  obtain rfl : k = t.store.sockets.length - 1 := by omega
  exact ⟨by rw [last, List.getLast?_eq_getElem?, hk], rfl⟩

/-- The next delay. -/
theorem delay_double {tries backoffMs : Nat} (h : backoffMs = min (1000 * 2 ^ tries) 30000) :
    min (backoffMs * 2) 30000 = min (1000 * 2 ^ (tries + 1)) 30000 := by
  rw [h, Nat.pow_succ]
  omega

theorem Supervised.of_eq {t' : Tried} (h : t.Supervised) (hs : t'.store.sockets = t.store.sockets)
    (hw : t'.store.ws = t.store.ws) (hsend : t'.store.wsSend = t.store.wsSend)
    (ht : t'.store.reconnectTimeout = t.store.reconnectTimeout)
    (hc : t'.store.connection = t.store.connection) (hn : t'.tries = t.tries) :
    t'.Supervised := by
  obtain ⟨hstatus, hbackoff⟩ := Prod.ext_iff.mp hc
  have hlast : t'.last = t.last := by rw [last, hs, last]
  refine ⟨h.oneSocket.of_eq hs ht, ?_, ?_, ?_⟩
  · rw [hw, hs]
    exact h.ws
  · exact hbackoff.trans (hn ▸ h.delay)
  · have hphase := h.phase
    rw [hlast]
    cases hl : t.last with
    | none =>
      rw [hl] at hphase
      exact ⟨ht.trans hphase.1, hsend.trans hphase.2.1, hstatus.trans hphase.2.2⟩
    | some state =>
      rw [hl] at hphase
      cases state with
      | connecting =>
        exact ⟨ht.trans hphase.1, hsend.trans hphase.2.1, hstatus.trans hphase.2.2⟩
      | «open» =>
        refine ⟨ht.trans hphase.1, ?_, hstatus.trans hphase.2.2.1, hn.trans hphase.2.2.2⟩
        rw [hsend, hs]
        exact hphase.2.1
      | closing => exact ht.trans hphase
      | closed => exact ⟨ht.trans hphase.1, hsend.trans hphase.2.1, hstatus.trans hphase.2.2⟩

theorem tries_step {e : Event} (hs : e.ofSocket = false) (t : Tried) :
    (t.step e).tries = t.tries := by
  cases e <;> first | rfl | cases hs

theorem getLast?_set {α : Type} {l : List α} {k : Nat} (hlt : k < l.length) (hk : k = l.length - 1)
    (a : α) : (l.set k a).getLast? = some a := by
  rw [List.getLast?_eq_getElem?, List.length_set, ← hk, List.getElem?_set_self hlt]

theorem Supervised.set {t' : Tried} (h : t.Supervised) {k : Nat} {old new : ReadyState}
    (hk : t.store.sockets[k]? = some old) (hne : old ≠ .closed) (h' : t'.store.OneSocket)
    (hs : t'.store.sockets = t.store.sockets.set k new) (hw : t'.store.ws = t.store.ws)
    (hd : t'.store.backoffMs = min (1000 * 2 ^ t'.tries) 30000) (hp : t'.Phase (some new)) :
    t'.Supervised := by
  obtain ⟨-, hlast⟩ := h.last_of_alive hk hne
  have hlt := (List.getElem?_eq_some_iff.mp hk).1
  have hnil : t.store.sockets ≠ [] := List.ne_nil_of_length_pos (by omega)
  have hnil' : t'.store.sockets ≠ [] := by
    rw [hs]
    simpa using hnil
  refine ⟨h', ?_, hd, ?_⟩
  · rw [hw, h.ws, if_neg hnil, if_neg hnil', hs, List.length_set]
  · rwa [last, hs, getLast?_set hlt hlast]

theorem Supervised.oneSocket_step (h : t.Supervised) (e : Event)
    (hc : e = .connect → t.store.sockets = []) : (t.step e).store.OneSocket :=
  Store.oneSocket_step h.oneSocket hc

theorem supervised_connect (h : t.Supervised) (hc : t.last = none ∨ t.last = some .open) :
    (t.step .connect).Supervised := by
  rcases hc with hc | hc
  · have hnil : t.store.sockets = [] := List.getLast?_eq_none_iff.mp hc
    have hw := h.ws
    have hphase := h.phase
    rw [if_pos hnil] at hw
    rw [hc] at hphase
    have hstep : (t.step .connect).store = { t.store with
        connectionStatus := .connecting
        ws := some t.store.sockets.length
        sockets := t.store.sockets ++ [.connecting] } := by
      simp only [step, Store.step, Store.connect, hw, Option.elim_none, Bool.false_eq_true,
        if_false]
    refine ⟨h.oneSocket_step .connect fun _ => hnil, ?_, ?_, ?_⟩
    · rw [hstep, hnil]
      rfl
    · rw [hstep]
      exact h.delay
    · rw [last, hstep, hnil]
      simp only [List.nil_append, List.getLast?_singleton, Phase]
      rw [hstep]
      exact ⟨hphase.1, hphase.2.1, rfl⟩
  · have hne : t.store.sockets ≠ [] := by
      rintro hnil
      simp [last, hnil] at hc
    have hopen : t.store.isOpen (t.store.sockets.length - 1) = true := by
      rw [Store.isOpen_iff, ← List.getLast?_eq_getElem?]
      exact hc
    have hstep : t.step .connect = t := by
      simp [step, Store.step, Store.connect, h.ws, hne, hopen]
    rw [hstep]
    exact h

theorem supervised_opened (h : t.Supervised) {k : Nat}
    (hk : t.store.sockets[k]? = some .connecting) : (t.step (.opened k)).Supervised := by
  obtain ⟨hlast, hlen⟩ := h.last_of_alive hk (by simp)
  have hphase := h.phase
  rw [hlast] at hphase
  have hstep : (t.step (.opened k)).store = t.store.onOpen k := if_pos hk
  have htries : (t.step (.opened k)).tries = 0 := if_pos hk
  have hw := t.store.wrote_onOpen k
  obtain ⟨hstatus, hbackoff⟩ := Prod.ext_iff.mp (t.store.connection_onOpen k)
  have hone := h.oneSocket_step (.opened k) (by simp)
  refine h.set hk (by simp) hone (hstep ▸ hw.sockets) (hstep ▸ (t.store.drops_onOpen k).ws) ?_ ?_
  · rw [hstep, htries]
    exact hbackoff
  · rw [Phase, hstep]
    refine ⟨hw.timer.trans hphase.1, hw.wsSend.trans ?_, hstatus, htries⟩
    rw [hw.sockets]
    simp [Store.opened, ← hlen]

theorem supervised_closing (h : t.Supervised) {k : Nat}
    (hk : t.store.sockets[k]? = some .connecting ∨ t.store.isOpen k = true) :
    (t.step (.closing k)).Supervised := by
  have hstep : (t.step (.closing k)).store =
      { t.store with sockets := t.store.sockets.set k .closing } := if_pos hk
  have hone := h.oneSocket_step (.closing k) (by simp)
  obtain ⟨state, hk', hne, htimer⟩ : ∃ state, t.store.sockets[k]? = some state ∧
      state ≠ .closed ∧ t.store.reconnectTimeout = false := by
    rcases hk with hk | hk
    · have hphase := h.phase
      rw [(h.last_of_alive hk (by simp)).1] at hphase
      exact ⟨_, hk, by simp, hphase.1⟩
    · have hk := Store.isOpen_iff.mp hk
      have hphase := h.phase
      rw [(h.last_of_alive hk (by simp)).1] at hphase
      exact ⟨_, hk, by simp, hphase.1⟩
  refine h.set hk' hne hone (by rw [hstep]) (by rw [hstep]) ?_ ?_
  · rw [hstep]
    exact h.delay
  · rw [Phase, hstep]
    exact htimer

theorem supervised_closed (h : t.Supervised) {k : Nat}
    (hk : t.store.sockets[k]? = some .closing) : (t.step (.closed k)).Supervised := by
  have hstep : (t.step (.closed k)).store = t.store.onClose k := if_pos hk
  have hone := h.oneSocket_step (.closed k) (by simp)
  refine h.set hk (by simp) hone (by rw [hstep]; rfl) (by rw [hstep]; rfl) ?_ ?_
  · rw [hstep]
    exact h.delay
  · rw [Phase, hstep]
    exact ⟨rfl, rfl, rfl⟩

/-- The timer makes a socket: it is due only when all are closed. -/
theorem store_timer (h : t.Supervised) (ht : t.store.reconnectTimeout = true) :
    (t.step .reconnectTimer).store = { t.store with
      reconnectTimeout := false
      backoffMs := min (t.store.backoffMs * 2) 30000
      connectionStatus := .connecting
      ws := some t.store.sockets.length
      sockets := t.store.sockets ++ [.connecting] } := by
  have hnot : (t.store.ws.elim false fun socket => t.store.sockets[socket]? == some .open) =
      false := Store.ws_not_open (h.oneSocket.timer ht).2
  simp [step, Store.step, ht, Store.reconnect, Store.connect, Store.isOpen, hnot]

theorem last_of_timer (h : t.Supervised) (ht : t.store.reconnectTimeout = true) :
    t.last = some .closed := by
  have hphase := h.phase
  cases hl : t.last with
  | none => simp [hl, Phase, ht] at hphase
  | some state => cases state <;> simp [hl, Phase, ht] at hphase ⊢

theorem supervised_timer (h : t.Supervised) (ht : t.store.reconnectTimeout = true) :
    (t.step .reconnectTimer).Supervised := by
  have hphase := h.phase
  rw [last_of_timer h ht] at hphase
  have hstep := store_timer h ht
  have htries : (t.step .reconnectTimer).tries = t.tries + 1 := if_pos ht
  refine ⟨h.oneSocket_step .reconnectTimer (by simp), ?_, ?_, ?_⟩
  · rw [hstep]
    simp
  · rw [hstep, htries]
    exact delay_double h.delay
  · rw [last, hstep, List.getLast?_concat, Phase, hstep]
    exact ⟨rfl, hphase.2.1, rfl⟩

theorem supervised_step (h : t.Supervised) {e : Event} (hc : t.Calm e) : (t.step e).Supervised := by
  have hstay (hs : t.step e = t) : (t.step e).Supervised := by
    rw [hs]
    exact h
  cases hs : e.ofSocket with
  | false =>
    have hw := Store.wrote_step hs t.store
    exact h.of_eq hw.sockets (t.store.ws_step hs) hw.wsSend hw.timer
      (Store.connection_step hs t.store) (tries_step hs t)
  | true =>
    cases e with
    | connect => exact supervised_connect h (hc rfl)
    | opened k =>
      by_cases hk : t.store.sockets[k]? = some .connecting
      · exact supervised_opened h hk
      · exact hstay (by simp [step, Store.step, hk])
    | closing k =>
      by_cases hk : t.store.sockets[k]? = some .connecting ∨ t.store.isOpen k = true
      · exact supervised_closing h hk
      · exact hstay (by simp only [step, Store.step, if_neg hk])
    | closed k =>
      by_cases hk : t.store.sockets[k]? = some .closing
      · exact supervised_closed h hk
      · exact hstay (by simp [step, Store.step, hk])
    | reconnectTimer =>
      by_cases ht : t.store.reconnectTimeout = true
      · exact supervised_timer h ht
      · exact hstay (by simp [step, Store.step, ht])
    | _ => cases hs

/-! ## Up again -/

theorem recovered_opened (h : t.Supervised) (hl : t.last = some .connecting) :
    t.Recovered (t.step (.opened (t.store.sockets.length - 1))) := by
  have hk : t.store.sockets[t.store.sockets.length - 1]? = some .connecting := by
    rw [← List.getLast?_eq_getElem?]
    exact hl
  have hlt := (List.getElem?_eq_some_iff.mp hk).1
  have hstep : (t.step (.opened (t.store.sockets.length - 1))).store =
      t.store.onOpen (t.store.sockets.length - 1) := if_pos hk
  have hsockets : (t.step (.opened (t.store.sockets.length - 1))).store.sockets =
      t.store.sockets.set (t.store.sockets.length - 1) .open :=
    hstep ▸ (t.store.wrote_onOpen _).sockets
  have hopen : (t.step (.opened (t.store.sockets.length - 1))).last = some .open := by
    rw [last, hsockets, getLast?_set hlt rfl]
  have hphase := (supervised_opened h hk).phase
  rw [hopen] at hphase
  refine ⟨hopen, hphase.2.1, ?_⟩
  rw [hsockets, List.length_set, hstep, Store.wire_onOpen hlt]

theorem recovered_timer (h : t.Supervised) (hl : t.last = some .closed) :
    t.Recovered (run step t [.reconnectTimer, .opened t.store.sockets.length]) := by
  have hphase := h.phase
  rw [hl] at hphase
  have hstep := store_timer h hphase.1
  have hlast : (t.step .reconnectTimer).last = some .connecting := by
    rw [last, hstep, List.getLast?_concat]
  have hopened := recovered_opened (supervised_timer h hphase.1) hlast
  have hlen : (t.step .reconnectTimer).store.sockets.length - 1 = t.store.sockets.length := by
    rw [hstep]
    simp
  rw [hlen] at hopened
  obtain ⟨ho, hw, hwire⟩ := hopened
  refine ⟨ho, hw, hwire.trans ?_⟩
  rw [hstep]
  rfl

theorem recovered_closed (h : t.Supervised) (hl : t.last = some .closing) :
    t.Recovered (run step t [.closed (t.store.sockets.length - 1), .reconnectTimer,
      .opened t.store.sockets.length]) := by
  have hk : t.store.sockets[t.store.sockets.length - 1]? = some .closing := by
    rw [← List.getLast?_eq_getElem?]
    exact hl
  have hlt := (List.getElem?_eq_some_iff.mp hk).1
  have hstep : (t.step (.closed (t.store.sockets.length - 1))).store =
      t.store.onClose (t.store.sockets.length - 1) := if_pos hk
  have hsockets : (t.step (.closed (t.store.sockets.length - 1))).store.sockets =
      t.store.sockets.set (t.store.sockets.length - 1) .closed := by
    rw [hstep]
    rfl
  have hlast : (t.step (.closed (t.store.sockets.length - 1))).last = some .closed := by
    rw [last, hsockets, getLast?_set hlt rfl]
  have htimer := recovered_timer (supervised_closed h hk) hlast
  rw [hsockets, List.length_set] at htimer
  obtain ⟨ho, hw, hwire⟩ := htimer
  refine ⟨ho, hw, hwire.trans ?_⟩
  rw [hstep]
  rfl

/-- **From every state the store comes up again.** -/
theorem Supervised.recovered (h : t.Supervised) (hne : t.last ≠ none) (ho : t.last ≠ some .open) :
    t.Recovered (run step t t.recovery) := by
  unfold recovery
  cases hl : t.last with
  | none => exact absurd hl hne
  | some state =>
    cases state with
    | connecting => exact recovered_opened h hl
    | «open» => exact absurd hl ho
    | closing => exact recovered_closed h hl
    | closed => exact recovered_timer h hl

/-- **The store keeps trying.** As long as the application connects it only at first
or while it is open: in every state of a run one socket at most is alive, a try is due
exactly when all are closed, and it waits twice as long as the one before, a second at
first and never more than half a minute. From wherever it is, what is on its way and
at most one try bring it up again, with the sessions that were connected. -/
theorem keeps_trying {es : List Event} (h : EachStep step Calm new es) :
    Always step (fun t => t.Supervised ∧ (t.last ≠ none → t.last ≠ some .open →
      t.Recovered (run step t t.recovery))) new es :=
  always_of_eachStep supervised_new (fun _ _ hs hc => supervised_step hs hc)
    (fun _ hs => ⟨hs, hs.recovered⟩) h

/-- A socket opens and is lost, and two tries fail. -/
def losing : List Event :=
  [.connect, .opened 0, .closing 0, .closed 0, .reconnectTimer, .closing 1, .closed 1,
    .reconnectTimer, .closing 2, .closed 2]

/-- The next one waits four seconds. -/
theorem keeps_trying_sample : (run step new losing).store.backoffMs = 4000 := by
  have hcalm : EachStep step Calm new losing := by
    refine ⟨fun _ => .inl rfl, ?_⟩
    simp [EachStep, Calm]
  exact (keeps_trying hcalm).last.1.delay

end

end Tried

end Oxmux.Client
