import Oxmux.System.InputIsolation
import Oxmux.System.Relay

/-! Whose output a pane's handler gets. A frame names the raw pane only, and the
store takes it to be for the session in focus; a subscription names the raw pane
only, and the server keeps one for all sessions. -/

namespace Oxmux.System
open Oxmux.Lib Oxmux.Lib.Runs Oxmux.Session Oxmux.Ws Oxmux.Client

namespace Relay

/-! ## The property -/

/-- What a pane's handler was given is a part, in order, of what its own session
produced in it. -/
def Faithful (r : Relay) : Prop :=
  ∀ qid, (handedTo qid r.store).Sublist
    (r.server.app.produced (parseQualifiedPaneId qid).sessionId (parseQualifiedPaneId qid).paneId)

/-- When the server has read what is on the way, it forwards every pane that was
subscribed and not itself unsubscribed since. -/
def Heard (r : Relay) : Prop :=
  ∀ k conn, r.store.Online k → r.server.clients (.own k) = some conn → ∀ qid ∈ r.wanted,
    listening (parseQualifiedPaneId qid).paneId
      ((parseQualifiedPaneId qid).paneId ∈ conn.paneSubs.keys)
      ((wireOf k r.store).drop (r.readUp k)) = true

/-- The session in focus; there may be none. -/
def focus (s : Store) : Text := s.focusedSessionId.getD []

/-- Nothing of a pane is still to come through a socket: no frame is underway, and
the receiver at the server has read all. -/
def Spent (k : Nat) (pane : Text) (r : Relay) : Prop :=
  chunks pane ((r.server.outbox (.own k)).drop (r.readDown k)) = [] ∧
    ∀ conn rc, r.server.clients (.own k) = some conn → conn.paneSubs.get pane = some rc →
      (r.server.app.log pane).length ≤ rc.next

/-- A frame is handed over while no other open socket has something of its pane to
come. -/
def Single (r : Relay) : Pick → Prop
  | .deliver k => ∀ pane ch sid, (r.server.outbox (.own k))[r.readDown k]? =
      some (.output pane ch sid) → r.store.isOpen k = true → r.store.p2pConnections = [] →
      (r.store.paneHandlers.get (qualifyPaneId (focus r.store) pane)).isSome →
      ∀ k', k' ≠ k → r.store.isOpen k' = true → r.Spent k' pane
  | _ => True

/-- A frame that is handed over comes from the session in focus, and a pane is
unsubscribed while no other wanted pane has its raw id. -/
def Alone (r : Relay) : Pick → Prop
  | .deliver k => ∀ pane ch sid, (r.server.outbox (.own k))[r.readDown k]? =
      some (.output pane ch sid) → r.store.isOpen k = true → r.store.p2pConnections = [] →
      (r.store.paneHandlers.get (qualifyPaneId (focus r.store) pane)).isSome →
      ch.origin = focus r.store
  | .browser (.unsubscribePane qid) => ∀ k conn, r.store.Online k →
      r.server.clients (.own k) = some conn →
      r.store.p2pOf (parseQualifiedPaneId qid).sessionId = none → ∀ qid' ∈ r.wanted, qid' ≠ qid →
      (parseQualifiedPaneId qid').paneId ≠ (parseQualifiedPaneId qid).paneId
  | _ => True

/-! ## What the system keeps -/

structure Inv (r : Relay) : Prop where
  sound : r.server.app.sessionManager.Sound
  framed : r.server.Framed
  fresh : ∀ k, ¬ r.store.Past k → r.server.clients (.own k) = none ∧
    r.server.outbox (.own k) = [] ∧ r.readUp k = 0 ∧ r.readDown k = 0 ∧ wireOf k r.store = []
  down : ∀ k, r.readDown k ≤ (r.server.outbox (.own k)).length
  up : ∀ k, r.readUp k ≤ (wireOf k r.store).length
  subs : ∀ k conn, r.server.clients (.own k) = some conn → ∀ pane,
    pane ∈ conn.paneSubs.keys ↔
      listening pane false ((wireOf k r.store).take (r.readUp k)) = true
  feeds : ∀ k, r.store.isOpen k = true → ∀ sessionId pane, ':' ∉ sessionId →
    r.server.Feeds (.own k) (r.readDown k) sessionId pane
      (handedTo (qualifyPaneId sessionId pane) r.store)

theorem inv_new (db : List SessionRow) : (new db).Inv where
  sound := SessionManager.sound_new db
  framed := Server.framed_new db
  fresh k _ := ⟨rfl, rfl, rfl, rfl, rfl⟩
  down k := Nat.le_refl _
  up k := Nat.zero_le _
  subs k conn hc := by cases hc
  feeds k ho := by simp [new, Store.new, Store.isOpen] at ho

/-- Being heard, when all is read, is a matter of what was written. -/
theorem Inv.heard_iff_listening {r : Relay} (h : r.Inv) : r.Heard ↔
    ∀ k conn, r.store.Online k → r.server.clients (.own k) = some conn → ∀ qid ∈ r.wanted,
      listening (parseQualifiedPaneId qid).paneId false (wireOf k r.store) = true := by
  have hread : ∀ k conn, r.server.clients (.own k) = some conn → ∀ pane,
      listening pane (pane ∈ conn.paneSubs.keys) ((wireOf k r.store).drop (r.readUp k)) =
        listening pane false (wireOf k r.store) := by
    intro k conn hc pane
    have hb : decide (pane ∈ conn.paneSubs.keys) =
        listening pane false ((wireOf k r.store).take (r.readUp k)) := by
      rw [Bool.eq_iff_iff, decide_eq_true_eq]
      exact h.subs k conn hc pane
    rw [hb, ← listening_append, List.take_append_drop]
  constructor
  · intro hh k conn ho hc qid hq
    rw [← hread k conn hc]
    exact hh k conn ho hc qid hq
  · intro hh k conn ho hc qid hq
    rw [hread k conn hc]
    exact hh k conn ho hc qid hq

/-! ## What an event adds -/

section
variable {s s' : Store} {subs : List Msg} {given : List (Text × Chunk)}

theorem wireOf_wrote (h : s.Wrote s' subs given) (k : Nat) :
    ∃ msgs, wireOf k s' = wireOf k s ++ msgs ∧ (msgs ≠ [] → s.Online k) ∧
      (s.Online k → msgs.filter Msg.isSub = subs) := by
  obtain ⟨msgs, hw, hf⟩ := h.wire
  have hsplit : wireOf k s' = wireOf k s ++ ((s.onWire msgs).filter (·.1 = k)).map (·.2) := by
    rw [wireOf, hw, List.filter_append, List.map_append, wireOf]
  by_cases ho : s.Online k
  · refine ⟨msgs, ?_, fun _ => ho, fun _ => hf⟩
    obtain ⟨hs, hopen⟩ := ho
    rw [hsplit]
    simp [Store.onWire, hs, hopen, List.filter_map, Function.comp_def]
  · refine ⟨[], ?_, fun hne => absurd rfl hne, fun h => absurd h ho⟩
    have hnil : (s.onWire msgs).filter (·.1 = k) = [] := by
      rw [List.filter_eq_nil_iff]
      rintro ⟨k', msg⟩ hm
      simp only [decide_eq_true_eq]
      rintro rfl
      exact ho (Store.mem_onWire.mp hm).1
    rw [hsplit, hnil, List.map_nil]

theorem handedTo_wrote (h : s.Wrote s' subs given) (qid : Text) :
    handedTo qid s' = handedTo qid s ++ (given.filter (·.1 = qid)).map (·.2) := by
  rw [handedTo, h.handed, List.filter_append, List.map_append, handedTo]

theorem past_wrote (h : s.Wrote s' subs given) (k : Nat) : s'.Past k ↔ s.Past k := by
  rw [Store.Past, Store.Past, h.sockets]

theorem isOpen_wrote (h : s.Wrote s' subs given) (k : Nat) : s'.isOpen k = s.isOpen k := by
  rw [Store.isOpen, Store.isOpen, h.sockets]

end

/-- What is on the wire stays there; more comes only for a socket that is open. -/
theorem Inv.wire_wrote {r : Relay} (h : r.Inv) {s' : Store} {subs : List Msg}
    {given : List (Text × Chunk)} (hw : r.store.Wrote s' subs given) :
    (∀ k, ¬ s'.Past k → wireOf k s' = []) ∧ (∀ k, r.readUp k ≤ (wireOf k s').length) ∧
      ∀ k, (wireOf k s').take (r.readUp k) = (wireOf k r.store).take (r.readUp k) := by
  refine ⟨fun k hk => ?_, fun k => ?_, fun k => ?_⟩ <;>
    obtain ⟨msgs, hm, honline, -⟩ := wireOf_wrote hw k
  · have hk' : ¬ r.store.Past k := fun hp => hk ((past_wrote hw k).mpr hp)
    have hnil : msgs = [] := by
      by_contra hm'
      exact hk' (honline hm').past
    rw [hm, hnil, List.append_nil]
    exact (h.fresh k hk').2.2.2.2
  · rw [hm, List.length_append]
    exact Nat.le_trans (h.up k) (Nat.le_add_right _ _)
  · rw [hm]
    exact List.take_append_of_le_length (h.up k)

/-! ## Steps of the server -/

theorem spares_of_foreign {i : Input Conn} (h : foreign i = true) (k : Nat) :
    Server.spares (.own k) i := by
  cases i with
  | accept c =>
    cases c with
    | own j => cases h
    | other n => simp [Server.spares]
  | message c =>
    cases c with
    | own j => cases h
    | other n => simp [Server.spares]
  | _ => trivial

/-- An input that spares a socket connects none to it. -/
theorem clients_eq_none {server : Server Conn} {i : Input Conn} {k : Nat}
    (hs : Server.spares (.own k) i) (hc : server.clients (.own k) = none) :
    (server.step i).clients (.own k) = none := by
  cases hc' : (server.step i).clients (.own k) with
  | none => rfl
  | some conn' =>
    obtain ⟨conn, hconn, -⟩ := (Server.step_spares hs server).1 conn' hc'
    rw [hc] at hconn
    cases hconn

theorem inv_server {r : Relay} (h : r.Inv) {i : Input Conn} (hf : foreign i = true) :
    Inv { r with server := r.server.step i } := by
  have hr := Server.relays_step h.sound i
  refine ⟨Server.sound_step h.sound i, h.framed.relays hr, fun k hk => ?_,
    fun k => Nat.le_trans (h.down k) (Server.outbox_relays hr _).length_le, h.up,
    fun k conn' hc => ?_, fun k ho sessionId pane hs =>
      (h.feeds k ho sessionId pane hs).relays h.framed hr (h.down k)⟩
  · obtain ⟨hc, ho, hup, hdown, hw⟩ := h.fresh k hk
    have hspares := spares_of_foreign hf k
    exact ⟨clients_eq_none hspares hc, ((Server.step_spares hspares r.server).2 hc).trans ho, hup,
      hdown, hw⟩
  · obtain ⟨conn, hconn, hkeys⟩ := (Server.step_spares (spares_of_foreign hf k) r.server).1 conn' hc
    rw [hkeys]
    exact h.subs k conn hconn

theorem good_server {r : Relay} (h : r.Inv) {i : Input Conn} (hf : foreign i = true)
    (hg : r.Faithful ∧ r.Heard) :
    Faithful { r with server := r.server.step i } ∧ Heard { r with server := r.server.step i } := by
  have hr := Server.relays_step h.sound i
  refine ⟨fun qid => (hg.1 qid).trans (Server.produced_relays hr _ _), ?_⟩
  rw [(inv_server h hf).heard_iff_listening]
  intro k conn' ho hc
  obtain ⟨conn, hconn, -⟩ := (Server.step_spares (spares_of_foreign hf k) r.server).1 conn' hc
  exact h.heard_iff_listening.mp hg.2 k conn ho hconn

section
variable {r : Relay} {k : Nat} (env : MsgEnv) (w : Msg) {conn : ConnectionState}

/-- What reading a message does: nothing but to the connection, or what the
message says. -/
theorem receive_cases (hc : r.server.clients (.own k) = some conn) :
    (decodeClientMsg w = none ∧ (r.receive k env w).server = r.server) ∨
      ∃ msg, decodeClientMsg w = some msg ∧
        (r.receive k env w).server = r.server.message (.own k) msg env conn := by
  unfold receive
  cases hd : decodeClientMsg w with
  | none => exact .inl ⟨rfl, rfl⟩
  | some msg => exact .inr ⟨msg, rfl, by simp [Server.step, hc]⟩

theorem relays_receive (hc : r.server.clients (.own k) = some conn) :
    Relays r.server (r.receive k env w).server := by
  rcases receive_cases env w hc with ⟨-, he⟩ | ⟨msg, -, he⟩
  · exact he ▸ Server.relays_refl _
  · exact he ▸ Server.relays_message _ msg env hc

theorem sound_receive (h : r.server.app.sessionManager.Sound) :
    (r.receive k env w).server.app.sessionManager.Sound := by
  unfold receive
  cases decodeClientMsg w with
  | none => exact h
  | some msg => exact Server.sound_step h _

theorem clients_receive_ne (hc : r.server.clients (.own k) = some conn) {k' : Nat} (hne : k' ≠ k) :
    (r.receive k env w).server.clients (.own k') = r.server.clients (.own k') ∧
      (r.receive k env w).server.outbox (.own k') = r.server.outbox (.own k') := by
  have hconn : Conn.own k' ≠ Conn.own k := by simp [hne]
  rcases receive_cases env w hc with ⟨-, he⟩ | ⟨msg, -, he⟩
  · exact ⟨by rw [he], by rw [he]⟩
  · rw [he]
    exact ⟨Function.update_of_ne hconn _ _, by
      rw [Server.message, Server.outbox_send, if_neg hconn, List.append_nil]⟩

theorem clients_receive (hc : r.server.clients (.own k) = some conn) :
    ∃ conn', (r.receive k env w).server.clients (.own k) = some conn' ∧
      ∀ pane, pane ∈ conn'.paneSubs.keys ↔ hears pane (pane ∈ conn.paneSubs.keys) w = true := by
  rcases receive_cases env w hc with ⟨hd, he⟩ | ⟨msg, hd, he⟩
  · refine ⟨conn, by rw [he, hc], fun pane => ?_⟩
    rw [hears_of_undecoded hd, decide_eq_true_eq]
  · refine ⟨_, ?_, fun pane => mem_keys_receive hd env r.server.app conn pane⟩
    rw [he]
    simp only [Server.message, Server.send, Function.update_self]

end

theorem inv_receive {r : Relay} (h : r.Inv) {k : Nat} {env : MsgEnv} {w : Msg}
    {conn : ConnectionState} (hc : r.server.clients (.own k) = some conn)
    (hw : (wireOf k r.store)[r.readUp k]? = some w) : (r.receive k env w).Inv := by
  have hr := relays_receive env w hc
  have hpast : r.store.Past k := by
    by_contra hp
    rw [(h.fresh k hp).1] at hc
    cases hc
  have hup : ∀ k', k' ≠ k → (r.receive k env w).readUp k' = r.readUp k' :=
    fun k' hne => Function.update_of_ne hne _ _
  have hup' : (r.receive k env w).readUp k = r.readUp k + 1 := Function.update_self ..
  refine ⟨sound_receive env w h.sound, h.framed.relays hr, fun k' hk' => ?_,
    fun k' => Nat.le_trans (h.down k') (Server.outbox_relays hr _).length_le, fun k' => ?_,
    fun k' conn' hc' pane => ?_, fun k' ho sessionId pane hs =>
      (h.feeds k' ho sessionId pane hs).relays h.framed hr (h.down k')⟩
  · have hne : k' ≠ k := fun he => hk' (he ▸ hpast)
    obtain ⟨hc', ho, hu, hd, hw'⟩ := h.fresh k' hk'
    obtain ⟨hsc, hso⟩ := clients_receive_ne env w hc hne
    exact ⟨hsc.trans hc', hso.trans ho, (hup k' hne).trans hu, hd, hw'⟩
  · by_cases he : k' = k
    · subst he
      rw [hup']
      exact (List.getElem?_eq_some_iff.mp hw).1
    · rw [hup k' he]
      exact h.up k'
  · by_cases he : k' = k
    · subst he
      obtain ⟨conn'', hc'', hkeys⟩ := clients_receive env w hc
      rw [hc'', Option.some.injEq] at hc'
      subst hc'
      have hb : decide (pane ∈ conn.paneSubs.keys) =
          listening pane false ((wireOf k' r.store).take (r.readUp k')) := by
        rw [Bool.eq_iff_iff, decide_eq_true_eq]
        exact h.subs k' conn hc pane
      rw [hkeys, hup', hb]
      change _ ↔ listening pane false ((wireOf k' r.store).take (r.readUp k' + 1)) = true
      rw [List.take_add_one, hw, Option.toList_some, listening_append]
      rfl
    · rw [hup k' he]
      rw [(clients_receive_ne env w hc he).1] at hc'
      exact h.subs k' conn' hc' pane

theorem good_receive {r : Relay} (h : r.Inv) {k : Nat} {env : MsgEnv} {w : Msg}
    {conn : ConnectionState} (hc : r.server.clients (.own k) = some conn)
    (hw : (wireOf k r.store)[r.readUp k]? = some w) (hg : r.Faithful ∧ r.Heard) :
    (r.receive k env w).Faithful ∧ (r.receive k env w).Heard := by
  have hr := relays_receive env w hc
  refine ⟨fun qid => (hg.1 qid).trans (Server.produced_relays hr _ _), ?_⟩
  rw [(inv_receive h hc hw).heard_iff_listening]
  intro k' conn' ho hc'
  by_cases he : k' = k
  · subst he
    exact h.heard_iff_listening.mp hg.2 k' conn ho hc
  · rw [(clients_receive_ne env w hc he).1] at hc'
    exact h.heard_iff_listening.mp hg.2 k' conn' ho hc'

/-! ## A socket opens -/

def openedAt (k : Nat) (userId : Text) (env : Session.Env) (r : Relay) : Relay :=
  { r with
    server := r.server.step (.accept (.own k) userId env)
    store := r.store.onOpen k
    wanted := [] }

theorem handedTo_onOpen (k : Nat) (qid : Text) (s : Store) :
    handedTo qid (s.onOpen k) = handedTo qid s := by
  rw [handedTo_wrote (s.wrote_onOpen k)]
  exact List.append_nil _

section
variable {r : Relay} {k : Nat} (userId : Text) (env : Session.Env)

theorem spares_accept {k' : Nat} (hne : k' ≠ k) :
    Server.spares (Conn.own k') (.accept (.own k) userId env) := by
  simp [Server.spares, hne]

/-- The socket had no connection, so it gets one. -/
theorem step_accept (hnone : r.server.clients (.own k) = none) :
    r.server.step (.accept (.own k) userId env) = r.server.accept (.own k) userId env := by
  simp [Server.step, hnone]

variable (h : r.Inv) (hk : r.store.sockets[k]? = some .connecting)
include h hk

/-- Nothing happened yet on a socket that is connecting. -/
theorem fresh_connecting : r.server.clients (.own k) = none ∧
    r.server.outbox (.own k) = [] ∧ r.readUp k = 0 ∧ r.readDown k = 0 ∧ wireOf k r.store = [] := by
  refine h.fresh k ?_
  rintro ⟨state, hs, hne⟩
  exact hne (Option.some.inj (hs.symm.trans hk))

theorem fresh_opened {k' : Nat} (hk' : ¬ (r.store.onOpen k).Past k') :
    (r.openedAt k userId env).server.clients (.own k') = none ∧
      (r.openedAt k userId env).server.outbox (.own k') = [] ∧ r.readUp k' = 0 ∧
      r.readDown k' = 0 ∧ wireOf k' (r.store.onOpen k) = [] := by
  have hw := r.store.wrote_onOpen k
  have hpast : r.store.Past k' → (r.store.onOpen k).Past k' :=
    Store.past_of_set (by simp) hw.sockets
  have hne : k' ≠ k := by
    rintro rfl
    obtain ⟨hlt, -⟩ := List.getElem?_eq_some_iff.mp hk
    exact hk' ⟨.open, by rw [hw.sockets]; simp [Store.opened, hlt], by simp⟩
  obtain ⟨hc, ho, hu, hd, hw'⟩ := h.fresh k' fun hp => hk' (hpast hp)
  obtain ⟨msgs, hm, honline, -⟩ := wireOf_wrote hw k'
  have hnil : msgs = [] := by
    by_contra hm'
    exact hk' ((past_wrote hw k').mpr (honline hm').past)
  have hspares := spares_accept userId env hne
  exact ⟨clients_eq_none hspares hc, ((Server.step_spares hspares r.server).2 hc).trans ho, hu, hd,
    hm.trans (by rw [hnil, List.append_nil]; exact hw')⟩

/-- The new connection hears nothing, the others what they heard. -/
theorem subs_opened {k' : Nat} {conn' : ConnectionState}
    (hc' : (r.openedAt k userId env).server.clients (.own k') = some conn') (pane : Text) :
    pane ∈ conn'.paneSubs.keys ↔
      listening pane false ((wireOf k' (r.store.onOpen k)).take (r.readUp k')) = true := by
  obtain ⟨msgs, hm, -⟩ := wireOf_wrote (r.store.wrote_onOpen k) k'
  by_cases he : k' = k
  · subst he
    obtain ⟨hnone, -, hup, -, -⟩ := fresh_connecting h hk
    obtain ⟨-, hclients⟩ := Server.accept_spec (.own k') userId env r.server
    simp only [openedAt, step_accept userId env hnone, hclients, Function.update_self,
      Option.some.injEq] at hc'
    subst hc'
    simp [hup, ConnectionState.new, Table.keys, listening]
  · obtain ⟨conn, hconn, hkeys⟩ :=
      (Server.step_spares (spares_accept userId env he) r.server).1 conn' hc'
    have htake : (wireOf k' (r.store.onOpen k)).take (r.readUp k') =
        (wireOf k' r.store).take (r.readUp k') := by
      rw [hm]
      exact List.take_append_of_le_length (h.up k')
    rw [hkeys, htake]
    exact h.subs k' conn hconn pane

/-- What the connection was given is what it gets from its start on. -/
theorem feeds_opened (hf : r.Faithful) {sessionId pane : Text} (hs : ':' ∉ sessionId) :
    (r.openedAt k userId env).server.Feeds (.own k) (r.readDown k) sessionId pane
      (handedTo (qualifyPaneId sessionId pane) (r.store.onOpen k)) := by
  have hr := Server.relays_step h.sound (.accept (.own k) userId env)
  obtain ⟨hnone, hempty, -, hdown, -⟩ := fresh_connecting h hk
  have haccept := step_accept userId env hnone
  obtain ⟨hsent, hclients⟩ := Server.accept_spec (.own k) userId env r.server
  refine ⟨_, Nat.le_refl _, fun conn' rc hc' hget => ?_, ?_⟩
  · simp only [openedAt, haccept, hclients, Function.update_self, Option.some.injEq] at hc'
    subst hc'
    simp [ConnectionState.new] at hget
  · obtain ⟨msgs, hm, hq⟩ := hsent (.own k)
    have hgiven := handedTo_onOpen k (qualifyPaneId sessionId pane) r.store
    have hfaith := (hf (qualifyPaneId sessionId pane)).trans (Server.produced_relays hr _ _)
    rw [parse_qualifyPaneId hs] at hfaith
    simp only [openedAt, hdown, List.drop_zero, List.take_length, hgiven]
    rw [haccept, hm, hempty, List.nil_append, hq.chunks_eq, List.filter_nil, List.append_nil,
      ← haccept]
    exact hfaith

theorem inv_opened (hf : r.Faithful) : (r.openedAt k userId env).Inv := by
  have hr := Server.relays_step h.sound (.accept (.own k) userId env)
  have hw := r.store.wrote_onOpen k
  refine ⟨Server.sound_step h.sound _, h.framed.relays hr,
    fun k' => fresh_opened userId env h hk,
    fun k' => Nat.le_trans (h.down k') (Server.outbox_relays hr _).length_le, fun k' => ?_,
    fun k' conn' => subs_opened userId env h hk, fun k' ho sessionId pane hs => ?_⟩
  · obtain ⟨msgs, hm, -⟩ := wireOf_wrote hw k'
    have hle : (wireOf k' r.store).length ≤ (wireOf k' (r.store.onOpen k)).length := by
      rw [hm, List.length_append]
      exact Nat.le_add_right _ _
    exact Nat.le_trans (h.up k') hle
  · by_cases he : k' = k
    · subst he
      exact feeds_opened userId env h hk hf hs
    · -- the other sockets go on as they were
      have ho' : r.store.isOpen k' = true := by
        rw [Store.isOpen_iff, openedAt, hw.sockets, Store.opened,
          List.getElem?_set_ne (Ne.symm he)] at ho
        exact Store.isOpen_iff.mpr ho
      have hgiven := handedTo_onOpen k (qualifyPaneId sessionId pane) r.store
      rw [openedAt, hgiven]
      exact (h.feeds k' ho' sessionId pane hs).relays h.framed hr (h.down k')

end

theorem good_opened {r : Relay} (h : r.Inv) {k : Nat} (userId : Text) (env : Session.Env)
    (hf : r.Faithful) :
    (r.openedAt k userId env).Faithful ∧ (r.openedAt k userId env).Heard := by
  have hr := Server.relays_step h.sound (.accept (.own k) userId env)
  refine ⟨fun qid => ?_, fun k' conn ho hc qid hq => by cases hq⟩
  exact handedTo_onOpen k qid r.store ▸ (hf qid).trans (Server.produced_relays hr _ _)

/-! ## A frame is delivered -/

def deliveredAt (k : Nat) (frame : ServerMsg) (r : Relay) : Relay :=
  { r with
    store := r.store.step (.message k frame)
    readDown := Function.update r.readDown k (r.readDown k + 1) }

section
variable {r : Relay} {k : Nat} {frame : ServerMsg}

theorem wrote_deliver (r : Relay) (k : Nat) (frame : ServerMsg) :
    r.store.Wrote (r.store.step (.message k frame)) []
    (r.store.gives (.message k frame)) :=
  Store.wrote_step (e := .message k frame) rfl r.store

theorem gives_output (s : Store) (k : Nat) (pane : Text) (ch : Chunk) :
    s.gives (.message k (.output pane ch none)) =
      if s.isOpen k = true ∧ s.p2pConnections = [] then
        if (s.paneHandlers.get (qualifyPaneId (focus s) pane)).isSome then
          [(qualifyPaneId (focus s) pane, ch)] else [] else [] := rfl

/-- A frame is dropped, or handed over as if it came from the session in focus. -/
theorem gives_cases (h : r.server.Framed)
    (hn : (r.server.outbox (.own k))[r.readDown k]? = some frame) :
    (r.store.gives (.message k frame) = [] ∧ r.Alone (.deliver k)) ∨
      ∃ pane ch, frame = .output pane ch none ∧ ch ∈ r.server.app.log pane ∧
        r.store.gives (.message k frame) = [(qualifyPaneId (focus r.store) pane, ch)] ∧
        (r.Alone (.deliver k) ↔ ch.origin = focus r.store) ∧
        (r.Single (.deliver k) → ∀ k', k' ≠ k → r.store.isOpen k' = true → r.Spent k' pane) := by
  have halone : (∀ pane ch sid, frame ≠ .output pane ch sid) → r.Alone (.deliver k) := by
    intro hne pane ch sid hf
    exact absurd (Option.some.inj (hn.symm.trans hf)) (hne pane ch sid)
  cases frame with
  | output pane ch sid =>
    obtain ⟨rfl, hlog⟩ := h.framed _ pane ch sid (List.mem_of_getElem? hn)
    have hsame : ∀ pane' ch' sid', (r.server.outbox (.own k))[r.readDown k]? =
        some (.output pane' ch' sid') → pane' = pane ∧ ch' = ch := by
      intro pane' ch' sid' hf
      have he := Option.some.inj (hn.symm.trans hf)
      injection he with h₁ h₂ h₃
      exact ⟨h₁.symm, h₂.symm⟩
    rw [gives_output]
    by_cases hc : r.store.isOpen k = true ∧ r.store.p2pConnections = []
    · by_cases hh : (r.store.paneHandlers.get (qualifyPaneId (focus r.store) pane)).isSome = true
      · refine .inr ⟨pane, ch, rfl, hlog, by rw [if_pos hc, if_pos hh], ⟨?_, ?_⟩,
          fun hone => hone pane ch none hn hc.1 hc.2 hh⟩
        · intro ha
          exact ha pane ch none hn hc.1 hc.2 hh
        · intro ho pane' ch' sid' hf _ _ _
          obtain ⟨rfl, rfl⟩ := hsame pane' ch' sid' hf
          exact ho
      · refine .inl ⟨by rw [if_pos hc, if_neg hh], ?_⟩
        intro pane' ch' sid' hf _ _ hh'
        obtain ⟨rfl, rfl⟩ := hsame pane' ch' sid' hf
        exact absurd hh' hh
    · refine .inl ⟨by rw [if_neg hc], ?_⟩
      intro pane' ch' sid' hf ho hp _
      exact absurd ⟨ho, hp⟩ hc
  | _ =>
    refine .inl ⟨?_, halone fun _ _ _ he => by cases he⟩
    simp [Store.gives, Store.handsOver]

end

theorem feeds_delivered {r : Relay} (h : r.Inv) {k : Nat} {frame : ServerMsg}
    (hn : (r.server.outbox (.own k))[r.readDown k]? = some frame) (ho : r.store.isOpen k = true)
    (ha : r.Alone (.deliver k)) {sessionId : Text} (hs : ':' ∉ sessionId) (pane : Text) :
    r.server.Feeds (.own k) (r.readDown k + 1) sessionId pane
      (handedTo (qualifyPaneId sessionId pane) (r.store.step (.message k frame))) := by
  refine Server.Feeds.advance (h.feeds k ho sessionId pane hs) hn ?_
  have hgiven := handedTo_wrote (wrote_deliver r k frame) (qualifyPaneId sessionId pane)
  rcases gives_cases h.framed hn with ⟨hnil, -⟩ | ⟨q, ch, rfl, hlog, hgive, hiff, -⟩
  · rw [hnil] at hgiven
    exact .inl (hgiven.trans (List.append_nil _))
  · have horigin := hiff.mp ha
    have hfocus : ':' ∉ focus r.store := horigin ▸ (h.framed.tagged q ch hlog).1.2
    rw [hgive] at hgiven
    by_cases hq : qualifyPaneId (focus r.store) q = qualifyPaneId sessionId pane
    · obtain ⟨h₁, h₂⟩ := qualifyPaneId_inj hfocus hs hq
      exact .inr ⟨ch, by simp [ServerMsg.chunkFor, h₂], horigin.trans h₁,
        hgiven.trans (by simp [hq])⟩
    · exact .inl (hgiven.trans (by simp [hq]))

/-- Another socket has nothing of the pane to come, or the pane's handler was given
nothing. -/
theorem feeds_delivered_ne {r : Relay} (h : r.Inv) {k : Nat} {frame : ServerMsg}
    (hn : (r.server.outbox (.own k))[r.readDown k]? = some frame) (ho : r.store.isOpen k = true)
    (ha : r.Alone (.deliver k)) (hone : r.Single (.deliver k)) {k' : Nat} (hne : k' ≠ k)
    (ho' : r.store.isOpen k' = true) {sessionId pane : Text} (hs : ':' ∉ sessionId) :
    r.server.Feeds (.own k') (r.readDown k') sessionId pane
      (handedTo (qualifyPaneId sessionId pane) (r.store.step (.message k frame))) := by
  have hfeeds := feeds_delivered h hn ho ha hs pane
  have hgiven := handedTo_wrote (wrote_deliver r k frame) (qualifyPaneId sessionId pane)
  rcases gives_cases h.framed hn with ⟨hnil, -⟩ | ⟨q, ch, rfl, hlog, hgive, hiff, hspent⟩
  · rw [hnil] at hgiven
    exact (hgiven.trans (List.append_nil _)) ▸ h.feeds k' ho' sessionId pane hs
  · have horigin := hiff.mp ha
    have hfocus : ':' ∉ focus r.store := horigin ▸ (h.framed.tagged q ch hlog).1.2
    by_cases hq : qualifyPaneId (focus r.store) q = qualifyPaneId sessionId pane
    · obtain ⟨-, h₂⟩ := qualifyPaneId_inj hfocus hs hq
      obtain ⟨hunder, hread⟩ := hspent hone k' hne ho'
      rw [h₂] at hunder hread
      exact Server.feeds_spent hunder hread hfeeds.produced
    · have hsame : handedTo (qualifyPaneId sessionId pane)
          (r.store.step (.message k (.output q ch none))) =
            handedTo (qualifyPaneId sessionId pane) r.store :=
        hgiven.trans (by simp [hgive, hq])
      exact hsame ▸ h.feeds k' ho' sessionId pane hs

theorem inv_deliver {r : Relay} (h : r.Inv) {k : Nat} {frame : ServerMsg}
    (hn : (r.server.outbox (.own k))[r.readDown k]? = some frame) (ho : r.store.isOpen k = true)
    (ha : r.Alone (.deliver k)) (hone : r.Single (.deliver k)) : (r.deliveredAt k frame).Inv := by
  have hw := wrote_deliver r k frame
  obtain ⟨hwire, hup, htake⟩ := h.wire_wrote hw
  have hdown : ∀ k', k' ≠ k → (r.deliveredAt k frame).readDown k' = r.readDown k' :=
    fun k' hne => Function.update_of_ne hne _ _
  have hdownk : (r.deliveredAt k frame).readDown k = r.readDown k + 1 := Function.update_self ..
  have hpastk : r.store.Past k := ⟨.open, Store.isOpen_iff.mp ho, by simp⟩
  refine ⟨h.sound, h.framed, fun k' hk' => ?_, fun k' => ?_, hup, fun k' conn hc pane => ?_,
    fun k' ho' sessionId pane hs => ?_⟩
  · have hk'' : ¬ r.store.Past k' := fun hp => hk' ((past_wrote hw k').mpr hp)
    have hne : k' ≠ k := fun he => hk'' (he ▸ hpastk)
    obtain ⟨hc, hout, hu, hd, -⟩ := h.fresh k' hk''
    exact ⟨hc, hout, hu, (hdown k' hne).trans hd, hwire k' hk'⟩
  · by_cases he : k' = k
    · subst he
      rw [hdownk]
      exact (List.getElem?_eq_some_iff.mp hn).1
    · rw [hdown k' he]
      exact h.down k'
  · rw [deliveredAt, htake]
    exact h.subs k' conn hc pane
  · by_cases he : k' = k
    · subst he
      rw [hdownk]
      exact feeds_delivered h hn ho ha hs pane
    · rw [hdown k' he]
      exact feeds_delivered_ne h hn ho ha hone he (isOpen_wrote hw k' ▸ ho') hs

theorem good_deliver_iff {r : Relay} (h : r.Inv) {k : Nat} {frame : ServerMsg}
    (hn : (r.server.outbox (.own k))[r.readDown k]? = some frame) (ho : r.store.isOpen k = true)
    (hg : r.Faithful ∧ r.Heard) :
    ((r.deliveredAt k frame).Faithful ∧ (r.deliveredAt k frame).Heard) ↔ r.Alone (.deliver k) := by
  have hw := wrote_deliver r k frame
  constructor
  · intro ⟨hf, _⟩
    rcases gives_cases h.framed hn with ⟨-, ha⟩ | ⟨q, ch, rfl, hlog, hgive, hiff, -⟩
    · exact ha
    · refine hiff.mpr ?_
      -- the piece was handed over for the session in focus, and its log has only its own
      have hmem : ch ∈ handedTo (qualifyPaneId (focus r.store) q)
          (r.store.step (.message k (.output q ch none))) := by
        rw [handedTo_wrote hw, hgive]
        simp
      have hprod := (hf (qualifyPaneId (focus r.store) q)).subset hmem
      obtain ⟨hlog', horigin⟩ := List.mem_filter.mp hprod
      obtain ⟨huuid, hpane⟩ := h.framed.tagged _ ch hlog'
      have hpane' := (h.framed.tagged q ch hlog).2
      have hsession := of_decide_eq_true horigin
      have hqual := qualify_parse (hsession ▸ huuid.1)
      rw [← hsession, ← hpane, hpane'] at hqual
      exact qualifyPaneId_left_inj.mp hqual
  · intro ha
    refine ⟨fun qid => ?_, fun k' conn ho' hc qid hq => ?_⟩
    · have hgiven := handedTo_wrote hw qid
      rcases gives_cases h.framed hn with ⟨hnil, -⟩ | ⟨q, ch, rfl, hlog, hgive, hiff, -⟩
      · rw [hnil] at hgiven
        exact (hgiven.trans (List.append_nil _)) ▸ hg.1 qid
      · have horigin := hiff.mp ha
        have hfocus : ':' ∉ focus r.store := horigin ▸ (h.framed.tagged q ch hlog).1.2
        rw [hgive] at hgiven
        by_cases hq : qualifyPaneId (focus r.store) q = qid
        · have hfeed := (feeds_delivered h hn ho ha hfocus q).produced
          rw [hq] at hfeed
          rw [← hq, parse_qualifyPaneId hfocus, hq]
          exact hfeed
        · have hsame : handedTo qid (r.store.step (.message k (.output q ch none))) =
              handedTo qid r.store := hgiven.trans (by simp [hq])
          exact hsame ▸ hg.1 qid
    · have honline := (hw.online k').mp ho'
      have hheard := hg.2 k' conn honline hc qid hq
      obtain ⟨msgs, hm, -, hsubs⟩ := wireOf_wrote hw k'
      have hdrop : (wireOf k' (r.store.step (.message k frame))).drop (r.readUp k') =
          (wireOf k' r.store).drop (r.readUp k') ++ msgs := by
        rw [hm, List.drop_append_of_le_length (h.up k')]
      change listening _ _ ((wireOf k' (r.store.step (.message k frame))).drop (r.readUp k')) = true
      rw [hdrop, listening_append, ← listening_filter _ _ msgs, hsubs honline]
      exact hheard

/-! ## The browser acts -/

def actedOn (e : Event) (r : Relay) : Relay :=
  { r with store := r.store.step e, wanted := r.wants e }

/-- Nothing is handed over by the browser's own events. -/
theorem gives_native {s : Store} {e : Event} (h : native e = true) : s.gives e = [] := by
  cases e with
  | message => cases h
  | p2pMessage sessionId msg =>
    cases msg with
    | output => cases h
    | _ => rfl
  | _ => rfl

theorem handedTo_native {s : Store} {e : Event} (h : native e = true) (qid : Text) :
    handedTo qid (s.step e) = handedTo qid s := by
  rw [handedTo, Store.handed_step, gives_native h, List.append_nil, handedTo]

theorem inv_browser {r : Relay} (h : r.Inv) {e : Event} (hn : native e = true) :
    (r.actedOn e).Inv := by
  have hfeeds : ∀ k, r.store.isOpen k = true → ∀ sessionId pane, ':' ∉ sessionId →
      r.server.Feeds (.own k) (r.readDown k) sessionId pane
        (handedTo (qualifyPaneId sessionId pane) (r.store.step e)) := by
    intro k ho sessionId pane hs
    rw [handedTo_native hn]
    exact h.feeds k ho sessionId pane hs
  cases hs : e.ofSocket with
  | false =>
    have hw := Store.wrote_step hs r.store
    obtain ⟨hwire, hup, htake⟩ := h.wire_wrote hw
    refine ⟨h.sound, h.framed, fun k hk => ?_, h.down, hup, fun k conn hc pane => ?_,
      fun k ho => hfeeds k (isOpen_wrote hw k ▸ ho)⟩
    · obtain ⟨hc, hout, hu, hd, -⟩ := h.fresh k fun hp => hk ((past_wrote hw k).mpr hp)
      exact ⟨hc, hout, hu, hd, hwire k hk⟩
    · rw [actedOn, htake]
      exact h.subs k conn hc pane
  | true =>
    have hq := Store.quiet_step hs (by rintro socket rfl; cases hn) r.store
    have hwire : ∀ k, wireOf k (r.store.step e) = wireOf k r.store := fun k => by
      rw [wireOf, hq.wire, wireOf]
    refine ⟨h.sound, h.framed, fun k hk => ?_, h.down, fun k => ?_, fun k conn hc pane => ?_,
      fun k ho => hfeeds k (hq.isOpen k ho)⟩
    · obtain ⟨hc, hout, hu, hd, hw⟩ := h.fresh k fun hp => hk (hq.past k hp)
      exact ⟨hc, hout, hu, hd, (hwire k).trans hw⟩
    · rw [actedOn, hwire]
      exact h.up k
    · rw [actedOn, hwire]
      exact h.subs k conn hc pane

theorem asks_drops (s : Store) (e : Event) :
    s.drops e = [] ∨ ∃ qid, s.drops e = [qid] ∧ s.asks e = [] := by
  cases e with
  | unsubscribePane qid =>
    simp only [Store.drops, Store.asks]
    split
    · exact .inr ⟨qid, rfl, trivial⟩
    · exact .inl rfl
  | _ => exact .inl rfl

theorem alone_browser_iff (r : Relay) (e : Event) :
    r.Alone (.browser e) ↔ ∀ k conn, r.store.Online k → r.server.clients (.own k) = some conn →
      ∀ qid ∈ r.store.drops e, ∀ qid' ∈ r.wanted, qid' ≠ qid →
        (parseQualifiedPaneId qid').paneId ≠ (parseQualifiedPaneId qid).paneId := by
  cases e with
  | unsubscribePane qid =>
    simp only [Alone, Store.drops]
    by_cases hp : r.store.p2pOf (parseQualifiedPaneId qid).sessionId = none
    · simp [hp]
    · simp [hp]
  | _ => simp [Alone, Store.drops]

/-- What a connection hears after the messages of an event. -/
theorem listening_subMsgs (s : Store) (e : Event) (pane : Text) (heard : Bool) :
    listening pane heard (s.subMsgs e) = true ↔
      (heard = true ∨ ∃ qid ∈ s.asks e, (parseQualifiedPaneId qid).paneId = pane) ∧
        ∀ qid ∈ s.drops e, (parseQualifiedPaneId qid).paneId ≠ pane := by
  have hsubs : listening pane heard
      ((s.asks e).map fun qid => .sub (parseQualifiedPaneId qid).paneId) = true ↔
      heard = true ∨ ∃ qid ∈ s.asks e, (parseQualifiedPaneId qid).paneId = pane := by
    have hl := listening_subs pane heard
      ((s.asks e).map fun qid => (parseQualifiedPaneId qid).paneId)
    rw [List.map_map] at hl
    change listening pane heard (List.map (Msg.sub ∘ _) _) = true ↔ _
    rw [hl]
    simp
  rw [Store.subMsgs, listening_append]
  rcases asks_drops s e with hd | ⟨qid, hd, ha⟩
  · rw [hd]
    simpa [listening] using hsubs
  · rw [hd, List.map_singleton, listening, List.foldl_cons, List.foldl_nil, hears, Bool.and_eq_true,
      hsubs, decide_eq_true_eq]
    refine and_congr Iff.rfl ⟨fun hne q hq => ?_, fun hall => hall qid (by simp)⟩
    rw [List.mem_singleton.mp hq]
    exact hne

/-- What an event that is none of the socket's makes of what a connection hears. -/
theorem listening_step {r : Relay} {e : Event} (hs : e.ofSocket = false) {k : Nat}
    (ho : r.store.Online k) (pane : Text) :
    listening pane false (wireOf k (r.store.step e)) =
      listening pane (listening pane false (wireOf k r.store)) (r.store.subMsgs e) := by
  obtain ⟨msgs, hm, -, hsubs⟩ := wireOf_wrote (Store.wrote_step hs r.store) k
  rw [hm, listening_append, ← listening_filter _ _ msgs, hsubs ho]

theorem mem_wants {r : Relay} {e : Event} {k : Nat} (ho : r.store.Online k) {qid : Text} :
    qid ∈ r.wants e ↔
      (qid ∈ r.wanted ∨ qid ∈ r.store.asks e) ∧ qid ∉ r.store.drops e := by
  have hany : (r.store.wsSend.any fun socket => r.store.isOpen socket) = true := by
    rw [ho.1, Option.any_some]
    exact ho.2
  simp only [wants, hany, if_true, List.mem_filter, List.mem_append, decide_eq_true_eq]

theorem good_browser_iff {r : Relay} (h : r.Inv) {e : Event} (hn : native e = true)
    (hg : r.Faithful ∧ r.Heard) :
    ((r.actedOn e).Faithful ∧ (r.actedOn e).Heard) ↔ r.Alone (.browser e) := by
  have hf : (r.actedOn e).Faithful := fun qid => by
    rw [actedOn, handedTo_native hn]
    exact hg.1 qid
  have hheard := h.heard_iff_listening.mp hg.2
  rw [and_iff_right hf, (inv_browser h hn).heard_iff_listening, alone_browser_iff]
  cases hs : e.ofSocket with
  | true =>
    have hq := Store.quiet_step hs (by rintro socket rfl; cases hn) r.store
    have hask : r.store.asks e = [] ∧ r.store.drops e = [] := by
      cases e <;> first | exact ⟨rfl, rfl⟩ | cases hs
    refine iff_of_true (fun k conn ho hc qid hm => ?_) (by simp [hask])
    have honline : r.store.Online k := by
      refine ⟨?_, hq.isOpen k ho.2⟩
      rcases hq.wsSend with hn | hsame
      · exact absurd (hn.symm.trans ho.1) (by simp)
      · exact hsame.symm.trans ho.1
    have hwant : r.wants e = r.wanted := by simp [wants, hask]
    rw [actedOn, wireOf, hq.wire]
    exact hheard k conn honline hc qid (hwant ▸ hm)
  | false =>
    have hw := Store.wrote_step hs r.store
    constructor
    · intro hh k conn ho hc qid hd qid' hq' hne
      rcases asks_drops r.store e with hnil | ⟨q, hone, -⟩
      · simp [hnil] at hd
      · have hqid : qid = q := by simpa [hone] using hd
        have hm : qid' ∈ r.wants e := by
          rw [mem_wants ho, hone]
          exact ⟨.inl hq', by simpa [← hqid] using hne⟩
        have hl := hh k conn ((hw.online k).mpr ho) hc qid' hm
        rw [actedOn, listening_step hs ho, listening_subMsgs] at hl
        exact (hl.2 qid hd).symm
    · intro ha k conn ho hc qid hm
      have honline := (hw.online k).mp ho
      obtain ⟨hq, hd⟩ := (mem_wants honline).mp hm
      rw [actedOn, listening_step hs honline, listening_subMsgs]
      rcases hq with hq | hq
      · refine ⟨.inl (hheard k conn honline hc qid hq), fun q hqd => ?_⟩
        have hne : qid ≠ q := fun he => hd (he ▸ hqd)
        exact (ha k conn honline hc q hqd qid hq hne).symm
      · refine ⟨.inr ⟨qid, hq, rfl⟩, fun q hqd => ?_⟩
        rcases asks_drops r.store e with hnil | ⟨q', -, hnone⟩
        · simp [hnil] at hqd
        · simp [hnone] at hq

/-! ## Runs -/

theorem good_step_iff {r : Relay} (h : r.Inv) (hg : r.Faithful ∧ r.Heard) (p : Pick) :
    ((r.step p).Faithful ∧ (r.step p).Heard) ↔ r.Alone p := by
  cases p with
  | server i =>
    refine iff_of_true ?_ trivial
    simp only [step]
    split
    · rename_i hf
      exact good_server h hf hg
    · exact hg
  | receive k env =>
    refine iff_of_true ?_ trivial
    simp only [step]
    split
    · rename_i w conn hw hc
      exact good_receive h hc hw hg
    · exact hg
  | deliver k =>
    simp only [step]
    split
    · rename_i frame hn ho
      exact good_deliver_iff h hn ho hg
    · rename_i hno
      exact iff_of_true hg fun pane ch sid hn ho => absurd ho (hno _ hn)
  | opened k userId env =>
    refine iff_of_true ?_ trivial
    simp only [step]
    split
    · rename_i hk
      rw [Store.step, if_pos hk]
      exact good_opened h userId env hg.1
    · exact hg
  | browser e =>
    simp only [step]
    split
    · rename_i hn
      exact good_browser_iff h hn hg
    · rename_i hn
      refine iff_of_true hg ?_
      cases e with
      | unsubscribePane qid => exact absurd rfl hn
      | _ => trivial

theorem inv_step {r : Relay} (h : r.Inv) (hg : r.Faithful ∧ r.Heard) {p : Pick} (hone : r.Single p)
    (ha : r.Alone p) : (r.step p).Inv := by
  cases p with
  | server i =>
    simp only [step]
    split
    · rename_i hf
      exact inv_server h hf
    · exact h
  | receive k env =>
    simp only [step]
    split
    · rename_i w conn hw hc
      exact inv_receive h hc hw
    · exact h
  | deliver k =>
    simp only [step]
    split
    · rename_i frame hn ho
      exact inv_deliver h hn ho ha hone
    · exact h
  | opened k userId env =>
    simp only [step]
    split
    · rename_i hk
      rw [Store.step, if_pos hk]
      exact inv_opened userId env h hk hg.1
    · exact h
  | browser e =>
    simp only [step]
    split
    · rename_i hn
      exact inv_browser h hn
    · exact h

theorem faithful_new (db : List SessionRow) : (new db).Faithful := fun _ => List.nil_sublist _

theorem heard_new (db : List SessionRow) : (new db).Heard := fun _ _ _ hc => by cases hc

/-- **Whose output a handler gets**: as long as no two open sockets bring the same
pane, in every state of a run each handler was given a part of its own session's
output, and each wanted pane is heard, exactly if in every step what is handed
over comes from the session in focus and what is unsubscribed shares its raw id
with no other wanted pane. -/
theorem faithful_iff_alone (db : List SessionRow) (picks : List Pick)
    (hone : EachStep step Single (.new db) picks) :
    Always step (fun r => r.Faithful ∧ r.Heard) (.new db) picks ↔
      EachStep step Alone (.new db) picks :=
  always_iff_eachStep_of (I := Inv) ⟨faithful_new db, heard_new db⟩ (inv_new db)
    (fun _ p h hg _ => good_step_iff h hg p) (fun _ _ h hg hone ha => inv_step h hg hone ha) hone

/-! ## A pane that is looked at twice -/

theorem single_deliver {r : Relay} {k : Nat} (hlast : r.store.sockets.length ≤ k + 1)
    (hclosed : ∀ k' < k, r.store.isOpen k' = false) : r.Single (.deliver k) := by
  intro pane ch sid _ _ _ _ k' hne ho
  obtain ⟨hlt, -⟩ := List.getElem?_eq_some_iff.mp (Store.isOpen_iff.mp ho)
  rw [hclosed k' (by omega)] at ho
  cases ho

theorem alone_deliver {r : Relay} {k : Nat}
    (h : (match (r.server.outbox (.own k))[r.readDown k]? with
      | some (.output _ ch _) => decide (ch.origin = focus r.store)
      | _ => true) = true) : r.Alone (.deliver k) := by
  intro pane ch sid hf _ _ _
  rw [hf] at h
  exact of_decide_eq_true h

/-- The browser looks at a session's pane on a socket that closes, and again on the
next one; the pane writes a byte behind each subscription. -/
def lookingTwice : List Pick :=
  let env := MsgEnv.working uuidA sampleTree
  let c := Conn.other 0
  [.server (.accept c "u".toList env.toEnv),
    .server (.message c (.createSession { name := "one".toList, transport := .ssh ['1'] }) env),
    .server (.message c (.connectSession uuidA.val) env), .browser .connect,
    .opened 0 "u".toList env.toEnv, .browser (.focus (some uuidA.val)),
    .browser (.subscribePane "a::%0".toList 1), .receive 0 env, .receive 0 env,
    .server (.output uuidA.val "%0".toList [120]), .server (.drain (.own 0)), .deliver 0,
    .deliver 0, .deliver 0, .browser (.closing 0), .browser (.closed 0),
    .browser .reconnectTimer, .opened 1 "u".toList env.toEnv,
    .browser (.subscribePane "a::%0".toList 1), .receive 1 env, .receive 1 env,
    .server (.output uuidA.val "%0".toList [121]), .server (.drain (.own 1)), .deliver 1,
    .deliver 1, .deliver 1]

theorem faithful_iff_alone_sample :
    Always step (fun r => r.Faithful ∧ r.Heard) (.new []) lookingTwice ∧
      handedTo "a::%0".toList (run step (.new []) lookingTwice).store =
        [{ origin := ['a'], pane := "%0".toList, data := [120] },
          { origin := ['a'], pane := "%0".toList, data := [121] }] := by
  have hsingle : EachStep step Single (.new []) lookingTwice := by
    refine ⟨trivial, trivial, trivial, trivial, trivial, trivial, trivial, trivial, trivial,
      trivial, trivial, single_deliver ?_ ?_, single_deliver ?_ ?_, single_deliver ?_ ?_,
      trivial, trivial, trivial, trivial, trivial, trivial, trivial, trivial, trivial,
      single_deliver ?_ ?_, single_deliver ?_ ?_, single_deliver ?_ ?_, trivial⟩ <;> decide +kernel
  have halone : EachStep step Alone (.new []) lookingTwice := by
    refine ⟨trivial, trivial, trivial, trivial, trivial, trivial, trivial, trivial, trivial,
      trivial, trivial, alone_deliver ?_, alone_deliver ?_, alone_deliver ?_, trivial, trivial,
      trivial, trivial, trivial, trivial, trivial, trivial, trivial, alone_deliver ?_,
      alone_deliver ?_, alone_deliver ?_, trivial⟩ <;> decide +kernel
  exact ⟨(faithful_iff_alone [] lookingTwice hsingle).mpr halone, by decide +kernel⟩

/-! ## Two sessions with the pane `%0` -/

/-- Another connection of the user creates and connects two sessions. The browser
looks at the first one; the second one has output. -/
def samplePicks : List Pick :=
  let env (id : Uuid) := MsgEnv.working id sampleTree
  let a := uuidA
  let b := uuidB
  let c := Conn.other 0
  [.server (.accept c "u".toList (env a).toEnv),
    .server (.message c (.createSession { name := "one".toList, transport := .ssh ['1'] }) (env a)),
    .server (.message c (.createSession { name := "two".toList, transport := .ssh ['2'] }) (env b)),
    .server (.message c (.connectSession a.val) (env a)),
    .server (.message c (.connectSession b.val) (env b)),
    .browser .connect, .opened 0 "u".toList (env a).toEnv, .browser (.focus (some a.val)),
    .browser (.subscribePane "a::%0".toList 1), .receive 0 (env a), .receive 0 (env a),
    .server (.output b.val "%0".toList [120]), .server (.drain (.own 0)), .deliver 0, .deliver 0,
    .deliver 0]

/-- The first session's handler is given what the second session wrote. -/
theorem output_reaches_other_session : ¬ ∀ (db : List SessionRow) (picks : List Pick),
    Always step (fun r => r.Faithful ∧ r.Heard) (.new db) picks := by
  intro h
  have hf := (h [] samplePicks).last.1 "a::%0".toList
  have hgiven : handedTo "a::%0".toList (run step (.new []) samplePicks).store =
      [{ origin := ['b'], pane := "%0".toList, data := [120] }] := by
    decide +kernel
  have hown : (run step (.new []) samplePicks).server.app.produced
      (parseQualifiedPaneId "a::%0".toList).sessionId
      (parseQualifiedPaneId "a::%0".toList).paneId = [] := by
    decide +kernel
  rw [hgiven, hown] at hf
  cases hf

end Relay

end Oxmux.System
