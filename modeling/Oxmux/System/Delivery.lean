import Oxmux.Client.Follow
import Oxmux.System.OutputIsolation
import Oxmux.Ws.Resubscribe

/-! From a session's reader task to the terminal in the browser. What a pane's
handler was given, what is underway to it and what is pending for it make up what
was broadcast: no byte is lost, doubled or moved on the way. -/

namespace Oxmux.Ws.Server
open Oxmux.Lib Oxmux.Lib.Runs Oxmux.Session

variable {κ : Type} [DecidableEq κ] {c : κ} {pane : Text} {n k : Nat} {s : Server κ} {i : Input κ}

/-- What every operation of the session manager keeps, every step keeps. -/
theorem manager_step {P : SessionManager → Prop} (hP : ∀ m op, P m → P (m.apply op))
    (h : P s.app.sessionManager) (i : Input κ) : P (s.step i).app.sessionManager := by
  rw [step_manager]
  generalize s.ops i = ops
  generalize s.app.sessionManager = m at h
  induction ops generalizing m with
  | nil => exact h
  | cons op ops ih => exact ih _ (hP m op h)

theorem app_message {conn : ConnectionState} (hc : s.clients c = some conn) (msg : ClientMsg)
    (env : MsgEnv) :
    (s.step (.message c msg env)).app = (handleClientMsg env msg s.app conn).1 := by
  simp only [step, hc, Option.elim_some, message]
  rfl

/-- **The balance of a step.** What was sent and what is pending grow by what was
broadcast, unless a further subscription drops what it finds pending. -/
theorem balance_step_iff (h : s.Subscribed 0 k c pane) (hn : n ≤ (s.outbox c).length)
    (hu : s.Follows c pane i) : ∃ fresh,
    (s.step i).broadcastSince k pane = s.broadcastSince k pane ++ fresh ∧
      ((s.step i).sentSince n c pane ++ (s.step i).pending c pane =
        s.sentSince n c pane ++ s.pending c pane ++ fresh ↔ s.FindsNothing c pane i) := by
  obtain ⟨conn, r, hc, hr, hb⟩ := h.client
  have hsame (ho : (s.step i).outbox c = s.outbox c) :
      (s.step i).sentSince n c pane = s.sentSince n c pane := by
    rw [sentSince, ho, sentSince]
  have hlog (hl : (s.step i).app.log pane = s.app.log pane) :
      (s.step i).broadcastSince k pane = s.broadcastSince k pane ++ [] := by
    rw [broadcastSince, hl, List.append_nil, broadcastSince]
  cases hears_step hc hu.1 with
  | drained conn' hi hc' he =>
    obtain ⟨hsent, hpend⟩ := drain_balance h.framed hc' (hu.2 hi) hn
    refine ⟨[], hlog (by rw [he]; rfl), iff_of_true ?_ fun sessionId env hm => ?_⟩
    · rw [he, hsent, hpend]
    · rw [hi] at hm
      cases hm
  | heard piece hi hl ho hr' =>
    refine ⟨bytesOf [piece], ?_, iff_of_true ?_ fun sessionId env hm =>
      absurd hm (hi sessionId env)⟩
    · rw [broadcastSince, hl, List.drop_append_of_le_length h.logged, bytesOf_append]
      rfl
    · rw [hsame ho, pending, hr', hl, pending, hr, Option.elim_some, Option.elim_some,
        List.drop_append_of_le_length hb, bytesOf_append, List.append_assoc]
  | renewed sessionId env hi hl ho hr' =>
    have hpend : (s.step i).pending c pane = [] := by
      rw [pending, hr', hl, Option.elim_some, List.drop_length]
      rfl
    refine ⟨[], hlog hl, ?_⟩
    -- what the old receiver had pending is gone
    rw [hsame ho, hpend, List.append_nil, List.append_nil, List.self_eq_append_right]
    constructor
    · intro hnil _ _ _
      exact hnil
    · intro hfinds
      exact hfinds sessionId env hi
  | kept hi hl ho hr' =>
    obtain ⟨msgs, ho, hq⟩ := ho
    refine ⟨[], hlog hl, iff_of_true ?_ fun sessionId env hm => absurd hm (hi sessionId env)⟩
    rw [sentSince_quiet ho hq hn, pending, hr', hl, pending, List.append_nil]

end Oxmux.Ws.Server

namespace Oxmux.System
open Oxmux.Lib Oxmux.Lib.Runs Oxmux.Session Oxmux.Ws Oxmux.Client

namespace Relay

/-! ## What is on its way -/

/-- The bytes that a pane's handler was given. -/
def given (qid : Text) (r : Relay) : Bytes := bytesOf (handedTo qid r.store)

/-- The bytes of a pane in the frames that a socket did not bring yet. -/
def underway (k : Nat) (pane : Text) (r : Relay) : Bytes :=
  r.server.sentSince (r.readDown k) (.own k) pane

/-- The bytes that the server did not send yet. -/
def waiting (k : Nat) (pane : Text) (r : Relay) : Bytes := r.server.pending (.own k) pane

/-- All of them, in the order in which they arrive. -/
def carried (k : Nat) (sessionId pane : Text) (r : Relay) : Bytes :=
  r.given (qualifyPaneId sessionId pane) ++ (r.underway k pane ++ r.waiting k pane)

/-- Behind a first part, they are what was broadcast since a position. -/
def Conserved (k : Nat) (sessionId pane : Text) (first : Bytes) (since : Nat) (r : Relay) : Prop :=
  r.carried k sessionId pane = first ++ r.server.broadcastSince since pane

def inputOf (r : Relay) : Pick → Option (Input Conn)
  | .server i => if foreign i then some i else none
  | .receive socket env =>
    match (wireOf socket r.store)[r.readUp socket]?, r.server.clients (.own socket) with
    | some w, some _ => (decodeClientMsg w).map fun msg => .message (.own socket) msg env
    | _, _ => none
  | .opened socket userId env =>
    if r.store.sockets[socket]? = some .connecting then some (.accept (.own socket) userId env)
    else none
  | _ => none

/-- The runs that are looked at: the socket is open, and its connection stays,
does not unsubscribe from the pane and keeps up. -/
def Steady (k : Nat) (pane : Text) (r : Relay) (p : Pick) : Prop :=
  r.store.isOpen k = true ∧ ∀ i ∈ r.inputOf p, r.server.Follows (.own k) pane i

/-- Output of a raw pane goes to the pane's handler: its session is in focus, it has
a handler, and there is no direct connection. -/
def Takes (sessionId pane : Text) (r : Relay) : Prop :=
  r.store.p2pConnections = [] ∧ focus r.store = sessionId ∧
    (r.store.paneHandlers.get (qualifyPaneId sessionId pane)).isSome

instance (sessionId pane : Text) (r : Relay) : Decidable (r.Takes sessionId pane) :=
  inferInstanceAs (Decidable (_ ∧ _ ∧ _))

/-- A subscription finds nothing pending, and the pane's handler takes the pieces
that the socket brings of the pane, and none that another open socket brings. -/
def Conveys (k : Nat) (sessionId pane : Text) (r : Relay) : Pick → Prop
  | .deliver k' => r.store.isOpen k' = true → ∀ piece sid,
      (r.server.outbox (.own k'))[r.readDown k']? = some (.output pane piece sid) →
      piece.data ≠ [] → (r.Takes sessionId pane ↔ k' = k)
  | p => ∀ i ∈ r.inputOf p, r.server.FindsNothing (.own k) pane i

/-! ## What a step does -/

/-- A step runs an input of the server, or brings the store a frame, or moves
nothing between them. -/
inductive Moves (r : Relay) (p : Pick) (r' : Relay) : Prop
  | served (i : Input Conn) (hi : r.inputOf p = some i) (hs : r'.server = r.server.step i)
      (hm : r'.store.managedSessions = r.store.managedSessions)
      (hg : ∀ qid, handedTo qid r'.store = handedTo qid r.store) (hd : r'.readDown = r.readDown)
  | brought (k : Nat) (frame : ServerMsg) (hp : p = .deliver k) (ho : r.store.isOpen k = true)
      (hn : (r.server.outbox (.own k))[r.readDown k]? = some frame) (h : r' = r.deliveredAt k frame)
  | rested (hi : r.inputOf p = none) (hs : r'.server = r.server)
      (hst : r'.store = r.store ∨
        ∃ e, p = .browser e ∧ native e = true ∧ r'.store = r.store.step e)
      (hg : ∀ qid, handedTo qid r'.store = handedTo qid r.store) (hd : r'.readDown = r.readDown)
      (hn : ∀ k, p = .deliver k → r.store.isOpen k = true →
        (r.server.outbox (.own k))[r.readDown k]? = none)

theorem moves_step (r : Relay) (p : Pick) : r.Moves p (r.step p) := by
  cases p with
  | server i =>
    by_cases hf : foreign i = true
    · exact .served i (if_pos hf) (by rw [step, if_pos hf]) (by rw [step, if_pos hf])
        (fun _ => by rw [step, if_pos hf]) (by rw [step, if_pos hf])
    · rw [step, if_neg hf]
      exact .rested (if_neg hf) rfl (.inl rfl) (fun _ => rfl) rfl (by simp)
  | receive k env =>
    simp only [step]
    split
    · next w conn hw hc =>
      cases hd : decodeClientMsg w with
      | none =>
        refine .rested ?_ ?_ (.inl rfl) (fun _ => rfl) rfl (by simp)
        · simp only [inputOf, hw, hc, hd, Option.map_none]
        · simp only [receive, hd]
      | some msg =>
        refine .served (.message (.own k) msg env) ?_ ?_ rfl (fun _ => rfl) rfl
        · simp only [inputOf, hw, hc, hd, Option.map_some]
        · simp only [receive, hd]
    · next hno =>
      refine .rested ?_ rfl (.inl rfl) (fun _ => rfl) rfl (by simp)
      simp only [inputOf]
  | deliver k =>
    simp only [step]
    split
    · next frame hn ho => exact .brought k frame rfl ho hn rfl
    · next hno =>
      refine .rested rfl rfl (.inl rfl) (fun _ => rfl) rfl fun k' hk ho => ?_
      cases hk
      exact Option.eq_none_iff_forall_ne_some.mpr fun frame hn => hno frame hn ho
  | opened k userId env =>
    by_cases hk : r.store.sockets[k]? = some .connecting
    · refine .served (.accept (.own k) userId env) (if_pos hk) ?_ ?_ (fun qid => ?_) ?_
      · rw [step, if_pos hk]
      · simp only [step, if_pos hk, Store.step]
        exact (r.store.same_onOpen k).managed
      · simp only [step, if_pos hk, Store.step]
        rw [handedTo_wrote (r.store.wrote_onOpen k)]
        exact List.append_nil _
      · rw [step, if_pos hk]
    · rw [step, if_neg hk]
      exact .rested (if_neg hk) rfl (.inl rfl) (fun _ => rfl) rfl (by simp)
  | browser e =>
    by_cases hn : native e = true
    · rw [step, if_pos hn]
      exact .rested rfl rfl (.inr ⟨e, rfl, hn, rfl⟩) (fun qid => handedTo_native hn qid) rfl
        (by simp)
    · rw [step, if_neg hn]
      exact .rested rfl rfl (.inl rfl) (fun _ => rfl) rfl (by simp)

/-- What every operation of the session manager keeps holds in every reachable
state. -/
theorem reachable_manager {P : SessionManager → Prop} (hP : ∀ m op, P m → P (m.apply op))
    {db : List SessionRow} (h : P (.new db)) {r : Relay} (hr : Reachable step (.new db) r) :
    P r.server.app.sessionManager := by
  refine hr.invariant (P := fun r : Relay => P r.server.app.sessionManager) h fun r p hr => ?_
  cases r.moves_step p with
  | served i hi hs hm hg hd => exact hs ▸ Server.manager_step hP hr i
  | brought k frame hp ho hn he => exact he ▸ hr
  | rested hi hs hst hg hd hn => exact hs ▸ hr

/-! ## What a step keeps -/

/-- The pane is subscribed on the socket, and no more frames were brought than
sent. -/
structure Carries (k : Nat) (pane : Text) (since : Nat) (r : Relay) : Prop where
  subscribed : r.server.Subscribed 0 since (.own k) pane
  down : r.readDown k ≤ (r.server.outbox (.own k)).length

section
variable {k since : Nat} {sessionId pane : Text} {first : Bytes} {r : Relay}

/-- A pane id with no more than the separator's colons is qualified in one way. -/
theorem qualifyPaneId_inj_of_pane {s p s' p' : Text} (hs : ':' ∉ s) (hp : ':' ∉ p)
    (h : qualifyPaneId s' p' = qualifyPaneId s p) : s' = s ∧ p' = p := by
  have hs' : ':' ∉ s' := by
    have hcount := congrArg (List.count ':') h
    simp only [qualifyPaneId, List.count_append, List.count_eq_zero.mpr hs,
      List.count_eq_zero.mpr hp] at hcount
    exact List.count_eq_zero.mp (by omega)
  exact qualifyPaneId_inj hs' hs h

/-- **A step of the server** keeps the balance exactly if a subscription in it
finds nothing pending. -/
theorem conserved_server_iff {r' : Relay} {i : Input Conn} (h : r.Carries k pane since)
    (hP : r.Conserved k sessionId pane first since) (hserver : r'.server = r.server.step i)
    (hgiven : r'.given (qualifyPaneId sessionId pane) = r.given (qualifyPaneId sessionId pane))
    (hread : r'.readDown k = r.readDown k) (hu : r.server.Follows (.own k) pane i) :
    r'.Conserved k sessionId pane first since ↔ r.server.FindsNothing (.own k) pane i := by
  obtain ⟨fresh, hbroad, hiff⟩ := Server.balance_step_iff h.subscribed h.down hu
  rw [Conserved, carried, hgiven, underway, hread, hserver, waiting, hserver, hbroad,
    ← List.append_assoc first, ← hP, carried, underway, waiting, List.append_assoc,
    List.append_right_inj, hiff]

/-- A step that leaves the server alone, and gives the handler nothing. -/
theorem conserved_same {r' : Relay} (hserver : r'.server = r.server)
    (hgiven : r'.given (qualifyPaneId sessionId pane) = r.given (qualifyPaneId sessionId pane))
    (hread : r'.readDown k = r.readDown k) :
    r'.Conserved k sessionId pane first since ↔ r.Conserved k sessionId pane first since := by
  rw [Conserved, carried, hgiven, underway, hread, hserver, waiting, hserver, Conserved, carried,
    underway, waiting]

theorem bytesOf_chunks_output (q : Text) (piece : Chunk) (sid : Option Text) :
    bytesOf (chunks pane [.output q piece sid]) = if q = pane then piece.data else [] := by
  by_cases hq : q = pane <;> simp [chunks, ServerMsg.chunkFor, bytesOf, hq]

/-- What the handler of a pane is given of a frame. -/
theorem gives_frame {k' : Nat} {frame : ServerMsg} (hs : ':' ∉ sessionId) (hp : ':' ∉ pane)
    (hf : r.server.Framed) (ho : r.store.isOpen k' = true)
    (hn : (r.server.outbox (.own k'))[r.readDown k']? = some frame) :
    bytesOf (((r.store.gives (.message k' frame)).filter
      (·.1 = qualifyPaneId sessionId pane)).map (·.2)) =
        if r.Takes sessionId pane then bytesOf (chunks pane [frame]) else [] := by
  cases frame with
  | output q piece sid =>
    obtain ⟨rfl, -⟩ := hf.framed _ q piece sid (List.mem_of_getElem? hn)
    rw [gives_output, if_congr (and_iff_right ho) rfl rfl, bytesOf_chunks_output]
    by_cases hq : qualifyPaneId (focus r.store) q = qualifyPaneId sessionId pane
    · obtain ⟨hfocus, rfl⟩ := qualifyPaneId_inj_of_pane hs hp hq
      by_cases hp2p : r.store.p2pConnections = []
      · by_cases hhandler : (r.store.paneHandlers.get (qualifyPaneId sessionId q)).isSome
        · simp [Takes, hfocus, hp2p, hhandler, bytesOf]
        · simp [Takes, hfocus, hp2p, hhandler, bytesOf]
      · simp [Takes, hp2p, bytesOf]
    · have hnone : ((if r.store.p2pConnections = [] then
          if (r.store.paneHandlers.get (qualifyPaneId (focus r.store) q)).isSome then
            [(qualifyPaneId (focus r.store) q, piece)] else [] else []).filter
          (·.1 = qualifyPaneId sessionId pane)) = [] := by
        rw [List.filter_eq_nil_iff]
        intro e he heq
        split at he
        · split at he
          · rw [List.mem_singleton] at he
            subst he
            exact hq (of_decide_eq_true heq)
          · cases he
        · cases he
      have hnot : ¬ (r.Takes sessionId pane ∧ q = pane) := by
        rintro ⟨⟨-, hfocus, -⟩, rfl⟩
        exact hq (by rw [hfocus])
      rw [hnone]
      by_cases ht : r.Takes sessionId pane
      · rw [if_pos ht, if_neg fun he => hnot ⟨ht, he⟩]
        rfl
      · rw [if_neg ht]
        rfl
  | _ => simp [Store.gives, Store.handsOver, chunks, ServerMsg.chunkFor, bytesOf]

/-- A frame with bytes of the pane is taken, if the socket brings it, and no other
one is. -/
theorem conveys_deliver_iff {k' : Nat} {frame : ServerMsg} (ho : r.store.isOpen k' = true)
    (hn : (r.server.outbox (.own k'))[r.readDown k']? = some frame) :
    r.Conveys k sessionId pane (.deliver k') ↔
      (bytesOf (chunks pane [frame]) ≠ [] → (r.Takes sessionId pane ↔ k' = k)) := by
  simp only [Conveys, hn, Option.some.injEq, ho, true_implies]
  cases frame with
  | output q piece sid =>
    rw [bytesOf_chunks_output]
    constructor
    · intro hall hne
      by_cases hq : q = pane
      · subst hq
        rw [if_pos rfl] at hne
        exact hall piece sid rfl hne
      · exact absurd (if_neg hq) hne
    · intro htakes piece' sid' he hne
      injection he with hq hpiece hsid
      subst hq hpiece
      rw [if_pos rfl] at htakes
      exact htakes hne
  | _ => exact iff_of_true (fun _ _ he => by cases he) fun hne => absurd rfl hne

/-- **A frame is brought**: the balance stays exactly if the handler is given what
the frame carries. -/
theorem conserved_deliver_iff {k' : Nat} {frame : ServerMsg} (hs : ':' ∉ sessionId)
    (hp : ':' ∉ pane) (h : r.Carries k pane since)
    (hP : r.Conserved k sessionId pane first since) (ho : r.store.isOpen k' = true)
    (hn : (r.server.outbox (.own k'))[r.readDown k']? = some frame) :
    (r.deliveredAt k' frame).Conserved k sessionId pane first since ↔
      r.Conveys k sessionId pane (.deliver k') := by
  have hgiven : (r.deliveredAt k' frame).given (qualifyPaneId sessionId pane) =
      r.given (qualifyPaneId sessionId pane) ++
        if r.Takes sessionId pane then bytesOf (chunks pane [frame]) else [] := by
    rw [given, deliveredAt, handedTo_wrote (wrote_deliver r k' frame), bytesOf_append, given,
      gives_frame hs hp h.subscribed.framed ho hn]
  have hwait : (r.deliveredAt k' frame).waiting k pane = r.waiting k pane := rfl
  have hbroad : (r.deliveredAt k' frame).server.broadcastSince since pane =
      r.server.broadcastSince since pane := rfl
  rw [conveys_deliver_iff ho hn, Conserved, hbroad, ← hP, carried, carried, hgiven, hwait,
    List.append_assoc, List.append_right_inj]
  by_cases hk : k' = k
  · subst hk
    have hunder : r.underway k' pane =
        bytesOf (chunks pane [frame]) ++ (r.deliveredAt k' frame).underway k' pane := by
      obtain ⟨hlt, hget⟩ := List.getElem?_eq_some_iff.mp hn
      have hread : (r.deliveredAt k' frame).readDown k' = r.readDown k' + 1 :=
        Function.update_self ..
      rw [underway, Server.sentSince, List.drop_eq_getElem_cons hlt, hget, underway, hread,
        Server.sentSince, ← bytesOf_append, ← chunks_append]
      rfl
    rw [hunder, List.append_assoc, List.append_left_inj, ite_eq_left_iff, iff_true_right rfl,
      eq_comm (a := []), not_imp_comm]
  · have hunder : (r.deliveredAt k' frame).underway k pane = r.underway k pane := by
      have hread : (r.deliveredAt k' frame).readDown k = r.readDown k :=
        Function.update_of_ne (Ne.symm hk) _ _
      rw [underway, hread]
      rfl
    rw [hunder, List.append_left_eq_self, ite_eq_right_iff, iff_false_right hk]
    exact not_imp_not.symm.trans Iff.rfl

theorem readDown_deliveredAt {k' : Nat} {frame : ServerMsg}
    (hd : r.readDown k ≤ (r.server.outbox (.own k)).length)
    (hn : (r.server.outbox (.own k'))[r.readDown k']? = some frame) :
    (r.deliveredAt k' frame).readDown k ≤ (r.server.outbox (.own k)).length := by
  by_cases hk : k' = k
  · subst hk
    have hread : (r.deliveredAt k' frame).readDown k' = r.readDown k' + 1 := Function.update_self ..
    rw [hread]
    exact (List.getElem?_eq_some_iff.mp hn).1
  · have hread : (r.deliveredAt k' frame).readDown k = r.readDown k :=
      Function.update_of_ne (Ne.symm hk) _ _
    rw [hread]
    exact hd

theorem carries_step {p : Pick} (h : r.Carries k pane since) (hu : r.Steady k pane p) :
    (r.step p).Carries k pane since := by
  cases r.moves_step p with
  | served i hi hs hm hg hd =>
    have hrel := Server.relays_step h.subscribed.sound i
    refine ⟨hs ▸ Server.subscribed_step h.subscribed (hu.2 i hi), ?_⟩
    rw [hd, hs]
    exact Nat.le_trans h.down (Server.outbox_relays hrel _).length_le
  | brought k' frame hp ho hn he =>
    rw [he]
    exact ⟨h.subscribed, readDown_deliveredAt h.down hn⟩
  | rested hi hs hst hg hd hn => exact ⟨hs ▸ h.subscribed, by rw [hd, hs]; exact h.down⟩

theorem conserved_step_iff {p : Pick} (hs : ':' ∉ sessionId) (hp : ':' ∉ pane)
    (h : r.Carries k pane since) (hP : r.Conserved k sessionId pane first since)
    (hu : r.Steady k pane p) :
    (r.step p).Conserved k sessionId pane first since ↔ r.Conveys k sessionId pane p := by
  cases r.moves_step p with
  | served i hi hserver hm hg hd =>
    have hconveys : r.Conveys k sessionId pane p ↔ r.server.FindsNothing (.own k) pane i := by
      cases p with
      | deliver k' => cases hi
      | _ => simp only [Conveys, hi, Option.mem_def, Option.some.injEq, forall_eq']
    rw [hconveys]
    exact conserved_server_iff h hP hserver (congrArg bytesOf (hg _)) (congrFun hd k) (hu.2 i hi)
  | brought k' frame hp' ho hn he =>
    rw [he, hp']
    exact conserved_deliver_iff hs hp h hP ho hn
  | rested hi hserver hst hg hd hn =>
    rw [conserved_same hserver (congrArg bytesOf (hg _)) (congrFun hd k)]
    refine iff_of_true hP ?_
    cases p with
    | deliver k' =>
      intro ho piece sid hsome
      rw [hn k' rfl ho] at hsome
      cases hsome
    | _ => simp [Conveys, hi]

/-! ## Runs -/

theorem reachable_kept {db : List SessionRow} (hr : Reachable step (.new db) r) :
    r.server.app.sessionManager.Sound ∧ r.server.Framed ∧
      ∀ k, r.readDown k ≤ (r.server.outbox (.own k)).length := by
  refine hr.invariant (P := fun r : Relay => r.server.app.sessionManager.Sound ∧
    r.server.Framed ∧ ∀ k, r.readDown k ≤ (r.server.outbox (.own k)).length)
    ⟨SessionManager.sound_new db, Server.framed_new db, fun _ => Nat.le_refl _⟩
    fun r p ⟨hsound, hframed, hdown⟩ => ?_
  cases r.moves_step p with
  | served i hi hs hm hg hd =>
    have hrel := Server.relays_step hsound i
    refine ⟨hs ▸ Server.sound_step hsound i, hs ▸ hframed.relays hrel, fun k => ?_⟩
    rw [hd, hs]
    exact Nat.le_trans (hdown k) (Server.outbox_relays hrel _).length_le
  | brought k' frame hp ho hn he =>
    rw [he]
    exact ⟨hsound, hframed, fun k => readDown_deliveredAt (hdown k) hn⟩
  | rested hi hs hst hg hd hn =>
    exact ⟨hs ▸ hsound, hs ▸ hframed, by rw [hd, hs]; exact hdown⟩

/-- A subscription that the server reads begins at the end of the channel. -/
theorem conserved_first {db : List SessionRow} (hr : Reachable step (.new db) r)
    {conn : ConnectionState} (hc : r.server.clients (.own k) = some conn)
    (hsub : (wireOf k r.store)[r.readUp k]? = some (.sub pane)) (env : MsgEnv)
    (sessionId : Text) :
    (r.step (.receive k env)).Carries k pane (r.server.app.log pane).length ∧
      (r.step (.receive k env)).Conserved k sessionId pane
        (r.given (qualifyPaneId sessionId pane) ++ r.underway k pane)
        (r.server.app.log pane).length := by
  obtain ⟨hsound, hframed, hdown⟩ := reachable_kept hr
  have hstep : r.step (.receive k env) = r.receive k env (.sub pane) := by
    simp only [step, hsub, hc]
  have hserver : (r.receive k env (.sub pane)).server =
      r.server.step (.message (.own k) (.subscribe pane none) env) := rfl
  rw [hstep]
  cases Server.hears_step (i := .message (.own k) (.subscribe pane none) env) hc trivial with
  | drained conn' hi => cases hi
  | heard piece hi => exact absurd rfl (hi none env)
  | kept hi => exact absurd rfl (hi none env)
  | renewed sessionId' env' hi hl ho hrec =>
    have hlog : (r.receive k env (.sub pane)).server.app.log pane = r.server.app.log pane := hl
    have hout : (r.receive k env (.sub pane)).server.outbox (.own k) =
        r.server.outbox (.own k) := ho
    have hrel := Server.relays_step hsound (.message (.own k) (.subscribe pane none) env)
    refine ⟨⟨⟨Server.sound_step hsound _, hframed.relays hrel, Nat.zero_le _, ?_, ?_⟩, ?_⟩, ?_⟩
    · rw [hlog]
    · rw [hserver, hrec]
      rfl
    · rw [hout]
      exact hdown k
    · have hunder : (r.receive k env (.sub pane)).underway k pane = r.underway k pane := by
        rw [underway, Server.sentSince, hout]
        rfl
      have hwait : (r.receive k env (.sub pane)).waiting k pane = [] := by
        rw [waiting, Server.pending, hserver, hrec, ← hserver, hlog, Option.elim_some,
          List.drop_length]
        rfl
      have hbroad : (r.receive k env (.sub pane)).server.broadcastSince
          (r.server.app.log pane).length pane = [] := by
        rw [Server.broadcastSince, hlog, List.drop_length]
        rfl
      rw [Conserved, carried, hunder, hwait, hbroad, List.append_nil, List.append_nil]
      rfl

/-- **Delivery.** From the moment the server reads a socket's first subscription
to a pane on, as long as the socket stays and keeps up: what the pane's handler
was given, what is underway and what is pending make up what was underway before
and then all that was broadcast, in every state of a run, exactly if every step
conveys. When all is brought, the handler was given all of it. -/
theorem delivery_conserved_iff {db : List SessionRow} (hr : Reachable step (.new db) r)
    {conn : ConnectionState} (hc : r.server.clients (.own k) = some conn)
    (hsub : (wireOf k r.store)[r.readUp k]? = some (.sub pane)) (hs : ':' ∉ sessionId)
    (hp : ':' ∉ pane) (env : MsgEnv) (picks : List Pick) :
    let r₁ := r.step (.receive k env)
    let first := r.given (qualifyPaneId sessionId pane) ++ r.underway k pane
    let since := (r.server.app.log pane).length
    EachStep step (Steady k pane) r₁ picks →
      (Always step (Conserved k sessionId pane first since) r₁ picks ↔
        EachStep step (Conveys k sessionId pane) r₁ picks) ∧
      (EachStep step (Conveys k sessionId pane) r₁ picks →
        let r₂ := run step r₁ picks
        r₂.readDown k = (r₂.server.outbox (.own k)).length → r₂.waiting k pane = [] →
          r₂.given (qualifyPaneId sessionId pane) =
            first ++ r₂.server.broadcastSince since pane) := by
  intro r₁ first since hu
  obtain ⟨hcarries, hP⟩ := conserved_first hr hc hsub env sessionId
  have hiff : Always step (Conserved k sessionId pane first since) r₁ picks ↔
      EachStep step (Conveys k sessionId pane) r₁ picks :=
    always_iff_eachStep_of (I := Carries k pane since) hP hcarries
      (fun _ _ h hP hu => conserved_step_iff hs hp h hP hu)
      (fun _ _ h _ hu _ => carries_step h hu) hu
  refine ⟨hiff, fun hall => ?_⟩
  intro r₂ hread hwait
  have hlast : r₂.Conserved k sessionId pane first since := (hiff.mpr hall).last
  have hunder : r₂.underway k pane = [] := by
    rw [underway, Server.sentSince, hread, List.drop_length]
    rfl
  rw [Conserved, carried, hunder, hwait, List.append_nil, List.append_nil] at hlast
  exact hlast

end

/-! ## A pane that is looked at -/

/-- A session is connected, and the browser opens its pane `%0`. -/
def lookingAt : Relay :=
  let env := MsgEnv.working uuidA sampleTree
  run step (.new [])
    [.server (.accept (.other 0) ['u'] env.toEnv),
      .server (.message (.other 0) (.createSession { name := ['s'], transport := .ssh ['h'] }) env),
      .server (.message (.other 0) (.connectSession uuidA.val) env), .browser .connect,
      .opened 0 ['u'] env.toEnv, .browser (.focus (some uuidA.val)),
      .browser (.subscribePane "a::%0".toList 1), .receive 0 env]

/-- Behind the subscription the pane writes, and all is brought. -/
def bringing : List Pick :=
  [.server (.output uuidA.val "%0".toList [120]), .server (.drain (.own 0)), .deliver 0, .deliver 0,
    .deliver 0]

theorem steady_bringing :
    EachStep step (Steady 0 "%0".toList)
      (lookingAt.step (.receive 0 (MsgEnv.working uuidA sampleTree))) bringing := by
  refine ⟨⟨by decide +kernel, fun i hi => ?_⟩, ⟨by decide +kernel, fun i hi => ?_⟩,
    ⟨by decide +kernel, fun i hi => by cases hi⟩, ⟨by decide +kernel, fun i hi => by cases hi⟩,
    ⟨by decide +kernel, fun i hi => by cases hi⟩, trivial⟩
  · cases hi
    exact ⟨trivial, by simp⟩
  · cases hi
    exact ⟨trivial, fun _ => Server.keepsUp_of_length (by decide +kernel)⟩

theorem delivery_conserved_sample :
    (run step (lookingAt.step (.receive 0 (MsgEnv.working uuidA sampleTree))) bringing).given
      "a::%0".toList = [120] := by
  have hr : Reachable step (.new []) lookingAt := ⟨_, rfl⟩
  have hc : lookingAt.server.clients (.own 0) = some (.new ['u']) := by decide +kernel
  have hsub : (wireOf 0 lookingAt.store)[lookingAt.readUp 0]? = some (.sub "%0".toList) := by
    decide +kernel
  have h := (delivery_conserved_iff hr hc hsub (show ':' ∉ uuidA.val by decide) (by decide)
    (.working uuidA sampleTree) bringing steady_bringing).2
  refine (h ⟨?_, ?_, fun _ _ _ _ _ => by decide +kernel, fun _ _ _ _ _ => by decide +kernel,
    fun _ _ _ _ _ => by decide +kernel, trivial⟩ (by decide +kernel) (by decide +kernel)).trans
    (by decide +kernel)
  · intro i hi sessionId env he
    cases hi
    cases he
  · intro i hi sessionId env he
    cases hi
    cases he

end Relay

end Oxmux.System
