import Oxmux.Client.Follow
import Oxmux.Session.Durable
import Oxmux.Session.Visible
import Oxmux.System.Delivery

/-! The browser's sessions are a replica of those of its user. What the socket
brought and what is on the way on it make up the sessions that the server has,
as long as every change of one of them is told on this socket. -/

namespace Oxmux.Ws.Server
open Oxmux.Lib Oxmux.Lib.Records Oxmux.Session Oxmux.Client

variable {κ : Type} [DecidableEq κ]

/-! ## What a step tells -/

def news (s : Server κ) (c : κ) (i : Input κ) : List ServerMsg :=
  ((s.step i).outbox c).drop (s.outbox c).length

/-- The user's sessions, as the server has them. -/
def visible (userId : Text) (s : Server κ) : Text → Option ManagedSession :=
  s.app.sessionManager.visible userId

/-- A step tells the client of sessions, or leaves those of its user as they
are. -/
def Tells (c : κ) (userId : Text) (s : Server κ) (i : Input κ) : Prop :=
  (∃ msg ∈ s.news c i, tells msg = true) ∨ (s.step i).visible userId = s.visible userId

/-- The connection is not given up. -/
def stays (c : κ) : Input κ → Prop
  | .close c' _ | .leave c' => c' ≠ c
  | _ => True

section
variable {c : κ} {userId : Text} {s : Server κ} {conn : ConnectionState}
  {sessions : List ManagedSession}

abbrev Lists (userId : Text) (s : Server κ) (sessions : List ManagedSession) : Prop :=
  s.app.sessionManager.Lists userId sessions

theorem news_of_outbox {i : Input κ} {msgs : List ServerMsg}
    (h : (s.step i).outbox c = s.outbox c ++ msgs) : s.news c i = msgs := by
  rw [news, h, List.drop_left]

theorem lists_quiet_iff {i : Input κ} {msgs : List ServerMsg}
    (ho : (s.step i).outbox c = s.outbox c ++ msgs) (hq : ∀ msg ∈ msgs, tells msg = false)
    (h : s.Lists userId sessions) :
    (s.step i).Lists userId ((s.news c i).foldl follow sessions) ↔ s.Tells c userId i := by
  have hnone : ¬ ∃ msg ∈ s.news c i, tells msg = true := by
    rw [news_of_outbox ho]
    rintro ⟨msg, hm, ht⟩
    rw [hq msg hm] at ht
    cases ht
  rw [news_of_outbox ho, foldl_follow_of_quiet hq, Tells, or_iff_right hnone]
  constructor
  · intro h'
    exact h'.unique h
  · intro he
    exact ⟨h.nodup, fun id => (h.found id).trans (congrFun he id).symm⟩

theorem lists_told_iff {i : Input κ} {msg : ServerMsg}
    (ho : (s.step i).outbox c = s.outbox c ++ [msg]) (ht : tells msg = true)
    (h : (s.step i).Lists userId (follow sessions msg)) :
    (s.step i).Lists userId ((s.news c i).foldl follow sessions) ↔ s.Tells c userId i := by
  rw [news_of_outbox ho]
  refine iff_of_true h (.inl ⟨msg, ?_, ht⟩)
  rw [news_of_outbox ho]
  exact List.mem_singleton_self msg

/-! ## The answers -/

theorem outbox_message (hc : s.clients c = some conn) (msg : ClientMsg) (env : MsgEnv) :
    (s.step (.message c msg env)).outbox c =
      s.outbox c ++ (handleClientMsg env msg s.app conn).2.2.toList := by
  simp only [step, hc, Option.elim_some, message]
  rw [outbox_send, if_pos rfl]

/-- A message that runs an operation tells of it in an answer that is no error. -/
theorem lists_answer_iff {α : Type} (hc : s.clients c = some conn) (h : s.Lists userId sessions)
    {msg : ClientMsg} {env : MsgEnv} {code : Text} {ok : α → ServerMsg}
    (op : SessionManager → SessionManager × Except Text α)
    (hop : handleClientMsg env msg s.app conn = ((s.app.withManager op).1, conn,
      some (sessionReply code ok (op s.app.sessionManager).2)))
    (hok : ∀ a, (op s.app.sessionManager).2 = .ok a → tells (ok a) = true ∧
      (op s.app.sessionManager).1.Lists userId (follow sessions (ok a))) :
    (s.step (.message c msg env)).Lists userId ((s.news c (.message c msg env)).foldl follow
      sessions) ↔ s.Tells c userId (.message c msg env) := by
  have ho := outbox_message hc msg env
  have hm := app_message hc msg env
  rw [hop] at ho hm
  cases ha : (op s.app.sessionManager).2 with
  | error e =>
    rw [ha] at ho
    refine lists_quiet_iff ho (fun msg' hm' => ?_) h
    rw [List.mem_singleton.mp hm']
    rfl
  | ok a =>
    rw [ha] at ho
    obtain ⟨htells, hlists⟩ := hok a ha
    refine lists_told_iff ho htells ?_
    rw [Server.Lists, hm]
    exact hlists

/-- The session that an answer carries takes the place of the one that is there. -/
theorem lists_revised {m : SessionManager} (hn : m.Named) {id : Text}
    {r : SessionManager × Except Text ManagedSession} (hr : m.Revises id r)
    (h : m.Lists userId sessions) {session : ManagedSession} (ha : r.2 = .ok session) :
    r.1.Lists userId (replace (fun s : ManagedSession => s.id) session.sanitized sessions) := by
  have hp := h.replace session.sanitized
  rw [SessionManager.Lists, SessionManager.visible_revised hn hr ha userId]
  exact hp

theorem tells_installAgent (id : Text) (app : AppState) (conn : ConnectionState) :
    tells (installAgent id app conn).2 = false := by
  unfold installAgent
  split
  · rfl
  · split <;> rfl

theorem tells_transportUpgrade (env : MsgEnv) (id target : Text) (app : AppState) :
    tells (transportUpgrade env id target app) = false := by
  unfold transportUpgrade
  cases app.sessionManager.get id with
  | none => rfl
  | some session =>
    simp only
    cases session.transport.backend with
    | ssh host port user auth | agent host port agentId =>
      simp only
      cases app.agentRegistry.findByHost host with
      | none => rfl
      | some agent => cases env.agentToken <;> rfl
    | «local» => rfl

/-- **A message of the client**, whatever it asks for. -/
theorem lists_message_iff (hb : s.app.sessionManager.books.Sound)
    (hn : s.app.sessionManager.Named) (hc : s.clients c = some conn)
    (h : s.Lists conn.userId sessions) (msg : ClientMsg) (env : MsgEnv) :
    (s.step (.message c msg env)).Lists conn.userId ((s.news c (.message c msg env)).foldl follow
      sessions) ↔ s.Tells c conn.userId (.message c msg env) := by
  cases msg with
  | createSession req =>
    refine lists_answer_iff hc h (·.create env.toEnv conn.userId req) rfl fun session ha =>
      ⟨rfl, ?_⟩
    obtain ⟨hnew, hvis⟩ := SessionManager.visible_created ha
    rw [SessionManager.Lists, hvis]
    exact h.append hnew
  | listSessions =>
    exact lists_answer_iff hc h (·.loadUserSessions env.toEnv conn.userId) rfl fun list ha =>
      ⟨rfl, SessionManager.lists_loadUserSessions hb hn ha⟩
  | connectSession id =>
    exact lists_answer_iff hc h (·.connect env.toEnv id) rfl fun session ha =>
      ⟨rfl, lists_revised hn (SessionManager.revises_connect _ id _) h ha⟩
  | disconnectSession id =>
    exact lists_answer_iff hc h (·.disconnect env.toEnv id) rfl fun session ha =>
      ⟨rfl, lists_revised hn (SessionManager.revises_disconnect _ id _) h ha⟩
  | updateSession id req =>
    exact lists_answer_iff hc h (·.update env.toEnv id req) rfl fun session ha =>
      ⟨rfl, lists_revised hn (SessionManager.revises_update _ id req _) h ha⟩
  | refreshSession id =>
    exact lists_answer_iff hc h (·.refreshTmuxState env.toEnv id) rfl fun session ha =>
      ⟨rfl, lists_revised hn (SessionManager.revises_refreshTmuxState _ id _) h ha⟩
  | deleteSession id =>
    refine lists_answer_iff hc h (·.delete env.toEnv id) rfl fun session ha => ⟨rfl, ?_⟩
    have hp := h.delete id
    rw [SessionManager.Lists, SessionManager.visible_deleted ha]
    exact hp
  | iceRequest peerId =>
    refine lists_quiet_iff (outbox_message hc _ env) (fun msg' hm => ?_) h
    rw [List.mem_singleton.mp hm]
    cases env.turn <;> rfl
  | installAgent id =>
    refine lists_quiet_iff (outbox_message hc _ env) (fun msg' hm => ?_) h
    rw [List.mem_singleton.mp hm]
    exact tells_installAgent id s.app conn
  | transportUpgrade id target =>
    refine lists_quiet_iff (outbox_message hc _ env) (fun msg' hm => ?_) h
    rw [List.mem_singleton.mp hm]
    exact tells_transportUpgrade env id target s.app
  | agentStatusRequest host =>
    refine lists_quiet_iff (outbox_message hc _ env) (fun msg' hm => ?_) h
    rw [List.mem_singleton.mp hm]
    cases s.app.agentRegistry.findByHost host <;> rfl
  | ping ts | signal peerId payload =>
    refine lists_quiet_iff (outbox_message hc _ env) (fun msg' hm => ?_) h
    rw [List.mem_singleton.mp hm]
    rfl
  | _ =>
    exact lists_quiet_iff (outbox_message hc _ env) (fun msg' hm => by cases hm) h

theorem quiet_send {s' : Server κ} (ho : s'.outbox c = s.outbox c) {c' : κ}
    {msgs : List ServerMsg} (hq : c = c' → ∀ msg ∈ msgs, tells msg = false) : ∃ msgs',
      (s'.send c' msgs).outbox c = s.outbox c ++ msgs' ∧ ∀ msg ∈ msgs', tells msg = false := by
  refine ⟨_, by rw [outbox_send, ho], fun msg hm => ?_⟩
  split at hm
  · next hcc => exact hq hcc msg hm
  · cases hm

/-- What others do, and what happens by itself, tells the client nothing. -/
theorem lists_other_iff {i : Input κ} (hc : s.clients c = some conn)
    (hi : ∀ msg env, i ≠ .message c msg env) (h : s.Lists userId sessions) :
    (s.step i).Lists userId ((s.news c i).foldl follow sessions) ↔ s.Tells c userId i := by
  suffices ho : ∃ msgs, (s.step i).outbox c = s.outbox c ++ msgs ∧
      ∀ msg ∈ msgs, tells msg = false by
    obtain ⟨msgs, ho, hq⟩ := ho
    exact lists_quiet_iff ho hq h
  have hsame {s' : Server κ} (ho : s'.outbox c = s.outbox c) : ∃ msgs,
      s'.outbox c = s.outbox c ++ msgs ∧ ∀ msg ∈ msgs, tells msg = false :=
    ⟨[], by rw [ho, List.append_nil], fun _ hm => by cases hm⟩
  cases i with
  | accept c' userId' env =>
    simp only [step]
    split
    · next hnone =>
      refine quiet_send rfl ?_
      rintro rfl
      simp [hc] at hnone
    · exact hsame rfl
  | message c' msg env =>
    simp only [step]
    cases s.clients c' with
    | none => exact hsame rfl
    | some conn' =>
      refine quiet_send rfl ?_
      rintro rfl
      exact absurd rfl (hi msg env)
  | drain c' =>
    simp only [step]
    cases s.clients c' with
    | none => exact hsame rfl
    | some conn' =>
      refine quiet_send rfl fun _ msg hm => ?_
      obtain ⟨sub, -, hsub⟩ := List.mem_flatMap.mp hm
      obtain ⟨piece, -, rfl⟩ := List.mem_map.mp hsub
      rfl
  | close c' envs =>
    simp only [step]
    cases s.clients c' <;> exact hsame rfl
  | deployStatus c' deployment status agentId version quicPort =>
    simp only [step]
    split
    · refine quiet_send rfl fun _ msg hm => ?_
      rw [List.mem_singleton.mp hm]
      rfl
    · exact hsame rfl
  | output sessionId pane data =>
    simp only [step]
    split <;> exact hsame rfl
  | _ => exact hsame rfl

/-- **What a step tells.** The sessions that the client knows are the user's
behind a step exactly if the step tells of sessions or leaves them as they are. -/
theorem lists_step_iff (hb : s.app.sessionManager.books.Sound)
    (hn : s.app.sessionManager.Named) (hc : s.clients c = some conn)
    (h : s.Lists conn.userId sessions) (i : Input κ) :
    (s.step i).Lists conn.userId ((s.news c i).foldl follow sessions) ↔
      s.Tells c conn.userId i := by
  by_cases hi : ∃ msg env, i = .message c msg env
  · obtain ⟨msg, env, rfl⟩ := hi
    exact lists_message_iff hb hn hc h msg env
  · exact lists_other_iff hc (fun msg env he => hi ⟨msg, env, he⟩) h

/-! ## What a step keeps -/

theorem userId_handleClientMsg (env : MsgEnv) (msg : ClientMsg) (app : AppState)
    (conn : ConnectionState) :
    (handleClientMsg env msg app conn).2.1.userId = conn.userId := by
  cases msg with
  | installAgent id =>
    simp only [handleClientMsg, installAgent]
    split
    · rfl
    · split <;> rfl
  | _ => rfl

/-- A connection that is not given up stays its user's. -/
theorem client_step {i : Input κ} (hc : s.clients c = some conn) (hstay : stays c i) :
    ∃ conn', (s.step i).clients c = some conn' ∧ conn'.userId = conn.userId := by
  by_cases hcon : concerns c i
  · cases i with
    | accept c' userId' env =>
      obtain rfl : c' = c := hcon
      exact ⟨conn, by simp [step, hc], rfl⟩
    | message c' msg env =>
      obtain rfl : c' = c := hcon
      refine ⟨_, ?_, userId_handleClientMsg env msg s.app conn⟩
      simp [step, hc, message, send]
    | drain c' =>
      obtain rfl : c' = c := hcon
      refine ⟨(drainPaneOutputs s.app conn).1, ?_, rfl⟩
      simp only [step, hc, Option.elim_some, drain, send, Function.update_self]
    | close c' | leave c' => exact absurd hcon hstay
    | _ => cases hcon
  · exact ⟨conn, (step_leftAlone hcon s).1.trans hc, rfl⟩

end

end Oxmux.Ws.Server

namespace Oxmux.System
open Oxmux.Lib Oxmux.Lib.Runs Oxmux.Session Oxmux.Ws Oxmux.Client

namespace Relay

/-! ## The replica -/

/-- The sessions that the store has when it was given what is on the way. -/
def known (k : Nat) (r : Relay) : List ManagedSession :=
  ((r.server.outbox (.own k)).drop (r.readDown k)).foldl follow r.store.managedSessions

/-- They are those of the user. -/
def Replicates (k : Nat) (userId : Text) (r : Relay) : Prop := r.server.Lists userId (r.known k)

/-- The socket and its connection stay, and neither agents nor other open sockets
tell of sessions. -/
structure Attended (k : Nat) (r : Relay) (p : Pick) : Prop where
  isOpen : r.store.isOpen k = true
  stays : ∀ i ∈ r.inputOf p, Server.stays (.own k) i
  agents : ∀ sessionId msg, p = .browser (.p2pMessage sessionId msg) → tells msg = false
  alone : ∀ k' frame, p = .deliver k' → k' ≠ k → r.store.isOpen k' = true →
    (r.server.outbox (.own k'))[r.readDown k']? = some frame → tells frame = false

/-- Every change of the user's sessions is told. -/
def Told (k : Nat) (userId : Text) (r : Relay) (p : Pick) : Prop :=
  ∀ i ∈ r.inputOf p, r.server.Tells (.own k) userId i

/-- The connection is the user's. -/
structure Bound (k : Nat) (userId : Text) (r : Relay) : Prop where
  sound : r.server.app.sessionManager.Sound
  books : r.server.app.sessionManager.books.Sound
  named : r.server.app.sessionManager.Named
  client : ∃ conn, r.server.clients (.own k) = some conn ∧ conn.userId = userId
  down : r.readDown k ≤ (r.server.outbox (.own k)).length

section
variable {k : Nat} {userId : Text} {r : Relay}

theorem known_served {r' : Relay} {i : Input Conn} (h : r.Bound k userId)
    (hs : r'.server = r.server.step i)
    (hm : r'.store.managedSessions = r.store.managedSessions) (hd : r'.readDown = r.readDown) :
    r'.known k = (r.server.news (.own k) i).foldl follow (r.known k) := by
  obtain ⟨msgs, ho⟩ := Server.outbox_relays (Server.relays_step h.sound i) (.own k)
  rw [known, known, hs, hm, hd, Server.news_of_outbox ho.symm, ← ho,
    List.drop_append_of_le_length h.down, List.foldl_append]

theorem known_delivered {frame : ServerMsg} (ho : r.store.isOpen k = true)
    (hn : (r.server.outbox (.own k))[r.readDown k]? = some frame) :
    (r.deliveredAt k frame).known k = r.known k := by
  obtain ⟨hlt, hget⟩ := List.getElem?_eq_some_iff.mp hn
  have hread : (r.deliveredAt k frame).readDown k = r.readDown k + 1 := Function.update_self ..
  have hstore : (r.deliveredAt k frame).store.managedSessions =
      follow r.store.managedSessions frame := by
    rw [deliveredAt, Store.step, if_pos ho, Store.managedSessions_onMessage]
  rw [known, hread, hstore, known, List.drop_eq_getElem_cons hlt, hget]
  rfl

/-- Another socket brings a message that tells of no sessions. -/
theorem known_delivered_ne {k' : Nat} {frame : ServerMsg} (hk : k' ≠ k)
    (ho : r.store.isOpen k' = true) (ht : tells frame = false) :
    (r.deliveredAt k' frame).known k = r.known k := by
  have hread : (r.deliveredAt k' frame).readDown k = r.readDown k :=
    Function.update_of_ne (Ne.symm hk) _ _
  have hstore : (r.deliveredAt k' frame).store.managedSessions = r.store.managedSessions := by
    rw [deliveredAt, Store.step, if_pos ho, Store.managedSessions_onMessage,
      follow_of_quiet ht]
  rw [known, hread, hstore, known]
  rfl

theorem bound_step {p : Pick} (h : r.Bound k userId)
    (hstay : ∀ i ∈ r.inputOf p, Server.stays (.own k) i) : (r.step p).Bound k userId := by
  cases r.moves_step p with
  | served i hi hs hm hg hd =>
    obtain ⟨conn, hc, hcu⟩ := h.client
    obtain ⟨conn', hc', hcu'⟩ := Server.client_step hc (hstay i hi)
    have hbooks := Server.manager_step (P := fun m => m.books.Sound)
      (fun _ op hm => SessionManager.sound_books_apply hm op) h.books i
    have hnamed := Server.manager_step (P := SessionManager.Named) (fun _ op hm => hm.apply op)
      h.named i
    refine ⟨hs ▸ Server.sound_step h.sound i, hs ▸ hbooks, hs ▸ hnamed,
      ⟨conn', hs ▸ hc', hcu'.trans hcu⟩, ?_⟩
    rw [hd, hs]
    exact Nat.le_trans h.down
      (Server.outbox_relays (Server.relays_step h.sound i) _).length_le
  | brought k' frame hp ho hn he =>
    rw [he]
    exact ⟨h.sound, h.books, h.named, h.client, readDown_deliveredAt h.down hn⟩
  | rested hi hs hst hg hd hn =>
    exact ⟨hs ▸ h.sound, hs ▸ h.books, hs ▸ h.named, hs ▸ h.client,
      by rw [hd, hs]; exact h.down⟩

theorem replicates_step_iff {p : Pick} (h : r.Bound k userId) (hP : r.Replicates k userId)
    (hu : r.Attended k p) : (r.step p).Replicates k userId ↔ r.Told k userId p := by
  cases r.moves_step p with
  | served i hi hs hm hg hd =>
    obtain ⟨conn, hc, rfl⟩ := h.client
    rw [Replicates, known_served h hs hm hd, hs, Server.lists_step_iff h.books h.named hc hP]
    simp only [Told, hi, Option.mem_def, Option.some.injEq, forall_eq']
  | brought k' frame hp ho hn he =>
    have hknown : (r.deliveredAt k' frame).known k = r.known k := by
      by_cases hk : k' = k
      · subst hk
        exact known_delivered ho hn
      · exact known_delivered_ne hk ho (hu.alone k' frame hp hk ho hn)
    rw [he, hp, Replicates, hknown]
    exact iff_of_true hP fun i hi => by cases hi
  | rested hi hs hst hg hd hn =>
    have hm : (r.step p).store.managedSessions = r.store.managedSessions := by
      rcases hst with hst | ⟨e, rfl, hnat, hst⟩
      · rw [hst]
      · rw [hst]
        refine Store.managedSessions_step (fun socket msg he => ?_)
          (fun sessionId msg he => hu.agents sessionId msg (congrArg _ he)) r.store
        rw [he] at hnat
        cases hnat
    have hknown : (r.step p).known k = r.known k := by rw [known, known, hs, hm, hd]
    rw [Replicates, hknown, hs]
    refine iff_of_true hP fun i hi' => ?_
    rw [hi] at hi'
    cases hi'

/-! ## Runs -/

/-- A list that the server sends presents the user's sessions, whatever the store
had before. -/
theorem replicates_listed {conn : ConnectionState} (h : r.Bound k conn.userId)
    (hc : r.server.clients (.own k) = some conn)
    (hlist : (wireOf k r.store)[r.readUp k]? = some .sessList) {env : MsgEnv}
    (henv : env.dbRead = true) : (r.step (.receive k env)).Bound k conn.userId ∧
      (r.step (.receive k env)).Replicates k conn.userId := by
  have hinput : r.inputOf (.receive k env) = some (.message (.own k) .listSessions env) := by
    simp only [inputOf, hlist, hc, decodeClientMsg, Option.map_some]
  refine ⟨bound_step h fun i hi => ?_, ?_⟩
  · rw [hinput, Option.mem_def, Option.some.injEq] at hi
    rw [← hi]
    trivial
  · have hserver : (r.step (.receive k env)).server =
        r.server.step (.message (.own k) .listSessions env) := by
      simp only [step, hlist, hc, receive, decodeClientMsg]
    have hstore : (r.step (.receive k env)).store = r.store := by
      simp only [step, hlist, hc, receive]
    have hread : (r.step (.receive k env)).readDown = r.readDown := by
      simp only [step, hlist, hc, receive]
    obtain ⟨m', sessions, hload, -⟩ := SessionManager.load_all h.books conn.userId henv
    have hok : (r.server.app.sessionManager.loadUserSessions env.toEnv conn.userId).2 =
        .ok sessions := by rw [hload]
    have hout := Server.outbox_message hc .listSessions env
    have happ := Server.app_message hc .listSessions env
    simp only [handleClientMsg, AppState.withManager, hok] at hout
    rw [Replicates, known_served h hserver (congrArg _ hstore) hread, Server.news_of_outbox hout,
      hserver, Server.Lists, happ]
    exact SessionManager.lists_loadUserSessions h.books h.named hok

/-- **The replica.** From the moment the server answers a socket's `sess_list` on,
as long as the socket stays: what it brought and what is on the way make up the
sessions of the user, in every state of a run, exactly if every step tells of
what it changes. When all is brought, the store has them. -/
theorem replicates_iff_told {db : List SessionRow} (hids : (db.map (·.id)).Nodup)
    (hread : ∀ row ∈ db, (rowToManagedSession row).isSome) (hr : Reachable step (.new db) r)
    {conn : ConnectionState} (hc : r.server.clients (.own k) = some conn)
    (hlist : (wireOf k r.store)[r.readUp k]? = some .sessList) {env : MsgEnv}
    (henv : env.dbRead = true) (picks : List Pick) :
    let r₁ := r.step (.receive k env)
    EachStep step (Attended k) r₁ picks →
      (Always step (Replicates k conn.userId) r₁ picks ↔
        EachStep step (Told k conn.userId) r₁ picks) ∧
      (EachStep step (Told k conn.userId) r₁ picks →
        let r₂ := run step r₁ picks
        r₂.readDown k = (r₂.server.outbox (.own k)).length →
          r₂.server.Lists conn.userId r₂.store.managedSessions) := by
  intro r₁ hu
  obtain ⟨hsound, -, hdown⟩ := reachable_kept hr
  have hbooks := reachable_manager (P := fun m => m.books.Sound)
    (fun _ op h => SessionManager.sound_books_apply h op)
    (SessionManager.sound_books_new hids hread) hr
  have hnamed := reachable_manager (P := SessionManager.Named) (fun _ op h => h.apply op)
    (fun id s hs => by cases hs) hr
  obtain ⟨hbound, hP⟩ :=
    replicates_listed ⟨hsound, hbooks, hnamed, ⟨conn, hc, rfl⟩, hdown k⟩ hc hlist henv
  have hiff : Always step (Replicates k conn.userId) r₁ picks ↔
      EachStep step (Told k conn.userId) r₁ picks :=
    always_iff_eachStep_of (I := Bound k conn.userId) hP hbound
      (fun _ _ h hP hu => replicates_step_iff h hP hu)
      (fun _ _ h _ hu _ => bound_step h hu.stays) hu
  refine ⟨hiff, fun hall => ?_⟩
  intro r₂ hbrought
  have hlast : r₂.Replicates k conn.userId := (hiff.mpr hall).last
  rw [Replicates, known, hbrought, List.drop_length] at hlast
  exact hlast

end

/-! ## A session that is created -/

/-- The browser has just opened its socket, and asks for the sessions. -/
def asking : Relay :=
  run step (.new []) [.browser .connect, .opened 0 ['u'] (MsgEnv.working uuidA []).toEnv]

/-- It creates a session, and all is brought: the lists of the start, and the
answer. -/
def creating : List Pick :=
  [.browser (.request (.sessCreate ['s'] (.ssh ['h']))), .receive 0 (.working uuidA []),
    .deliver 0, .deliver 0, .deliver 0]

theorem replicates_iff_told_sample :
    let r := run step (asking.step (.receive 0 (.working uuidA []))) creating
    r.server.Lists ['u'] r.store.managedSessions := by
  have hr : Reachable step (.new []) asking := ⟨_, rfl⟩
  have hc : asking.server.clients (.own 0) = some (.new ['u']) := by decide +kernel
  have hlist : (wireOf 0 asking.store)[asking.readUp 0]? = some .sessList := by decide +kernel
  have hdeliver : ∀ r : Relay, r.store.isOpen 0 = true → r.Attended 0 (.deliver 0) := by
    refine fun r ho => ⟨ho, (fun i hi => by cases hi), (fun _ _ he => by cases he), ?_⟩
    rintro k' frame he hne
    cases he
    exact absurd rfl hne
  have hu : EachStep step (Attended 0) (asking.step (.receive 0 (.working uuidA []))) creating := by
    refine ⟨⟨by decide +kernel, (fun i hi => by cases hi), (fun _ _ he => by cases he),
        fun _ _ he => by cases he⟩,
      ⟨by decide +kernel, fun i hi => ?_, (fun _ _ he => by cases he), fun _ _ he => by cases he⟩,
      hdeliver _ (by decide +kernel), hdeliver _ (by decide +kernel),
      hdeliver _ (by decide +kernel),
      trivial⟩
    cases hi
    trivial
  have hids : (([] : List SessionRow).map (·.id)).Nodup := List.nodup_nil
  have henv : (MsgEnv.working uuidA []).dbRead = true := rfl
  have h := (replicates_iff_told hids (fun _ hm => by cases hm) hr hc hlist henv creating hu).2
  refine h ⟨(fun i hi => by cases hi), fun i hi => ?_, (fun i hi => by cases hi),
    (fun i hi => by cases hi), (fun i hi => by cases hi), trivial⟩ (by decide +kernel)
  cases hi
  exact .inl ⟨_, List.mem_singleton_self _, rfl⟩

end Relay

end Oxmux.System
