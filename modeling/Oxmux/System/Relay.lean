import Oxmux.System.Wire
import Oxmux.Ws.Relay

/-! The server and one browser, with what is on the way between them. The other
clients, the session's tmux and the environment do what they like. -/

namespace Oxmux.System
open Oxmux.Lib Oxmux.Lib.Runs Oxmux.Session Oxmux.Ws Oxmux.Client

/-- The server's connections: one for each socket of the browser, and those of
other clients. -/
inductive Conn where
  | own (socket : Nat)
  | other (n : Nat)
  deriving DecidableEq

/-- The server and the store, with how many messages and frames of each socket were
read at either end, and the panes that the current socket was asked to subscribe and
not to unsubscribe since. -/
structure Relay where
  server : Server Conn
  store : Store
  readUp : Nat → Nat
  readDown : Nat → Nat
  wanted : List Text

inductive Pick where
  | server (i : Input Conn)
  | receive (socket : Nat) (env : MsgEnv)
  | deliver (socket : Nat)
  | opened (socket : Nat) (userId : Text) (env : Session.Env)
  | browser (e : Event)

def wireOf (socket : Nat) (s : Store) : List Msg := (s.wire.filter (·.1 = socket)).map (·.2)

def handedTo (qid : Text) (s : Store) : List Chunk := (s.handed.filter (·.1 = qid)).map (·.2)

/-- The inputs of the server that are not the browser's messages. -/
def foreign : Input Conn → Bool
  | .accept (.own _) _ _ | .message (.own _) _ _ => false
  | _ => true

/-- The events of the browser that are not the server's messages, nor output that
an agent sends directly. -/
def native : Event → Bool
  | .opened _ | .message _ _ | .connectFailed .. | .p2pMessage _ (.output ..) => false
  | _ => true

namespace Relay

def new (db : List SessionRow) : Relay where
  server := .new db
  store := .new
  readUp _ := 0
  readDown _ := 0
  wanted := []

def wants (r : Relay) (e : Event) : List Text :=
  if r.store.wsSend.any fun socket => r.store.isOpen socket then
    (r.wanted ++ r.store.asks e).filter (· ∉ r.store.drops e)
  else r.wanted

/-- The server reads a message; what it cannot decode it skips. -/
def receive (socket : Nat) (env : MsgEnv) (w : Msg) (r : Relay) : Relay :=
  { r with
    server := match decodeClientMsg w with
      | some msg => r.server.step (.message (.own socket) msg env)
      | none => r.server
    readUp := Function.update r.readUp socket (r.readUp socket + 1) }

def step (r : Relay) : Pick → Relay
  | .server i => if foreign i then { r with server := r.server.step i } else r
  | .receive socket env =>
    match (wireOf socket r.store)[r.readUp socket]?, r.server.clients (.own socket) with
    | some w, some _ => r.receive socket env w
    | _, _ => r
  | .deliver socket =>
    match (r.server.outbox (.own socket))[r.readDown socket]?, r.store.isOpen socket with
    | some frame, true =>
      { r with
        store := r.store.step (.message socket frame)
        readDown := Function.update r.readDown socket (r.readDown socket + 1) }
    | _, _ => r
  | .opened socket userId env =>
    if r.store.sockets[socket]? = some .connecting then
      { r with
        server := r.server.step (.accept (.own socket) userId env)
        store := r.store.step (.opened socket)
        wanted := [] }
    else r
  | .browser e =>
    if native e then { r with store := r.store.step e, wanted := r.wants e } else r

/-! ## Which panes a connection hears -/

/-- Whether a connection hears a pane after a message. -/
def hears (pane : Text) (heard : Bool) : Msg → Bool
  | .sub q => heard || q = pane
  | .unsub q => heard && q ≠ pane
  | _ => heard

def listening (pane : Text) (heard : Bool) (msgs : List Msg) : Bool := msgs.foldl (hears pane) heard

theorem listening_append (pane : Text) (heard : Bool) (msgs msgs' : List Msg) :
    listening pane heard (msgs ++ msgs') = listening pane (listening pane heard msgs) msgs' :=
  List.foldl_append

theorem listening_filter (pane : Text) (heard : Bool) (msgs : List Msg) :
    listening pane heard (msgs.filter Msg.isSub) = listening pane heard msgs := by
  induction msgs generalizing heard with
  | nil => rfl
  | cons msg msgs ih =>
    cases hs : msg.isSub with
    | true =>
      rw [List.filter_cons_of_pos hs]
      exact ih _
    | false =>
      rw [List.filter_cons_of_neg (by simp [hs])]
      have hsame : hears pane heard msg = heard := by cases msg <;> first | rfl | cases hs
      rw [ih, listening, listening, List.foldl_cons, hsame]

theorem listening_subs (pane : Text) (heard : Bool) (panes : List Text) :
    listening pane heard (panes.map Msg.sub) = (heard || pane ∈ panes) := by
  induction panes generalizing heard with
  | nil => simp [listening]
  | cons q panes ih =>
    rw [List.map_cons, listening, List.foldl_cons]
    change listening pane (heard || q = pane) (panes.map Msg.sub) = _
    rw [ih]
    by_cases h : q = pane
    · simp [h]
    · simp [h, Ne.symm h]

/-- The server's receivers follow the message that it reads. -/
theorem mem_keys_receive {w : Msg} {msg : ClientMsg} (h : decodeClientMsg w = some msg)
    (env : MsgEnv) (s : AppState) (conn : ConnectionState) (pane : Text) :
    pane ∈ (handleClientMsg env msg s conn).2.1.paneSubs.keys ↔
      hears pane (pane ∈ conn.paneSubs.keys) w = true := by
  rw [paneSubs_handleClientMsg]
  cases w with
  | sub q =>
    cases h
    simp only [hears, Table.mem_keys_set, Bool.or_eq_true, decide_eq_true_eq]
    exact or_comm.trans (or_congr Iff.rfl eq_comm)
  | unsub q =>
    cases h
    simp only [hears, Table.mem_keys_delete, Bool.and_eq_true, decide_eq_true_eq]
    exact and_comm.trans (and_congr Iff.rfl ne_comm)
  | r q cols rows =>
    simp only [decodeClientMsg] at h
    split at h
    · cases h
      simp [hears]
    · cases h
  | attach | webrtcOffer | webrtcIce => cases h
  | _ =>
    cases h
    simp [hears]

/-- A message that is not decoded is no subscription. -/
theorem hears_of_undecoded {w : Msg} (h : decodeClientMsg w = none) (pane : Text) (heard : Bool) :
    hears pane heard w = heard := by
  cases w <;> first | rfl | cases h

end Relay

end Oxmux.System
