import Oxmux.Lib.Threads
import Oxmux.Session.Manager

/-! The operations of `SessionManager` while others run. Every use of a map and
every `await` is one step, and between two steps other calls may take theirs.
A transport lives on while a call holds it, also when its session is gone. -/

namespace Oxmux.Session
open Oxmux.Lib

/-- `SessionEntry`, with the number of its transport. -/
structure CallEntry where
  metadata : ManagedSession
  transport : Nat

/-- What the calls share, with the transports made so far and the client whose call
has locked each. -/
structure Shared where
  sessions : Text → Option CallEntry
  paneToSession : Text → Option Text
  db : List SessionRow
  ephemeralKeys : Text → Option (Text × Option Text)
  transports : List Transport
  holder : Nat → Option Nat

abbrev Reply := Except Text (List ManagedSession)

inductive Call where
  | load (userId : Text)
  | loadRows (rows : List SessionRow) (sessions : List ManagedSession)
  | loadInsert (metadata : ManagedSession) (rows : List SessionRow) (sessions : List ManagedSession)
  | loadGet (metadata : ManagedSession) (rows : List SessionRow) (sessions : List ManagedSession)
  | connect (id : Text)
  | connectMark (id : Text) (transport : Nat)
  | connectNote (id : Text) (transport : Nat)
  | connectLock (id : Text) (transport : Nat)
  | connectReach (id : Text) (transport : Nat)
  | connectList (id : Text) (transport : Nat)
  | connectRoute (id : Text) (panes : List Text) (tree : List TmuxSessionInfo)
  | connectStore (id : Text)
  | connectFail (id errMsg : Text)
  | connectFailStore (id errMsg : Text)
  | refresh (id : Text)
  | refreshLock (id : Text) (transport : Nat)
  | refreshList (id : Text) (transport : Nat)
  | refreshRoute (id : Text) (panes : List Text) (tree : List TmuxSessionInfo)
  | disconnect (id : Text)
  | disconnectFind (id : Text)
  | disconnectLock (id : Text) (transport : Nat)
  | disconnectReach (id : Text) (transport : Nat)
  | disconnectMark (id : Text)
  | disconnectStore (id : Text)
  | get (id : Text)
  | delete (id : Text)
  | deleteRemove (id : Text)
  | deleteLock (id : Text) (entry : CallEntry)
  | deleteReach (id : Text) (entry : CallEntry)
  | deleteKey (id : Text) (entry : CallEntry)
  | deleteRow (id : Text) (entry : CallEntry)

namespace Shared

def new (db : List SessionRow) : Shared where
  sessions _ := none
  paneToSession _ := none
  db
  ephemeralKeys _ := none
  transports := []
  holder _ := none

/-- `sessions.get_mut`: nothing happens where there is no session. -/
def modify (id : Text) (f : ManagedSession → ManagedSession) (s : Shared) : Shared :=
  { s with
    sessions := Function.update s.sessions id
      ((s.sessions id).map fun entry => { entry with metadata := f entry.metadata }) }

/-- `sessions.insert` of a session with a transport of its own. -/
def insert (metadata : ManagedSession) (s : Shared) : Shared :=
  { s with
    sessions := Function.update s.sessions metadata.id
      (some { metadata, transport := s.transports.length })
    transports := s.transports ++ [.new metadata.transport.backend metadata.name] }

/-- `sessions.remove`. -/
def remove (id : Text) (s : Shared) : Shared :=
  { s with sessions := Function.update s.sessions id none }

def route (pane id : Text) (s : Shared) : Shared :=
  { s with paneToSession := Function.update s.paneToSession pane (some id) }

def prune (id : Text) (s : Shared) : Shared :=
  { s with paneToSession := fun pane => (s.paneToSession pane).filter (· ≠ id) }

def onTransport (transport : Nat) (f : Transport → Transport) (s : Shared) : Shared :=
  { s with transports := s.transports.modify transport f }

def listing (env : Env) (transport : Nat) (s : Shared) :
    Except TransportError (List TmuxSessionInfo) :=
  (s.transports[transport]?.map (·.listTmuxSessions env.listing)).getD env.listing

/-- What `connect` of a transport meets. -/
def authenticate (env : Env) (transport : Nat) (s : Shared) : Option ConnectFailure :=
  (s.transports[transport]?.map (·.authenticate s.ephemeralKeys env.connect)).getD env.connect

def updateSessionStatus (ok : Bool) (id : Text) (status : SessionStatus) (error : Option Text)
    (s : Shared) : Shared :=
  if ok then { s with db := updateRow id (fun r => { r with status := status.show, error }) s.db }
  else s

def removeKey (keyId : Option Text) (s : Shared) : Shared :=
  match keyId with
  | some keyId => { s with ephemeralKeys := Function.update s.ephemeralKeys keyId none }
  | none => s

/-- The lock of a transport, if nobody has it. -/
def lock (client transport : Nat) (s : Shared) : Option Shared :=
  if s.holder transport = none then
    some { s with holder := Function.update s.holder transport (some client) }
  else none

/-- The end of a call: what it locked is free again. -/
def release (client : Nat) (s : Shared) : Shared :=
  { s with holder := fun t => if s.holder t = some client then none else s.holder t }

end Shared

namespace Call
open Shared

/-- The session that a call works on, or an error; `next` is what comes then. -/
def find (id : Text) (next : Nat → Call) (s : Shared) : Shared × (Call ⊕ Reply) :=
  match s.sessions id with
  | some entry => (s, .inl (next entry.transport))
  | none => (s, .inr (.error (SessionManager.notFound id)))

/-- A call that waits for a lock takes the same step again. -/
def acquire (client transport : Nat) (now next : Call) (s : Shared) : Shared × (Call ⊕ Reply) :=
  match s.lock client transport with
  | some s' => (s', .inl next)
  | none => (s, .inl now)

def step (client : Nat) (env : Env) (s : Shared) : Call → Shared × (Call ⊕ Reply)
  -- load_user_sessions
  | load userId =>
    if env.dbRead then (s, .inl (loadRows (listSessionsForUser s.db userId) []))
    else (s, .inr (.error "failed to list sessions".toList))
  | loadRows [] sessions => (s, .inr (.ok sessions))
  | loadRows (row :: rows) sessions =>
    match rowToManagedSession row with
    | none => (s, .inr (.error "failed to deserialize transport_config".toList))
    | some metadata =>
      (s, .inl (if (s.sessions metadata.id).isSome then loadGet metadata rows sessions
        else loadInsert metadata rows sessions))
  | loadInsert metadata rows sessions => (s.insert metadata, .inl (loadGet metadata rows sessions))
  | loadGet metadata rows sessions =>
    (s, .inl (loadRows rows
      (sessions ++ [((s.sessions metadata.id).map (·.metadata)).getD metadata])))
  -- connect
  | connect id => find id (connectMark id) s
  | connectMark id t =>
    (s.modify id fun session => { session with status := .connecting }, .inl (connectNote id t))
  | connectNote id t =>
    (s.updateSessionStatus (env.dbWrite 0) id .connecting none, .inl (connectLock id t))
  | connectLock id t => acquire client t (connectLock id t) (connectReach id t) s
  | connectReach id t =>
    (s.onTransport t (·.connect env.connection (s.authenticate env t)),
      .inl (match s.authenticate env t with
        | none => connectList id t
        | some failure => connectFail id failure.error.text))
  | connectList id t =>
    let tree := (s.listing env t).toOption.getD []
    (s, .inl (connectRoute id (paneIds tree) tree))
  | connectRoute id (pane :: panes) tree => (s.route pane id, .inl (connectRoute id panes tree))
  | connectRoute id [] tree =>
    (s.modify id fun session =>
      { session with status := .connected, error := none, tmuxSessions := tree },
      .inl (connectStore id))
  | connectStore id =>
    (s.updateSessionStatus (env.dbWrite 1) id .connected none, .inl (get id))
  | connectFail id errMsg =>
    (s.modify id fun session => { session with status := .error, error := some errMsg },
      .inl (connectFailStore id errMsg))
  | connectFailStore id errMsg =>
    (s.updateSessionStatus (env.dbWrite 1) id .error (some errMsg), .inr (.error errMsg))
  -- refresh_tmux_state
  | refresh id => find id (refreshLock id) s
  | refreshLock id t => acquire client t (refreshLock id t) (refreshList id t) s
  | refreshList id t =>
    match s.listing env t with
    | .error e => (s, .inr (.error e.text))
    | .ok tree => (s, .inl (refreshRoute id (paneIds tree) tree))
  | refreshRoute id (pane :: panes) tree => (s.route pane id, .inl (refreshRoute id panes tree))
  | refreshRoute id [] tree =>
    (s.modify id fun session => { session with tmuxSessions := tree }, .inl (get id))
  -- disconnect
  | disconnect id => (s.prune id, .inl (disconnectFind id))
  | disconnectFind id => find id (disconnectLock id) s
  | disconnectLock id t => acquire client t (disconnectLock id t) (disconnectReach id t) s
  | disconnectReach id t => (s.onTransport t (·.disconnect), .inl (disconnectMark id))
  | disconnectMark id =>
    (s.modify id fun session => { session with status := .disconnected, tmuxSessions := [] },
      .inl (disconnectStore id))
  | disconnectStore id =>
    (s.updateSessionStatus (env.dbWrite 0) id .disconnected none, .inl (get id))
  -- the end of connect, disconnect and refresh_tmux_state
  | get id =>
    match s.sessions id with
    | some entry => (s, .inr (.ok [entry.metadata]))
    | none => (s, .inr (.error "session disappeared".toList))
  -- delete
  | delete id => (s.prune id, .inl (deleteRemove id))
  | deleteRemove id =>
    match s.sessions id with
    | some entry => (s.remove id, .inl (deleteLock id entry))
    | none => (s, .inr (.error (SessionManager.notFound id)))
  | deleteLock id entry =>
    acquire client entry.transport (deleteLock id entry) (deleteReach id entry) s
  | deleteReach id entry =>
    (s.onTransport entry.transport (·.disconnect), .inl (deleteKey id entry))
  | deleteKey id entry =>
    (s.removeKey (SessionManager.uploadedKeyId entry.metadata), .inl (deleteRow id entry))
  | deleteRow id entry =>
    if env.dbWrite 0 then
      ({ s with db := s.db.filter (·.id.val ≠ id) }, .inr (.ok [entry.metadata]))
    else (s, .inr (.error "failed to delete session".toList))

end Call

/-! ## Clients -/

/-- What a client asks for; `cleanup` is what happens when its socket is gone. -/
inductive Request where
  | load (userId : Text)
  | connect (id : Text)
  | refresh (id : Text)
  | disconnect (id : Text)
  | delete (id : Text)
  | cleanup (userId : Text)
  deriving DecidableEq

def Request.call : Request → Call
  | load userId => .load userId
  | connect id => .connect id
  | refresh id => .refresh id
  | disconnect id => .disconnect id
  | delete id => .delete id
  | cleanup userId => .load userId

/-- The requests that follow a reply: a cleanup disconnects what is connected
among the sessions that it loaded. -/
def Request.next : Request → Reply → List Request
  | cleanup _, .ok sessions =>
    (sessions.filter fun session => session.status = .connected).map fun session =>
      .disconnect session.id
  | _, _ => []

/-- A client connection: one request after the other. -/
structure Client where
  todo : List Request
  current : Option (Request × Call)
  replies : List (Request × Reply)

namespace Client

def new (todo : List Request) : Client := { todo, current := none, replies := [] }

def step (i : Nat) (env : Env) (s : Shared) (c : Client) : Shared × Client :=
  match c.current, c.todo with
  | none, [] => (s, c)
  | none, request :: todo => (s, { c with todo, current := some (request, request.call) })
  | some (request, call), _ =>
    match call.step i env s with
    | (s', .inl call') => (s', { c with current := some (request, call') })
    | (s', .inr reply) =>
      (s'.release i,
        { todo := request.next reply ++ c.todo, current := none
          replies := c.replies ++ [(request, reply)] })

def Done (c : Client) : Prop := c.todo = [] ∧ c.current = none

def call (c : Client) : Option Call := c.current.map (·.2)

end Client

/-- The session manager with its clients. -/
abbrev Calls := Threads Shared Client

namespace Calls

def start (s : Shared) (todos : List (List Request)) : Calls :=
  { shared := s, locals := todos.map .new }

def step : Calls → Nat × Env → Calls := Threads.step Client.step

end Calls

/-! ## What a step does to the maps -/

/-- What one step can do to the sessions and their routes. -/
inductive Effect where
  | none
  | prune (id : Text)
  | route (pane id : Text)
  | put (id : Text) (entry : CallEntry)
  | remove (id : Text)
  | modify (id : Text) (f : ManagedSession → ManagedSession)

namespace Effect

def sessions (m : Text → Option CallEntry) : Effect → Text → Option CallEntry
  | put id entry => Function.update m id (some entry)
  | remove id => Function.update m id Option.none
  | modify id f =>
    Function.update m id ((m id).map fun entry => { entry with metadata := f entry.metadata })
  | _ => m

def routes (r : Text → Option Text) : Effect → Text → Option Text
  | prune id => fun pane => (r pane).filter (· ≠ id)
  | route pane id => Function.update r pane (some id)
  | _ => r

end Effect

namespace Call

/-- What the next step of a call does to the maps. -/
def effect (s : Shared) : Call → Effect
  | loadInsert metadata _ _ =>
    .put metadata.id { metadata, transport := s.transports.length }
  | connectMark id _ => .modify id fun session => { session with status := .connecting }
  | connectRoute id (pane :: _) _ => .route pane id
  | connectRoute id [] tree => .modify id fun session =>
      { session with status := .connected, error := none, tmuxSessions := tree }
  | connectFail id errMsg => .modify id fun session =>
      { session with status := .error, error := some errMsg }
  | refreshRoute id (pane :: _) _ => .route pane id
  | refreshRoute id [] tree => .modify id fun session => { session with tmuxSessions := tree }
  | disconnect id => .prune id
  | disconnectMark id => .modify id fun session =>
      { session with status := .disconnected, tmuxSessions := [] }
  | delete id => .prune id
  | deleteRemove id => .remove id
  | _ => .none

theorem find_fst (id : Text) (next : Nat → Call) (s : Shared) : (find id next s).1 = s := by
  unfold find
  split <;> rfl

theorem acquire_maps (client t : Nat) (now next : Call) (s : Shared) :
    (acquire client t now next s).1.sessions = s.sessions ∧
      (acquire client t now next s).1.paneToSession = s.paneToSession ∧
      (acquire client t now next s).1.db = s.db := by
  unfold acquire Shared.lock
  by_cases h : s.holder t = none
  · simp [h]
  · simp [h]

@[simp] theorem updateSessionStatus_maps (ok : Bool) (id : Text) (status : SessionStatus)
    (error : Option Text) (s : Shared) :
    (s.updateSessionStatus ok id status error).sessions = s.sessions ∧
      (s.updateSessionStatus ok id status error).paneToSession = s.paneToSession := by
  unfold Shared.updateSessionStatus
  split <;> exact ⟨rfl, rfl⟩

/-- **A step changes the maps by its effect**, and in no other way. -/
theorem step_maps (client : Nat) (env : Env) (s : Shared) (c : Call) :
    (c.step client env s).1.sessions = (c.effect s).sessions s.sessions ∧
      (c.step client env s).1.paneToSession = (c.effect s).routes s.paneToSession := by
  cases c with
  | load userId =>
    simp only [step]
    split <;> exact ⟨rfl, rfl⟩
  | loadRows rows sessions =>
    cases rows with
    | nil => exact ⟨rfl, rfl⟩
    | cons row rows =>
      simp only [step]
      split <;> exact ⟨rfl, rfl⟩
  | connect id => simp only [step, find_fst]; exact ⟨rfl, rfl⟩
  | connectLock id t => exact ⟨(acquire_maps ..).1, (acquire_maps ..).2.1⟩
  | connectRoute id panes tree => cases panes <;> exact ⟨rfl, rfl⟩
  | connectNote id t => exact updateSessionStatus_maps ..
  | connectStore id => exact updateSessionStatus_maps ..
  | connectFailStore id errMsg => exact updateSessionStatus_maps ..
  | refresh id => simp only [step, find_fst]; exact ⟨rfl, rfl⟩
  | refreshLock id t => exact ⟨(acquire_maps ..).1, (acquire_maps ..).2.1⟩
  | refreshList id t =>
    simp only [step]
    split <;> exact ⟨rfl, rfl⟩
  | refreshRoute id panes tree => cases panes <;> exact ⟨rfl, rfl⟩
  | disconnectFind id => simp only [step, find_fst]; exact ⟨rfl, rfl⟩
  | disconnectLock id t => exact ⟨(acquire_maps ..).1, (acquire_maps ..).2.1⟩
  | disconnectStore id => exact updateSessionStatus_maps ..
  | get id =>
    simp only [step]
    split <;> exact ⟨rfl, rfl⟩
  | deleteRemove id =>
    simp only [step]
    cases h : s.sessions id with
    | none => exact ⟨(Function.update_eq_self_iff.mpr h.symm).symm, rfl⟩
    | some entry => exact ⟨rfl, rfl⟩
  | deleteLock id entry => exact ⟨(acquire_maps ..).1, (acquire_maps ..).2.1⟩
  | deleteKey id entry =>
    simp only [step, Shared.removeKey]
    split <;> exact ⟨rfl, rfl⟩
  | deleteRow id entry =>
    simp only [step]
    split <;> exact ⟨rfl, rfl⟩
  | _ => exact ⟨rfl, rfl⟩

end Call

namespace Client

/-- The step of a client: it has nothing to do, takes up a request, goes on with
its call, or gets the reply. -/
inductive Turn (i : Nat) (env : Env) (s : Shared) (c : Client) : Shared × Client → Prop
  | idle (hc : c.current = none) (ht : c.todo = []) : Turn i env s c (s, c)
  | start {request : Request} {todo : List Request} (hc : c.current = none)
      (ht : c.todo = request :: todo) :
      Turn i env s c (s, { c with todo, current := some (request, request.call) })
  | go {request : Request} {call call' : Call} {s' : Shared} (hc : c.current = some (request, call))
      (hs : call.step i env s = (s', .inl call')) :
      Turn i env s c (s', { c with current := some (request, call') })
  | answer {request : Request} {call : Call} {reply : Reply} {s' : Shared}
      (hc : c.current = some (request, call)) (hs : call.step i env s = (s', .inr reply)) :
      Turn i env s c (s'.release i,
        { todo := request.next reply ++ c.todo, current := none
          replies := c.replies ++ [(request, reply)] })

theorem turn (i : Nat) (env : Env) (s : Shared) (c : Client) : c.Turn i env s (c.step i env s) := by
  unfold step
  split
  · next hc ht => exact .idle hc ht
  · next hc ht => exact .start hc ht
  · next request call _ hc =>
    split
    · next hs => exact .go hc hs
    · next hs => exact .answer hc hs

/-- What the next step of a client does to the maps. -/
def effect (s : Shared) (c : Client) : Effect := (c.call.map (·.effect s)).getD .none

theorem effect_eq {s : Shared} {c : Client} {request : Request} {call : Call}
    (hc : c.current = some (request, call)) : c.effect s = call.effect s := by
  simp [effect, Client.call, hc]

theorem step_maps (i : Nat) (env : Env) (s : Shared) (c : Client) :
    (c.step i env s).1.sessions = (c.effect s).sessions s.sessions ∧
      (c.step i env s).1.paneToSession = (c.effect s).routes s.paneToSession := by
  have ht := c.turn i env s
  generalize c.step i env s = r at ht
  cases ht with
  | idle hc => simp [effect, Client.call, hc, Effect.sessions, Effect.routes]
  | start hc => simp [effect, Client.call, hc, Effect.sessions, Effect.routes]
  | @go request call _ s' hc hs =>
    have hmaps := call.step_maps i env s
    rw [hs] at hmaps
    rw [effect_eq hc]
    exact hmaps
  | @answer request call _ s' hc hs =>
    have hmaps := call.step_maps i env s
    rw [hs] at hmaps
    rw [effect_eq hc]
    exact hmaps

end Client

end Oxmux.Session
