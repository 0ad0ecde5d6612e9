import Oxmux.Session.Calls

/-! A call that nobody disturbs. It takes its steps one after the other and does
what the operation of `SessionManager` does at once. -/

namespace Oxmux.Session
open Oxmux.Lib Oxmux.Lib.Runs

namespace Shared

/-- The manager that the shared state stands for. -/
def manager (s : Shared) : SessionManager where
  sessions id := (s.sessions id).bind fun entry =>
    s.transports[entry.transport]?.map fun transport =>
      { metadata := entry.metadata, transport }
  paneToSession := s.paneToSession
  db := s.db
  ephemeralKeys := s.ephemeralKeys

/-- Every session in memory has a transport of its own, made for its backend. -/
structure Owned (s : Shared) : Prop where
  made : ∀ id entry, s.sessions id = some entry →
    (s.transports[entry.transport]?).map (·.backend) = some entry.metadata.transport.backend
  own : ∀ id id' entry entry', s.sessions id = some entry → s.sessions id' = some entry' →
    entry.transport = entry'.transport → id = id'

theorem owned_new (db : List SessionRow) : (new db).Owned where
  made _ _ h := by cases h
  own _ _ _ _ h := by cases h

section
variable {s : Shared} {id : Text}

theorem manager_none (h : s.sessions id = none) : s.manager.sessions id = none := by
  simp [manager, h]

theorem Owned.lt_length (h : s.Owned) {entry : CallEntry} (hs : s.sessions id = some entry) :
    entry.transport < s.transports.length := by
  obtain ⟨transport, ht, -⟩ := Option.map_eq_some_iff.mp (h.made id entry hs)
  exact (List.getElem?_eq_some_iff.mp ht).1

theorem Owned.manager_some (h : s.Owned) {entry : CallEntry} (hs : s.sessions id = some entry) :
    ∃ transport, s.transports[entry.transport]? = some transport ∧
      s.manager.sessions id = some { metadata := entry.metadata, transport } := by
  have ht := List.getElem?_eq_getElem (h.lt_length hs)
  exact ⟨_, ht, by simp [manager, hs, ht]⟩

theorem manager_modify (id : Text) (f : ManagedSession → ManagedSession) (s : Shared) :
    (s.modify id f).manager = { s.manager with
      sessions := Function.update s.manager.sessions id
        ((s.manager.sessions id).map fun entry =>
          { entry with metadata := f entry.metadata }) } := by
  simp only [manager, modify, SessionManager.mk.injEq, and_true]
  funext id'
  by_cases he : id' = id
  · subst he
    simp only [Function.update_self]
    cases s.sessions id' with
    | none => rfl
    | some entry => simp [Function.comp_def]
  · simp only [Function.update_of_ne he]

theorem Owned.modify (h : s.Owned) (id : Text) {f : ManagedSession → ManagedSession}
    (hf : ∀ session, (f session).transport = session.transport) : (s.modify id f).Owned := by
  have hold : ∀ id' entry', (s.modify id f).sessions id' = some entry' →
      ∃ entry, s.sessions id' = some entry ∧ entry.transport = entry'.transport ∧
        entry.metadata.transport = entry'.metadata.transport := by
    intro id' entry' hs
    by_cases he : id' = id
    · subst he
      simp only [Shared.modify, Function.update_self, Option.map_eq_some_iff] at hs
      obtain ⟨entry, hentry, rfl⟩ := hs
      exact ⟨entry, hentry, rfl, (hf _).symm⟩
    · simp only [Shared.modify, Function.update_of_ne he] at hs
      exact ⟨entry', hs, rfl, rfl⟩
  refine ⟨fun id' entry' hs => ?_, fun id₁ id₂ entry₁ entry₂ h₁ h₂ he => ?_⟩
  · obtain ⟨entry, hentry, ht, hc⟩ := hold id' entry' hs
    exact ht ▸ hc ▸ h.made id' entry hentry
  · obtain ⟨e₁, hs₁, ht₁, -⟩ := hold id₁ entry₁ h₁
    obtain ⟨e₂, hs₂, ht₂, -⟩ := hold id₂ entry₂ h₂
    exact h.own id₁ id₂ e₁ e₂ hs₁ hs₂ (ht₁.trans (he.trans ht₂.symm))

/-- What is done to a transport is done to its session alone. -/
theorem Owned.manager_onTransport (h : s.Owned) {entry : CallEntry}
    (hs : s.sessions id = some entry) (f : Transport → Transport) :
    (s.onTransport entry.transport f).manager = { s.manager with
      sessions := Function.update s.manager.sessions id
        ((s.manager.sessions id).map fun e => { e with transport := f e.transport }) } := by
  simp only [manager, onTransport, SessionManager.mk.injEq, and_true]
  funext id'
  by_cases he : id' = id
  · subst he
    simp only [Function.update_self, hs, Option.bind_some, List.getElem?_modify_eq]
    cases s.transports[entry.transport]? <;> rfl
  · simp only [Function.update_of_ne he]
    cases hs' : s.sessions id' with
    | none => rfl
    | some entry' =>
      have hne : entry.transport ≠ entry'.transport :=
        fun ht => he (h.own id' id entry' entry hs' hs ht.symm)
      simp only [Option.bind_some, List.getElem?_modify_ne _ _ hne]

theorem manager_updateSessionStatus (ok : Bool) (id : Text) (status : SessionStatus)
    (error : Option Text) (s : Shared) :
    (s.updateSessionStatus ok id status error).manager =
      s.manager.updateSessionStatus ok id status error := by
  cases ok <;> rfl

/-- A session that is put into memory gets a transport that no other has. -/
theorem Owned.manager_insert (h : s.Owned) (metadata : ManagedSession) :
    (s.insert metadata).manager = s.manager.setEntry metadata.id
      { metadata, transport := .new metadata.transport.backend metadata.name } := by
  simp only [manager, insert, SessionManager.setEntry, SessionManager.mk.injEq, and_true]
  funext id'
  by_cases he : id' = metadata.id
  · subst he
    simp [Function.update_self]
  · simp only [Function.update_of_ne he]
    cases hs' : s.sessions id' with
    | none => rfl
    | some entry' =>
      simp only [Option.bind_some, List.getElem?_append_left (h.lt_length hs')]

theorem Owned.insert (h : s.Owned) (metadata : ManagedSession) : (s.insert metadata).Owned := by
  have hold : ∀ id' entry', (s.insert metadata).sessions id' = some entry' →
      id' = metadata.id ∧ entry' = { metadata, transport := s.transports.length } ∨
        s.sessions id' = some entry' ∧ entry'.transport < s.transports.length := by
    intro id' entry' hs
    by_cases he : id' = metadata.id
    · subst he
      simp only [Shared.insert, Function.update_self, Option.some.injEq] at hs
      exact .inl ⟨rfl, hs.symm⟩
    · simp only [Shared.insert, Function.update_of_ne he] at hs
      exact .inr ⟨hs, h.lt_length hs⟩
  refine ⟨fun id' entry' hs => ?_, fun id₁ id₂ entry₁ entry₂ h₁ h₂ he => ?_⟩
  · rcases hold id' entry' hs with ⟨-, rfl⟩ | ⟨hs', ht⟩
    · simp [Shared.insert, Transport.new]
    · simpa only [Shared.insert, List.getElem?_append_left ht] using h.made id' entry' hs'
  · rcases hold id₁ entry₁ h₁ with ⟨e₁, rfl⟩ | ⟨hs₁, ht₁⟩ <;>
      rcases hold id₂ entry₂ h₂ with ⟨e₂, rfl⟩ | ⟨hs₂, ht₂⟩
    · exact e₁.trans e₂.symm
    · exact absurd he ht₂.ne'
    · exact absurd he ht₁.ne
    · exact h.own id₁ id₂ entry₁ entry₂ hs₁ hs₂ he

/-- A session that is taken out of memory takes its transport along. -/
theorem manager_remove (id : Text) (s : Shared) : (s.remove id).manager = { s.manager with
    sessions := Function.update s.manager.sessions id none } := by
  simp only [manager, remove, SessionManager.mk.injEq, and_true]
  funext id'
  by_cases he : id' = id
  · subst he
    simp [Function.update_self]
  · simp only [Function.update_of_ne he]

theorem Owned.remove (h : s.Owned) (id : Text) : (s.remove id).Owned := by
  have hold : ∀ id' entry, (s.remove id).sessions id' = some entry →
      s.sessions id' = some entry := by
    intro id' entry hs
    by_cases he : id' = id
    · subst he
      simp [Shared.remove] at hs
    · simpa only [Shared.remove, Function.update_of_ne he] using hs
  exact ⟨fun id' entry hs => h.made id' entry (hold id' entry hs),
    fun id₁ id₂ e₁ e₂ h₁ h₂ => h.own id₁ id₂ e₁ e₂ (hold id₁ e₁ h₁) (hold id₂ e₂ h₂)⟩

end

/-- What is done to a transport leaves its backend. -/
theorem backend_onTransport {f : Transport → Transport}
    (hf : ∀ transport, (f transport).backend = transport.backend) (t u : Nat) (s : Shared) :
    ((s.onTransport t f).transports[u]?).map (·.backend) =
      (s.transports[u]?).map (·.backend) := by
  simp only [onTransport, List.getElem?_modify]
  split
  · simp [Function.comp_def, hf]
  · simp

/-- The state in which a client has a lock that nobody had. -/
def locked (client transport : Nat) (s : Shared) : Shared :=
  { s with holder := Function.update s.holder transport (some client) }

/-- The shared state stands for the manager. -/
structure Shows (s : Shared) (m : SessionManager) : Prop where
  eq : s.manager = m
  owned : s.Owned

namespace Shows
variable {s : Shared} {m : SessionManager} {id : Text} (h : s.Shows m)
include h

theorem none (hs : s.sessions id = none) : m.sessions id = none := h.eq ▸ manager_none hs

theorem some {entry : CallEntry} (hs : s.sessions id = some entry) :
    ∃ transport, m.sessions id = some { metadata := entry.metadata, transport } := by
  obtain ⟨transport, -, hm⟩ := h.owned.manager_some hs
  exact ⟨transport, h.eq ▸ hm⟩

theorem entry {entry : CallEntry} {e : SessionEntry} (hs : s.sessions id = .some entry)
    (hm : m.sessions id = .some e) :
    e.metadata = entry.metadata ∧ s.transports[entry.transport]? = .some e.transport := by
  obtain ⟨transport, ht, hm'⟩ := h.owned.manager_some hs
  rw [h.eq, hm, Option.some.injEq] at hm'
  subst hm'
  exact ⟨rfl, ht⟩

theorem modify {e : SessionEntry} (hm : m.sessions id = .some e)
    (f : ManagedSession → ManagedSession)
    (hf : ∀ session, (f session).transport = session.transport) :
    (s.modify id f).Shows (m.setEntry id { e with metadata := f e.metadata }) := by
  refine ⟨?_, h.owned.modify id hf⟩
  rw [manager_modify, h.eq, hm]
  rfl

theorem onTransport {entry : CallEntry} {e : SessionEntry} (hs : s.sessions id = .some entry)
    (hm : m.sessions id = .some e) (f : Transport → Transport)
    (hf : ∀ transport, (f transport).backend = transport.backend) :
    (s.onTransport entry.transport f).Shows
      (m.setEntry id { e with transport := f e.transport }) := by
  refine ⟨?_, fun id' entry' hs' => ?_, h.owned.own⟩
  · rw [h.owned.manager_onTransport hs, h.eq, hm]
    rfl
  · rw [backend_onTransport hf]
    exact h.owned.made id' entry' hs'

theorem updateSessionStatus (ok : Bool) (id : Text) (status : SessionStatus)
    (error : Option Text) :
    (s.updateSessionStatus ok id status error).Shows
      (m.updateSessionStatus ok id status error) := by
  refine ⟨by rw [manager_updateSessionStatus, h.eq], ?_⟩
  cases ok <;> exact ⟨h.owned.made, h.owned.own⟩

theorem locked (client t : Nat) : (s.locked client t).Shows m :=
  ⟨h.eq, h.owned.made, h.owned.own⟩

theorem prune (id : Text) : (s.prune id).Shows (m.removeRoutes id) :=
  ⟨h.eq ▸ rfl, h.owned.made, h.owned.own⟩

theorem insert (metadata : ManagedSession) : (s.insert metadata).Shows
    (m.setEntry metadata.id
      { metadata, transport := .new metadata.transport.backend metadata.name }) :=
  ⟨h.eq ▸ h.owned.manager_insert metadata, h.owned.insert metadata⟩

theorem remove (id : Text) :
    (s.remove id).Shows { m with sessions := Function.update m.sessions id Option.none } :=
  ⟨h.eq ▸ manager_remove id s, h.owned.remove id⟩

/-- Nothing that is seen happens to a transport that no session has. -/
theorem onTransport_unused {t : Nat}
    (ht : ∀ id entry, s.sessions id = .some entry → entry.transport ≠ t)
    (f : Transport → Transport) (hf : ∀ transport, (f transport).backend = transport.backend) :
    (s.onTransport t f).Shows m := by
  refine ⟨?_, fun id entry hs => ?_, h.owned.own⟩
  · rw [← h.eq]
    simp only [manager, Shared.onTransport, SessionManager.mk.injEq, and_true]
    funext id
    cases hs : s.sessions id with
    | none => rfl
    | some entry =>
      simp only [Option.bind_some, List.getElem?_modify_ne _ _ (Ne.symm (ht id entry hs))]
  · rw [backend_onTransport hf]
    exact h.owned.made id entry hs

theorem removeKey (keyId : Option Text) : (s.removeKey keyId).Shows
    { m with
      ephemeralKeys := keyId.elim m.ephemeralKeys fun keyId =>
        Function.update m.ephemeralKeys keyId Option.none } := by
  obtain ⟨rfl, ho⟩ := h
  cases keyId <;> exact ⟨rfl, ho.made, ho.own⟩

theorem deleteRow (id : Text) :
    ({ s with db := s.db.filter (·.id.val ≠ id) } : Shared).Shows
      { m with db := m.db.filter (·.id.val ≠ id) } := by
  obtain ⟨rfl, ho⟩ := h
  exact ⟨rfl, ho.made, ho.own⟩

theorem listing {entry : CallEntry} {e : SessionEntry} (hs : s.sessions id = .some entry)
    (hm : m.sessions id = .some e) (env : Env) :
    s.listing env entry.transport = e.transport.listTmuxSessions env.listing := by
  rw [Shared.listing, (h.entry hs hm).2]
  rfl

theorem authenticate {entry : CallEntry} {e : SessionEntry} (hs : s.sessions id = .some entry)
    (hm : m.sessions id = .some e) (env : Env) : s.authenticate env entry.transport =
      e.transport.authenticate m.ephemeralKeys env.connect := by
  rw [Shared.authenticate, (h.entry hs hm).2, ← h.eq]
  rfl

end Shows

end Shared

namespace SessionManager
variable (id : Text) (m : SessionManager)

/-- The world's answers to the `connect` of a session, which looks its key up. -/
def reached (env : Env) : Env :=
  { env with
    connect := ((m.sessions id).map fun entry =>
      entry.transport.authenticate m.ephemeralKeys env.connect).getD env.connect }

@[simp] theorem setEntry_self (e : SessionEntry) : (m.setEntry id e).sessions id = some e := by
  simp [setEntry]

@[simp] theorem setEntry_setEntry (e e' : SessionEntry) :
    (m.setEntry id e).setEntry id e' = m.setEntry id e' := by
  simp [setEntry]

@[simp] theorem ephemeralKeys_setEntry (e : SessionEntry) :
    (m.setEntry id e).ephemeralKeys = m.ephemeralKeys := rfl

theorem updateSessionStatus_setEntry (ok : Bool) (id' : Text) (status : SessionStatus)
    (error : Option Text) (e : SessionEntry) :
    (m.setEntry id e).updateSessionStatus ok id' status error =
      (m.updateSessionStatus ok id' status error).setEntry id e := by
  cases ok <;> rfl

theorem insertRoutes_setEntry (tree : List TmuxSessionInfo) (e : SessionEntry) :
    (m.setEntry id e).insertRoutes id tree = (m.insertRoutes id tree).setEntry id e := rfl

end SessionManager

/-! ## Calls -/

namespace Call
open Shared

/-- The call goes from one state to the reply in another, and nobody else takes
a step. -/
inductive Alone (client : Nat) (env : Env) : Shared → Call → Shared → Reply → Prop
  | reply {s s' : Shared} {call : Call} {reply : Reply}
    (h : call.step client env s = (s', .inr reply)) : Alone client env s call s' reply
  | go {s s' s'' : Shared} {call call' : Call} {reply : Reply}
    (h : call.step client env s = (s', .inl call')) (h' : Alone client env s' call' s'' reply) :
    Alone client env s call s'' reply

/-- Alone, the call ends with this reply, in a state that stands for the manager. -/
def Does (client : Nat) (env : Env) (s : Shared) (call : Call) (m : SessionManager)
    (reply : Reply) : Prop :=
  ∃ s', Alone client env s call s' reply ∧ s'.Shows m

section
variable {client : Nat} {env : Env} {s s' : Shared} {id : Text} {m : SessionManager}
  {call call' : Call} {r : Reply}

theorem Does.reply (h : call.step client env s = (s', .inr r)) (hs : s'.Shows m) :
    Does client env s call m r := ⟨s', .reply h, hs⟩

theorem Does.go (h : call.step client env s = (s', .inl call'))
    (hs : Does client env s' call' m r) : Does client env s call m r := by
  obtain ⟨s'', ha, hs⟩ := hs
  exact ⟨s'', .go h ha, hs⟩

theorem find_some {entry : CallEntry} (h : s.sessions id = some entry) (next : Nat → Call) :
    find id next s = (s, .inl (next entry.transport)) := by
  simp [find, h]

theorem find_none (h : s.sessions id = none) (next : Nat → Call) :
    find id next s = (s, .inr (.error (SessionManager.notFound id))) := by
  simp [find, h]

theorem acquire_free {t : Nat} (h : s.holder t = none) (now next : Call) :
    acquire client t now next s = (s.locked client t, .inl next) := by
  simp [acquire, lock, locked, h]

theorem acquire_held {t : Nat} (h : s.holder t ≠ none) (now next : Call) :
    acquire client t now next s = (s, .inl now) := by
  simp [acquire, lock, h]

theorem does_get (h : s.Shows m) {entry : CallEntry} (hs : s.sessions id = some entry) :
    Does client env s (.get id) m (.ok [entry.metadata]) := by
  refine .reply ?_ h
  simp [step, hs]

def routes (id : Text) (panes : List Text) (s : Shared) : Shared :=
  panes.foldl (fun s pane => s.route pane id) s

theorem routes_eq (panes : List Text) (s : Shared) : routes id panes s =
    { s with paneToSession :=
        panes.foldl (fun r pane => Function.update r pane (some id)) s.paneToSession } := by
  induction panes generalizing s with
  | nil => rfl
  | cons pane panes ih => exact ih (s.route pane id)

theorem shows_routes (h : s.Shows m) (id : Text) (tree : List TmuxSessionInfo) :
    (routes id (paneIds tree) s).Shows (m.insertRoutes id tree) := by
  rw [routes_eq]
  exact ⟨h.eq ▸ rfl, h.owned.made, h.owned.own⟩

theorem does_connectRoute {panes : List Text} {tree : List TmuxSessionInfo}
    (h : Does client env (routes id panes s) (connectRoute id [] tree) m r) :
    Does client env s (connectRoute id panes tree) m r := by
  induction panes generalizing s with
  | nil => exact h
  | cons pane panes ih => exact .go rfl (ih h)

theorem does_refreshRoute {panes : List Text} {tree : List TmuxSessionInfo}
    (h : Does client env (routes id panes s) (refreshRoute id [] tree) m r) :
    Does client env s (refreshRoute id panes tree) m r := by
  induction panes generalizing s with
  | nil => exact h
  | cons pane panes ih => exact .go rfl (ih h)

/-- Nobody has the lock of the session's transport. -/
def Free (id : Text) (s : Shared) : Prop :=
  ∀ entry, s.sessions id = some entry → s.holder entry.transport = none

theorem modify_some {entry : CallEntry} (hs : s.sessions id = some entry)
    (f : ManagedSession → ManagedSession) :
    (s.modify id f).sessions id = some { entry with metadata := f entry.metadata } := by
  simp [Shared.modify, hs]

theorem refresh_does (h : s.Shows m) (hfree : Free id s) :
    Does client env s (.refresh id) (m.refreshTmuxState env id).1
      ((m.refreshTmuxState env id).2.map ([·])) := by
  cases hs : s.sessions id with
  | none =>
    simp only [SessionManager.refreshTmuxState, h.none hs]
    exact .reply (find_none hs _) h
  | some entry =>
    obtain ⟨transport, hm⟩ := h.some hs
    have h₁ := h.locked client entry.transport
    have hl : (s.locked client entry.transport).listing env entry.transport =
        transport.listTmuxSessions env.listing := h₁.listing hs hm env
    refine .go (find_some hs _) (.go (acquire_free (hfree entry hs) _ _) ?_)
    simp only [SessionManager.refreshTmuxState, hm]
    cases ht : transport.listTmuxSessions env.listing with
    | error e => exact .reply (by simp only [step, hl, ht]; rfl) h₁
    | ok tree =>
      have h₂ := shows_routes h₁ id tree
      have h₃ := h₂.modify hm (fun session => { session with tmuxSessions := tree })
        fun _ => rfl
      have hlist : (refreshList id entry.transport).step client env
          (s.locked client entry.transport) =
          (s.locked client entry.transport, .inl (refreshRoute id (paneIds tree) tree)) := by
        simp only [step, hl, ht]
      refine .go hlist (does_refreshRoute (.go rfl ?_))
      refine does_get h₃ (modify_some ?_ _)
      rw [routes_eq]
      exact hs

theorem updateSessionStatus_some {entry : CallEntry} (hs : s.sessions id = some entry) (ok : Bool)
    (id' : Text) (status : SessionStatus) (error : Option Text) :
    (s.updateSessionStatus ok id' status error).sessions id = some entry := by
  cases ok <;> exact hs

theorem disconnect_does (h : s.Shows m) (hfree : Free id s) :
    Does client env s (.disconnect id) (m.disconnect env id).1
      ((m.disconnect env id).2.map ([·])) := by
  have h₀ := h.prune id
  refine .go rfl ?_
  cases hs : (s.prune id).sessions id with
  | none =>
    simp only [SessionManager.disconnect, h₀.none hs]
    exact .reply (find_none hs _) h₀
  | some entry =>
    obtain ⟨transport, hm⟩ := h₀.some hs
    have h₁ := (h₀.locked client entry.transport).onTransport hs hm (·.disconnect) fun _ => rfl
    have h₂ := h₁.modify (SessionManager.setEntry_self ..)
      (fun session => { session with status := .disconnected, tmuxSessions := [] }) fun _ => rfl
    have h₃ := h₂.updateSessionStatus (env.dbWrite 0) id .disconnected none
    have hlock : (s.prune id).holder entry.transport = none := hfree entry hs
    refine .go (find_some hs _) (.go (acquire_free hlock _ _) (.go rfl (.go rfl (.go rfl ?_))))
    simp only [SessionManager.disconnect, hm]
    rw [SessionManager.setEntry_setEntry] at h₃
    have hs' : (((s.prune id).locked client entry.transport).onTransport entry.transport
      (·.disconnect)).sessions id = some entry := hs
    exact does_get h₃ (updateSessionStatus_some (modify_some hs' _) _ _ _ _)

theorem does_deleteRow (h : s.Shows m) (entry : CallEntry) :
    Does client env s (.deleteRow id entry)
      (if env.dbWrite 0 then { m with db := m.db.filter (·.id.val ≠ id) } else m)
      (if env.dbWrite 0 then .ok [entry.metadata]
        else .error "failed to delete session".toList) := by
  split
  · next hd => exact .reply (by simp only [step, if_pos hd]) (h.deleteRow id)
  · next hd => exact .reply (by simp only [step, if_neg hd]) h

theorem delete_does (h : s.Shows m) (hfree : Free id s) :
    Does client env s (.delete id) (m.delete env id).1 ((m.delete env id).2.map ([·])) := by
  have h₀ := h.prune id
  refine .go rfl ?_
  cases hs : (s.prune id).sessions id with
  | none =>
    simp only [SessionManager.delete, h₀.none hs]
    exact .reply (by simp only [step, hs]; rfl) h₀
  | some entry =>
    obtain ⟨transport, hm⟩ := h₀.some hs
    have h₁ := (h₀.remove id).locked client entry.transport
    have hunused : ∀ id' entry', ((s.prune id).remove id).sessions id' = some entry' →
        entry'.transport ≠ entry.transport := by
      intro id' entry' hs' ht
      by_cases he : id' = id
      · subst he
        simp [Shared.remove] at hs'
      · simp only [Shared.remove, Function.update_of_ne he] at hs'
        exact he (h₀.owned.own id' id entry' entry hs' hs ht)
    have h₂ := (h₁.onTransport_unused hunused (·.disconnect) fun _ => rfl).removeKey
      (SessionManager.uploadedKeyId entry.metadata)
    have hremove : (deleteRemove id).step client env (s.prune id) =
        ((s.prune id).remove id, .inl (deleteLock id entry)) := by
      simp only [step, hs]
    have hlock : ((s.prune id).remove id).holder entry.transport = none := hfree entry hs
    refine .go hremove (.go (acquire_free hlock _ _) (.go rfl (.go rfl ?_)))
    have hend : Does client env _ (.deleteRow id entry) _ _ := does_deleteRow h₂ entry
    simp only [SessionManager.delete, hm]
    generalize SessionManager.uploadedKeyId entry.metadata = keyId at hend ⊢
    cases keyId <;> cases hd : env.dbWrite 0 <;> rw [hd] at hend <;> exact hend

theorem does_loadRows (h : s.Shows m) (rows : List SessionRow) (sessions : List ManagedSession) :
    Does client env s (.loadRows rows sessions) (SessionManager.loadRows rows m).1
      ((SessionManager.loadRows rows m).2.map (sessions ++ ·)) := by
  induction rows generalizing s m sessions with
  | nil => exact .reply (by simp [step, SessionManager.loadRows, Except.map]) h
  | cons row rows ih =>
    rw [SessionManager.loadRows]
    cases hrow : rowToManagedSession row with
    | none => exact .reply (by simp only [step, hrow]; rfl) h
    | some metadata =>
      have hmap (first : ManagedSession) (r : Reply) :
          (r.map (first :: ·)).map (sessions ++ ·) = r.map ((sessions ++ [first]) ++ ·) := by
        cases r <;> simp [Except.map]
      simp only [hmap]
      cases hs : s.sessions metadata.id with
      | some entry =>
        obtain ⟨transport, hm⟩ := h.some hs
        have hrows : (Call.loadRows (row :: rows) sessions).step client env s =
            (s, .inl (loadGet metadata rows sessions)) := by
          simp [step, hrow, hs]
        have hget : (loadGet metadata rows sessions).step client env s =
            (s, .inl (.loadRows rows (sessions ++ [entry.metadata]))) := by
          simp [step, hs]
        simp only [SessionManager.loadRow, hm]
        exact .go hrows (.go hget (ih h _))
      | none =>
        have hm := h.none hs
        have hrows : (Call.loadRows (row :: rows) sessions).step client env s =
            (s, .inl (loadInsert metadata rows sessions)) := by
          simp [step, hrow, hs]
        have hget : (loadGet metadata rows sessions).step client env (s.insert metadata) =
            (s.insert metadata, .inl (.loadRows rows (sessions ++ [metadata]))) := by
          simp [step, Shared.insert]
        simp only [SessionManager.loadRow, hm]
        exact .go hrows (.go rfl (.go hget (ih (h.insert metadata) _)))

theorem load_does (h : s.Shows m) (userId : Text) :
    Does client env s (.load userId) (m.loadUserSessions env userId).1
      (m.loadUserSessions env userId).2 := by
  obtain ⟨rfl, ho⟩ := h
  unfold SessionManager.loadUserSessions
  split
  · next hr =>
    have hload : Does client env s (.loadRows (listSessionsForUser s.db userId) []) _ _ :=
      does_loadRows ⟨rfl, ho⟩ _ []
    have hid : ∀ r : Reply, r.map ([] ++ ·) = r := fun r => by cases r <;> rfl
    rw [hid] at hload
    exact .go (by simp only [step, if_pos hr]) hload
  · next hr => exact .reply (by simp only [step, if_neg hr]) ⟨rfl, ho⟩

theorem does_connectList {e : SessionEntry} (h : s.Shows (m.setEntry id e)) {entry : CallEntry}
    (hs : s.sessions id = some entry) {tree : List TmuxSessionInfo}
    (ht : (e.transport.listTmuxSessions env.listing).toOption.getD [] = tree) :
    Does client env s (.connectList id entry.transport)
      (((m.insertRoutes id tree).setEntry id { e with metadata :=
          { e.metadata with status := .connected, error := none, tmuxSessions := tree } })
        |>.updateSessionStatus (env.dbWrite 1) id .connected none)
      (.ok [{ e.metadata with status := .connected, error := none, tmuxSessions := tree }]) := by
  have hl := h.listing hs (SessionManager.setEntry_self ..) env
  have hlist : (connectList id entry.transport).step client env s =
      (s, .inl (connectRoute id (paneIds tree) tree)) := by
    simp only [step, hl, ht]
  have hmeta := (h.entry hs (SessionManager.setEntry_self ..)).1
  have h₁ := shows_routes h id tree
  rw [SessionManager.insertRoutes_setEntry] at h₁
  have h₂ := (h₁.modify (SessionManager.setEntry_self ..) (fun session =>
    { session with status := .connected, error := none, tmuxSessions := tree })
      fun _ => rfl).updateSessionStatus (env.dbWrite 1) id .connected none
  rw [SessionManager.setEntry_setEntry] at h₂
  have hs₁ : (routes id (paneIds tree) s).sessions id = some entry := by
    rw [routes_eq]
    exact hs
  rw [hmeta]
  rw [hmeta] at h₂
  exact .go hlist (does_connectRoute (.go rfl (.go rfl
    (does_get h₂ (updateSessionStatus_some (modify_some hs₁ _) _ _ _ _)))))

theorem updateSessionStatus_holder (ok : Bool) (id : Text) (status : SessionStatus)
    (error : Option Text) (s : Shared) (t : Nat) :
    (s.updateSessionStatus ok id status error).holder t = s.holder t := by
  cases ok <;> rfl

theorem connect_does (h : s.Shows m) (hfree : Free id s) :
    Does client env s (.connect id) (m.connect (m.reached id env) id).1
      ((m.connect (m.reached id env) id).2.map ([·])) := by
  cases hs : s.sessions id with
  | none =>
    simp only [SessionManager.connect, h.none hs]
    exact .reply (find_none hs _) h
  | some entry =>
    obtain ⟨transport, hm⟩ := h.some hs
    have h₁ := h.modify hm (fun session => { session with status := .connecting }) fun _ => rfl
    have hs₁ := modify_some hs fun session => { session with status := .connecting }
    have h₂ := h₁.updateSessionStatus (env.dbWrite 0) id .connecting none
    have hs₂ := updateSessionStatus_some hs₁ (env.dbWrite 0) id .connecting none
    rw [SessionManager.updateSessionStatus_setEntry] at h₂
    have hlock := updateSessionStatus_holder (env.dbWrite 0) id .connecting none
      (s.modify id fun session => { session with status := .connecting }) entry.transport
    have hkeys : (m.updateSessionStatus (env.dbWrite 0) id .connecting none).ephemeralKeys =
        m.ephemeralKeys := by cases env.dbWrite 0 <;> rfl
    have hreached : (m.reached id env).connect =
        transport.authenticate m.ephemeralKeys env.connect := by
      simp [SessionManager.reached, hm]
    have h₃ := h₂.locked client entry.transport
    have hlookup := h₃.authenticate hs₂ (SessionManager.setEntry_self ..) env
    rw [SessionManager.ephemeralKeys_setEntry, hkeys, ← hreached] at hlookup
    have h₄ := h₃.onTransport hs₂ (SessionManager.setEntry_self ..)
      (·.connect env.connection (m.reached id env).connect) fun _ => Transport.connect_backend ..
    rw [SessionManager.setEntry_setEntry] at h₄
    refine .go (find_some hs _) (.go rfl (.go rfl (.go (acquire_free (hlock.trans (hfree entry hs))
      _ _) (.go (by rw [step, hlookup]) ?_))))
    simp only [SessionManager.connect, hm]
    cases hc : (m.reached id env).connect with
    | none =>
      rw [hc] at h₄
      exact does_connectList h₄ hs₂ rfl
    | some failure =>
      rw [hc] at h₄
      have h₅ := (h₄.modify (SessionManager.setEntry_self ..) (fun session =>
        { session with status := .error, error := some failure.error.text })
          fun _ => rfl).updateSessionStatus (env.dbWrite 1) id .error (some failure.error.text)
      rw [SessionManager.setEntry_setEntry] at h₅
      exact .go rfl (.reply rfl h₅)

/-- A step takes no lock but for its own client, and gives none back. -/
theorem step_holder (client : Nat) (env : Env) (s : Shared) (call : Call) (t : Nat) :
    (call.step client env s).1.holder t = s.holder t ∨
      (call.step client env s).1.holder t = some client := by
  have hacquire (t' : Nat) (now next : Call) : (acquire client t' now next s).1.holder t =
      s.holder t ∨ (acquire client t' now next s).1.holder t = some client := by
    by_cases hfree : s.holder t' = none
    · rw [acquire_free hfree]
      by_cases ht : t = t'
      · subst ht
        exact .inr (Function.update_self ..)
      · exact .inl (Function.update_of_ne ht ..)
    · rw [acquire_held hfree]
      exact .inl rfl
  cases call with
  | connectLock | refreshLock | disconnectLock | deleteLock => exact hacquire ..
  | connect | refresh | disconnectFind => simp only [step, find_fst, true_or]
  | connectNote | connectStore | connectFailStore | disconnectStore =>
    exact .inl (updateSessionStatus_holder ..)
  | loadRows rows =>
    cases rows with
    | nil => exact .inl rfl
    | cons row rows =>
      simp only [step]
      split <;> exact .inl rfl
  | connectRoute id panes | refreshRoute id panes => cases panes <;> exact .inl rfl
  | deleteKey id entry =>
    simp only [step, Shared.removeKey]
    split <;> exact .inl rfl
  | load | refreshList | get | deleteRemove | deleteRow =>
    simp only [step]
    split <;> exact .inl rfl
  | _ => exact .inl rfl

/-- Where no client but this one has a lock, none has when the call has ended. -/
theorem Alone.release (h : Alone client env s call s' r)
    (hs : ∀ t, s.holder t = none ∨ s.holder t = some client) (t : Nat) :
    (s'.release client).holder t = none := by
  have hnext {s s' : Shared} {call : Call} {o : Call ⊕ Reply}
      (hs : ∀ t, s.holder t = none ∨ s.holder t = some client)
      (h : call.step client env s = (s', o)) (t : Nat) :
      s'.holder t = none ∨ s'.holder t = some client := by
    have hstep := call.step_holder client env s t
    rw [h] at hstep
    rcases hstep with he | he
    · exact he ▸ hs t
    · exact .inr he
  induction h with
  | reply h =>
    rcases hnext hs h t with he | he <;> simp [Shared.release, he]
  | go h _ ih => exact ih (hnext hs h)

end

end Call

/-! ## Requests -/

/-- The operation of the session manager that a request is for. -/
def Request.op (env : Env) (m : SessionManager) : Request → SessionManager × Reply
  | load userId | cleanup userId => m.loadUserSessions env userId
  | connect id =>
    ((m.connect (m.reached id env) id).1, (m.connect (m.reached id env) id).2.map ([·]))
  | refresh id => ((m.refreshTmuxState env id).1, (m.refreshTmuxState env id).2.map ([·]))
  | disconnect id => ((m.disconnect env id).1, (m.disconnect env id).2.map ([·]))
  | delete id => ((m.delete env id).1, (m.delete env id).2.map ([·]))

/-- The shared state stands for the manager, and no transport is locked. -/
structure Shared.Rests (s : Shared) (m : SessionManager) : Prop where
  shows : s.Shows m
  free : ∀ t, s.holder t = none

theorem Shared.rests_new (db : List SessionRow) : (Shared.new db).Rests (.new db) where
  shows := ⟨rfl, owned_new db⟩
  free _ := rfl

/-- **A request's call does what the operation does**, if nobody disturbs it. -/
theorem Request.does {s : Shared} {m : SessionManager} (h : s.Rests m) (client : Nat) (env : Env)
    (request : Request) :
    Call.Does client env s request.call (request.op env m).1 (request.op env m).2 := by
  have hfree (id : Text) : Call.Free id s := fun entry _ => h.free entry.transport
  cases request with
  | load userId | cleanup userId => exact Call.load_does h.shows userId
  | connect id => exact Call.connect_does h.shows (hfree id)
  | refresh id => exact Call.refresh_does h.shows (hfree id)
  | disconnect id => exact Call.disconnect_does h.shows (hfree id)
  | delete id => exact Call.delete_does h.shows (hfree id)

namespace Calls

/-- The picks of one client alone, up to the end of its call. -/
theorem run_alone {calls : Calls} {i : Nat} {env : Env} {c : Client} {request : Request}
    {call : Call} {s : Shared} {r : Reply} (hc : calls.locals[i]? = some c)
    (hcur : c.current = some (request, call)) (h : Call.Alone i env calls.shared call s r) :
    ∃ n, run step calls (List.replicate n (i, env)) =
      { shared := s.release i
        locals := calls.locals.set i
          { todo := request.next r ++ c.todo, current := none
            replies := c.replies ++ [(request, r)] } } := by
  obtain ⟨shared, locals⟩ := calls
  simp only at h hc
  induction h generalizing locals c with
  | reply h =>
    refine ⟨1, ?_⟩
    rw [List.replicate_one, run_cons, run_nil, step, Threads.step_some hc]
    simp only [Client.step, hcur, h]
  | @go s s' s'' call call' r h _ ih =>
    have hlt := (List.getElem?_eq_some_iff.mp hc).1
    have hstep : step { shared := s, locals } (i, env) =
        { shared := s', locals := locals.set i { c with current := some (request, call') } } := by
      rw [step, Threads.step_some hc]
      simp only [Client.step, hcur, h]
    obtain ⟨n, hn⟩ := ih (c := { c with current := some (request, call') }) rfl
      (locals.set i { c with current := some (request, call') })
      (by rw [List.getElem?_set_self hlt])
    refine ⟨n + 1, ?_⟩
    rw [List.replicate_succ, run_cons, hstep, hn, List.set_set]

/-- **A client that is served alone**: its next request leads from a state of the
manager to that behind the operation, with the operation's reply. -/
theorem request_alone {calls : Calls} {i : Nat} {c : Client} {request : Request}
    {todo : List Request} {m : SessionManager} (hc : calls.locals[i]? = some c)
    (hidle : c.current = none) (htodo : c.todo = request :: todo) (h : calls.shared.Rests m)
    (env : Env) :
    ∃ n, (run step calls (List.replicate n (i, env))).shared.Rests (request.op env m).1 ∧
      (run step calls (List.replicate n (i, env))).locals = calls.locals.set i
        { todo := request.next (request.op env m).2 ++ todo, current := none
          replies := c.replies ++ [(request, (request.op env m).2)] } := by
  obtain ⟨s', ha, hs'⟩ := request.does h i env
  have hlt := (List.getElem?_eq_some_iff.mp hc).1
  have hstart : step calls (i, env) =
      { calls with
        locals :=
          calls.locals.set i { c with todo, current := some (request, request.call) } } := by
    rw [step, Threads.step_some hc]
    simp only [Client.step, hidle, htodo]
  have hc' : (step calls (i, env)).locals[i]? =
      some { c with todo, current := some (request, request.call) } := by
    rw [hstart, List.getElem?_set_self hlt]
  obtain ⟨n, hn⟩ := run_alone hc' rfl (by rwa [hstart])
  refine ⟨n + 1, ?_⟩
  rw [List.replicate_succ, run_cons, hn]
  refine ⟨⟨⟨hs'.eq, hs'.owned.made, hs'.owned.own⟩, ha.release fun t => .inl (h.free t)⟩, ?_⟩
  rw [hstart, List.set_set]

end Calls

end Oxmux.Session
