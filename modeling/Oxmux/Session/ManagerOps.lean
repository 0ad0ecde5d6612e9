import Mathlib.Logic.Relation
import Oxmux.Session.Manager

/-! What an operation of `SessionManager` can do to its two maps in memory: put
an entry, take a session's routes away, or list a session's panes. Every
invariant of the maps is proved from these three. -/

namespace Oxmux.Session
open Oxmux.Lib

/-- The entry of a session that comes from its row. -/
def SessionEntry.ofMetadata (metadata : ManagedSession) : SessionEntry where
  metadata
  transport := .new metadata.transport.backend metadata.name

inductive Op where
  | create (env : Env) (userId : Text) (req : CreateSessionRequest)
  | load (env : Env) (userId : Text)
  | update (env : Env) (id : Text) (req : UpdateSessionRequest)
  | delete (env : Env) (id : Text)
  | connect (env : Env) (id : Text)
  | disconnect (env : Env) (id : Text)
  | refresh (env : Env) (id : Text)
  | execute (cmd : Command)
  | uploadKey (keyId : Uuid) (key : Text) (passphrase : Option Text)

namespace SessionManager

def apply (m : SessionManager) : Op → SessionManager
  | .create env userId req => (m.create env userId req).1
  | .load env userId => (m.loadUserSessions env userId).1
  | .update env id req => (m.update env id req).1
  | .delete env id => (m.delete env id).1
  | .connect env id => (m.connect env id).1
  | .disconnect env id => (m.disconnect env id).1
  | .refresh env id => (m.refreshTmuxState env id).1
  | .execute cmd => (m.executeOnPane cmd).1
  | .uploadKey keyId key passphrase => m.insertEphemeralKey keyId key passphrase

/-- The tree that an operation lists, with the session it lists it for. -/
def listed (m : SessionManager) : Op → Option (Text × List TmuxSessionInfo)
  | .connect env id =>
    match m.sessions id, env.connect with
    | some entry, none =>
      some (id, ((entry.transport.connect env.connection none).listTmuxSessions
        env.listing).toOption.getD [])
    | _, _ => none
  | .refresh env id =>
    (m.sessions id).bind fun entry =>
      (entry.transport.listTmuxSessions env.listing).toOption.map fun tree => (id, tree)
  | _ => none

/-- One change of the maps that lists no panes. -/
inductive Change (m m' : SessionManager) : Prop
  | same (hs : m'.sessions = m.sessions) (hr : m'.paneToSession = m.paneToSession)
  | set (id : Text) (entry : SessionEntry) (known : (m.sessions id).isSome ∨ IsUuid id)
      (kept : entry.metadata.status = .connected → ∃ old, m.sessions id = some old ∧
        old.metadata.status = .connected ∧
        entry.metadata.tmuxSessions = old.metadata.tmuxSessions ∧
        (old.transport.Live → entry.transport.Live))
      (hs : m'.sessions = Function.update m.sessions id (some entry))
      (hr : m'.paneToSession = m.paneToSession)
  | leave (id : Text) (hr : m'.paneToSession = (m.removeRoutes id).paneToSession)
      (hs : ∀ id', id' ≠ id → m'.sessions id' = m.sessions id')
      (gone : ∀ entry, m'.sessions id = some entry →
        (m.sessions id).isSome ∧ entry.metadata.status ≠ .connected)

/-- Listing the panes of a known session, which is live if it is connected. -/
structure Listing (m m' : SessionManager) (id : Text) (tree : List TmuxSessionInfo) : Prop where
  known : (m.sessions id).isSome
  routes : m'.paneToSession = (m.insertRoutes id tree).paneToSession
  sessions : ∃ entry, m'.sessions = Function.update m.sessions id (some entry) ∧
    entry.metadata.tmuxSessions = tree ∧
    (entry.metadata.status = .connected → entry.transport.Live ∨ ∃ old,
      m.sessions id = some old ∧ old.metadata.status = .connected ∧
      entry.transport = old.transport)

@[simp] theorem updateSessionStatus_sessions (ok : Bool) (id : Text) (status : SessionStatus)
    (error : Option Text) (m : SessionManager) :
    (m.updateSessionStatus ok id status error).sessions = m.sessions := by
  unfold updateSessionStatus
  split <;> rfl

@[simp] theorem updateSessionStatus_paneToSession (ok : Bool) (id : Text) (status : SessionStatus)
    (error : Option Text) (m : SessionManager) :
    (m.updateSessionStatus ok id status error).paneToSession = m.paneToSession := by
  unfold updateSessionStatus
  split <;> rfl

/-! ## What each operation does -/

open Relation

theorem Change.of_eq {m m' m'' : SessionManager} (h : Change m m') (hs : m''.sessions = m'.sessions)
    (hr : m''.paneToSession = m'.paneToSession) : Change m m'' := by
  cases h with
  | same hs' hr' => exact .same (hs.trans hs') (hr.trans hr')
  | set id entry known kept hs' hr' => exact .set id entry known kept (hs.trans hs') (hr.trans hr')
  | leave id hr' hs' gone =>
    exact .leave id (hr.trans hr') (fun id' h => by rw [hs, hs' id' h])
      fun entry h => gone entry (hs ▸ h)

theorem change_create (env : Env) (userId : Text) (req : CreateSessionRequest)
    (m : SessionManager) : Change m (m.create env userId req).1 := by
  unfold create
  simp only
  split
  · exact .set env.uuid.val _ (.inr env.uuid.property) (by intro h; cases h) rfl rfl
  · exact .same rfl rfl

/-- A row that is read is not connected. -/
theorem rowToManagedSession_spec {row : SessionRow} {metadata : ManagedSession}
    (h : rowToManagedSession row = some metadata) :
    metadata.id = row.id.val ∧ metadata.status ≠ .connected := by
  unfold rowToManagedSession at h
  obtain ⟨transport, -, rfl⟩ := Option.map_eq_some_iff.mp h
  refine ⟨rfl, ?_⟩
  simp only
  split_ifs <;> simp

theorem rowToManagedSession_tree {row : SessionRow} {metadata : ManagedSession}
    (h : rowToManagedSession row = some metadata) : metadata.tmuxSessions = [] := by
  unfold rowToManagedSession at h
  obtain ⟨transport, -, rfl⟩ := Option.map_eq_some_iff.mp h
  rfl

theorem change_loadRow {row : SessionRow} {metadata : ManagedSession}
    (h : rowToManagedSession row = some metadata) (m : SessionManager) :
    Change m (loadRow metadata m).1 := by
  obtain ⟨hid, hstatus⟩ := rowToManagedSession_spec h
  unfold loadRow
  split
  · exact .same rfl rfl
  · exact .set metadata.id _ (.inr (hid ▸ row.id.property)) (fun hc => absurd hc hstatus) rfl rfl

theorem changes_loadRows (rows : List SessionRow) (m : SessionManager) :
    ReflTransGen Change m (loadRows rows m).1 := by
  induction rows generalizing m with
  | nil => exact .refl
  | cons row rows ih =>
    unfold loadRows
    cases h : rowToManagedSession row with
    | none => exact .refl
    | some metadata => exact .head (change_loadRow h m) (ih _)

theorem changes_loadUserSessions (env : Env) (userId : Text) (m : SessionManager) :
    ReflTransGen Change m (m.loadUserSessions env userId).1 := by
  unfold loadUserSessions
  split
  · exact changes_loadRows _ m
  · exact .refl

theorem change_update (env : Env) (id : Text) (req : UpdateSessionRequest) (m : SessionManager) :
    Change m (m.update env id req).1 := by
  unfold update
  cases h : m.sessions id with
  | none => exact .same rfl rfl
  | some entry =>
    cases req.name with
    | none => exact .same rfl rfl
    | some name =>
      have hc : Change m (m.setEntry id { entry with metadata := { entry.metadata with name } }) :=
        .set id { entry with metadata := { entry.metadata with name } } (.inl (by simp [h]))
          (fun hc => ⟨entry, h, hc, rfl, fun hl => hl⟩) rfl rfl
      simp only
      split <;> exact hc.of_eq rfl rfl

theorem change_removeRoutes {id : Text} {m : SessionManager} (h : m.sessions id = none) :
    Change m (m.removeRoutes id) := by
  have h' : (m.removeRoutes id).sessions id = none := h
  exact .leave id rfl (fun _ _ => rfl) fun entry he => by simp [h'] at he

theorem change_delete (env : Env) (id : Text) (m : SessionManager) :
    Change m (m.delete env id).1 := by
  have hgone : ∀ m' : SessionManager, m'.paneToSession = (m.removeRoutes id).paneToSession →
      m'.sessions = Function.update m.sessions id none → Change m m' := by
    intro m' hr hs
    refine .leave id hr (fun id' h => by simp [hs, h]) fun entry h => ?_
    simp [hs] at h
  unfold delete
  cases h : m.sessions id with
  | none =>
    have h' : (m.removeRoutes id).sessions id = none := h
    simp only [h']
    exact change_removeRoutes h
  | some entry =>
    have h' : (m.removeRoutes id).sessions id = some entry := h
    simp only [h']
    split <;> exact hgone _ rfl rfl

theorem change_disconnect (env : Env) (id : Text) (m : SessionManager) :
    Change m (m.disconnect env id).1 := by
  unfold disconnect
  cases h : m.sessions id with
  | none =>
    have h' : (m.removeRoutes id).sessions id = none := h
    simp only [h']
    exact change_removeRoutes h
  | some entry =>
    have h' : (m.removeRoutes id).sessions id = some entry := h
    simp only [h']
    refine .leave id (by simp [setEntry]) (fun id' hne => ?_) fun entry' he => ⟨by simp [h], ?_⟩
    · simp [setEntry, removeRoutes, hne]
    · simp only [updateSessionStatus_sessions, setEntry, Function.update_self,
        Option.some.injEq] at he
      subst he
      simp

theorem change_connect {env : Env} {id : Text} {m : SessionManager}
    (h : m.listed (.connect env id) = none) : Change m (m.connect env id).1 := by
  cases hs : m.sessions id with
  | none =>
    simp only [connect, hs]
    exact .same rfl rfl
  | some entry =>
    cases hc : env.connect with
    | none => simp [listed, hs, hc] at h
    | some failure =>
      simp only [connect, hs, hc]
      refine .set id _ (.inl (by simp [hs])) ?_
        (by simp only [updateSessionStatus_sessions, setEntry]; rfl) (by simp [setEntry])
      intro hstatus
      simp at hstatus

theorem change_refreshTmuxState {env : Env} {id : Text} {m : SessionManager}
    (h : m.listed (.refresh env id) = none) : Change m (m.refreshTmuxState env id).1 := by
  cases hs : m.sessions id with
  | none =>
    simp only [refreshTmuxState, hs]
    exact .same rfl rfl
  | some entry =>
    cases hl : entry.transport.listTmuxSessions env.listing with
    | error e =>
      simp only [refreshTmuxState, hs, hl]
      exact .same rfl rfl
    | ok tree => simp [listed, hs, hl, Except.toOption] at h

theorem change_executeOnPane (cmd : Command) (m : SessionManager) :
    Change m (m.executeOnPane cmd).1 := by
  unfold executeOnPane
  cases hr : m.paneToSession (commandPane cmd) with
  | none => exact .same rfl rfl
  | some id =>
    cases hs : m.sessions id with
    | none =>
      simp only [hs]
      exact .same rfl rfl
    | some entry =>
      cases he : entry.transport.execute cmd with
      | error e =>
        simp only [hs, he]
        exact .same rfl rfl
      | ok transport =>
        simp only [hs, he]
        refine .set id { entry with transport } (.inl (by simp [hs]))
          (fun hc => ⟨entry, hs, hc, rfl, fun hl => ?_⟩) rfl rfl
        rw [Transport.execute_ok he]
        exact (Transport.live_executed _ _).mpr hl

/-- **An operation that lists no panes** changes the maps in the ways of
`Change`. -/
theorem changes_apply {m : SessionManager} {op : Op} (h : m.listed op = none) :
    ReflTransGen Change m (m.apply op) := by
  cases op with
  | create env userId req => exact .single (change_create env userId req m)
  | load env userId => exact changes_loadUserSessions env userId m
  | update env id req => exact .single (change_update env id req m)
  | delete env id => exact .single (change_delete env id m)
  | connect env id => exact .single (change_connect h)
  | disconnect env id => exact .single (change_disconnect env id m)
  | refresh env id => exact .single (change_refreshTmuxState h)
  | execute cmd => exact .single (change_executeOnPane cmd m)
  | uploadKey keyId key passphrase => exact .single (.same rfl rfl)

/-- **An operation that lists a session's panes** routes them to it. -/
theorem listing_apply {m : SessionManager} {op : Op} {id : Text} {tree : List TmuxSessionInfo}
    (h : m.listed op = some (id, tree)) : Listing m (m.apply op) id tree := by
  cases op with
  | connect env id' =>
    cases hs : m.sessions id' with
    | none => simp [listed, hs] at h
    | some entry =>
      cases hc : env.connect with
      | some failure => simp [listed, hs, hc] at h
      | none =>
        simp only [listed, hs, hc, Option.some.injEq, Prod.mk.injEq] at h
        obtain ⟨rfl, rfl⟩ := h
        have hlive := Transport.live_connect env.connection entry.transport
        simp only [apply, connect, hs, hc]
        refine ⟨by simp [hs], by simp [setEntry, insertRoutes], _,
          by simp only [updateSessionStatus_sessions, setEntry, insertRoutes]; rfl, rfl,
          fun _ => .inl hlive⟩
  | refresh env id' =>
    cases hs : m.sessions id' with
    | none => simp [listed, hs] at h
    | some entry =>
      cases hl : entry.transport.listTmuxSessions env.listing with
      | error e => simp [listed, hs, hl, Except.toOption] at h
      | ok tree' =>
        simp only [listed, hs, hl, Option.bind_some, Except.toOption, Option.map_some,
          Option.some.injEq, Prod.mk.injEq] at h
        obtain ⟨rfl, rfl⟩ := h
        simp only [apply, refreshTmuxState, hs, hl]
        exact ⟨by simp [hs], rfl, _, rfl, rfl, fun hc => .inr ⟨entry, hs, hc, rfl⟩⟩
  | _ => cases h

/-! ## The invariant of the maps -/

/-- Sessions are named by uuids, routes lead to sessions that are in memory,
and the transport of a connected session reaches its tmux. -/
structure Sound (m : SessionManager) : Prop where
  uuid : ∀ id, (m.sessions id).isSome → IsUuid id
  routed : ∀ pane id, m.paneToSession pane = some id → (m.sessions id).isSome
  live : ∀ id entry, m.sessions id = some entry → entry.metadata.status = .connected →
    entry.transport.Live

theorem sound_new (db : List SessionRow) : (new db).Sound :=
  ⟨by simp [new], by simp [new], by simp [new]⟩

theorem isSome_update (m : SessionManager) (id id' : Text) (entry : SessionEntry) :
    (Function.update m.sessions id (some entry) id').isSome ↔
      id' = id ∨ (m.sessions id').isSome := by
  by_cases h : id' = id
  · simp [h]
  · simp [h]

theorem insertRoutes_paneToSession (id : Text) (tree : List TmuxSessionInfo) (m : SessionManager)
    (pane : Text) :
    (m.insertRoutes id tree).paneToSession pane =
      if pane ∈ paneIds tree then some id else m.paneToSession pane := by
  have h : ∀ (panes : List Text) (r : Text → Option Text),
      panes.foldl (fun r p => Function.update r p (some id)) r pane =
        if pane ∈ panes then some id else r pane := by
    intro panes
    induction panes with
    | nil => simp
    | cons p panes ih =>
      intro r
      rw [List.foldl_cons, ih]
      by_cases hm : pane ∈ panes
      · simp [hm]
      · by_cases hp : pane = p
        · simp [hp]
        · simp [hm, hp]
  exact h _ _

theorem Sound.change {m m' : SessionManager} (h : m.Sound) (hc : Change m m') : m'.Sound := by
  cases hc with
  | same hs hr => exact ⟨by rw [hs]; exact h.uuid, by rw [hs, hr]; exact h.routed,
      by rw [hs]; exact h.live⟩
  | set id entry known kept hs hr =>
    refine ⟨fun id' h' => ?_, fun pane id' h' => ?_, fun id' entry' h' hc => ?_⟩
    · rw [hs, isSome_update] at h'
      rcases h' with rfl | h'
      · exact known.elim (h.uuid id') fun h => h
      · exact h.uuid id' h'
    · rw [hr] at h'
      rw [hs, isSome_update]
      exact .inr (h.routed pane id' h')
    · rw [hs] at h'
      by_cases he : id' = id
      · subst he
        rw [Function.update_self, Option.some.injEq] at h'
        subst h'
        obtain ⟨old, hold, hoc, -, hl⟩ := kept hc
        exact hl (h.live id' old hold hoc)
      · rw [Function.update_of_ne he] at h'
        exact h.live id' entry' h' hc
  | leave id hr hs gone =>
    refine ⟨fun id' h' => ?_, fun pane id' h' => ?_, fun id' entry' h' hc => ?_⟩
    · by_cases he : id' = id
      · subst he
        obtain ⟨entry, he⟩ := Option.isSome_iff_exists.mp h'
        exact h.uuid id' (gone entry he).1
      · exact h.uuid id' (hs id' he ▸ h')
    · rw [hr, removeRoutes] at h'
      simp only [Option.filter_eq_some_iff, decide_eq_true_eq] at h'
      rw [hs id' h'.2]
      exact h.routed pane id' h'.1
    · by_cases he : id' = id
      · subst he
        exact absurd hc (gone entry' h').2
      · exact h.live id' entry' (hs id' he ▸ h') hc

theorem Sound.listing {m m' : SessionManager} {id : Text} {tree : List TmuxSessionInfo}
    (h : m.Sound) (hl : Listing m m' id tree) : m'.Sound := by
  obtain ⟨entry, hs, -, hlive⟩ := hl.sessions
  refine ⟨fun id' h' => ?_, fun pane id' h' => ?_, fun id' entry' h' hc => ?_⟩
  · rw [hs, isSome_update] at h'
    rcases h' with rfl | h'
    · exact h.uuid id' hl.known
    · exact h.uuid id' h'
  · rw [hs, isSome_update]
    rw [hl.routes, insertRoutes_paneToSession] at h'
    split at h'
    · exact .inl (Option.some.inj h').symm
    · exact .inr (h.routed pane id' h')
  · rw [hs] at h'
    by_cases he : id' = id
    · subst he
      rw [Function.update_self, Option.some.injEq] at h'
      subst h'
      rcases hlive hc with hl | ⟨old, hold, hoc, ht⟩
      · exact hl
      · exact ht ▸ h.live id' old hold hoc
    · rw [Function.update_of_ne he] at h'
      exact h.live id' entry' h' hc

/-- What every change keeps, an operation that lists nothing keeps. -/
theorem apply_of_change {P : SessionManager → Prop} (hP : ∀ {m m'}, P m → Change m m' → P m')
    {m : SessionManager} {op : Op} (h : P m) (hl : m.listed op = none) : P (m.apply op) := by
  have hs := changes_apply hl
  generalize m.apply op = m' at hs
  induction hs with
  | refl => exact h
  | tail _ hc ih => exact hP ih hc

/-- **Every operation keeps the invariant.** -/
theorem Sound.apply {m : SessionManager} (h : m.Sound) (op : Op) : (m.apply op).Sound := by
  cases hl : m.listed op with
  | none => exact apply_of_change Sound.change h hl
  | some l => exact h.listing (listing_apply hl)

end SessionManager

end Oxmux.Session
