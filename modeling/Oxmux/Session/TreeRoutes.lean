import Oxmux.Session.FailedConnect

/-! The routes of a session next to its tree. A listing replaces the tree and
adds the routes of its panes; only a disconnect takes routes away. -/

namespace Oxmux.Session
open Oxmux.Lib Oxmux.Lib.Runs

/-- An operation on the one session there is. -/
inductive SessionOp where
  | connect (env : Env)
  | refresh (env : Env)
  | disconnect (env : Env)

def SessionOp.on (id : Text) : SessionOp → Op
  | connect env => .connect env id
  | refresh env => .refresh env id
  | disconnect env => .disconnect env id

namespace SessionManager

/-- The one session of a server: it was created, or loaded after a start. -/
inductive Single : SessionManager → Text → Prop
  | created (db : List SessionRow) (env : Env) (userId : Text) (req : CreateSessionRequest)
      (metadata : ManagedSession) (h : ((new db).create env userId req).2 = .ok metadata) :
      Single ((new db).create env userId req).1 metadata.id
  | loaded (db : List SessionRow) (env : Env) (userId : Text) (metadata : ManagedSession)
      (h : ((new db).loadUserSessions env userId).2 = .ok [metadata]) :
      Single ((new db).loadUserSessions env userId).1 metadata.id

/-- The routes to the session are those of the panes of its tree. -/
def Follows (id : Text) (m : SessionManager) : Prop :=
  ∀ entry, m.sessions id = some entry →
    ∀ pane, m.paneToSession pane = some id ↔ pane ∈ paneIds entry.metadata.tmuxSessions

/-- If the operation lists the session, no pane of its tree is gone. -/
def KeepsPanes (id : Text) (m : SessionManager) (o : SessionOp) : Prop :=
  ∀ entry tree, m.sessions id = some entry → m.listed (o.on id) = some (id, tree) →
    paneIds entry.metadata.tmuxSessions ⊆ paneIds tree

section Operation
variable {m : SessionManager} {id : Text} {entry : SessionEntry} {o : SessionOp}

/-- A listing adds the new panes to the old ones. -/
theorem follows_listing_iff (h : m.Follows id) (hs : m.sessions id = some entry)
    {tree : List TmuxSessionInfo} (hl : m.listed (o.on id) = some (id, tree)) :
    (m.apply (o.on id)).Follows id ↔ paneIds entry.metadata.tmuxSessions ⊆ paneIds tree := by
  obtain ⟨-, hroutes, new, hsessions, htree, -⟩ := listing_apply hl
  have hnew : (m.apply (o.on id)).sessions id = some new := by
    rw [hsessions, Function.update_self]
  have hroute : ∀ pane, (m.apply (o.on id)).paneToSession pane = some id ↔
      pane ∈ paneIds tree ∨ pane ∈ paneIds entry.metadata.tmuxSessions := by
    intro pane
    rw [hroutes, insertRoutes_paneToSession]
    split
    · next hmem => simp [hmem]
    · next hmem => rw [h entry hs pane]; simp [hmem]
  constructor
  · intro h' pane hp
    rw [← htree, ← h' new hnew pane, hroute]
    exact .inr hp
  · intro hsub entry' hs' pane
    obtain rfl := Option.some.inj (hnew.symm.trans hs')
    rw [hroute, htree]
    exact ⟨fun hp => hp.elim (fun hp => hp) fun hp => hsub hp, .inl⟩

/-- An operation that lists nothing leaves routes and tree alone, or empties both. -/
theorem follows_unlisted (h : m.Follows id) (hs : m.sessions id = some entry)
    (hl : m.listed (o.on id) = none) : (m.apply (o.on id)).Follows id := by
  cases o with
  | connect env =>
    cases hc : env.connect with
    | none => simp [SessionOp.on, listed, hs, hc] at hl
    | some failure =>
      intro entry' hs' pane
      change (m.connect env id).1.sessions id = some entry' at hs'
      rw [sessions_failed hs hc, Option.some.injEq] at hs'
      subst hs'
      change (m.connect env id).1.paneToSession pane = some id ↔ _
      rw [paneToSession_failed hs hc]
      exact h entry hs pane
  | refresh env =>
    cases ht : entry.transport.listTmuxSessions env.listing with
    | ok tree => simp [SessionOp.on, listed, hs, ht, Except.toOption] at hl
    | error e =>
      have hm : (m.refreshTmuxState env id).1 = m := by simp only [refreshTmuxState, hs, ht]
      change (m.refreshTmuxState env id).1.Follows id
      rwa [hm]
  | disconnect env =>
    have hs' : (m.removeRoutes id).sessions id = some entry := hs
    intro new hnew pane
    simp only [SessionOp.on, apply, disconnect, hs', updateSessionStatus_sessions, setEntry,
      Function.update_self, Option.some.injEq] at hnew
    subst hnew
    refine iff_of_false (fun hp => ?_) (by simp [paneIds])
    have hp' : (m.removeRoutes id).paneToSession pane = some id := by
      simpa [SessionOp.on, apply, disconnect, hs', setEntry] using hp
    exact ne_of_removeRoutes hp' rfl

/-- The session that an operation lists is its own. -/
theorem listed_on {l : Text × List TmuxSessionInfo} (hl : m.listed (o.on id) = some l) :
    l.1 = id := by
  cases o with
  | connect env =>
    simp only [SessionOp.on, listed] at hl
    split at hl
    · rw [← Option.some.inj hl]
    · cases hl
  | refresh env =>
    simp only [SessionOp.on, listed, Option.bind_eq_some_iff, Option.map_eq_some_iff] at hl
    obtain ⟨-, -, -, -, rfl⟩ := hl
    rfl
  | disconnect env => cases hl

/-- **What an operation must meet.** -/
theorem follows_apply_iff (h : m.Follows id) (hs : m.sessions id = some entry) (o : SessionOp) :
    (m.apply (o.on id)).Follows id ↔ m.KeepsPanes id o := by
  cases hl : m.listed (o.on id) with
  | none =>
    refine iff_of_true (follows_unlisted h hs hl) fun _ _ _ hl' => ?_
    rw [hl] at hl'
    cases hl'
  | some l =>
    obtain ⟨id', tree⟩ := l
    obtain rfl : id' = id := listed_on hl
    rw [follows_listing_iff h hs hl]
    constructor
    · intro hsub entry' tree' hs' hl'
      obtain rfl := Option.some.inj (hs.symm.trans hs')
      cases hl.symm.trans hl'
      exact hsub
    · intro hk
      exact hk entry tree hs hl

theorem isSome_apply (hs : (m.sessions id).isSome) (o : SessionOp) :
    ((m.apply (o.on id)).sessions id).isSome := by
  have hb : (m.apply (o.on id)).books = m.books := by
    cases o with
    | connect env => exact books_connect env id m
    | refresh env => exact books_refreshTmuxState env id m
    | disconnect env => exact books_disconnect env id m
  have hid := congrArg (fun b => (b.memory id).isSome) hb
  simp only [books, Option.isSome_map] at hid
  rw [hid]
  exact hs

/-- Only what is read counts: a list of one session comes from one row. -/
theorem length_loadRows {rows : List SessionRow} {m : SessionManager}
    {sessions : List ManagedSession} (h : (loadRows rows m).2 = .ok sessions) :
    sessions.length = rows.length := by
  induction rows generalizing m sessions with
  | nil =>
    cases h
    rfl
  | cons row rows ih =>
    unfold loadRows at h
    cases hrow : rowToManagedSession row with
    | none =>
      rw [hrow] at h
      cases h
    | some metadata =>
      simp only [hrow] at h
      cases hrest : (loadRows rows (loadRow metadata m).1).2 with
      | error e =>
        rw [hrest] at h
        cases h
      | ok rest =>
        rw [hrest] at h
        cases h
        simp [ih hrest]

/-- A session without a tree, to which nothing leads. -/
theorem follows_of_empty (hs : m.sessions id = some entry)
    (ht : entry.metadata.tmuxSessions = []) (hr : m.paneToSession = fun _ => none) :
    (m.sessions id).isSome ∧ m.Follows id := by
  refine ⟨by simp [hs], fun entry' hs' pane => ?_⟩
  obtain rfl := Option.some.inj (hs.symm.trans hs')
  simp [hr, ht, paneIds]

theorem Single.follows (h : Single m id) : (m.sessions id).isSome ∧ m.Follows id := by
  cases h with
  | created db env userId req metadata h =>
    unfold create at h ⊢
    simp only at h ⊢
    split at h
    · next hc =>
      obtain rfl := Except.ok.inj h
      rw [if_pos hc]
      refine follows_of_empty (Function.update_self _ _ _) rfl rfl
    · cases h
  | loaded db env userId metadata h =>
    unfold loadUserSessions at h ⊢
    split at h
    · next hread =>
      rw [if_pos hread]
      have hlen := length_loadRows h
      obtain ⟨row, hrows⟩ := List.length_eq_one_iff.mp hlen.symm
      rw [hrows] at h ⊢
      cases hrow : rowToManagedSession row with
      | none =>
        rw [loadRows, hrow] at h
        cases h
      | some metadata' =>
        have hnone : (new db).sessions metadata'.id = none := rfl
        simp only [loadRows, hrow, loadRow, hnone] at h ⊢
        obtain rfl : metadata' = metadata := List.head_eq_of_cons_eq (Except.ok.inj h)
        exact follows_of_empty (Function.update_self _ _ _) (rowToManagedSession_tree hrow) rfl
    · cases h

end Operation

/-- **When routes follow the tree**: in every state of a run on one session,
exactly if no listing lacks a pane of the tree before it. -/
theorem follows_iff_keepsPanes {m : SessionManager} {id : Text} (hm : Single m id)
    (os : List SessionOp) :
    Always (fun m o => m.apply (SessionOp.on id o)) (Follows id) m os ↔
      EachStep (fun m o => m.apply (SessionOp.on id o)) (KeepsPanes id) m os := by
  obtain ⟨hs, hf⟩ := hm.follows
  refine always_iff_eachStep (I := fun m => (m.sessions id).isSome) hf hs ?_
    (fun m o hs _ _ => isSome_apply hs o) os
  intro m o hs hf
  obtain ⟨entry, hentry⟩ := Option.isSome_iff_exists.mp hs
  exact follows_apply_iff hf hentry o

/-! ## A pane that is closed -/

def sampleLocal : CreateSessionRequest where
  name := ['s']
  transport := { browser := .websocket, backend := .local }

def sampleSingle : SessionManager := ((new []).create (.working uuidA []) ['u'] sampleLocal).1

theorem single_sampleSingle : Single sampleSingle uuidA.val :=
  .created [] (.working uuidA []) ['u'] sampleLocal
    { id := uuidA.val, name := ['s'], transport := sampleLocal.transport, status := .created
      error := none, tmuxSessions := [] } rfl

/-- The session is connected and listed; a second pane comes in. -/
theorem follows_iff_keepsPanes_sample :
    Always (fun m o => m.apply (SessionOp.on uuidA.val o)) (Follows uuidA.val) sampleSingle
      [.connect (.working uuidA [.single "%0".toList]),
        .refresh (.working uuidA [.single "%0".toList, .single "%1".toList])] := by
  refine (follows_iff_keepsPanes single_sampleSingle _).mpr ⟨?_, ?_, trivial⟩
  · intro entry tree hs hl
    cases hs
    simp [paneIds]
  · intro entry tree hs hl
    cases hs
    cases hl
    decide

/-- The pane is closed and another one opened; input for the old one still goes
to the session. -/
theorem closed_pane_keeps_route : ¬ ∀ m id, Single m id → ∀ os,
    Always (fun m o => m.apply (SessionOp.on id o)) (Follows id) m os := by
  intro h
  have hlast := (h _ _ single_sampleSingle [.connect (.working uuidA [.single "%0".toList]),
    .refresh (.working uuidA [.single "%1".toList])]).last
  have hpane := (hlast _ rfl "%0".toList).mp rfl
  exact absurd hpane (by decide)

end SessionManager

end Oxmux.Session
