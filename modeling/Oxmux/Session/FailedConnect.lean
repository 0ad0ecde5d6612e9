import Oxmux.Session.Carried

/-! What a connect over SSH leaves behind when it fails. The manager notes the
error and returns; whatever the session had before, and whatever the failed
attempt has stored, stays where it is. -/

namespace Oxmux.Session
open Oxmux.Lib Oxmux.Lib.Runs

/-- The step comes behind the opening of the control channel. -/
def ConnectStep.Late (step : ConnectStep) : Prop := step = .requestPty ∨ step = .attach

instance : DecidablePred ConnectStep.Late := fun _ => inferInstanceAs (Decidable (_ ∨ _))

namespace SessionManager

/-- Nothing leads to the session's tmux, and nothing is left of a connection. A
reader task that is not held is aborted or was never spawned. -/
structure Down (m : SessionManager) (id : Text) (entry : SessionEntry) : Prop where
  routes : ∀ pane, m.paneToSession pane ≠ some id
  tree : entry.metadata.tmuxSessions = []
  reader : entry.transport.readerTask = none
  handle : entry.transport.connection = none
  channel : entry.transport.controlChannel = none

/-- If the operation is a connect over SSH that fails, the session is down with
an error, or it is as it was. -/
def LeavesNothing (m : SessionManager) : Op → Prop
  | .connect env id => ∀ entry e, m.sessions id = some entry →
      entry.transport.backend.isSsh = true → (m.connect env id).2 = .error e →
      ∃ entry', (m.connect env id).1.sessions id = some entry' ∧
        (entry'.metadata.status = .error ∧ (m.connect env id).1.Down id entry' ∨
          entry' = entry ∧ ∀ pane, (m.connect env id).1.paneToSession pane = some id ↔
            m.paneToSession pane = some id)
  | _ => True

/-- A connect over SSH fails only where the session has no connection, and
before the control channel is opened. -/
def FailsEarly (m : SessionManager) : Op → Prop
  | .connect env id => ∀ entry failure, m.sessions id = some entry →
      entry.transport.backend.isSsh = true → env.connect = some failure →
      entry.transport.connection = none ∧ ¬ failure.step.Late
  | _ => True

/-- A session over SSH without a connection is down, and one that has a
connection shows no error. -/
def Tidy (m : SessionManager) : Prop :=
  ∀ id entry, m.sessions id = some entry → entry.transport.backend.isSsh = true →
    (entry.transport.connection = none → m.Down id entry) ∧
    (entry.transport.connection ≠ none → entry.metadata.status ≠ .error)

/-! ## One operation -/

/-- What an operation does to a session over SSH, if it is no connect that
fails: it leaves the connection alone, loads or creates the session, takes the
connection down, or leaves it connected. -/
inductive Linked (m m' : SessionManager) (id : Text) (entry : SessionEntry) : Prop
  | kept (old : SessionEntry) (hs : m.sessions id = some old)
      (ht : ∃ executed, entry.transport = { old.transport with executed })
      (hm : entry.metadata.status = old.metadata.status ∧
        entry.metadata.tmuxSessions = old.metadata.tmuxSessions)
      (hr : ∀ pane, m'.paneToSession pane = some id → m.paneToSession pane = some id)
  | fresh (hs : m.sessions id = none)
      (ht : entry.transport = .new entry.transport.backend entry.transport.sessionName)
      (hm : entry.metadata.tmuxSessions = [])
      (hr : ∀ pane, m'.paneToSession pane = some id → m.paneToSession pane = some id)
  | down (h : m'.Down id entry)
  | up (hc : entry.transport.connection ≠ none)
      (hm : entry.metadata.status = .connected ∨ ∃ old, m.sessions id = some old ∧
        entry.transport = old.transport ∧ entry.metadata.status = old.metadata.status)

section Operation
variable {m m' : SessionManager} {id : Text} {entry : SessionEntry}

/-- **What keeps the invariant.** -/
theorem Tidy.linked (hm : m.Sound) (h : m.Tidy)
    (hl : ∀ id entry, m'.sessions id = some entry → entry.transport.backend.isSsh = true →
      Linked m m' id entry) : m'.Tidy := by
  intro id entry hs hssh
  cases hl id entry hs hssh with
  | kept old hs₀ ht hmeta hr =>
    obtain ⟨executed, ht⟩ := ht
    rw [ht] at hssh
    obtain ⟨hdown, hup⟩ := h id old hs₀ hssh
    refine ⟨fun hc => ?_, fun hc => ?_⟩
    · rw [ht] at hc
      have hd := hdown hc
      refine ⟨fun pane hp => hd.routes pane (hr pane hp), hmeta.2.trans hd.tree, ?_, ?_, ?_⟩
      · rw [ht]
        exact hd.reader
      · rw [ht]
        exact hd.handle
      · rw [ht]
        exact hd.channel
    · rw [ht] at hc
      rw [hmeta.1]
      exact hup hc
  | fresh hs₀ ht hmeta hr =>
    refine ⟨fun _ => ⟨fun pane hp => ?_, hmeta, ?_, ?_, ?_⟩, fun hc => ?_⟩
    · have hsome := hm.routed pane id (hr pane hp)
      rw [hs₀] at hsome
      cases hsome
    · rw [ht]
      rfl
    · rw [ht]
      rfl
    · rw [ht]
      rfl
    · rw [ht] at hc
      exact absurd rfl hc
  | down hd => exact ⟨fun _ => hd, fun hc => absurd hd.handle hc⟩
  | up hc hmeta =>
    refine ⟨fun hn => absurd hn hc, fun _ => ?_⟩
    rcases hmeta with hst | ⟨old, hs₀, ht, hst⟩
    · rw [hst]
      decide
    · rw [ht] at hc hssh
      rw [hst]
      exact (h id old hs₀ hssh).2 hc

theorem Linked.of_eq (hs : m.sessions id = some entry)
    (hr : ∀ pane, m'.paneToSession pane = some id → m.paneToSession pane = some id) :
    Linked m m' id entry :=
  .kept entry hs ⟨_, rfl⟩ ⟨rfl, rfl⟩ hr

/-- An entry is put for one session; the others keep theirs. -/
theorem Linked.of_update {id₀ : Text} {new : SessionEntry}
    (hs : m'.sessions = Function.update m.sessions id₀ (some new))
    (hr : ∀ pane, m'.paneToSession pane = some id → m.paneToSession pane = some id)
    (hnew : id = id₀ → Linked m m' id new) (h : m'.sessions id = some entry) :
    Linked m m' id entry := by
  rw [hs] at h
  by_cases hid : id = id₀
  · subst hid
    rw [Function.update_self, Option.some.injEq] at h
    exact h ▸ hnew rfl
  · rw [Function.update_of_ne hid] at h
    exact .of_eq h hr

theorem linked_create {env : Env} {userId : Text} {req : CreateSessionRequest} (hst : m.Stored)
    (h : (m.create env userId req).1.sessions id = some entry) :
    Linked m (m.create env userId req).1 id entry := by
  unfold create at h ⊢
  simp only at h ⊢
  split at h
  · next hc =>
    rw [if_pos hc]
    refine .of_update rfl (fun _ hp => hp) (fun hid => .fresh ?_ rfl rfl fun _ hp => hp) h
    subst hid
    by_contra hs
    obtain ⟨row, hr, he⟩ := List.mem_map.mp (hst _ (Option.isSome_iff_ne_none.mpr hs))
    exact hc.2 (List.mem_map.mpr ⟨row, hr, Subtype.ext he⟩)
  · next hc =>
    rw [if_neg hc]
    exact .of_eq h fun _ hp => hp

theorem linked_load {env : Env} {userId : Text}
    (h : (m.loadUserSessions env userId).1.sessions id = some entry) :
    Linked m (m.loadUserSessions env userId).1 id entry := by
  unfold loadUserSessions at h ⊢
  split at h
  · next hread =>
    rw [if_pos hread]
    have hr : ∀ pane, (loadRows (listSessionsForUser m.db userId) m).1.paneToSession pane =
        some id → m.paneToSession pane = some id := by
      intro pane hp
      rwa [(loadRows_frame _ m).1] at hp
    rcases sessions_of_loadRows h with hs | ⟨hs, row, -, -, metadata, hrow, rfl⟩
    · exact .of_eq hs hr
    · exact .fresh hs rfl (rowToManagedSession_tree hrow) hr
  · next hread =>
    rw [if_neg hread]
    exact .of_eq h fun _ hp => hp

theorem linked_update {env : Env} {id₀ : Text} {req : UpdateSessionRequest}
    (h : (m.update env id₀ req).1.sessions id = some entry) :
    Linked m (m.update env id₀ req).1 id entry := by
  cases hs : m.sessions id₀ with
  | none =>
    rw [update_eq_self (.inl hs)] at h ⊢
    exact .of_eq h fun _ hp => hp
  | some old =>
    cases hn : req.name with
    | none =>
      rw [update_eq_self (.inr hn)] at h ⊢
      exact .of_eq h fun _ hp => hp
    | some name =>
      have hsessions : (m.update env id₀ req).1.sessions = Function.update m.sessions id₀
          (some { old with metadata := { old.metadata with name } }) := by
        simp only [update, hs, hn]
        split <;> rfl
      have hroutes : (m.update env id₀ req).1.paneToSession = m.paneToSession := by
        simp only [update, hs, hn]
        split <;> rfl
      have hr : ∀ pane, (m.update env id₀ req).1.paneToSession pane = some id →
          m.paneToSession pane = some id := fun _ hp => hroutes ▸ hp
      exact .of_update hsessions hr (fun hid => .kept old (hid ▸ hs) ⟨_, rfl⟩ ⟨rfl, rfl⟩ hr) h

/-- No route is added by taking a session's routes away. -/
theorem route_of_removeRoutes {id₀ pane : Text}
    (h : (m.removeRoutes id₀).paneToSession pane = some id) : m.paneToSession pane = some id := by
  simp only [removeRoutes, Option.filter_eq_some_iff] at h
  exact h.1

theorem ne_of_removeRoutes {id₀ pane : Text}
    (h : (m.removeRoutes id₀).paneToSession pane = some id) : id ≠ id₀ := by
  simp only [removeRoutes, Option.filter_eq_some_iff, decide_eq_true_eq] at h
  exact h.2

theorem linked_delete {env : Env} {id₀ : Text}
    (h : (m.delete env id₀).1.sessions id = some entry) :
    Linked m (m.delete env id₀).1 id entry := by
  have hroutes : (m.delete env id₀).1.paneToSession = (m.removeRoutes id₀).paneToSession := by
    unfold delete
    simp only
    split
    · rfl
    · split <;> rfl
  have hs : m.sessions id = some entry := by
    unfold delete at h
    simp only at h
    split at h
    · exact h
    · have hgone : Function.update m.sessions id₀ none id = some entry := by
        split at h <;> exact h
      have hne : id ≠ id₀ := by
        rintro rfl
        rw [Function.update_self] at hgone
        cases hgone
      rwa [Function.update_of_ne hne] at hgone
  exact .of_eq hs fun _ hp => route_of_removeRoutes (hroutes ▸ hp)

theorem linked_disconnect {env : Env} {id₀ : Text}
    (h : (m.disconnect env id₀).1.sessions id = some entry) :
    Linked m (m.disconnect env id₀).1 id entry := by
  have hroutes : (m.disconnect env id₀).1.paneToSession = (m.removeRoutes id₀).paneToSession := by
    unfold disconnect
    simp only
    split
    · rfl
    · simp [setEntry]
  have hr : ∀ pane, (m.disconnect env id₀).1.paneToSession pane = some id →
      m.paneToSession pane = some id := fun _ hp => route_of_removeRoutes (hroutes ▸ hp)
  cases hs : m.sessions id₀ with
  | none =>
    refine .of_eq ?_ hr
    have hs' : (m.removeRoutes id₀).sessions id₀ = none := hs
    simp only [disconnect, hs'] at h
    exact h
  | some old =>
    have hs' : (m.removeRoutes id₀).sessions id₀ = some old := hs
    have hsessions : (m.disconnect env id₀).1.sessions = Function.update m.sessions id₀ (some
        { metadata := { old.metadata with status := .disconnected, tmuxSessions := [] }
          transport := old.transport.disconnect }) := by
      simp only [disconnect, hs', updateSessionStatus_sessions, setEntry]
      rfl
    refine .of_update hsessions hr (fun hid => .down ?_) h
    refine ⟨fun pane hp => ?_, rfl, rfl, rfl, rfl⟩
    rw [hroutes] at hp
    exact ne_of_removeRoutes hp hid

/-- Listing a session's panes adds no route to another session. -/
theorem route_of_insertRoutes {id₀ pane : Text} {tree : List TmuxSessionInfo} (hid : id ≠ id₀)
    (h : (m.insertRoutes id₀ tree).paneToSession pane = some id) :
    m.paneToSession pane = some id := by
  rw [insertRoutes_paneToSession] at h
  split at h
  · exact absurd (Option.some.inj h).symm hid
  · exact h

/-- A connect that lists the panes, or one of another session. -/
theorem linked_connect {env : Env} {id₀ : Text}
    (hf : id = id₀ → env.connect = none) (hssh : entry.transport.backend.isSsh = true)
    (h : (m.connect env id₀).1.sessions id = some entry) :
    Linked m (m.connect env id₀).1 id entry := by
  cases hs : m.sessions id₀ with
  | none =>
    have hm : (m.connect env id₀).1 = m := by simp only [connect, hs]
    rw [hm] at h ⊢
    exact .of_eq h fun _ hp => hp
  | some old =>
    by_cases hid : id = id₀
    · subst hid
      have hc := hf rfl
      simp only [connect, hs, hc, updateSessionStatus_sessions, setEntry, insertRoutes,
        Function.update_self, Option.some.injEq] at h
      subst h
      refine .up ?_ (.inl rfl)
      rw [Transport.connect_backend] at hssh
      unfold Transport.connect
      cases hb : old.transport.backend with
      | ssh host port user auth => simp
      | agent host port agentId => simp
      | «local» => simp [BackendTransport.isSsh, hb] at hssh
    · have hsame : (m.connect env id₀).1.sessions id = m.sessions id := by
        cases hc : env.connect with
        | none => simp [connect, hs, hc, setEntry, insertRoutes, hid]
        | some failure => simp [connect, hs, hc, setEntry, hid]
      rw [hsame] at h
      refine .of_eq h fun pane hp => ?_
      cases hc : env.connect with
      | none =>
        have hp' : ((m.updateSessionStatus (env.dbWrite 0) id₀ .connecting none).insertRoutes id₀
            (((old.transport.connect env.connection none).listTmuxSessions
              env.listing).toOption.getD [])).paneToSession pane = some id := by
          simpa [connect, hs, hc, setEntry] using hp
        simpa using route_of_insertRoutes hid hp'
      | some failure => simpa [connect, hs, hc, setEntry] using hp

theorem linked_refreshTmuxState {env : Env} {id₀ : Text}
    (hssh : entry.transport.backend.isSsh = true)
    (h : (m.refreshTmuxState env id₀).1.sessions id = some entry) :
    Linked m (m.refreshTmuxState env id₀).1 id entry := by
  cases hs : m.sessions id₀ with
  | none =>
    have hm : (m.refreshTmuxState env id₀).1 = m := by simp only [refreshTmuxState, hs]
    rw [hm] at h ⊢
    exact .of_eq h fun _ hp => hp
  | some old =>
    cases hl : old.transport.listTmuxSessions env.listing with
    | error e =>
      have hm : (m.refreshTmuxState env id₀).1 = m := by simp only [refreshTmuxState, hs, hl]
      rw [hm] at h ⊢
      exact .of_eq h fun _ hp => hp
    | ok tree =>
      simp only [refreshTmuxState, hs, hl] at h ⊢
      by_cases hid : id = id₀
      · subst hid
        simp only [setEntry, Function.update_self, Option.some.injEq] at h
        subst h
        refine .up (fun hc : old.transport.connection = none => ?_) (.inr ⟨old, hs, rfl, rfl⟩)
        -- without a connection there is nothing to list
        unfold Transport.listTmuxSessions at hl
        cases hb : old.transport.backend with
        | ssh host port user auth => simp [hb, hc] at hl
        | agent host port agentId => simp [BackendTransport.isSsh, hb] at hssh
        | «local» => simp [BackendTransport.isSsh, hb] at hssh
      · have hold : m.sessions id = some entry := by simpa [setEntry, insertRoutes, hid] using h
        exact .of_eq hold fun pane hp => route_of_insertRoutes hid hp

theorem linked_executeOnPane {cmd : Command}
    (h : (m.executeOnPane cmd).1.sessions id = some entry) :
    Linked m (m.executeOnPane cmd).1 id entry := by
  unfold executeOnPane at h ⊢
  cases hr : m.paneToSession (commandPane cmd) with
  | none =>
    rw [hr] at h
    exact .of_eq h fun _ hp => hp
  | some id₀ =>
    cases hs : m.sessions id₀ with
    | none =>
      simp only [hr, hs] at h ⊢
      exact .of_eq h fun _ hp => hp
    | some old =>
      cases he : old.transport.execute cmd with
      | error e =>
        simp only [hr, hs, he] at h ⊢
        exact .of_eq h fun _ hp => hp
      | ok transport =>
        simp only [hr, hs, he] at h ⊢
        refine .of_update rfl (fun _ hp => hp) (fun hid => ?_) h
        exact .kept old (hid ▸ hs) ⟨_, Transport.execute_ok he⟩ ⟨rfl, rfl⟩ fun _ hp => hp

/-! ## A connect that fails -/

theorem connect_failure {t : Transport} (hssh : t.backend.isSsh = true) (fresh : Nat)
    (failure : ConnectFailure) : t.connect fresh (some failure) = { t with
      status := .connecting
      controlChannel := if failure.step.Late then some fresh else t.controlChannel } := by
  obtain ⟨backend, _⟩ := t
  cases backend with
  | ssh host port user auth =>
    by_cases hl : failure.step.Late
    · rw [if_pos hl]
      exact if_pos hl
    · rw [if_neg hl]
      exact if_neg hl
  | agent host port agentId => cases hssh
  | «local» => cases hssh

theorem sessions_failed {env : Env} {failure : ConnectFailure} (hs : m.sessions id = some entry)
    (hc : env.connect = some failure) : (m.connect env id).1.sessions id = some
      { metadata := { entry.metadata with
          status := .error, error := some failure.error.text }
        transport := entry.transport.connect env.connection (some failure) } := by
  simp [connect, hs, hc, setEntry]

theorem paneToSession_failed {env : Env} {failure : ConnectFailure}
    (hs : m.sessions id = some entry) (hc : env.connect = some failure) :
    (m.connect env id).1.paneToSession = m.paneToSession := by
  simp [connect, hs, hc, setEntry]

/-- An attempt that ends early leaves a session down that was down. -/
theorem Down.failed {env : Env} {failure : ConnectFailure} (h : m.Down id entry)
    (hs : m.sessions id = some entry) (hssh : entry.transport.backend.isSsh = true)
    (hc : env.connect = some failure) (hstep : ¬ failure.step.Late) :
    (m.connect env id).1.Down id
      { metadata := { entry.metadata with
          status := .error, error := some failure.error.text }
        transport := entry.transport.connect env.connection (some failure) } := by
  rw [connect_failure hssh, if_neg hstep]
  refine ⟨fun pane hp => ?_, h.tree, h.reader, h.handle, h.channel⟩
  rw [paneToSession_failed hs hc] at hp
  exact h.routes pane hp

/-- **What a connect over SSH must meet.** -/
theorem leavesNothing_iff (h : m.Tidy) (op : Op) : m.LeavesNothing op ↔ m.FailsEarly op := by
  cases op with
  | connect env id =>
    constructor
    · intro hl entry failure hs hssh hc
      have herror : (m.connect env id).2 = .error failure.error.text := by
        simp only [connect, hs, hc]
      obtain ⟨entry', hs', hafter⟩ := hl entry _ hs hssh herror
      rw [sessions_failed hs hc, Option.some.injEq, connect_failure hssh] at hs'
      subst hs'
      have hdown : m.Down id entry ∧ (if failure.step.Late then some env.connection
          else entry.transport.controlChannel) = none := by
        rcases hafter with ⟨-, hd⟩ | ⟨he, -⟩
        · exact ⟨(h id entry hs hssh).1 hd.handle, hd.channel⟩
        · have hst : SessionStatus.error = entry.metadata.status :=
            congrArg (·.metadata.status) he
          have hch := congrArg (·.transport.controlChannel) he
          have hnone : entry.transport.connection = none := by
            by_contra hne
            exact (h id entry hs hssh).2 hne hst.symm
          have hd := (h id entry hs hssh).1 hnone
          exact ⟨hd, hch.trans hd.channel⟩
      have hstep : ¬ failure.step.Late := by
        intro hlate
        rw [if_pos hlate] at hdown
        cases hdown.2
      exact ⟨hdown.1.handle, hstep⟩
    · intro hf entry e hs hssh herror
      cases hc : env.connect with
      | none => simp [connect, hs, hc] at herror
      | some failure =>
        obtain ⟨hnone, hstep⟩ := hf entry failure hs hssh hc
        have hd := (h id entry hs hssh).1 hnone
        exact ⟨_, sessions_failed hs hc, .inl ⟨rfl, hd.failed hs hssh hc hstep⟩⟩
  | _ => exact Iff.rfl

/-- **What an operation does to a session over SSH.** -/
theorem linked_apply (ht : m.Tidy) (hst : m.Stored) {op : Op} (hf : m.FailsEarly op)
    (hs : (m.apply op).sessions id = some entry) (hssh : entry.transport.backend.isSsh = true) :
    Linked m (m.apply op) id entry := by
  cases op with
  | create env userId req => exact linked_create hst hs
  | load env userId => exact linked_load hs
  | update env id₀ req => exact linked_update hs
  | delete env id₀ => exact linked_delete hs
  | disconnect env id₀ => exact linked_disconnect hs
  | refresh env id₀ => exact linked_refreshTmuxState hssh hs
  | execute cmd => exact linked_executeOnPane hs
  | uploadKey keyId key passphrase => exact .of_eq hs fun _ hp => hp
  | connect env id₀ =>
    by_cases hfail : id = id₀ → env.connect = none
    · exact linked_connect hfail hssh hs
    · obtain ⟨rfl, hne⟩ := Classical.not_imp.mp hfail
      obtain ⟨failure, hc⟩ := Option.ne_none_iff_exists'.mp hne
      cases hold : m.sessions id with
      | none =>
        simp only [apply, connect, hold] at hs
        cases hs
      | some old =>
        change (m.connect env id).1.sessions id = some entry at hs
        rw [sessions_failed hold hc, Option.some.injEq] at hs
        subst hs
        have hssh' : old.transport.backend.isSsh = true := by
          rwa [Transport.connect_backend] at hssh
        obtain ⟨hnone, hstep⟩ := hf old failure hold hssh' hc
        have hd := (ht id old hold hssh').1 hnone
        exact .down (hd.failed hold hssh' hc hstep)

end Operation

/-! ## Runs -/

/-- **Failed connects in a run.** They all leave the session down or as it was
exactly if each of them hits a session without a connection and ends before the
control channel is opened. -/
theorem failed_connects_iff (db : List SessionRow) (ops : List Op) :
    EachStep apply LeavesNothing (new db) ops ↔ EachStep apply FailsEarly (new db) ops := by
  have hnew : (new db).Sound ∧ (new db).Stored ∧ (new db).Tidy :=
    ⟨sound_new db, stored_new db, fun id entry hs => by cases hs⟩
  refine eachStep_iff_of_invariant (I := fun m => m.Sound ∧ m.Stored ∧ m.Tidy) hnew
    (fun m op h => leavesNothing_iff h.2.2 op) ?_ ops
  intro m op ⟨hsound, hstored, htidy⟩ hf
  exact ⟨hsound.apply op, hstored.apply op,
    htidy.linked hsound fun id entry hs hssh => linked_apply htidy hstored hf hs hssh⟩

/-- A session is connected, and then connected again while its host is away: it
shows the error and keeps its routes, its tree and its old connection. -/
theorem reconnect_leaves_connection :
    ¬ ∀ m, Reachable apply (new []) m → ∀ op, m.LeavesNothing op := by
  intro h
  let env := Env.working uuidA [.single "%0".toList]
  let req : CreateSessionRequest := { name := ['s'], transport := .ssh ['h'] }
  let failure : ConnectFailure :=
    { step := .reach, error := ⟨"SSH connect failed".toList, by decide⟩ }
  let m := ((new []).apply (.create env ['u'] req)).apply (.connect env uuidA.val)
  have hop := h m (((reachable_init _).next _).next _)
    (.connect { env with connect := some failure } uuidA.val)
  obtain ⟨entry', hs', ⟨-, hd⟩ | ⟨he, -⟩⟩ := hop _ _ rfl rfl rfl
  · obtain rfl := Option.some.inj hs'
    exact absurd hd.tree (by decide)
  · subst he
    exact absurd (congrArg (fun e => e.map (·.metadata.status)) hs') (by decide)

end SessionManager

end Oxmux.Session
