import Oxmux.System.Wire

/-! Who executes a command. The routing table has one entry for a raw pane id,
whatever session it is in; the session that listed the id last gets the commands
of all. -/

namespace Oxmux.Session.SessionManager
open Oxmux.Lib

/-! ## The routes -/

def executedBy (m : SessionManager) (id : Text) : List Command :=
  (m.sessions id).elim [] (·.transport.executed)

/-- The panes in the tree of a session, if it is connected. -/
def connectedPanes (m : SessionManager) (id : Text) : List Text :=
  match m.sessions id with
  | some entry =>
    if entry.metadata.status = .connected then paneIds entry.metadata.tmuxSessions else []
  | none => []

/-- Every pane of a connected session is routed to it. -/
def Routed (m : SessionManager) : Prop :=
  ∀ id, ∀ pane ∈ m.connectedPanes id, m.paneToSession pane = some id

/-- The tree has no pane of another connected session. -/
def Apart (m : SessionManager) (id : Text) (tree : List TmuxSessionInfo) : Prop :=
  ∀ id', id' ≠ id → ∀ pane ∈ paneIds tree, pane ∉ m.connectedPanes id'

theorem mem_connectedPanes {m : SessionManager} {id pane : Text} :
    pane ∈ m.connectedPanes id ↔ ∃ entry, m.sessions id = some entry ∧
      entry.metadata.status = .connected ∧ pane ∈ paneIds entry.metadata.tmuxSessions := by
  unfold connectedPanes
  cases m.sessions id with
  | none => simp
  | some entry =>
    by_cases h : entry.metadata.status = .connected
    · simp [h]
    · simp [h]

/-- Where a command is executed: by the transport that its pane is routed to. -/
theorem executedBy_executeOnPane {m : SessionManager} (h : m.Sound) {id : Text} {cmd : Command}
    (hc : commandPane cmd ∈ m.connectedPanes id) :
    ((m.executeOnPane cmd).1.executedBy id = m.executedBy id ++ [cmd] ∧
      ∀ id', id' ≠ id → (m.executeOnPane cmd).1.executedBy id' = m.executedBy id') ↔
    m.paneToSession (commandPane cmd) = some id := by
  obtain ⟨entry, hs, hconn, -⟩ := mem_connectedPanes.mp hc
  constructor
  · intro ⟨hexec, _⟩
    by_contra hne
    have hsame : (m.executeOnPane cmd).1.sessions id = m.sessions id := by
      unfold executeOnPane
      cases hr : m.paneToSession (commandPane cmd) with
      | none => rfl
      | some id' =>
        have hid : id ≠ id' := fun he => hne (he ▸ hr)
        cases hs' : m.sessions id' with
        | none => simp only [hs']
        | some entry' =>
          cases he : entry'.transport.execute cmd with
          | error e => simp only [hs', he]
          | ok transport => simp [hs', he, setEntry, hid]
    simp [executedBy, hsame] at hexec
  · intro hr
    have hl := h.live id entry hs hconn cmd
    simp only [executeOnPane, hr, hs, hl]
    exact ⟨by simp [executedBy, setEntry, hs], fun id' hne => by simp [executedBy, setEntry, hne]⟩

theorem Routed.change {m m' : SessionManager} (h : m.Routed) (hc : Change m m') : m'.Routed := by
  intro id' pane hp
  obtain ⟨entry', hs', hconn, hp⟩ := mem_connectedPanes.mp hp
  cases hc with
  | same hs hr =>
    rw [hr]
    exact h id' pane (mem_connectedPanes.mpr ⟨entry', hs ▸ hs', hconn, hp⟩)
  | set id entry known kept hs hr =>
    rw [hr]
    rw [hs] at hs'
    by_cases he : id' = id
    · subst he
      rw [Function.update_self, Option.some.injEq] at hs'
      subst hs'
      obtain ⟨old, hold, hoc, ht, -⟩ := kept hconn
      exact h id' pane (mem_connectedPanes.mpr ⟨old, hold, hoc, ht ▸ hp⟩)
    · rw [Function.update_of_ne he] at hs'
      exact h id' pane (mem_connectedPanes.mpr ⟨entry', hs', hconn, hp⟩)
  | leave id hr hs gone =>
    have hne : id' ≠ id := by
      rintro rfl
      exact (gone entry' hs').2 hconn
    have hroute := h id' pane (mem_connectedPanes.mpr ⟨entry', hs id' hne ▸ hs', hconn, hp⟩)
    simp [hr, removeRoutes, hroute, hne]

/-- A listing keeps the routes of the others exactly if it shares no pane with
them. -/
theorem routed_listing_iff {m m' : SessionManager} (h : m.Routed) {id : Text}
    {tree : List TmuxSessionInfo} (hl : Listing m m' id tree) : m'.Routed ↔ m.Apart id tree := by
  obtain ⟨entry, hs, ht, -⟩ := hl.sessions
  have hother : ∀ id', id' ≠ id → m'.connectedPanes id' = m.connectedPanes id' := by
    intro id' hne
    simp [connectedPanes, hs, hne]
  have hroute : ∀ pane, m'.paneToSession pane =
      if pane ∈ paneIds tree then some id else m.paneToSession pane := fun pane => by
    rw [hl.routes, insertRoutes_paneToSession]
  constructor
  · intro h' id' hne pane hp hp'
    have hr := h' id' pane (by rwa [hother id' hne])
    rw [hroute, if_pos hp] at hr
    exact hne (Option.some.inj hr).symm
  · intro ha id' pane hp
    by_cases he : id' = id
    · subst he
      obtain ⟨entry', hs', -, hp⟩ := mem_connectedPanes.mp hp
      rw [hs, Function.update_self, Option.some.injEq] at hs'
      subst hs'
      rw [hroute, if_pos (ht ▸ hp)]
    · rw [hother id' he] at hp
      rw [hroute, if_neg fun ht => ha id' he pane ht hp]
      exact h id' pane hp

end Oxmux.Session.SessionManager

namespace Oxmux.System
open Oxmux.Lib Oxmux.Lib.Runs Oxmux.Session Oxmux.Ws Oxmux.Client

variable {κ : Type} [DecidableEq κ]

/-! ## Commands of the browser -/

/-- Every input and every new size that a store writes to the WebSocket for a
pane in the tree of a connected session is executed by that session's transport,
and by no other one, whoever's connection it comes on. -/
def Isolated (s : Server κ) : Prop :=
  ∀ id cmd, SessionManager.commandPane cmd ∈ s.app.sessionManager.connectedPanes id →
    ∀ (st : Store) socket w,
      (st.sendMsg (commandMsg id cmd)).wire = st.wire ++ [(socket, w)] →
      ∀ msg, decodeClientMsg w = some msg → ∀ env conn,
        let m := (handleClientMsg env msg s.app conn).1.sessionManager
        m.executedBy id = s.app.sessionManager.executedBy id ++ [cmd] ∧
          ∀ id', id' ≠ id → m.executedBy id' = s.app.sessionManager.executedBy id'

/-- The step lists no pane that another connected session has in its tree. -/
def Disjoint (s : Server κ) (i : Input κ) : Prop :=
  ∀ op ∈ s.ops i, ∀ id tree, s.app.sessionManager.listed op = some (id, tree) →
    s.app.sessionManager.Apart id tree

def onlineStore : Store := { Store.new with ws := some 0, wsSend := some 0, sockets := [.open] }

omit [DecidableEq κ] in
theorem isolated_iff_routed {s : Server κ} (h : s.app.sessionManager.Sound) :
    Isolated s ↔ s.app.sessionManager.Routed := by
  have hid : ∀ id pane, pane ∈ s.app.sessionManager.connectedPanes id → IsUuid id := by
    intro id pane hp
    obtain ⟨entry, hs, -⟩ := SessionManager.mem_connectedPanes.mp hp
    exact h.uuid id (by simp [hs])
  constructor
  · intro hi id pane hp
    have honline : onlineStore.Online 0 := ⟨rfl, rfl⟩
    have hw := sendMsg_online (isData_commandMsg id (.input pane [])) honline
      (by simp [Store.p2pOf, onlineStore, Store.new])
    have hraw := rawMsg_commandMsg (hid id pane hp) (.input pane [])
    have he := hi id (.input pane []) hp onlineStore 0 _ hw (.input pane [] none)
      (by rw [hraw]; rfl) (.working ⟨['0'], by decide⟩ []) (.new [])
    exact (SessionManager.executedBy_executeOnPane h hp).mp he
  · intro hr id cmd hp st socket w hw msg hm env conn
    rw [sendMsg_wire (isData_commandMsg id cmd) hw] at hm
    simp only [handle_commandMsg (hid id _ hp) hm]
    exact (SessionManager.executedBy_executeOnPane h hp).mpr (hr id _ hp)

/-! ## Runs -/

/-- What every operation without a listing keeps, a step of such operations
keeps. -/
theorem routed_foldl {ops : List Op} (hops : ∀ op ∈ ops, ∀ m : SessionManager, m.listed op = none)
    {m : SessionManager} (h : m.Routed) : (ops.foldl SessionManager.apply m).Routed := by
  induction ops generalizing m with
  | nil => exact h
  | cons op ops ih =>
    exact ih (fun op' ho => hops op' (List.mem_cons_of_mem _ ho))
      (SessionManager.apply_of_change SessionManager.Routed.change h (hops op (by simp) m))

omit [DecidableEq κ] in
/-- A step runs operations that never list panes, or one operation. -/
theorem ops_cases (s : Server κ) (i : Input κ) :
    (∀ op ∈ s.ops i, ∀ m : SessionManager, m.listed op = none) ∨ ∃ op, s.ops i = [op] := by
  cases i with
  | accept c userId env =>
    simp only [Server.ops]
    split
    · exact .inr ⟨_, rfl⟩
    · exact .inl (by simp)
  | message c msg env =>
    simp only [Server.ops]
    cases s.clients c with
    | none => exact .inl (by simp)
    | some conn => cases msg <;> first | exact .inr ⟨_, rfl⟩ | exact .inl (by simp [ClientMsg.ops])
  | close c envs =>
    refine .inl fun op ho m => ?_
    simp only [Server.ops] at ho
    cases hc : s.clients c with
    | none => simp [hc] at ho
    | some conn =>
      simp only [hc, Option.elim_some, List.mem_cons, List.mem_map] at ho
      rcases ho with rfl | ⟨session, -, rfl⟩ <;> rfl
  | uploadKey keyId key passphrase => exact .inr ⟨_, rfl⟩
  | _ => exact .inl (by simp [Server.ops])

theorem routed_step_iff {s : Server κ} (h : s.app.sessionManager.Routed) (i : Input κ) :
    (s.step i).app.sessionManager.Routed ↔ Disjoint s i := by
  rw [Server.step_manager]
  rcases ops_cases s i with hops | ⟨op, hop⟩
  · refine iff_of_true (routed_foldl hops h) fun op ho id tree hl => ?_
    rw [hops op ho] at hl
    cases hl
  · simp only [Disjoint, hop, List.foldl_cons, List.foldl_nil, List.mem_singleton, forall_eq]
    cases hl : s.app.sessionManager.listed op with
    | none =>
      exact iff_of_true (SessionManager.apply_of_change SessionManager.Routed.change h hl)
        fun id tree h => by cases h
    | some l =>
      rw [SessionManager.routed_listing_iff h (SessionManager.listing_apply hl)]
      constructor
      · intro ha id tree he
        cases he
        exact ha
      · intro ha
        exact ha l.1 l.2 rfl

/-- **When commands reach the session they are for**: in every state of a run,
exactly if no step of it lists a pane that another connected session has. -/
theorem isolated_iff_disjoint (db : List SessionRow) (inputs : List (Input κ)) :
    Always Server.step Isolated (.new db) inputs ↔
      EachStep Server.step Disjoint (.new db) inputs := by
  rw [always_congr (P := Isolated) (Q := fun s => s.app.sessionManager.Routed)
    (I := fun s => s.app.sessionManager.Sound) (SessionManager.sound_new db)
    (fun s i h => Server.sound_step h i) (fun s h => isolated_iff_routed h)]
  refine always_iff_eachStep (I := fun _ => True) ?_ trivial
    (fun s i _ h => routed_step_iff h i) (fun _ _ _ _ _ => trivial) inputs
  intro id pane hp
  simp [SessionManager.connectedPanes, Server.new, AppState.new, SessionManager.new] at hp

/-! ## Two sessions with the pane `%0` -/

def sampleTree : List TmuxSessionInfo :=
  [{ id := "$0".toList, name := "main".toList, windows := [{
    id := "@0".toList, name := "sh".toList, index := 0, layout := [], panes := [{
      id := "%0".toList, index := 0, cols := 80, rows := 24, currentCommand := "sh".toList
      isActive := true, isClaude := false }] }] }]

/-- One user creates and connects two sessions on different hosts. -/
def sampleInputs : List (Input Nat) :=
  let env (id : Uuid) := MsgEnv.working id sampleTree
  let a := uuidA
  let b := uuidB
  [.accept 0 "u".toList (env a).toEnv,
    .message 0 (.createSession { name := "one".toList, transport := .ssh ['1'] }) (env a),
    .message 0 (.createSession { name := "two".toList, transport := .ssh ['2'] }) (env b),
    .message 0 (.connectSession a.val) (env a),
    .message 0 (.connectSession b.val) (env b)]

/-- What is typed in the first session's pane goes to the second session. -/
theorem input_reaches_other_session : ¬ ∀ (db : List SessionRow) (inputs : List (Input Nat)),
    Always Server.step Isolated (.new db) inputs := by
  intro h
  have hs : (run Server.step (Server.new []) sampleInputs).app.sessionManager.Sound :=
    Server.reachable_sound ⟨sampleInputs, rfl⟩
  have hr := (isolated_iff_routed hs).mp (h [] sampleInputs).last ['a'] "%0".toList
    (by decide +kernel)
  exact absurd hr (by decide +kernel)

end Oxmux.System
