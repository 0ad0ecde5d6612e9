import Oxmux.Ws.Server

/-! Output on its way to the clients. Whatever the connections do, what a client
is sent of a session's pane is a part, in order, of what was sent on the pane's
channel; it is the channel that several sessions share. -/

namespace Oxmux.Ws
open Oxmux.Lib Oxmux.Lib.Broadcast Oxmux.Session

/-! ## The channels -/

/-- Everything that was sent on a pane's channel. -/
def AppState.log (pane : Text) (s : AppState) : List Chunk := (s.paneOutputs pane).elim [] (·.log)

/-- What a session's tmux produced in a pane. -/
def AppState.produced (sessionId pane : Text) (s : AppState) : List Chunk :=
  (s.log pane).filter (·.origin = sessionId)

theorem log_getOrCreatePaneChannel (q : Text) (s : AppState) :
    (s.getOrCreatePaneChannel q).2.log = s.log q ∧
      ∀ pane, (s.getOrCreatePaneChannel q).1.log pane = s.log pane := by
  unfold AppState.getOrCreatePaneChannel AppState.log
  cases h : s.paneOutputs q with
  | some c => exact ⟨rfl, fun _ => rfl⟩
  | none =>
    refine ⟨rfl, fun pane => ?_⟩
    by_cases hp : pane = q
    · subst hp
      simp [h, Channel.new]
    · simp [hp]

theorem log_publish (sessionId q : Text) (data : Bytes) (s : AppState) (pane : Text) :
    (s.publish sessionId q data).log pane =
      s.log pane ++ if pane = q then [{ origin := sessionId, pane := q, data }] else [] := by
  obtain ⟨hc, hl⟩ := log_getOrCreatePaneChannel q s
  unfold AppState.publish
  by_cases hp : pane = q
  · subst hp
    simp only [AppState.log, Function.update_self, Option.elim_some, Channel.log_send, if_true]
    rw [hc, AppState.log]
  · rw [if_neg hp, List.append_nil, ← hl]
    simp [AppState.log, hp]

theorem drainSub_eq {s : AppState} {pane : Text} {r : Receiver}
    (h : r.next ≤ (s.log pane).length) :
    drainSub s pane r =
      ((s.log pane).drop (max r.next ((s.log pane).length - paneCapacity)),
        ⟨(s.log pane).length⟩) := by
  unfold drainSub
  unfold AppState.log at h ⊢
  cases hc : s.paneOutputs pane with
  | some c =>
    rw [hc] at h
    exact Channel.drain_eq h
  | none =>
    obtain ⟨n⟩ := r
    simp only [hc, Option.elim_none, List.length_nil, Nat.le_zero_eq] at h
    simp [h]

/-! ## The frames -/

/-- The piece that a frame carries for a pane. -/
def ServerMsg.chunkFor (pane : Text) : ServerMsg → Option Chunk
  | .output q data _ => if q = pane then some data else none
  | _ => none

def chunks (pane : Text) (msgs : List ServerMsg) : List Chunk := msgs.filterMap (·.chunkFor pane)

@[simp] theorem chunks_append (pane : Text) (msgs msgs' : List ServerMsg) :
    chunks pane (msgs ++ msgs') = chunks pane msgs ++ chunks pane msgs' :=
  List.filterMap_append

def Quiet (msgs : List ServerMsg) : Prop := ∀ msg ∈ msgs, ∀ pane, msg.chunkFor pane = none

theorem quiet_nil : Quiet [] := fun _ hm => by cases hm

theorem Quiet.chunks_eq {msgs : List ServerMsg} (h : Quiet msgs) (pane : Text) :
    chunks pane msgs = [] :=
  List.filterMap_eq_nil_iff.mpr fun msg hm => h msg hm pane

theorem chunks_map_output (pane q : Text) (data : List Chunk) :
    chunks pane (data.map fun d => ServerMsg.output q d none) = if q = pane then data else [] := by
  by_cases h : q = pane
  · simp [chunks, ServerMsg.chunkFor, h, List.filterMap_map]
  · simp [chunks, ServerMsg.chunkFor, h, List.filterMap_map]

/-- A turn sends for a pane what its receiver has pending. -/
theorem chunks_drainPaneOutputs (s : AppState) {conn : ConnectionState}
    (h : conn.paneSubs.keys.Nodup) (pane : Text) :
    chunks pane (drainPaneOutputs s conn).2 =
      ((conn.paneSubs.get pane).map fun r => (drainSub s pane r).1).getD [] := by
  unfold drainPaneOutputs
  simp only
  generalize conn.paneSubs = subs at h
  induction subs with
  | nil => rfl
  | cons e subs ih =>
    rw [Table.keys, List.map_cons, List.nodup_cons] at h
    rw [List.flatMap_cons, chunks_append, chunks_map_output, ih h.2, Table.get]
    by_cases he : e.1 = pane
    · have hn : Table.get pane subs = none := by
        have hk : pane ∉ Table.keys subs := he ▸ h.1
        rw [Table.mem_keys_iff] at hk
        simpa using hk
      simp [he, hn]
    · simp [he]

/-! ## What a step does to them -/

theorem paneSubs_handleClientMsg (env : MsgEnv) (msg : ClientMsg) (s : AppState)
    (conn : ConnectionState) :
    (handleClientMsg env msg s conn).2.1.paneSubs = match msg with
      | .subscribe pane _ => conn.paneSubs.set pane ⟨(s.log pane).length⟩
      | .unsubscribe pane _ => conn.paneSubs.delete pane
      | _ => conn.paneSubs := by
  cases msg with
  | subscribe pane sessionId =>
    have h := (log_getOrCreatePaneChannel pane s).1
    simp only [handleClientMsg, Channel.subscribe, h]
  | installAgent id =>
    simp only [handleClientMsg, installAgent]
    split
    · rfl
    · split <;> rfl
  | _ => rfl

theorem log_handleClientMsg (env : MsgEnv) (msg : ClientMsg) (s : AppState)
    (conn : ConnectionState) (pane : Text) :
    (handleClientMsg env msg s conn).1.log pane = s.log pane := by
  cases msg with
  | subscribe q sessionId => exact (log_getOrCreatePaneChannel q s).2 pane
  | _ => rfl

/-- No reply is output. -/
theorem quiet_handleClientMsg (env : MsgEnv) (msg : ClientMsg) (s : AppState)
    (conn : ConnectionState) : Quiet (handleClientMsg env msg s conn).2.2.toList := by
  have hr : ∀ {α : Type} {code : Text} {ok : α → ServerMsg} {r : Except Text α},
      (∀ a pane, (ok a).chunkFor pane = none) → Quiet (some (sessionReply code ok r)).toList := by
    intro α code ok r hok m hm pane
    rw [Option.mem_toList] at hm
    obtain rfl := Option.some.inj hm
    cases r with
    | ok a => exact hok a pane
    | error e => rfl
  have hs : ∀ m : ServerMsg, (∀ pane, m.chunkFor pane = none) → Quiet (some m).toList := by
    intro m h m' hm
    rw [Option.mem_toList] at hm
    exact Option.some.inj hm ▸ h
  cases msg with
  | iceRequest | createSession | listSessions | connectSession | disconnectSession
  | updateSession | deleteSession | refreshSession => exact hr fun _ _ => rfl
  | ping | signal => exact hs _ fun _ => rfl
  | installAgent id =>
    refine hs _ fun pane => ?_
    unfold installAgent
    split
    · rfl
    · split <;> rfl
  | transportUpgrade id target =>
    refine hs _ fun pane => ?_
    unfold transportUpgrade
    split
    · rfl
    · simp only
      split <;> first | rfl | (split <;> first | rfl | (split <;> rfl))
  | agentStatusRequest host =>
    refine hs _ fun pane => ?_
    split <;> rfl
  | _ => exact fun _ hm => by cases hm

variable {κ : Type} [DecidableEq κ]

/-- What a step does to channels, receivers and outboxes: it drains a
connection, or publishes a piece, or does neither and sends no output. -/
inductive Relays (s s' : Server κ) : Prop
  | drain (c : κ) (conn : ConnectionState) (hc : s.clients c = some conn) (h : s' = s.drain c conn)
  | publish (sessionId pane : Text) (data : Bytes) (uuid : IsUuid sessionId)
      (h : s' = { s with app := s.app.publish sessionId pane data })
  | other (logs : ∀ pane, s'.app.log pane = s.app.log pane)
      (sent : ∀ c, ∃ msgs, s'.outbox c = s.outbox c ++ msgs ∧ Quiet msgs)
      (subs : ∀ c conn', s'.clients c = some conn' → conn'.paneSubs = [] ∨
        ∃ conn, s.clients c = some conn ∧ (conn'.paneSubs = conn.paneSubs ∨
          (∃ pane, conn'.paneSubs = conn.paneSubs.delete pane) ∨
          ∃ pane, conn'.paneSubs = conn.paneSubs.set pane ⟨(s.app.log pane).length⟩))

namespace Server

theorem outbox_send (c : κ) (msgs : List ServerMsg) (s : Server κ) (c' : κ) :
    (s.send c msgs).outbox c' = s.outbox c' ++ if c' = c then msgs else [] := by
  unfold send
  by_cases h : c' = c
  · subst h
    simp
  · simp [h]

theorem sent_send {c : κ} {msgs : List ServerMsg} (h : Quiet msgs) (s : Server κ) (c' : κ) :
    ∃ msgs', (s.send c msgs).outbox c' = s.outbox c' ++ msgs' ∧ Quiet msgs' := by
  refine ⟨_, outbox_send c msgs s c', ?_⟩
  split
  · exact h
  · exact fun _ hm => by cases hm

theorem relays_same {s s' : Server κ} (hl : ∀ pane, s'.app.log pane = s.app.log pane)
    (ho : s'.outbox = s.outbox) (hc : s'.clients = s.clients) : Relays s s' :=
  .other hl (fun c => ⟨[], by rw [ho, List.append_nil], quiet_nil⟩)
    fun _ conn h => .inr ⟨conn, hc ▸ h, .inl rfl⟩

theorem relays_refl (s : Server κ) : Relays s s := relays_same (fun _ => rfl) rfl rfl

theorem log_foldl_disconnect (envs : Text → Session.Env) (sessions : List ManagedSession)
    (app : AppState) (pane : Text) :
    (sessions.foldl (fun app session =>
      (app.withManager (·.disconnect (envs session.id) session.id)).1) app).log pane =
      app.log pane := by
  induction sessions generalizing app with
  | nil => rfl
  | cons session sessions ih => exact ih _

/-- A new connection is sent the sessions, and hears nothing. -/
theorem accept_spec (c : κ) (userId : Text) (env : Session.Env) (s : Server κ) :
    (∀ c', ∃ msgs, (s.accept c userId env).outbox c' = s.outbox c' ++ msgs ∧ Quiet msgs) ∧
      (s.accept c userId env).clients = Function.update s.clients c (some (.new userId)) := by
  refine ⟨fun c' => sent_send ?_ _ c', rfl⟩
  intro msg hm pane
  split at hm
  · rw [List.mem_singleton] at hm
    subst hm
    rfl
  · cases hm

theorem relays_accept (c : κ) (userId : Text) (env : Session.Env) (s : Server κ) :
    Relays s (s.accept c userId env) := by
  obtain ⟨hsent, hclients⟩ := accept_spec c userId env s
  refine .other (fun _ => rfl) hsent fun c' conn' hc => ?_
  rw [hclients] at hc
  by_cases h : c' = c
  · subst h
    rw [Function.update_self, Option.some.injEq] at hc
    subst hc
    exact .inl rfl
  · rw [Function.update_of_ne h] at hc
    exact .inr ⟨conn', hc, .inl rfl⟩

theorem relays_message (c : κ) (msg : ClientMsg) (env : MsgEnv) {conn : ConnectionState}
    {s : Server κ} (hc : s.clients c = some conn) : Relays s (s.message c msg env conn) := by
  refine .other (fun pane => log_handleClientMsg env msg s.app conn pane)
    (fun c' => sent_send (quiet_handleClientMsg env msg s.app conn) _ c') fun c' conn' hc' => ?_
  simp only [message, send] at hc'
  refine .inr ?_
  by_cases h : c' = c
  · subst h
    rw [Function.update_self, Option.some.injEq] at hc'
    subst hc'
    refine ⟨conn, hc, ?_⟩
    rw [paneSubs_handleClientMsg]
    cases msg with
    | subscribe pane => exact .inr (.inr ⟨pane, rfl⟩)
    | unsubscribe pane => exact .inr (.inl ⟨pane, rfl⟩)
    | _ => exact .inl rfl
  · rw [Function.update_of_ne h] at hc'
    exact ⟨conn', hc', .inl rfl⟩

/-- A connection that goes takes its receivers with it. -/
theorem relays_gone {s s' : Server κ} {c : κ} (hl : ∀ pane, s'.app.log pane = s.app.log pane)
    (ho : s'.outbox = s.outbox) (hc : s'.clients = Function.update s.clients c none) :
    Relays s s' := by
  refine .other hl (fun c' => ⟨[], by simp [ho], quiet_nil⟩) fun c' conn' hc' => ?_
  rw [hc] at hc'
  by_cases h : c' = c
  · subst h
    simp at hc'
  · rw [Function.update_of_ne h] at hc'
    exact .inr ⟨conn', hc', .inl rfl⟩

/-- **What a step relays.** -/
theorem relays_step {s : Server κ} (h : s.app.sessionManager.Sound) (i : Input κ) :
    Relays s (s.step i) := by
  cases i with
  | accept c userId env =>
    simp only [step]
    split
    · exact relays_accept c userId env s
    · exact relays_refl s
  | message c msg env =>
    simp only [step]
    cases hc : s.clients c with
    | none => exact relays_refl s
    | some conn => exact relays_message c msg env hc
  | drain c =>
    simp only [step]
    cases hc : s.clients c with
    | none => exact relays_refl s
    | some conn => exact .drain c conn hc rfl
  | close c envs =>
    simp only [step]
    cases hc : s.clients c with
    | none => exact relays_refl s
    | some conn => exact relays_gone (fun pane => log_foldl_disconnect envs _ _ pane) rfl rfl
  | leave c => exact relays_gone (fun _ => rfl) rfl rfl
  | output sessionId pane data =>
    simp only [step]
    split
    · next hr =>
      refine .publish sessionId pane data (h.uuid sessionId ?_) rfl
      cases hs : s.app.sessionManager.sessions sessionId with
      | none => simp [hs] at hr
      | some entry => rfl
    · exact relays_refl s
  | deployStatus c deployment status agentId version quicPort =>
    simp only [step]
    split
    · refine .other (fun _ => rfl) (fun c' => sent_send ?_ s c')
        fun _ conn hc => .inr ⟨conn, hc, .inl rfl⟩
      intro msg hm pane
      rw [List.mem_singleton] at hm
      subst hm
      rfl
    · exact relays_refl s
  | registerAgent agent => exact relays_same (fun _ => rfl) rfl rfl
  | uploadKey keyId key passphrase => exact relays_same (fun _ => rfl) rfl rfl

/-! ## The frames are pieces of the logs -/

/-- Receivers are inside their channels, one for each pane, and a frame carries a
piece that was sent on its pane's channel. -/
structure Framed (s : Server κ) : Prop where
  bounded : ∀ c conn pane r, s.clients c = some conn → conn.paneSubs.get pane = some r →
    r.next ≤ (s.app.log pane).length
  nodup : ∀ c conn, s.clients c = some conn → conn.paneSubs.keys.Nodup
  tagged : ∀ pane, ∀ ch ∈ s.app.log pane, IsUuid ch.origin ∧ ch.pane = pane
  framed : ∀ c pane ch sid, ServerMsg.output pane ch sid ∈ s.outbox c →
    sid = none ∧ ch ∈ s.app.log pane

omit [DecidableEq κ] in
theorem framed_new (db : List SessionRow) : (new db : Server κ).Framed :=
  ⟨by simp [new], by simp [new], by simp [new, AppState.new, AppState.log], by simp [new]⟩

theorem framed_drain {c : κ} {conn : ConnectionState} {s : Server κ} (h : s.Framed)
    (hc : s.clients c = some conn) : (s.drain c conn).Framed := by
  refine ⟨fun c' conn' pane r hc' hr => ?_, fun c' conn' hc' => ?_, h.tagged,
    fun c' pane ch sid hm => ?_⟩
  · simp only [drain, send] at hc'
    by_cases he : c' = c
    · subst he
      rw [Function.update_self, Option.some.injEq] at hc'
      subst hc'
      simp only [drainPaneOutputs, Table.get_mapValues, Option.map_eq_some_iff] at hr
      obtain ⟨r', hr', rfl⟩ := hr
      rw [drainSub_eq (h.bounded c' conn pane r' hc hr')]
      exact Nat.le_refl _
    · rw [Function.update_of_ne he] at hc'
      exact h.bounded c' conn' pane r hc' hr
  · simp only [drain, send] at hc'
    by_cases he : c' = c
    · subst he
      rw [Function.update_self, Option.some.injEq] at hc'
      subst hc'
      simpa [drainPaneOutputs] using h.nodup c' conn hc
    · rw [Function.update_of_ne he] at hc'
      exact h.nodup c' conn' hc'
  · rw [drain, outbox_send, List.mem_append] at hm
    rcases hm with hm | hm
    · exact h.framed c' pane ch sid hm
    · split at hm
      · simp only [drainPaneOutputs, List.mem_flatMap, List.mem_map] at hm
        obtain ⟨e, he, d, hd, heq⟩ := hm
        cases heq
        refine ⟨rfl, ?_⟩
        have hget : conn.paneSubs.get e.1 = some e.2 := Table.get_of_mem (h.nodup c conn hc) he
        rw [drainSub_eq (h.bounded c conn e.1 e.2 hc hget)] at hd
        exact List.mem_of_mem_drop hd
      · cases hm

omit [DecidableEq κ] in
theorem framed_publish {s : Server κ} (h : s.Framed) {sessionId : Text} (uuid : IsUuid sessionId)
    (q : Text) (data : Bytes) :
    ({ s with app := s.app.publish sessionId q data } : Server κ).Framed := by
  refine ⟨fun c conn pane r hc hr => ?_, h.nodup, fun pane ch hm => ?_,
    fun c pane ch sid hm => ?_⟩
  · simp only [log_publish, List.length_append]
    exact Nat.le_add_right_of_le (h.bounded c conn pane r hc hr)
  · simp only [log_publish, List.mem_append] at hm
    rcases hm with hm | hm
    · exact h.tagged pane ch hm
    · split at hm
      · next he =>
        rw [List.mem_singleton] at hm
        subst hm
        exact ⟨uuid, he.symm⟩
      · cases hm
  · obtain ⟨hs, hm⟩ := h.framed c pane ch sid hm
    refine ⟨hs, ?_⟩
    simp only [log_publish, List.mem_append]
    exact .inl hm

theorem Framed.relays {s s' : Server κ} (h : s.Framed) (hr : Relays s s') : s'.Framed := by
  cases hr with
  | drain c conn hc he => exact he ▸ framed_drain h hc
  | publish sessionId q data uuid he =>
    subst he
    exact framed_publish h uuid q data
  | other logs sent subs =>
    refine ⟨fun c conn' pane r hc hr => ?_, fun c conn' hc => ?_, fun pane => ?_,
      fun c pane ch sid hm => ?_⟩
    · rw [logs]
      rcases subs c conn' hc with hnil | ⟨conn, hc', heq | ⟨q, heq⟩ | ⟨q, heq⟩⟩
      · simp [hnil] at hr
      · exact h.bounded c conn pane r hc' (heq ▸ hr)
      · rw [heq] at hr
        by_cases hq : pane = q
        · simp [hq] at hr
        · rw [Table.get_delete_ne hq] at hr
          exact h.bounded c conn pane r hc' hr
      · rw [heq] at hr
        by_cases hq : pane = q
        · subst hq
          rw [Table.get_set_self, Option.some.injEq] at hr
          subst hr
          exact Nat.le_refl _
        · rw [Table.get_set_ne hq] at hr
          exact h.bounded c conn pane r hc' hr
    · rcases subs c conn' hc with hnil | ⟨conn, hc', heq | ⟨q, heq⟩ | ⟨q, heq⟩⟩
      · simp [hnil, Table.keys]
      · exact heq ▸ h.nodup c conn hc'
      · exact heq ▸ Table.nodup_keys_delete (h.nodup c conn hc') q
      · exact heq ▸ Table.nodup_keys_set (h.nodup c conn hc') q _
    · rw [logs]
      exact h.tagged pane
    · obtain ⟨msgs, ho, hq⟩ := sent c
      rw [ho, List.mem_append] at hm
      rw [logs]
      rcases hm with hm | hm
      · exact h.framed c pane ch sid hm
      · exact absurd (hq _ hm pane) (by simp [ServerMsg.chunkFor])

/-! ## What a client got, and what it will get -/

/-- `given`, together with what is in the outbox behind position `n`, is a part of
what the session produced in the pane up to a place that the connection's
receiver has not to read any more. -/
def Feeds (s : Server κ) (c : κ) (n : Nat) (sessionId pane : Text) (given : List Chunk) : Prop :=
  ∃ m ≤ (s.app.log pane).length,
    (∀ conn r, s.clients c = some conn → conn.paneSubs.get pane = some r → m ≤ r.next) ∧
    (given ++ (chunks pane ((s.outbox c).drop n)).filter (·.origin = sessionId)).Sublist
      (((s.app.log pane).take m).filter (·.origin = sessionId))

omit [DecidableEq κ] in
theorem Feeds.produced {s : Server κ} {c : κ} {n : Nat} {sessionId pane : Text}
    {given : List Chunk} (h : s.Feeds c n sessionId pane given) :
    given.Sublist (s.app.produced sessionId pane) := by
  obtain ⟨m, -, -, hs⟩ := h
  exact ((List.sublist_append_left _ _).trans hs).trans ((List.take_sublist m _).filter _)

omit [DecidableEq κ] in
/-- A connection to which nothing is to come. -/
theorem feeds_spent {s : Server κ} {c : κ} {n : Nat} {sessionId pane : Text} {given : List Chunk}
    (hunder : chunks pane ((s.outbox c).drop n) = [])
    (hread : ∀ conn r, s.clients c = some conn → conn.paneSubs.get pane = some r →
      (s.app.log pane).length ≤ r.next) (h : given.Sublist (s.app.produced sessionId pane)) :
    s.Feeds c n sessionId pane given := by
  refine ⟨(s.app.log pane).length, Nat.le_refl _, hread, ?_⟩
  rw [hunder, List.filter_nil, List.append_nil, List.take_length]
  exact h

omit [DecidableEq κ] in
/-- The next frame is handed over, or it is not. -/
theorem Feeds.advance {s : Server κ} {c : κ} {n : Nat} {sessionId pane : Text}
    {given given' : List Chunk} (h : s.Feeds c n sessionId pane given) {frame : ServerMsg}
    (hn : (s.outbox c)[n]? = some frame)
    (hg : given' = given ∨ ∃ ch, frame.chunkFor pane = some ch ∧ ch.origin = sessionId ∧
      given' = given ++ [ch]) : s.Feeds c (n + 1) sessionId pane given' := by
  obtain ⟨m, hm, hle, hs⟩ := h
  refine ⟨m, hm, hle, List.Sublist.trans ?_ hs⟩
  obtain ⟨hlt, hframe⟩ := List.getElem?_eq_some_iff.mp hn
  have hdrop : chunks pane ((s.outbox c).drop n) =
      (frame.chunkFor pane).toList ++ chunks pane ((s.outbox c).drop (n + 1)) := by
    rw [List.drop_eq_getElem_cons hlt, hframe, chunks, List.filterMap_cons]
    cases frame.chunkFor pane <;> rfl
  rw [hdrop, List.filter_append, ← List.append_assoc]
  refine List.Sublist.append ?_ (List.Sublist.refl _)
  rcases hg with rfl | ⟨ch, hch, horigin, rfl⟩
  · exact List.sublist_append_left _ _
  · simp [hch, horigin]

/-- A turn sends what the receivers have pending. -/
theorem chunks_drain {s : Server κ} (hf : s.Framed) {c : κ} {conn : ConnectionState}
    (hc : s.clients c = some conn) {n : Nat} (hn : n ≤ (s.outbox c).length) (pane : Text) :
    chunks pane (((s.drain c conn).outbox c).drop n) = chunks pane ((s.outbox c).drop n) ++
      ((conn.paneSubs.get pane).map fun r => (drainSub s.app pane r).1).getD [] := by
  rw [Server.drain, outbox_send, if_pos rfl, List.drop_append_of_le_length hn, chunks_append,
    chunks_drainPaneOutputs s.app (hf.nodup c conn hc)]

/-- The receivers of the connection behind a turn. -/
theorem get_drain {s : Server κ} {c : κ} {conn conn' : ConnectionState}
    (hc' : (s.drain c conn).clients c = some conn') (pane : Text) :
    conn'.paneSubs.get pane =
      (conn.paneSubs.get pane).map fun r => (drainSub s.app pane r).2 := by
  simp only [Server.drain, send, Function.update_self, Option.some.injEq] at hc'
  rw [← hc', drainPaneOutputs, Table.get_mapValues]

theorem Feeds.drain {s : Server κ} (hf : s.Framed) {c c' : κ} {conn : ConnectionState}
    (hc : s.clients c = some conn) {n : Nat} (hn : n ≤ (s.outbox c').length)
    {sessionId pane : Text} {given : List Chunk} (h : s.Feeds c' n sessionId pane given) :
    (s.drain c conn).Feeds c' n sessionId pane given := by
  obtain ⟨m, hm, hle, hs⟩ := h
  by_cases he : c' = c
  · subst he
    have hout := chunks_drain hf hc hn pane
    cases hg : conn.paneSubs.get pane with
    | none =>
      rw [hg, Option.map_none, Option.getD_none, List.append_nil] at hout
      refine ⟨m, hm, fun conn' r hc' hr => ?_, by rwa [hout]⟩
      rw [get_drain hc', hg] at hr
      cases hr
    | some r =>
      have hb := hf.bounded c' conn pane r hc hg
      have hd := drainSub_eq hb
      have hmr : m ≤ max r.next ((s.app.log pane).length - paneCapacity) :=
        Nat.le_trans (hle conn r hc hg) (Nat.le_max_left _ _)
      rw [hg, Option.map_some, Option.getD_some, hd] at hout
      refine ⟨(s.app.log pane).length, Nat.le_refl _, fun conn' r' hc' hr' => ?_, ?_⟩
      · rw [get_drain hc', hg, Option.map_some, Option.some.injEq, hd] at hr'
        rw [← hr']
      · -- the new pieces lie behind `m` in the log
        have hsplit : (s.app.log pane).filter (·.origin = sessionId) =
            ((s.app.log pane).take m).filter (·.origin = sessionId) ++
              ((s.app.log pane).drop m).filter (·.origin = sessionId) := by
          rw [← List.filter_append, List.take_append_drop]
        rw [hout, List.filter_append, ← List.append_assoc]
        simp only [Server.drain, send, List.take_length]
        rw [hsplit]
        exact hs.append ((List.drop_sublist_drop_left _ hmr).filter _)
  · have hout : (s.drain c conn).outbox c' = s.outbox c' := by
      rw [Server.drain, outbox_send, if_neg he, List.append_nil]
    refine ⟨m, hm, fun conn' r' hc' hr' => ?_, by rw [hout]; exact hs⟩
    simp only [Server.drain, send, Function.update_of_ne he] at hc'
    exact hle conn' r' hc' hr'

/-- **Every step keeps the order of a feed**, and adds no piece twice. -/
theorem Feeds.relays {s s' : Server κ} (hf : s.Framed) (hr : Relays s s') {c : κ} {n : Nat}
    (hn : n ≤ (s.outbox c).length) {sessionId pane : Text} {given : List Chunk}
    (h : s.Feeds c n sessionId pane given) : s'.Feeds c n sessionId pane given := by
  cases hr with
  | drain c' conn hc he => exact he ▸ h.drain hf hc hn
  | publish sessionId' q data uuid he =>
    subst he
    obtain ⟨m, hm, hle, hs⟩ := h
    refine ⟨m, ?_, hle, ?_⟩
    · simp only [log_publish, List.length_append]
      exact Nat.le_add_right_of_le hm
    · simp only [log_publish, List.take_append_of_le_length hm]
      exact hs
  | other logs sent subs =>
    obtain ⟨m, hm, hle, hs⟩ := h
    obtain ⟨msgs, ho, hq⟩ := sent c
    refine ⟨m, by rwa [logs], fun conn' r hc hr => ?_, ?_⟩
    · rcases subs c conn' hc with hnil | ⟨conn, hc', heq | ⟨q, heq⟩ | ⟨q, heq⟩⟩
      · simp [hnil] at hr
      · exact hle conn r hc' (heq ▸ hr)
      · rw [heq] at hr
        by_cases hq : pane = q
        · simp [hq] at hr
        · rw [Table.get_delete_ne hq] at hr
          exact hle conn r hc' hr
      · rw [heq] at hr
        by_cases hq : pane = q
        · subst hq
          rw [Table.get_set_self, Option.some.injEq] at hr
          subst hr
          exact hm
        · rw [Table.get_set_ne hq] at hr
          exact hle conn r hc' hr
    · rw [logs, ho, List.drop_append_of_le_length hn, chunks_append, hq.chunks_eq, List.append_nil]
      exact hs

/-! ## What stays -/

theorem log_relays {s s' : Server κ} (hr : Relays s s') (pane : Text) :
    s.app.log pane <+: s'.app.log pane := by
  cases hr with
  | drain c conn hc he => exact he ▸ List.prefix_refl _
  | publish sessionId q data uuid he =>
    subst he
    simp only [log_publish]
    exact List.prefix_append _ _
  | other logs sent subs => exact logs pane ▸ List.prefix_refl _

theorem produced_relays {s s' : Server κ} (hr : Relays s s') (sessionId pane : Text) :
    (s.app.produced sessionId pane).Sublist (s'.app.produced sessionId pane) :=
  (log_relays hr pane).sublist.filter _

theorem outbox_relays {s s' : Server κ} (hr : Relays s s') (c : κ) :
    s.outbox c <+: s'.outbox c := by
  cases hr with
  | drain c' conn hc he =>
    subst he
    rw [drain, outbox_send]
    exact List.prefix_append _ _
  | publish sessionId q data uuid he => exact he ▸ List.prefix_refl _
  | other logs sent subs =>
    obtain ⟨msgs, ho, -⟩ := sent c
    exact ho ▸ List.prefix_append _ _

/-- The input neither makes the connection nor is a message on it. -/
def spares (c : κ) : Input κ → Prop
  | .accept c' _ _ | .message c' _ _ => c ≠ c'
  | _ => True

/-- The connection has the panes that it had, and got nothing if it was not
there. -/
def Spared (c : κ) (s s' : Server κ) : Prop :=
  (∀ conn', s'.clients c = some conn' → ∃ conn, s.clients c = some conn ∧
    conn'.paneSubs.keys = conn.paneSubs.keys) ∧
  (s.clients c = none → s'.outbox c = s.outbox c)

/-- The input is one of the connection. -/
def concerns (c : κ) : Input κ → Prop
  | .accept c' _ _ | .message c' _ _ | .drain c' | .close c' _ | .leave c' => c' = c
  | _ => False

/-- A connection stays as it is, and is sent no output, and nothing if it is not there. -/
def LeftAlone (c : κ) (s s' : Server κ) : Prop :=
  s'.clients c = s.clients c ∧
    ∃ msgs, s'.outbox c = s.outbox c ++ msgs ∧ Quiet msgs ∧ (s.clients c = none → msgs = [])

omit [DecidableEq κ] in
theorem leftAlone_of_same {c : κ} {s s' : Server κ} (hc : s'.clients c = s.clients c)
    (ho : s'.outbox c = s.outbox c) : LeftAlone c s s' :=
  ⟨hc, [], by rw [ho, List.append_nil], quiet_nil, fun _ => rfl⟩

/-- Another connection changes, and is sent something. -/
theorem leftAlone_send {c c' : κ} (hne : c' ≠ c) {s s' : Server κ}
    (hc : s'.clients c = s.clients c) (ho : s'.outbox c = s.outbox c) (msgs : List ServerMsg) :
    LeftAlone c s (s'.send c' msgs) :=
  leftAlone_of_same hc (by rw [outbox_send, if_neg (Ne.symm hne), List.append_nil, ho])

/-- **A step of another connection**, or of none, leaves a connection alone. -/
theorem step_leftAlone {c : κ} {i : Input κ} (h : ¬ concerns c i) (s : Server κ) :
    LeftAlone c s (s.step i) := by
  have hother : ∀ {c' : κ} (x : Option ConnectionState), c' ≠ c →
      Function.update s.clients c' x c = s.clients c :=
    fun _ hne => Function.update_of_ne (Ne.symm hne) _ _
  cases i with
  | accept c' userId env =>
    simp only [step]
    split
    · refine leftAlone_send h ?_ ?_ _
      · exact hother _ h
      · rfl
    · exact leftAlone_of_same rfl rfl
  | message c' msg env =>
    simp only [step]
    cases s.clients c' with
    | none => exact leftAlone_of_same rfl rfl
    | some conn =>
      refine leftAlone_send h ?_ ?_ _
      · exact hother _ h
      · rfl
  | drain c' =>
    simp only [step]
    cases s.clients c' with
    | none => exact leftAlone_of_same rfl rfl
    | some conn =>
      refine leftAlone_send h ?_ ?_ _
      · exact hother _ h
      · rfl
  | close c' envs =>
    simp only [step]
    cases s.clients c' with
    | none => exact leftAlone_of_same rfl rfl
    | some conn => exact leftAlone_of_same (hother _ h) rfl
  | leave c' => exact leftAlone_of_same (hother _ h) rfl
  | output sessionId pane data =>
    simp only [step]
    split <;> exact leftAlone_of_same rfl rfl
  | deployStatus c' deployment status agentId version quicPort =>
    simp only [step]
    split
    · next hd =>
      by_cases he : c' = c
      · subst he
        refine ⟨rfl, _, by rw [outbox_send, if_pos rfl], ?_, fun hnone => ?_⟩
        · intro msg hm pane
          rw [List.mem_singleton.mp hm]
          rfl
        · rw [hnone] at hd
          cases hd
      · exact leftAlone_send he rfl rfl _
    · exact leftAlone_of_same rfl rfl
  | registerAgent agent => exact leftAlone_of_same rfl rfl
  | uploadKey keyId key passphrase => exact leftAlone_of_same rfl rfl

/-- Only output of the pane is added to its log. -/
theorem log_step {i : Input κ} {pane : Text}
    (h : ∀ sessionId data, i ≠ .output sessionId pane data) (s : Server κ) :
    (s.step i).app.log pane = s.app.log pane := by
  cases i with
  | accept c userId env =>
    simp only [step]
    split <;> rfl
  | message c msg env =>
    simp only [step]
    cases s.clients c with
    | none => rfl
    | some conn => exact log_handleClientMsg env msg s.app conn pane
  | drain c =>
    simp only [step]
    cases s.clients c <;> rfl
  | close c envs =>
    simp only [step]
    cases s.clients c with
    | none => rfl
    | some conn => exact log_foldl_disconnect envs _ _ pane
  | output sessionId q data =>
    have hne : pane ≠ q := fun he => h sessionId data (he ▸ rfl)
    simp only [step]
    split
    · rw [log_publish, if_neg hne, List.append_nil]
    · rfl
  | deployStatus c deployment status agentId version quicPort =>
    simp only [step]
    split <;> rfl
  | _ => rfl

omit [DecidableEq κ] in
theorem LeftAlone.spared {c : κ} {s s' : Server κ} (h : LeftAlone c s s') : Spared c s s' := by
  obtain ⟨hc, msgs, ho, -, hnil⟩ := h
  refine ⟨fun conn' hc' => ⟨conn', hc ▸ hc', rfl⟩, fun hnone => ?_⟩
  rw [ho, hnil hnone, List.append_nil]

omit [DecidableEq κ] in
theorem spared_of_gone {c : κ} {s s' : Server κ} (hc : s'.clients c = none)
    (ho : s'.outbox = s.outbox) : Spared c s s' := by
  refine ⟨fun conn' hc' => ?_, fun _ => by rw [ho]⟩
  rw [hc] at hc'
  cases hc'

theorem step_spares {c : κ} {i : Input κ} (h : spares c i) (s : Server κ) :
    Spared c s (s.step i) := by
  by_cases hi : concerns c i
  · cases i with
    | accept c' userId env => exact absurd hi (Ne.symm h)
    | message c' msg env => exact absurd hi (Ne.symm h)
    | drain c' =>
      cases hi
      simp only [step]
      cases hc : s.clients c with
      | none => exact (leftAlone_of_same rfl rfl).spared
      | some conn =>
        refine ⟨fun conn' hc' => ⟨conn, hc, ?_⟩, fun hn => ?_⟩
        · simp only [Option.elim_some, drain, send, Function.update_self, Option.some.injEq] at hc'
          subst hc'
          simp [drainPaneOutputs]
        · rw [hc] at hn
          cases hn
    | close c' envs =>
      cases hi
      simp only [step]
      cases s.clients c with
      | none => exact (leftAlone_of_same rfl rfl).spared
      | some conn => exact spared_of_gone (Function.update_self _ _ _) rfl
    | leave c' =>
      cases hi
      exact spared_of_gone (Function.update_self _ _ _) rfl
    | _ => exact hi.elim
  · exact (step_leftAlone hi s).spared

end Server

end Oxmux.Ws
