import Oxmux.Lib.Records
import Oxmux.Session.Loading

/-! The sessions of a user as the server's answers show them, and what each
answer says of its operation: the list presents all of them, and every other
answer that is no error carries the one session that changed. -/

namespace Oxmux.Session
open Oxmux.Lib Oxmux.Lib.Records

namespace SessionManager

def rowOf (userId : Text) (db : List SessionRow) (id : Text) : Option SessionRow :=
  db.find? fun row => row.id.val = id ∧ row.userId = userId

/-- A user's session, from memory or else from its row. -/
def visible (userId : Text) (m : SessionManager) (id : Text) : Option ManagedSession :=
  (rowOf userId m.db id).bind fun row =>
    ((m.get id).or (rowToManagedSession row)).map (·.sanitized)

/-- The sessions in memory have their own ids. -/
def Named (m : SessionManager) : Prop :=
  ∀ id s, m.get id = some s → s.id = id

/-! ## Rows that are rewritten -/

/-- At most columns that do not tell whose session it is differ, and those only
in the rows of the id. -/
def Rewrites (id : Text) (db db' : List SessionRow) : Prop :=
  List.Forall₂ (fun row row' : SessionRow => row'.id = row.id ∧ row'.userId = row.userId ∧
    (row.id.val ≠ id → row' = row)) db db'

section
variable {id : Text} {db db' : List SessionRow}

theorem Rewrites.refl (id : Text) (db : List SessionRow) : Rewrites id db db :=
  List.forall₂_same.mpr fun _ _ => ⟨rfl, rfl, fun _ => rfl⟩

theorem Rewrites.update (h : Rewrites id db db') {f : SessionRow → SessionRow}
    (hid : ∀ row, (f row).id = row.id) (huser : ∀ row, (f row).userId = row.userId) :
    Rewrites id db (updateRow id f db') := by
  refine List.forall₂_map_right_iff.mpr (h.imp fun row row' ⟨h₁, h₂, h₃⟩ => ?_)
  split
  · next hrow =>
    exact ⟨(hid row').trans h₁, (huser row').trans h₂, fun hne => absurd (h₁ ▸ hrow) hne⟩
  · exact ⟨h₁, h₂, h₃⟩

theorem Rewrites.status {m m' : SessionManager} (h : Rewrites id m.db m'.db) (ok : Bool)
    (status : SessionStatus) (error : Option Text) :
    Rewrites id m.db (m'.updateSessionStatus ok id status error).db := by
  unfold updateSessionStatus
  split
  · exact h.update (fun _ => rfl) fun _ => rfl
  · exact h

theorem Rewrites.rowOf_ne (h : Rewrites id db db') (userId : Text) {id' : Text} (hne : id' ≠ id) :
    rowOf userId db' id' = rowOf userId db id' := by
  unfold rowOf
  induction h with
  | nil => rfl
  | @cons row row' db db' hrow _ ih =>
    obtain ⟨h₁, h₂, h₃⟩ := hrow
    rw [List.find?_cons, List.find?_cons, h₁, h₂, ih]
    by_cases hid : row.id.val = id'
    · rw [h₃ fun he => hne (hid.symm.trans he)]
    · simp [hid]

theorem Rewrites.isSome_rowOf (h : Rewrites id db db') (userId id' : Text) :
    (rowOf userId db' id').isSome = (rowOf userId db id').isSome := by
  unfold rowOf
  induction h with
  | nil => rfl
  | @cons row row' db db' hrow _ ih =>
    obtain ⟨h₁, h₂, -⟩ := hrow
    rw [List.find?_cons, List.find?_cons, h₁, h₂]
    split
    · rfl
    · exact ih

end

/-! ## What the operations make of a session -/

section
variable {m : SessionManager}

theorem get_setEntry (id : Text) (entry : SessionEntry) (m : SessionManager) (id' : Text) :
    (m.setEntry id entry).get id' = if id' = id then some entry.metadata else m.get id' := by
  unfold get setEntry
  by_cases h : id' = id
  · simp [h]
  · simp [h]

@[simp] theorem get_updateSessionStatus (ok : Bool) (id : Text) (status : SessionStatus)
    (error : Option Text) (m : SessionManager) (id' : Text) :
    (m.updateSessionStatus ok id status error).get id' = m.get id' := by
  rw [get, updateSessionStatus_sessions, get]

/-- An operation on one session, with its answer. The session keeps its id, and
an answer that is no error is the session as it is then. -/
structure Revises (m : SessionManager) (id : Text)
    (r : SessionManager × Except Text ManagedSession) : Prop where
  others : ∀ id', id' ≠ id → r.1.get id' = m.get id'
  self : ∀ s', r.1.get id = some s' → ∃ s, m.get id = some s ∧ s'.id = s.id
  answered : ∀ s, r.2 = .ok s → r.1.get id = some s
  rows : Rewrites id m.db r.1.db

theorem Revises.refused {id error : Text} {m' : SessionManager}
    (hs : ∀ id', m'.get id' = m.get id') (hdb : m'.db = m.db) :
    m.Revises id (m', .error error) where
  others id' _ := hs id'
  self s h := ⟨s, by rwa [← hs], rfl⟩
  answered s h := by cases h
  rows := hdb ▸ .refl id m.db

theorem Revises.set {id : Text} {entry : SessionEntry} (hs : m.sessions id = some entry)
    (metadata : ManagedSession) (hid : metadata.id = entry.metadata.id) {m' : SessionManager}
    (hget : ∀ id', m'.get id' = if id' = id then some metadata else m.get id')
    (hrows : Rewrites id m.db m'.db) {answer : Except Text ManagedSession}
    (ha : ∀ s, answer = .ok s → metadata = s) : m.Revises id (m', answer) := by
  refine ⟨fun id' hne => by rw [hget, if_neg hne], fun s' h => ?_, fun s h => ?_, hrows⟩
  · rw [hget, if_pos rfl, Option.some.injEq] at h
    exact ⟨entry.metadata, by rw [get, hs, Option.map_some], h ▸ hid⟩
  · rw [hget, if_pos rfl, ha s h]

theorem revises_update (env : Env) (id : Text) (req : UpdateSessionRequest) (m : SessionManager) :
    m.Revises id (m.update env id req) := by
  unfold update
  cases hs : m.sessions id with
  | none => exact .refused (fun _ => rfl) rfl
  | some entry =>
    cases req.name with
    | none =>
      refine .set hs entry.metadata rfl (fun id' => ?_) (.refl id m.db) fun s h => Except.ok.inj h
      split
      · next he => rw [he, get, hs, Option.map_some]
      · rfl
    | some name =>
      have hset := get_setEntry id { entry with metadata := { entry.metadata with name } } m
      simp only
      split
      · refine .set hs { entry.metadata with name } rfl (fun id' => ?_) ?_
          fun s h => Except.ok.inj h
        · exact hset id'
        · exact (Rewrites.refl id m.db).update (fun _ => rfl) fun _ => rfl
      · exact .set hs { entry.metadata with name } rfl hset (.refl id m.db) fun s h => by cases h

theorem revises_connect (env : Env) (id : Text) (m : SessionManager) :
    m.Revises id (m.connect env id) := by
  unfold connect
  cases hs : m.sessions id with
  | none => exact .refused (fun _ => rfl) rfl
  | some entry =>
    have hrows := (Rewrites.refl id m.db).status (env.dbWrite 0) .connecting none
    cases env.connect with
    | none =>
      simp only
      refine .set hs _ ?_ (fun id' => ?_) (.status ?_ _ _ _) fun s h => Except.ok.inj h
      · rfl
      · rw [get_updateSessionStatus, get_setEntry]
        exact congrArg _ (get_updateSessionStatus ..)
      · exact hrows
    | some failure =>
      simp only
      refine .set hs { entry.metadata with status := .error, error := some failure.error.text } rfl
        (fun id' => ?_) (.status ?_ _ _ _) (by simp)
      · rw [get_updateSessionStatus, get_setEntry]
        exact congrArg _ (get_updateSessionStatus ..)
      · exact hrows

theorem revises_disconnect (env : Env) (id : Text) (m : SessionManager) :
    m.Revises id (m.disconnect env id) := by
  unfold disconnect
  have hr : (m.removeRoutes id).sessions id = m.sessions id := rfl
  cases hs : m.sessions id with
  | none =>
    simp only [hr, hs]
    exact .refused (fun _ => rfl) rfl
  | some entry =>
    simp only [hr, hs]
    refine .set hs { entry.metadata with status := .disconnected, tmuxSessions := [] } rfl
      (fun id' => ?_) (.status ?_ _ _ _) fun s h => Except.ok.inj h
    · rw [get_updateSessionStatus, get_setEntry]
      rfl
    · exact .refl id m.db

theorem revises_refreshTmuxState (env : Env) (id : Text) (m : SessionManager) :
    m.Revises id (m.refreshTmuxState env id) := by
  unfold refreshTmuxState
  cases hs : m.sessions id with
  | none => exact .refused (fun _ => rfl) rfl
  | some entry =>
    cases hl : entry.transport.listTmuxSessions env.listing with
    | error e =>
      simp only [hl]
      exact .refused (fun _ => rfl) rfl
    | ok tmuxSessions =>
      simp only [hl]
      refine .set hs { entry.metadata with tmuxSessions } rfl (fun id' => ?_) ?_
        fun s h => Except.ok.inj h
      · exact get_setEntry ..
      · exact .refl id m.db

theorem get_executeOnPane (cmd : Command) (m : SessionManager) (id' : Text) :
    (m.executeOnPane cmd).1.get id' = m.get id' := by
  unfold executeOnPane
  cases m.paneToSession (commandPane cmd) with
  | none => rfl
  | some id =>
    cases hs : m.sessions id with
    | none => simp only [hs]
    | some entry =>
      simp only [hs]
      cases entry.transport.execute cmd with
      | error e => rfl
      | ok transport =>
        rw [get_setEntry]
        split
        · next he => rw [he, get, hs, Option.map_some]
        · rfl

/-! ## Names -/

theorem Named.of_get {m' : SessionManager} (h : m.Named) (hg : ∀ id, m'.get id = m.get id) :
    m'.Named :=
  fun id s hs => h id s (by rwa [← hg])

theorem Named.setEntry (h : m.Named) {id : Text} {entry : SessionEntry}
    (hid : entry.metadata.id = id) : (m.setEntry id entry).Named := by
  intro id' s hs
  rw [get_setEntry] at hs
  split at hs
  · next he =>
    cases hs
    exact hid.trans he.symm
  · exact h id' s hs

theorem Named.revises (h : m.Named) {id : Text}
    {r : SessionManager × Except Text ManagedSession} (hr : m.Revises id r) : r.1.Named := by
  intro id' s' hs
  by_cases he : id' = id
  · subst he
    obtain ⟨s, hs₀, hid⟩ := hr.self s' hs
    exact hid.trans (h id' s hs₀)
  · exact h id' s' (by rwa [← hr.others id' he])

theorem named_loadRows (h : m.Named) (rows : List SessionRow) : (loadRows rows m).1.Named := by
  induction rows generalizing m with
  | nil => exact h
  | cons row rows ih =>
    unfold loadRows
    cases rowToManagedSession row with
    | none => exact h
    | some metadata =>
      refine ih ?_
      unfold loadRow
      split
      · exact h
      · exact h.setEntry rfl

theorem Named.create (h : m.Named) (env : Env) (userId : Text) (req : CreateSessionRequest) :
    (m.create env userId req).1.Named := by
  unfold SessionManager.create
  simp only
  split
  · exact Named.setEntry (m := { m with db := _ }) (h.of_get fun _ => rfl) rfl
  · exact h

theorem Named.load (h : m.Named) (env : Env) (userId : Text) :
    (m.loadUserSessions env userId).1.Named := by
  unfold loadUserSessions
  split
  · exact named_loadRows h _
  · exact h

theorem get_delete (env : Env) (id : Text) (m : SessionManager) (id' : Text) :
    (m.delete env id).1.get id' = if id' = id then none else m.get id' := by
  unfold delete
  have hr : (m.removeRoutes id).sessions id = m.sessions id := rfl
  cases hs : m.sessions id with
  | none =>
    simp only [hr, hs]
    split
    · next he => rw [he, get, hr, hs, Option.map_none]
    · rfl
  | some entry =>
    have hdel : ((Function.update m.sessions id none) id').map (·.metadata) =
        if id' = id then none else m.get id' := by
      by_cases he : id' = id
      · simp [he]
      · simp [he, get]
    simp only [hr, hs]
    split <;> exact hdel

theorem Named.apply (h : m.Named) (op : Op) : (m.apply op).Named := by
  cases op with
  | create env userId req => exact h.create env userId req
  | load env userId => exact h.load env userId
  | update env id req => exact h.revises (revises_update env id req m)
  | delete env id =>
    intro id' s hs
    rw [SessionManager.apply, get_delete] at hs
    split at hs
    · cases hs
    · exact h id' s hs
  | connect env id => exact h.revises (revises_connect env id m)
  | disconnect env id => exact h.revises (revises_disconnect env id m)
  | refresh env id => exact h.revises (revises_refreshTmuxState env id m)
  | execute cmd => exact h.of_get (get_executeOnPane cmd m)
  | uploadKey keyId key passphrase => exact h.of_get fun _ => rfl

/-! ## What the answers say -/

/-- The sessions that a list presents are the user's. -/
abbrev Lists (userId : Text) (m : SessionManager) (sessions : List ManagedSession) : Prop :=
  Presents (fun s : ManagedSession => s.id) sessions (m.visible userId)

/-- **An answer carries the session as it is then.** To other users, and where
the session has no row, nothing changes. -/
theorem visible_revised (hn : m.Named) {id : Text}
    {r : SessionManager × Except Text ManagedSession} (hr : m.Revises id r) {s : ManagedSession}
    (ha : r.2 = .ok s) (userId : Text) : r.1.visible userId =
      Function.update (m.visible userId) s.id
        ((m.visible userId s.id).map fun _ => s.sanitized) := by
  have hget := hr.answered s ha
  obtain rfl : s.id = id := hn.revises hr id s hget
  obtain ⟨s₀, hget₀, -⟩ := hr.self s hget
  funext id'
  by_cases hid : id' = s.id
  · subst hid
    rw [Function.update_self, visible, visible, hget, hget₀]
    have hsome := hr.rows.isSome_rowOf userId s.id
    cases h : rowOf userId m.db s.id <;> cases h' : rowOf userId r.1.db s.id <;>
      simp_all
  · rw [Function.update_of_ne hid, visible, visible, hr.others id' hid, hr.rows.rowOf_ne userId hid]

theorem visible_created {env : Env} {userId : Text} {req : CreateSessionRequest}
    {s : ManagedSession} (ha : (m.create env userId req).2 = .ok s) :
    m.visible userId s.id = none ∧ (m.create env userId req).1.visible userId =
      Function.update (m.visible userId) s.id (some s.sanitized) := by
  unfold create at ha ⊢
  simp only at ha ⊢
  split at ha
  · next hnew =>
    cases ha
    rw [if_pos hnew]
    have hnone : rowOf userId m.db env.uuid.val = none := by
      rw [rowOf, List.find?_eq_none]
      intro row hm hrow
      have hid : row.id.val = env.uuid.val ∧ row.userId = userId := of_decide_eq_true hrow
      exact hnew.2 (List.mem_map.mpr ⟨row, hm, Subtype.ext hid.1⟩)
    refine ⟨by rw [visible, hnone, Option.bind_none], funext fun id' => ?_⟩
    have hdb (db : List SessionRow) (entry : SessionEntry) :
        (({ m with db } : SessionManager).setEntry env.uuid.val entry).db = db := rfl
    rw [visible, hdb, rowOf, List.find?_append, get_setEntry]
    by_cases hid : id' = env.uuid.val
    · subst hid
      simp
    · rw [Function.update_of_ne hid, visible, rowOf, if_neg hid]
      simp [Ne.symm hid, get]
  · cases ha

theorem visible_deleted {env : Env} {id : Text} {s : ManagedSession}
    (ha : (m.delete env id).2 = .ok s) (userId : Text) :
    (m.delete env id).1.visible userId = Function.update (m.visible userId) id none := by
  have hdb : (m.delete env id).1.db = m.db.filter (·.id.val ≠ id) := by
    unfold delete at ha ⊢
    have hr : (m.removeRoutes id).sessions id = m.sessions id := rfl
    cases hs : m.sessions id with
    | none => simp only [hr, hs] at ha; cases ha
    | some entry =>
      simp only [hr, hs] at ha ⊢
      split at ha
      · next hw => rw [if_pos hw]; rfl
      · cases ha
  funext id'
  rw [visible, hdb, rowOf, List.find?_filter, get_delete]
  by_cases hid : id' = id
  · subst hid
    rw [Function.update_self, List.find?_eq_none.mpr, Option.bind_none]
    intro row _
    simp +contextual
  · rw [Function.update_of_ne hid, visible, rowOf, if_neg hid]
    congr 2
    funext row
    by_cases hrow : row.id.val = id'
    · simp [hrow, hid]
    · simp [hrow]

/-! ## Lists -/

theorem rowOf_eq_some {db : List SessionRow} {userId id : Text} {row : SessionRow}
    (h : rowOf userId db id = some row) : row ∈ db ∧ row.id.val = id ∧ row.userId = userId := by
  rw [rowOf] at h
  have hrow := List.find?_some h
  exact ⟨List.mem_of_find?_eq_some h, of_decide_eq_true hrow⟩

theorem find_listed {db : List SessionRow} (hids : (db.map (·.id)).Nodup) (userId id : Text) :
    (listSessionsForUser db userId).find? (fun row => row.id.val = id) = rowOf userId db id := by
  cases h : rowOf userId db id with
  | none =>
    refine find_listSessionsForUser_none fun row hm hu hid => ?_
    rw [rowOf, List.find?_eq_none] at h
    exact h row hm (decide_eq_true ⟨hid, hu⟩)
  | some row =>
    obtain ⟨hm, rfl, hu⟩ := rowOf_eq_some h
    exact find_listSessionsForUser hids hm hu

/-- What is returned for the rows is what is then in memory, under its ids. -/
theorem ids_loaded {rows : List SessionRow} {sessions : List ManagedSession} {m' : SessionManager}
    (hn : m'.Named) (h : List.Forall₂ (fun row s => m'.get row.id.val = some s) rows sessions) :
    (sessions.map (·.sanitized)).map (·.id) = rows.map (·.id.val) := by
  induction h with
  | nil => rfl
  | @cons row s rows sessions hs _ ih => exact congrArg₂ List.cons (hn row.id.val s hs) ih

theorem find_loaded {rows : List SessionRow} {sessions : List ManagedSession} {m' : SessionManager}
    (hn : m'.Named) (h : List.Forall₂ (fun row s => m'.get row.id.val = some s) rows sessions)
    (id : Text) : (sessions.map (·.sanitized)).find? (fun s => s.id = id) =
      (rows.find? fun row => row.id.val = id).bind fun row =>
        (m'.get row.id.val).map (·.sanitized) := by
  induction h with
  | nil => rfl
  | @cons row s rows sessions hs _ ih =>
    have hid : s.sanitized.id = row.id.val := hn row.id.val s hs
    rw [List.map_cons, List.find?_cons, List.find?_cons, hid]
    split
    · rw [Option.bind_some, hs, Option.map_some]
    · exact ih

/-- **The list presents the user's sessions.** -/
theorem lists_loaded (hids : (m.db.map (·.id)).Nodup) {m' : SessionManager} {userId : Text}
    {sessions : List ManagedSession} (hl : m.Loaded userId m' sessions) (hn : m'.Named) :
    m'.Lists userId (sessions.map (·.sanitized)) := by
  have hrows : List.Forall₂ (fun row s => m'.get row.id.val = some s)
      (listSessionsForUser m.db userId) sessions := hl.listed.imp fun _ _ h => h.1
  refine ⟨?_, fun id => ?_⟩
  · have hnodup : (m.db.map (·.id.val)).Nodup := by
      have h := hids.map Subtype.val_injective
      rwa [List.map_map] at h
    have hperm : (listSessionsForUser m.db userId).Perm (m.db.filter (·.userId = userId)) :=
      List.perm_insertionSort _ _
    rw [ids_loaded hn hrows, (hperm.map _).nodup_iff]
    exact hnodup.sublist (List.filter_sublist.map _)
  · rw [find_loaded hn hrows, find_listed hids, visible, hl.table]
    cases h : rowOf userId m.db id with
    | none => rfl
    | some row =>
      obtain ⟨hm, rfl, hu⟩ := rowOf_eq_some h
      have hsome : (m'.get row.id.val).isSome := by
        cases hs : m.sessions row.id.val with
        | some entry => rw [get, hl.kept _ entry hs]; rfl
        | none =>
          obtain ⟨metadata, -, hs'⟩ := hl.added row hm hu hs
          rw [get, hs']
          rfl
      obtain ⟨s, hs⟩ := Option.isSome_iff_exists.mp hsome
      rw [Option.bind_some, Option.bind_some, hs, Option.some_or]

theorem lists_loadUserSessions (hb : m.books.Sound) (hn : m.Named) {env : Env} {userId : Text}
    {sessions : List ManagedSession} (ha : (m.loadUserSessions env userId).2 = .ok sessions) :
    (m.loadUserSessions env userId).1.Lists userId (sessions.map (·.sanitized)) := by
  obtain ⟨sessions', hok, hl⟩ : ∃ sessions', (loadRows (listSessionsForUser m.db userId) m).2 =
      .ok sessions' ∧ m.Loaded userId (loadRows (listSessionsForUser m.db userId) m).1 sessions' :=
    loaded_loadRows (nodup_ids hb) fun row hm _ => readable_of_books hb hm
  have hn' := named_loadRows hn (listSessionsForUser m.db userId)
  unfold loadUserSessions at ha ⊢
  split at ha
  · next hr =>
    rw [if_pos hr]
    obtain rfl : sessions' = sessions := Except.ok.inj (hok.symm.trans ha)
    exact lists_loaded (nodup_ids hb) hl hn'
  · cases ha

end

end SessionManager

end Oxmux.Session
