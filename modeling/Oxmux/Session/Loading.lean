import Oxmux.Session.Address

/-! `load_user_sessions`: rows and live sessions are brought together whenever a
user connects, lists or leaves. What is in memory wins. -/

namespace Oxmux.Session
open Oxmux.Lib

namespace SessionManager

/-- What loading a user's sessions makes of a server, and what it returns. -/
structure Loaded (m : SessionManager) (userId : Text) (m' : SessionManager)
    (sessions : List ManagedSession) : Prop where
  kept : ∀ id entry, m.sessions id = some entry → m'.sessions id = some entry
  added : ∀ row ∈ m.db, row.userId = userId → m.sessions row.id.val = none →
    ∃ metadata, rowToManagedSession row = some metadata ∧
      m'.sessions row.id.val = some (.ofMetadata metadata)
  others : ∀ id, (∀ row ∈ m.db, row.userId = userId → row.id.val ≠ id) →
    m'.sessions id = m.sessions id
  foreign : ∀ row ∈ m.db, row.userId ≠ userId →
    m'.sessions row.id.val = m.sessions row.id.val
  listed : List.Forall₂ (fun row s => m'.get row.id.val = some s ∧
    ∀ entry, m.sessions row.id.val = some entry → s = entry.metadata)
    (listSessionsForUser m.db userId) sessions
  routes : m'.paneToSession = m.paneToSession
  table : m'.db = m.db
  keys : m'.ephemeralKeys = m.ephemeralKeys

/-! ## The loop -/

section Loop
variable {rows : List SessionRow}

theorem loadRows_kept (hread : ∀ row ∈ rows, (rowToManagedSession row).isSome)
    {m : SessionManager} {id : Text} {entry : SessionEntry} (hs : m.sessions id = some entry) :
    (loadRows rows m).1.sessions id = some entry := by
  rw [sessions_loadRows hread, hs]
  rfl

/-- One row: what is returned is what is then in memory. -/
theorem loadRow_get (metadata : ManagedSession) (m : SessionManager) :
    (loadRow metadata m).1.get metadata.id = some (loadRow metadata m).2 := by
  unfold loadRow get
  split
  · next entry hs => rw [hs]; rfl
  · simp [setEntry]

/-- The loop returns, for every row, what is in memory behind it. -/
theorem loadRows_listed (hread : ∀ row ∈ rows, (rowToManagedSession row).isSome)
    (m : SessionManager) : ∃ sessions, (loadRows rows m).2 = .ok sessions ∧
      List.Forall₂ (fun row s => (loadRows rows m).1.get row.id.val = some s) rows sessions := by
  induction rows generalizing m with
  | nil => exact ⟨[], rfl, .nil⟩
  | cons row rows ih =>
    obtain ⟨metadata, hrow⟩ := Option.isSome_iff_exists.mp (hread row List.mem_cons_self)
    have hread' : ∀ row' ∈ rows, (rowToManagedSession row').isSome :=
      fun row' h => hread row' (List.mem_cons_of_mem row h)
    obtain ⟨sessions, hok, hall⟩ := ih hread' (loadRow metadata m).1
    have hid : metadata.id = row.id.val := (rowToManagedSession_spec hrow).1
    refine ⟨(loadRow metadata m).2 :: sessions, ?_, ?_⟩
    · simp only [loadRows, hrow, hok]
      rfl
    · simp only [loadRows, hrow]
      refine .cons ?_ hall
      -- the sessions behind this row leave its entry alone
      obtain ⟨entry, hs, hm⟩ := Option.map_eq_some_iff.mp (loadRow_get metadata m)
      rw [← hid, get, loadRows_kept hread' hs, Option.map_some, hm]

/-- **With every row in memory there is nothing to do.** -/
theorem loadRows_of_listed {sessions : List ManagedSession} {m : SessionManager}
    (hread : ∀ row ∈ rows, (rowToManagedSession row).isSome)
    (h : List.Forall₂ (fun row s => m.get row.id.val = some s) rows sessions) :
    loadRows rows m = (m, .ok sessions) := by
  induction h with
  | nil => rfl
  | @cons row s rows sessions hs h ih =>
    obtain ⟨metadata, hrow⟩ := Option.isSome_iff_exists.mp (hread row List.mem_cons_self)
    obtain ⟨entry, he, rfl⟩ := Option.map_eq_some_iff.mp hs
    have hload : loadRow metadata m = (m, entry.metadata) := by
      rw [← (rowToManagedSession_spec hrow).1] at he
      simp only [loadRow, he]
    have hrest := ih fun row' h => hread row' (List.mem_cons_of_mem row h)
    simp only [loadRows, hrow, hload, hrest]
    rfl

end Loop

/-! ## The rows of a user -/

section Load
variable {m : SessionManager} {userId : Text}

theorem find_listSessionsForUser_none {db : List SessionRow} {userId id : Text}
    (hid : ∀ row ∈ db, row.userId = userId → row.id.val ≠ id) :
    (listSessionsForUser db userId).find? (fun row => row.id.val = id) = none := by
  rw [List.find?_eq_none]
  intro row hr hrid
  obtain ⟨hm, hu⟩ := mem_listSessionsForUser.mp hr
  exact hid row hm hu (of_decide_eq_true hrid)

theorem loaded_loadRows (hids : (m.db.map (·.id)).Nodup)
    (hread : ∀ row ∈ m.db, row.userId = userId → (rowToManagedSession row).isSome) :
    ∃ sessions, (loadRows (listSessionsForUser m.db userId) m).2 = .ok sessions ∧
      m.Loaded userId (loadRows (listSessionsForUser m.db userId) m).1 sessions := by
  have hrows : ∀ row ∈ listSessionsForUser m.db userId, (rowToManagedSession row).isSome := by
    intro row hr
    obtain ⟨hm, hu⟩ := mem_listSessionsForUser.mp hr
    exact hread row hm hu
  have hsessions := sessions_loadRows hrows m
  have hkept : ∀ id entry, m.sessions id = some entry →
      (loadRows (listSessionsForUser m.db userId) m).1.sessions id = some entry :=
    fun id entry hs => loadRows_kept hrows hs
  have hothers : ∀ id, (∀ row ∈ m.db, row.userId = userId → row.id.val ≠ id) →
      (loadRows (listSessionsForUser m.db userId) m).1.sessions id = m.sessions id := by
    intro id hid
    rw [hsessions, find_listSessionsForUser_none hid, Option.bind_none, Option.or_none]
  obtain ⟨sessions, hok, hall⟩ := loadRows_listed hrows m
  obtain ⟨hroutes, htable, hkeys⟩ := loadRows_frame (listSessionsForUser m.db userId) m
  refine ⟨sessions, hok, hkept, ?_, hothers, ?_, ?_, hroutes, htable, hkeys⟩
  · intro row hr hu hs
    obtain ⟨metadata, hrow⟩ := Option.isSome_iff_exists.mp (hread row hr hu)
    refine ⟨metadata, hrow, ?_⟩
    rw [hsessions, hs, find_listSessionsForUser hids hr hu, Option.none_or, Option.bind_some,
      hrow, Option.map_some]
  · intro row hr hu
    refine hothers row.id.val fun row' hr' hu' hid => hu ?_
    rw [← eq_of_id hids hr' hr hid]
    exact hu'
  · refine hall.imp fun row s hs => ⟨hs, fun entry he => ?_⟩
    rw [get, hkept _ entry he] at hs
    exact (Option.some.inj hs).symm

/-- **Loading is idempotent and keeps live sessions.** -/
theorem load_user_sessions_idempotent (hids : (m.db.map (·.id)).Nodup)
    (hread : ∀ row ∈ m.db, row.userId = userId → (rowToManagedSession row).isSome)
    {env : Env} (henv : env.dbRead = true) :
    ∃ m' sessions, m.loadUserSessions env userId = (m', .ok sessions) ∧
      m.Loaded userId m' sessions ∧
      ∀ env' : Env, env'.dbRead = true → m'.loadUserSessions env' userId = (m', .ok sessions) := by
  obtain ⟨sessions, hok, hloaded⟩ := loaded_loadRows hids hread
  refine ⟨_, sessions, ?_, hloaded, fun env' henv' => ?_⟩
  · rw [loadUserSessions, if_pos henv, ← hok]
  · rw [loadUserSessions, if_pos henv', hloaded.table]
    refine loadRows_of_listed (fun row hr => ?_) (hloaded.listed.imp fun row s hs => hs.1)
    obtain ⟨hm, hu⟩ := mem_listSessionsForUser.mp hr
    exact hread row hm hu

end Load

/-! ## A live session and a stored one -/

/-- A session that was connected when the server stopped. -/
def sampleRow : SessionRow where
  id := uuidB
  userId := ['u']
  name := ['b']
  transportConfig := (TransportConfig.ssh ['h']).toJson
  status := "connected".toList
  error := none
  createdAt := 1

/-- Beside it, a session that is created and connected now. -/
def sampleServer : SessionManager :=
  let env := Env.working uuidA [.single "%0".toList]
  ((((new [sampleRow]).create env ['u'] { name := ['a'], transport := .ssh ['h'] }).1).connect env
    uuidA.val).1

/-- Both are listed, the live one as connected. -/
theorem load_user_sessions_sample : ∃ m' sessions,
    sampleServer.loadUserSessions (.working uuidA []) ['u'] = (m', .ok sessions) ∧
      sampleServer.Loaded ['u'] m' sessions ∧ ∀ env' : Env, env'.dbRead = true →
        m'.loadUserSessions env' ['u'] = (m', .ok sessions) := by
  have hread : sampleServer.db.all (fun row => (rowToManagedSession row).isSome) = true := by decide
  exact load_user_sessions_idempotent (by decide)
    (fun row hr _ => List.all_eq_true.mp hread row hr) rfl

end SessionManager

end Oxmux.Session
