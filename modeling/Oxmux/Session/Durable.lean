import Oxmux.Session.Loading

/-! What of the sessions outlives the server. The table is the account that the
answered requests add up to, however often the server stops, between two
operations or in the course of one; memory is lost. -/

namespace Oxmux.Session
open Oxmux.Lib Oxmux.Lib.Runs

/-! ## Accounts -/

/-- A session as the user who asked for it knows it. -/
structure Account where
  id : Uuid
  userId : Text
  name : Text
  config : TransportConfig

/-- What the answer to a request enters into the accounts. -/
inductive Posting where
  | opened (account : Account)
  | renamed (id name : Text)
  | closed (id : Text)

namespace Posting

def post (accounts : List Account) : Posting → List Account
  | opened account => accounts ++ [account]
  | renamed id name => accounts.map fun a => if a.id.val = id then { a with name } else a
  | closed id => accounts.filter (·.id.val ≠ id)

/-- The accounts behind a journal. -/
def balance (accounts : List Account) (journal : List Posting) : List Account :=
  journal.foldl post accounts

end Posting

/-- The account in a row, if its configuration can be read. -/
def Columns.account (c : Columns) : Option Account :=
  (storedConfig c.transportConfig).map fun config =>
    { id := c.id, userId := c.userId, name := c.name, config }

def Account.shown (a : Account) : Text × Text × TransportConfig := (a.id.val, a.name, a.config)

def ManagedSession.shown (s : ManagedSession) : Text × Text × TransportConfig :=
  (s.id, s.name, s.transport)

/-! ## The life of a server -/

/-- An operation that is done and answered, or the end of the server's memory:
between two operations, or behind the writes of one whose answer is lost. -/
inductive Happening where
  | answered (op : Op)
  | crash (during : Option Op)

namespace SessionManager

/-- The answer of an operation, as a posting. -/
def acknowledged (m : SessionManager) : Op → Option Posting
  | .create env userId req => (m.create env userId req).2.toOption.map fun s =>
      .opened { id := env.uuid, userId, name := s.name, config := s.transport }
  | .update env id req => (m.update env id req).2.toOption.bind fun _ => req.name.map (.renamed id)
  | .delete env id => (m.delete env id).2.toOption.map fun _ => .closed id
  | _ => none

/-- A server that starts again has the table alone. -/
def live (m : SessionManager) : Happening → SessionManager
  | .answered op => m.apply op
  | .crash none => new m.db
  | .crash (some op) => new (m.apply op).db

def posting (m : SessionManager) : Happening → Option Posting
  | .answered op => m.acknowledged op
  | .crash none => none
  | .crash (some op) => m.acknowledged op

/-- The postings of a run. -/
def journal : SessionManager → List Happening → List Posting
  | _, [] => []
  | m, h :: hs => (m.posting h).toList ++ journal (m.live h) hs

/-! ## What each operation enters -/

/-- The table has one row for each of these accounts, in their order. -/
def Holds (m : SessionManager) (accounts : List Account) : Prop :=
  List.Forall₂ (fun row a => row.columns.account = some a) m.db accounts

section
variable {m : SessionManager} {held : List Account}

theorem holds_iff_books : m.Holds held ↔
    List.Forall₂ (fun c a => c.account = some a) m.books.table held := by
  rw [books, List.forall₂_map_left_iff]
  exact Iff.rfl

theorem Holds.of_books {m' : SessionManager} (h : m.Holds held)
    (hb : m'.books.table = m.books.table) : m'.Holds held := by
  rw [holds_iff_books] at h ⊢
  rwa [hb]

theorem holds_create (h : m.Holds held) (env : Env) (userId : Text)
    (req : CreateSessionRequest) : (m.create env userId req).1.Holds
      (Posting.balance held (m.acknowledged (.create env userId req)).toList) := by
  unfold acknowledged create
  simp only
  split
  · refine List.rel_append h (.cons ?_ .nil)
    simp only [SessionRow.columns, Columns.account, storedConfig, TransportConfig.ofJson_toJson,
      Option.some_or, Option.map_some]
  · exact h

/-- A write to the rows of an id is a posting to its held. -/
theorem holds_updateName {db : List SessionRow}
    (h : List.Forall₂ (fun row a => row.columns.account = some a) db held) (id name : Text) :
    List.Forall₂ (fun row a => row.columns.account = some a)
      (updateRow id (fun r => { r with name }) db) (Posting.post held (.renamed id name)) := by
  refine List.rel_map (fun row a ha => ?_) h
  obtain ⟨config, hc, rfl⟩ := Option.map_eq_some_iff.mp ha
  have hc' : storedConfig row.transportConfig = some config := hc
  by_cases hid : row.id.val = id
  · simp only [hid, if_true, SessionRow.columns, Columns.account, hc', Option.map_some]
  · simp only [SessionRow.columns, hid, if_false]
    exact ha

theorem holds_deleteRow {db : List SessionRow}
    (h : List.Forall₂ (fun row a => row.columns.account = some a) db held) (id : Text) :
    List.Forall₂ (fun row a => row.columns.account = some a)
      (db.filter (·.id.val ≠ id)) (Posting.post held (.closed id)) := by
  refine List.rel_filter (fun row a ha => ?_) h
  obtain ⟨config, -, rfl⟩ := Option.map_eq_some_iff.mp ha
  exact Iff.rfl

theorem holds_update (h : m.Holds held) (env : Env) (id : Text) (req : UpdateSessionRequest) :
    (m.update env id req).1.Holds
      (Posting.balance held (m.acknowledged (.update env id req)).toList) := by
  cases hs : m.sessions id with
  | none =>
    simp only [acknowledged, update, hs]
    exact h
  | some entry =>
    cases hn : req.name with
    | none =>
      simp only [acknowledged, update, hs, hn]
      exact h
    | some name =>
      cases hw : env.dbWrite 0 with
      | true =>
        simp only [acknowledged, update, hs, hn, hw, if_true]
        exact holds_updateName h id name
      | false =>
        simp only [acknowledged, update, hs, hn, hw, Bool.false_eq_true, if_false]
        exact h

theorem holds_delete (h : m.Holds held) (env : Env) (id : Text) :
    (m.delete env id).1.Holds
      (Posting.balance held (m.acknowledged (.delete env id)).toList) := by
  have hr : (m.removeRoutes id).sessions id = m.sessions id := rfl
  cases hs : m.sessions id with
  | none =>
    simp only [acknowledged, delete, hr, hs]
    exact h
  | some entry =>
    cases hw : env.dbWrite 0 with
    | true =>
      simp only [acknowledged, delete, hr, hs, hw, if_true]
      exact holds_deleteRow h id
    | false =>
      simp only [acknowledged, delete, hr, hs, hw, Bool.false_eq_true, if_false]
      exact h

/-- **The step.** What an operation writes of the held is what its answer
says. -/
theorem holds_apply (h : m.Holds held) (op : Op) :
    (m.apply op).Holds (Posting.balance held (m.acknowledged op).toList) := by
  cases op with
  | create env userId req => exact holds_create h env userId req
  | load env userId =>
    unfold apply loadUserSessions
    simp only
    split
    · rw [Holds, db_loadRows]
      exact h
    · exact h
  | update env id req => exact holds_update h env id req
  | delete env id => exact holds_delete h env id
  | connect env id => exact h.of_books (by rw [apply, books_connect])
  | disconnect env id => exact h.of_books (by rw [apply, books_disconnect])
  | refresh env id => exact h.of_books (by rw [apply, books_refreshTmuxState])
  | execute cmd => exact h.of_books (by rw [apply, books_executeOnPane])
  | uploadKey keyId key passphrase => exact h

/-! ## Runs -/

theorem holds_live (h : m.Holds held) (e : Happening) :
    (m.live e).Holds (Posting.balance held (m.posting e).toList) := by
  cases e with
  | answered op => exact holds_apply h op
  | crash during =>
    cases during with
    | none => exact h
    | some op => exact holds_apply h op

theorem sound_books_live (h : m.books.Sound) (e : Happening) : (m.live e).books.Sound := by
  have hnew {m : SessionManager} (h : m.books.Sound) : (new m.db).books.Sound :=
    ⟨h.ids, h.readable, fun id a ha => by cases ha⟩
  cases e with
  | answered op => exact sound_books_apply h op
  | crash during =>
    cases during with
    | none => exact hnew h
    | some op => exact hnew (sound_books_apply h op)

/-- **The table is the account of the answers**, behind any run. -/
theorem holds_run (h : m.Holds held) (hs : List Happening) :
    (run live m hs).Holds (Posting.balance held (m.journal hs)) := by
  induction hs generalizing m held with
  | nil => exact h
  | cons e hs ih =>
    rw [run_cons, journal, Posting.balance, List.foldl_append]
    exact ih (holds_live h e)

theorem sound_books_run (h : m.books.Sound) (hs : List Happening) :
    (run live m hs).books.Sound :=
  (always_of_invariant (P := fun m : SessionManager => m.books.Sound) h
    (fun _ e h => sound_books_live h e) hs).last

/-! ## What a user sees -/

theorem filterMap_of_forall₂ {α β γ : Type*} {f : α → Option γ} {g : β → γ} {as : List α}
    {bs : List β} (h : List.Forall₂ (fun a b => f a = some (g b)) as bs) :
    as.filterMap f = bs.map g := by
  induction h with
  | nil => rfl
  | cons hab _ ih => rw [List.filterMap_cons_some hab, List.map_cons, ih]

theorem shown_of_read {row : SessionRow} {s : ManagedSession}
    (h : rowToManagedSession row = some s) :
    row.columns.account.map Account.shown = some s.shown := by
  obtain ⟨config, hc, rfl⟩ := Option.map_eq_some_iff.mp h
  have hc' : storedConfig row.columns.transportConfig = some config := hc
  rw [Columns.account, hc']
  rfl

theorem Loaded.listed_mem {m' : SessionManager} {userId : Text} {sessions : List ManagedSession}
    (hl : m.Loaded userId m' sessions) : List.Forall₂ (fun row s =>
      (row ∈ m.db ∧ row.userId = userId) ∧ m'.get row.id.val = some s ∧
        ∀ entry, m.sessions row.id.val = some entry → s = entry.metadata)
      (listSessionsForUser m.db userId) sessions :=
  (List.forall₂_and_left _ _).mpr ⟨fun _ hr => mem_listSessionsForUser.mp hr, hl.listed⟩

/-- The configurations that a server shows are those of the rows, whether it has
just started or not. -/
theorem transports_loaded {m' : SessionManager} {userId : Text} {sessions : List ManagedSession}
    (h : m.books.Sound) (hl : m.Loaded userId m' sessions) :
    (listSessionsForUser m.db userId).filterMap (fun row => storedConfig row.transportConfig) =
      sessions.map (·.transport) := by
  refine filterMap_of_forall₂ (hl.listed_mem.imp fun row s hrow => ?_)
  obtain ⟨⟨hm, hu⟩, hget, hmem⟩ := hrow
  cases hs : m.sessions row.id.val with
  | some entry =>
    obtain ⟨-, c, hc, hid, hcfg⟩ :=
      h.backed row.id.val entry.address (by simp only [books, hs, Option.map_some])
    obtain ⟨row', hm', rfl⟩ := List.mem_map.mp hc
    rw [eq_of_id (nodup_ids h) hm' hm hid] at hcfg
    rw [hmem entry hs]
    exact hcfg
  | none =>
    obtain ⟨metadata, hread, hs'⟩ := hl.added row hm hu hs
    rw [get, hs', Option.map_some, Option.some.injEq] at hget
    obtain ⟨config, hc, rfl⟩ := Option.map_eq_some_iff.mp hread
    rw [← hget]
    exact hc

def accounts (db : List SessionRow) : List Account := db.filterMap (·.columns.account)

theorem holds_new {db : List SessionRow}
    (hread : ∀ row ∈ db, (rowToManagedSession row).isSome) : (new db).Holds (accounts db) := by
  show List.Forall₂ (fun row a => row.columns.account = some a) db (accounts db)
  induction db with
  | nil => exact .nil
  | cons row db ih =>
    obtain ⟨s, hs⟩ := Option.isSome_iff_exists.mp (hread row List.mem_cons_self)
    obtain ⟨a, ha, -⟩ := Option.map_eq_some_iff.mp (shown_of_read hs)
    have hcons : accounts (row :: db) = a :: accounts db := List.filterMap_cons_some ha
    rw [hcons]
    exact .cons ha (ih fun row' h => hread row' (List.mem_cons_of_mem row h))

theorem sound_books_new {db : List SessionRow} (hids : (db.map (·.id)).Nodup)
    (hread : ∀ row ∈ db, (rowToManagedSession row).isSome) : (new db).books.Sound := by
  refine ⟨?_, fun c hc => ?_, fun id a ha => by cases ha⟩
  · rw [books, List.map_map]
    exact hids
  · obtain ⟨row, hm, rfl⟩ := List.mem_map.mp hc
    have hr := hread row hm
    rwa [rowToManagedSession, Option.isSome_map] at hr

theorem load_all (h : m.books.Sound) (userId : Text) {env : Env} (henv : env.dbRead = true) :
    ∃ m' sessions, m.loadUserSessions env userId = (m', .ok sessions) ∧
      m.Loaded userId m' sessions := by
  obtain ⟨sessions, hok, hloaded⟩ :=
    loaded_loadRows (nodup_ids h) (fun row hm _ => readable_of_books h hm)
  exact ⟨_, sessions, by rw [loadUserSessions, if_pos henv, ← hok], hloaded⟩

/-- The sessions that a server shows that has just started. -/
theorem shown_restart {held : List Account} {m' : SessionManager} {userId : Text}
    {sessions : List ManagedSession} (hheld : m.Holds held)
    (hl : (new m.db).Loaded userId m' sessions) :
    (sessions.map ManagedSession.shown).Perm
        ((held.filter (·.userId = userId)).map Account.shown) ∧
      ∀ s ∈ sessions, s.status ≠ .connected ∧ s.tmuxSessions = [] ∧
        m'.sessions s.id = some ⟨s, .new s.transport.backend s.name⟩ := by
  have hrows : List.Forall₂ (fun row s => rowToManagedSession row = some s ∧
      m'.sessions row.id.val = some (.ofMetadata s))
      (listSessionsForUser m.db userId) sessions := by
    refine hl.listed_mem.imp fun row s hrow => ?_
    obtain ⟨⟨hm, hu⟩, hget, -⟩ := hrow
    obtain ⟨metadata, hread, hs⟩ := hl.added row hm hu rfl
    rw [get, hs, Option.map_some, Option.some.injEq] at hget
    obtain rfl : metadata = s := hget
    exact ⟨hread, hs⟩
  have hback : List.Forall₂ (fun s row => (s.status ≠ .connected ∧ s.tmuxSessions = [] ∧
      m'.sessions s.id = some ⟨s, .new s.transport.backend s.name⟩) ∧ s.id = row.id.val)
      sessions (listSessionsForUser m.db userId) := by
    refine (hrows.imp fun row s h => ?_).flip
    obtain ⟨hid, hstatus⟩ := rowToManagedSession_spec h.1
    exact ⟨⟨hstatus, rowToManagedSession_tree h.1, hid ▸ h.2⟩, hid⟩
  refine ⟨?_, ((List.forall₂_and_left _ _).mp hback).1⟩
  have hsessions : (listSessionsForUser m.db userId).filterMap
      (fun row => row.columns.account.map Account.shown) = sessions.map ManagedSession.shown := by
    refine filterMap_of_forall₂ (hrows.imp fun row s h => ?_)
    exact shown_of_read h.1
  have hdb : (m.db.filter (·.userId = userId)).filterMap
      (fun row => row.columns.account.map Account.shown) =
      (held.filter (·.userId = userId)).map Account.shown := by
    refine filterMap_of_forall₂ ((List.rel_filter (fun row a ha => ?_) hheld).imp
      fun row a ha => by rw [ha]; rfl)
    obtain ⟨config, -, rfl⟩ := Option.map_eq_some_iff.mp ha
    exact Iff.rfl
  rw [← hsessions, ← hdb]
  exact (List.perm_insertionSort _ _).filterMap _

/-- **What a crash leaves of the sessions.** Behind any run, the table holds
exactly the sessions of the answers, and a server that starts on it shows a user
exactly his, none of them connected, each leading to the tmux session of its
name; the one that stopped showed the same configurations. -/
theorem durable {db : List SessionRow} (hids : (db.map (·.id)).Nodup)
    (hread : ∀ row ∈ db, (rowToManagedSession row).isSome) (hs : List Happening) (userId : Text)
    {env : Env} (henv : env.dbRead = true) :
    let stopped := run live (new db) hs
    let held := Posting.balance (accounts db) ((new db).journal hs)
    stopped.Holds held ∧ ∃ m' sessions,
      (new stopped.db).loadUserSessions env userId = (m', .ok sessions) ∧
      (sessions.map ManagedSession.shown).Perm
        ((held.filter (·.userId = userId)).map Account.shown) ∧
      (∀ s ∈ sessions, s.status ≠ .connected ∧ s.tmuxSessions = [] ∧
        m'.sessions s.id = some ⟨s, .new s.transport.backend s.name⟩) ∧
      ∃ m'' sessions', stopped.loadUserSessions env userId = (m'', .ok sessions') ∧
        sessions'.map (·.transport) = sessions.map (·.transport) := by
  intro stopped held
  have hsound : stopped.books.Sound := sound_books_run (sound_books_new hids hread) hs
  have hheld : stopped.Holds held := holds_run (holds_new hread) hs
  have hrestart : (new stopped.db).books.Sound :=
    sound_books_live hsound (.crash none)
  obtain ⟨m', sessions, hload, hloaded⟩ := load_all hrestart userId henv
  obtain ⟨m'', sessions', hload', hloaded'⟩ := load_all hsound userId henv
  obtain ⟨hshown, hfresh⟩ := shown_restart hheld hloaded
  refine ⟨hheld, m', sessions, hload, hshown, hfresh, m'', sessions', hload', ?_⟩
  rw [← transports_loaded hrestart hloaded, ← transports_loaded hsound hloaded']
  rfl

end

/-! ## A server that stops twice -/

/-- A session is created; the write of a rename fails; the server stops; and
once more while it deletes the session, behind the write. -/
def stopping : List Happening :=
  let env := Env.working uuidA []
  [.answered (.create env ['u'] { name := "one".toList, transport := .ssh ['h'] }),
    .answered (.update { env with dbWrite := fun _ => false } ['a'] { name := some "two".toList }),
    .crash none, .answered (.load env ['u']), .crash (some (.delete env ['a']))]

theorem durable_sample : ∃ m' sessions,
    (new (run live (new []) stopping).db).loadUserSessions (.working uuidA []) ['u'] =
      (m', .ok sessions) ∧
      (sessions.map ManagedSession.shown).Perm
        (((Posting.balance [] ((new []).journal stopping)).filter
          (·.userId = ['u'])).map Account.shown) := by
  have hids : (([] : List SessionRow).map (·.id)).Nodup := List.nodup_nil
  have henv : (Env.working uuidA []).dbRead = true := rfl
  obtain ⟨-, m', sessions, hload, hshown, -⟩ :=
    durable hids (fun row hm => by cases hm) stopping ['u'] henv
  exact ⟨m', sessions, hload, hshown⟩

end SessionManager

end Oxmux.Session
