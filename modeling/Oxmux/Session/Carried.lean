import Oxmux.Session.Address

/-! Which transport a session has after an operation: the one it had, with at
most one more command executed, or a new one. Only a session that was not in
memory gets a new one, since a session in memory has a row. -/

namespace Oxmux.Session
open Oxmux.Lib

namespace SessionManager

/-- What an operation did to the transport that a session has now: it was there
before with the commands it has executed, it is new, or it executed one more. -/
inductive Carried (m : SessionManager) (op : Op) (id : Text) (t : Transport) : Prop
  | kept (entry : SessionEntry) (hs : m.sessions id = some entry)
      (hb : t.backend = entry.transport.backend) (he : t.executed = entry.transport.executed)
  | fresh (hs : m.sessions id = none) (he : t.executed = [])
  | wrote (entry : SessionEntry) (cmd : Command) (hop : op = .execute cmd)
      (hr : m.paneToSession (commandPane cmd) = some id) (hs : m.sessions id = some entry)
      (hb : t.backend = entry.transport.backend)
      (he : t.executed = entry.transport.executed ++ [cmd])

/-- Every session in memory has a row. -/
def Stored (m : SessionManager) : Prop := ∀ id, (m.sessions id).isSome → id ∈ m.db.map (·.id.val)

theorem stored_new (db : List SessionRow) : (new db).Stored := by
  intro id h
  cases h

end SessionManager

namespace Transport

@[simp] theorem connect_executed (fresh : Nat) (failure : Option ConnectFailure) (t : Transport) :
    (t.connect fresh failure).executed = t.executed := by
  unfold connect
  simp only
  split <;> first | rfl | (split <;> rfl)

end Transport

namespace SessionManager

section Carried
variable {m : SessionManager} {op : Op} {id : Text} {entry : SessionEntry}

theorem Carried.of_eq (hs : m.sessions id = some entry) : Carried m op id entry.transport :=
  .kept entry hs rfl rfl

/-- An entry is put whose transport is the old one, as far as it is looked at here. -/
theorem Carried.of_update {id₀ : Text} {old new : SessionEntry} (hs₀ : m.sessions id₀ = some old)
    (hb : new.transport.backend = old.transport.backend)
    (he : new.transport.executed = old.transport.executed)
    (h : Function.update m.sessions id₀ (some new) id = some entry) :
    Carried m op id entry.transport := by
  by_cases hid : id = id₀
  · subst hid
    rw [Function.update_self, Option.some.injEq] at h
    subst h
    exact .kept old hs₀ hb he
  · rw [Function.update_of_ne hid] at h
    exact .of_eq h

theorem carried_create {env : Env} {userId : Text} {req : CreateSessionRequest} (hm : m.Stored)
    (h : (m.create env userId req).1.sessions id = some entry) :
    Carried m op id entry.transport := by
  unfold create at h
  simp only at h
  split at h
  · next hc =>
    by_cases hid : id = env.uuid.val
    · subst hid
      have hnone : m.sessions env.uuid.val = none := by
        by_contra hs
        have hrow := hm _ (Option.isSome_iff_ne_none.mpr hs)
        obtain ⟨row, hr, he⟩ := List.mem_map.mp hrow
        exact hc.2 (List.mem_map.mpr ⟨row, hr, Subtype.ext he⟩)
      simp only [setEntry, Function.update_self, Option.some.injEq] at h
      subst h
      exact .fresh hnone rfl
    · simp only [setEntry, Function.update_of_ne hid] at h
      exact .of_eq h
  · exact .of_eq h

theorem sessions_loadRow (metadata : ManagedSession) (m : SessionManager) (id : Text) :
    (loadRow metadata m).1.sessions id = m.sessions id ∨
      (m.sessions id = none ∧ id = metadata.id ∧
        (loadRow metadata m).1.sessions id = some (.ofMetadata metadata)) := by
  unfold loadRow
  split
  · exact .inl rfl
  · next hnone =>
    by_cases hid : id = metadata.id
    · subst hid
      exact .inr ⟨hnone, rfl, by simp [setEntry, SessionEntry.ofMetadata]⟩
    · exact .inl (by simp [setEntry, hid])

/-- What is in memory after the loop was there before, or comes from its row. -/
theorem sessions_of_loadRows {rows : List SessionRow}
    (h : (loadRows rows m).1.sessions id = some entry) :
    m.sessions id = some entry ∨ (m.sessions id = none ∧ ∃ row ∈ rows, row.id.val = id ∧
      ∃ metadata, rowToManagedSession row = some metadata ∧ entry = .ofMetadata metadata) := by
  induction rows generalizing m with
  | nil => exact .inl h
  | cons row rows ih =>
    unfold loadRows at h
    cases hrow : rowToManagedSession row with
    | none =>
      rw [hrow] at h
      exact .inl h
    | some metadata =>
      rw [hrow] at h
      rcases sessions_loadRow metadata m id with hsame | ⟨hnone, hid, hs⟩
      · rcases ih h with hentry | ⟨hnone, row', hmem, hfrom⟩
        · exact .inl (hsame ▸ hentry)
        · exact .inr ⟨hsame ▸ hnone, row', List.mem_cons_of_mem row hmem, hfrom⟩
      · have hrid : row.id.val = id := (hid.trans (rowToManagedSession_spec hrow).1).symm
        rcases ih h with hentry | ⟨hn, -⟩
        · obtain rfl := Option.some.inj (hs.symm.trans hentry)
          exact .inr ⟨hnone, row, List.mem_cons_self, hrid, metadata, hrow, rfl⟩
        · rw [hs] at hn
          cases hn

theorem carried_load {env : Env} {userId : Text}
    (h : (m.loadUserSessions env userId).1.sessions id = some entry) :
    Carried m op id entry.transport := by
  unfold loadUserSessions at h
  split at h
  · rcases sessions_of_loadRows h with hs | ⟨hs, -, -, -, metadata, -, rfl⟩
    · exact .of_eq hs
    · exact .fresh hs rfl
  · exact .of_eq h

theorem carried_update {env : Env} {id₀ : Text} {req : UpdateSessionRequest}
    (h : (m.update env id₀ req).1.sessions id = some entry) :
    Carried m op id entry.transport := by
  unfold update at h
  cases hs : m.sessions id₀ with
  | none =>
    rw [hs] at h
    exact .of_eq h
  | some old =>
    cases hn : req.name with
    | none =>
      rw [hs, hn] at h
      exact .of_eq h
    | some name =>
      simp only [hs, hn, setEntry] at h
      split at h <;> refine .of_update hs ?_ ?_ h <;> rfl

theorem carried_delete {env : Env} {id₀ : Text}
    (h : (m.delete env id₀).1.sessions id = some entry) : Carried m op id entry.transport := by
  unfold delete at h
  simp only at h
  have hr : ∀ id', (m.removeRoutes id₀).sessions id' = m.sessions id' := fun _ => rfl
  cases hs : m.sessions id₀ with
  | none =>
    rw [hr, hs] at h
    exact .of_eq h
  | some old =>
    rw [hr, hs] at h
    have hgone : Function.update m.sessions id₀ none id = some entry := by
      simp only at h
      split at h <;> exact h
    have hne : id ≠ id₀ := by
      rintro rfl
      rw [Function.update_self] at hgone
      cases hgone
    rw [Function.update_of_ne hne] at hgone
    exact .of_eq hgone

theorem carried_connect {env : Env} {id₀ : Text}
    (h : (m.connect env id₀).1.sessions id = some entry) : Carried m op id entry.transport := by
  unfold connect at h
  cases hs : m.sessions id₀ with
  | none =>
    rw [hs] at h
    exact .of_eq h
  | some old =>
    cases hc : env.connect with
    | none =>
      simp only [hs, hc, updateSessionStatus_sessions, setEntry, insertRoutes] at h
      refine .of_update hs ?_ ?_ h
      · exact Transport.connect_backend _ _ _
      · exact Transport.connect_executed _ _ _
    | some failure =>
      simp only [hs, hc, updateSessionStatus_sessions, setEntry] at h
      refine .of_update hs ?_ ?_ h
      · exact Transport.connect_backend _ _ _
      · exact Transport.connect_executed _ _ _

theorem carried_disconnect {env : Env} {id₀ : Text}
    (h : (m.disconnect env id₀).1.sessions id = some entry) : Carried m op id entry.transport := by
  unfold disconnect at h
  simp only at h
  have hr : ∀ id', (m.removeRoutes id₀).sessions id' = m.sessions id' := fun _ => rfl
  cases hs : m.sessions id₀ with
  | none =>
    rw [hr, hs] at h
    exact .of_eq h
  | some old =>
    simp only [hr, hs, updateSessionStatus_sessions, setEntry] at h
    refine .of_update hs ?_ ?_ h <;> rfl

theorem carried_refreshTmuxState {env : Env} {id₀ : Text}
    (h : (m.refreshTmuxState env id₀).1.sessions id = some entry) :
    Carried m op id entry.transport := by
  unfold refreshTmuxState at h
  cases hs : m.sessions id₀ with
  | none =>
    rw [hs] at h
    exact .of_eq h
  | some old =>
    cases hl : old.transport.listTmuxSessions env.listing with
    | error e =>
      simp only [hs, hl] at h
      exact .of_eq h
    | ok tree =>
      simp only [hs, hl, setEntry, insertRoutes] at h
      refine .of_update hs ?_ ?_ h <;> rfl

theorem carried_executeOnPane {cmd : Command}
    (h : (m.executeOnPane cmd).1.sessions id = some entry) :
    Carried m (.execute cmd) id entry.transport := by
  unfold executeOnPane at h
  cases hr : m.paneToSession (commandPane cmd) with
  | none =>
    rw [hr] at h
    exact .of_eq h
  | some id₀ =>
    cases hs : m.sessions id₀ with
    | none =>
      simp only [hr, hs] at h
      exact .of_eq h
    | some old =>
      cases he : old.transport.execute cmd with
      | error e =>
        simp only [hr, hs, he] at h
        exact .of_eq h
      | ok transport =>
        simp only [hr, hs, he, setEntry] at h
        by_cases hid : id = id₀
        · subst hid
          rw [Function.update_self, Option.some.injEq] at h
          subst h
          have ht := Transport.execute_ok he
          exact .wrote old cmd rfl hr hs (by rw [ht]) (by rw [ht])
        · rw [Function.update_of_ne hid] at h
          exact .of_eq h

end Carried

/-- **Whose transport a session has** after an operation. -/
theorem carried_apply {m : SessionManager} (hm : m.Stored) {op : Op} {id : Text}
    {entry : SessionEntry} (h : (m.apply op).sessions id = some entry) :
    Carried m op id entry.transport := by
  cases op with
  | create env userId req => exact carried_create hm h
  | load env userId => exact carried_load h
  | update env id₀ req => exact carried_update h
  | delete env id₀ => exact carried_delete h
  | connect env id₀ => exact carried_connect h
  | disconnect env id₀ => exact carried_disconnect h
  | refresh env id₀ => exact carried_refreshTmuxState h
  | execute cmd => exact carried_executeOnPane h
  | uploadKey keyId key passphrase => exact .of_eq h

/-! ## Every session in memory has a row -/

theorem stored_iff_books {m : SessionManager} : m.Stored ↔
    ∀ id, (m.books.memory id).isSome → id ∈ m.books.table.map (·.id.val) := by
  simp only [Stored, books, Option.isSome_map, List.map_map]
  exact Iff.rfl

theorem Stored.of_books {m m' : SessionManager} (h : m.Stored) (hb : m'.books = m.books) :
    m'.Stored := by
  rw [stored_iff_books] at h ⊢
  rwa [hb]

theorem stored_create {m : SessionManager} (h : m.Stored) (env : Env) (userId : Text)
    (req : CreateSessionRequest) : (m.create env userId req).1.Stored := by
  rcases books_create env userId req m with hb | ⟨-, hb⟩
  · exact h.of_books hb
  · rw [stored_iff_books] at h ⊢
    rw [hb]
    intro id hs
    simp only [Books.create, List.map_append, List.map_singleton, List.mem_append,
      List.mem_singleton] at hs ⊢
    by_cases hid : id = env.uuid.val
    · exact .inr hid
    · rw [Function.update_of_ne hid] at hs
      exact .inl (h id hs)

theorem stored_load {m : SessionManager} (h : m.Stored) (env : Env) (userId : Text) :
    (m.loadUserSessions env userId).1.Stored := by
  unfold loadUserSessions
  split
  · intro id hs
    rw [db_loadRows]
    obtain ⟨entry, hentry⟩ := Option.isSome_iff_exists.mp hs
    rcases sessions_of_loadRows hentry with hold | ⟨-, row, hr, rfl, -⟩
    · exact h id (Option.isSome_iff_exists.mpr ⟨entry, hold⟩)
    · exact List.mem_map_of_mem (mem_listSessionsForUser.mp hr).1
  · exact h

theorem stored_update {m : SessionManager} (h : m.Stored) (env : Env) (id : Text)
    (req : UpdateSessionRequest) : (m.update env id req).1.Stored := by
  cases hs : m.sessions id with
  | none => rwa [update_eq_self (.inl hs)]
  | some entry =>
    cases hn : req.name with
    | none => rwa [update_eq_self (.inr hn)]
    | some name =>
      rw [stored_iff_books] at h ⊢
      rw [books_update hs hn]
      intro id' hs'
      have hids : (m.books.rename id name (env.dbWrite 0)).table.map (·.id.val) =
          m.books.table.map (·.id.val) := by
        unfold Books.rename
        cases env.dbWrite 0 with
        | false => rfl
        | true =>
          simp only [if_true, List.map_map]
          refine List.map_congr_left fun c _ => ?_
          simp only [Function.comp]
          split <;> rfl
      rw [hids]
      refine h id' ?_
      unfold Books.rename at hs'
      by_cases hid : id' = id
      · subst hid
        simpa using hs'
      · simpa [hid] using hs'

theorem stored_delete {m : SessionManager} (h : m.Stored) (env : Env) (id : Text) :
    (m.delete env id).1.Stored := by
  rcases books_delete env id m with hb | hb
  · exact h.of_books hb
  · rw [stored_iff_books] at h ⊢
    rw [hb]
    intro id' hs
    unfold Books.delete at hs ⊢
    have hid : id' ≠ id := by
      rintro rfl
      simp at hs
    have hmem := h id' (by simpa [hid] using hs)
    cases env.dbWrite 0 with
    | false => exact hmem
    | true =>
      obtain ⟨c, hc, rfl⟩ := List.mem_map.mp hmem
      exact List.mem_map_of_mem (List.mem_filter.mpr ⟨hc, decide_eq_true hid⟩)

theorem Stored.apply {m : SessionManager} (h : m.Stored) (op : Op) : (m.apply op).Stored := by
  cases op with
  | create env userId req => exact stored_create h env userId req
  | load env userId => exact stored_load h env userId
  | update env id req => exact stored_update h env id req
  | delete env id => exact stored_delete h env id
  | connect env id => exact h.of_books (books_connect env id m)
  | disconnect env id => exact h.of_books (books_disconnect env id m)
  | refresh env id => exact h.of_books (books_refreshTmuxState env id m)
  | execute cmd => exact h.of_books (books_executeOnPane cmd m)
  | uploadKey keyId key passphrase => exact h.of_books rfl

end SessionManager

end Oxmux.Session
