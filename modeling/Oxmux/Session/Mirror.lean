import Oxmux.Lib.Runs
import Oxmux.Session.ManagerOps

/-! What a session's row says about the session in memory. Every operation
writes name, status and error twice, once in memory and once in the table. -/

namespace Oxmux.Session
open Oxmux.Lib Oxmux.Lib.Runs

/-- The row says what is in memory. -/
structure SessionRow.Mirrors (row : SessionRow) (metadata : ManagedSession) : Prop where
  name : row.name = metadata.name
  status : row.status = metadata.status.show
  error : row.error = metadata.error

/-- An operation of a run whose writes all succeed. -/
def Op.Written : Op → Prop
  | .create env _ _ | .update env _ _ | .connect env _ | .disconnect env _ | .refresh env _ =>
    ∀ n, env.dbWrite n = true
  | _ => False

namespace SessionManager

/-- Every session in memory has a row, and its row says what is in memory. -/
structure Mirrored (m : SessionManager) : Prop where
  stored : ∀ id entry, m.sessions id = some entry → ∃ row ∈ m.db, row.id.val = id
  equal : ∀ row ∈ m.db, ∀ entry, m.sessions row.id.val = some entry → row.Mirrors entry.metadata

theorem mirrored_new (db : List SessionRow) : (new db).Mirrored where
  stored _ _ h := by cases h
  equal _ _ _ h := by cases h

theorem mem_updateRow {id : Text} {f : SessionRow → SessionRow} {db : List SessionRow}
    {row : SessionRow} :
    row ∈ updateRow id f db ↔ ∃ r ∈ db, row = if r.id.val = id then f r else r := by
  simp only [updateRow, List.mem_map, eq_comm]

/-- **Writing a session twice**: in memory, and in its row. -/
theorem mirrored_write {m m' : SessionManager} (h : m.Mirrored) {id : Text}
    {entry entry' : SessionEntry} {f : SessionRow → SessionRow} (he : m.sessions id = some entry)
    (hs : m'.sessions = Function.update m.sessions id (some entry'))
    (hdb : m'.db = updateRow id f m.db) (hf : ∀ row, (f row).id = row.id) :
    m'.Mirrored ↔ ∀ row ∈ m.db, row.id.val = id → (f row).Mirrors entry'.metadata := by
  constructor
  · intro h' row hr hid
    refine h'.equal (f row) ?_ entry' ?_
    · rw [hdb, mem_updateRow]
      exact ⟨row, hr, (if_pos hid).symm⟩
    · rw [hs, hf, hid, Function.update_self]
  · intro hw
    have hidf : ∀ r : SessionRow, (if r.id.val = id then f r else r).id = r.id := by
      intro r
      split
      · exact hf r
      · rfl
    refine ⟨fun id' entry₁ h₁ => ?_, fun row hr entry₁ h₁ => ?_⟩
    · have hold : ∃ entry₀, m.sessions id' = some entry₀ := by
        by_cases hid : id' = id
        · exact ⟨entry, hid ▸ he⟩
        · rw [hs, Function.update_of_ne hid] at h₁
          exact ⟨entry₁, h₁⟩
      obtain ⟨entry₀, h₀⟩ := hold
      obtain ⟨r, hr, hid⟩ := h.stored id' entry₀ h₀
      refine ⟨_, hdb ▸ mem_updateRow.mpr ⟨r, hr, rfl⟩, ?_⟩
      rw [hidf, hid]
    · rw [hdb, mem_updateRow] at hr
      obtain ⟨r, hr, rfl⟩ := hr
      rw [hidf, hs] at h₁
      by_cases hid : r.id.val = id
      · rw [hid, Function.update_self, Option.some.injEq] at h₁
        rw [if_pos hid, ← h₁]
        exact hw r hr hid
      · rw [Function.update_of_ne hid] at h₁
        rw [if_neg hid]
        exact h.equal r hr entry₁ h₁

theorem updateRow_updateRow (id : Text) (f g : SessionRow → SessionRow)
    (hf : ∀ row, (f row).id = row.id) (db : List SessionRow) :
    updateRow id g (updateRow id f db) = updateRow id (fun row => g (f row)) db := by
  simp only [updateRow, List.map_map]
  refine List.map_congr_left fun row _ => ?_
  by_cases hid : row.id.val = id
  · simp [hid, hf]
  · simp [hid]

/-! ## The operations -/

section
variable {m : SessionManager} {env : Env} {id : Text}

theorem mirrored_create (h : m.Mirrored) (userId : Text) (req : CreateSessionRequest) :
    (m.create env userId req).1.Mirrored := by
  unfold create
  simp only
  split
  · next hw =>
    have hfresh : m.sessions env.uuid.val = none := by
      rw [Option.eq_none_iff_forall_ne_some]
      intro entry he
      obtain ⟨row, hr, hid⟩ := h.stored _ entry he
      exact hw.2 (List.mem_map.mpr ⟨row, hr, Subtype.ext hid⟩)
    refine ⟨fun id entry he => ?_, fun row hr entry he => ?_⟩
    · by_cases hid : id = env.uuid.val
      · exact ⟨_, List.mem_append_right _ (List.mem_singleton_self _), hid.symm⟩
      · simp only [setEntry, Function.update_of_ne hid] at he
        obtain ⟨row, hr, hid⟩ := h.stored id entry he
        exact ⟨row, List.mem_append_left _ hr, hid⟩
    · rcases List.mem_append.mp hr with hr | hr
      · have hid : row.id.val ≠ env.uuid.val := fun hid =>
          hw.2 (List.mem_map.mpr ⟨row, hr, Subtype.ext hid⟩)
        simp only [setEntry, Function.update_of_ne hid] at he
        exact h.equal row hr entry he
      · rw [List.mem_singleton] at hr
        subst hr
        simp only [setEntry, Function.update_self, Option.some.injEq] at he
        subst he
        exact ⟨rfl, rfl, rfl⟩
  · exact h

theorem mirrored_update (h : m.Mirrored) (hw : ∀ n, env.dbWrite n = true)
    (req : UpdateSessionRequest) : (m.update env id req).1.Mirrored := by
  unfold update
  cases he : m.sessions id with
  | none => exact h
  | some entry =>
    cases req.name with
    | none => exact h
    | some name =>
      simp only [hw, if_true]
      refine (mirrored_write h he rfl rfl (by intro; rfl)).mpr fun row hr hid => ?_
      have hm := h.equal row hr entry (hid ▸ he)
      exact ⟨rfl, hm.status, hm.error⟩

theorem mirrored_connect (h : m.Mirrored) (hw : ∀ n, env.dbWrite n = true) :
    (m.connect env id).1.Mirrored := by
  unfold connect
  cases he : m.sessions id with
  | none => exact h
  | some entry =>
    cases env.connect with
    | none =>
      simp only [updateSessionStatus, hw, if_true]
      refine (mirrored_write h he rfl (updateRow_updateRow id _ _ (by intro; rfl) _)
        (by intro; rfl)).mpr fun row hr hid => ?_
      exact ⟨(h.equal row hr entry (hid ▸ he)).name, rfl, rfl⟩
    | some failure =>
      simp only [updateSessionStatus, hw, if_true]
      refine (mirrored_write h he rfl (updateRow_updateRow id _ _ (by intro; rfl) _)
        (by intro; rfl)).mpr fun row hr hid => ?_
      exact ⟨(h.equal row hr entry (hid ▸ he)).name, rfl, rfl⟩

/-- Disconnecting clears the error of the row only. -/
theorem mirrored_disconnect_iff (h : m.Mirrored) (hw : ∀ n, env.dbWrite n = true) :
    (m.disconnect env id).1.Mirrored ↔
      ∀ entry, m.sessions id = some entry → entry.metadata.error = none := by
  cases he : m.sessions id with
  | none =>
    have he' : (m.removeRoutes id).sessions id = none := he
    simp only [disconnect, he']
    exact iff_of_true ⟨h.stored, h.equal⟩ fun _ h => by cases h
  | some entry =>
    have he' : (m.removeRoutes id).sessions id = some entry := he
    simp only [disconnect, he']
    simp only [updateSessionStatus, hw, if_true, Option.some.injEq, forall_eq']
    rw [mirrored_write h he rfl rfl (by intro; rfl)]
    constructor
    · intro hm
      obtain ⟨row, hr, hid⟩ := h.stored id entry he
      exact (hm row hr hid).error.symm
    · intro hn row hr hid
      exact ⟨(h.equal row hr entry (hid ▸ he)).name, rfl, hn.symm⟩

theorem mirrored_refreshTmuxState (h : m.Mirrored) : (m.refreshTmuxState env id).1.Mirrored := by
  cases he : m.sessions id with
  | none => simpa only [refreshTmuxState, he] using h
  | some entry =>
    cases hl : entry.transport.listTmuxSessions env.listing with
    | error e => simpa only [refreshTmuxState, he, hl] using h
    | ok tree =>
      simp only [refreshTmuxState, he, hl]
      refine (mirrored_write (f := fun row => row) h he rfl (by simp [setEntry, insertRoutes,
        updateRow]) fun _ => rfl).mpr fun row hr hid => ?_
      obtain ⟨hn, hst, herr⟩ := h.equal row hr entry (hid ▸ he)
      exact ⟨hn, hst, herr⟩

end

/-! ## Runs -/

/-- A session is disconnected only when it has no error in memory. -/
def ErrorFree (m : SessionManager) : Op → Prop
  | .disconnect _ id => ∀ entry, m.sessions id = some entry → entry.metadata.error = none
  | _ => True

/-- **What an operation must meet.** -/
theorem mirrored_apply_iff {m : SessionManager} (h : m.Mirrored) {op : Op} (hw : op.Written) :
    (m.apply op).Mirrored ↔ m.ErrorFree op := by
  cases op with
  | create env userId req => exact iff_of_true (mirrored_create h userId req) trivial
  | update env id req => exact iff_of_true (mirrored_update h hw req) trivial
  | connect env id => exact iff_of_true (mirrored_connect h hw) trivial
  | disconnect env id => exact mirrored_disconnect_iff h hw
  | refresh env id => exact iff_of_true (mirrored_refreshTmuxState h) trivial
  | load | delete | execute | uploadKey => cases hw

/-- **When the rows say what is in memory**: in every state of a run whose writes
succeed, exactly if no session is disconnected that has an error. -/
theorem mirrored_iff_errorFree (db : List SessionRow) {ops : List Op}
    (hw : ∀ op ∈ ops, op.Written) :
    Always apply Mirrored (new db) ops ↔ EachStep apply ErrorFree (new db) ops :=
  @always_iff_eachStep_of _ _ apply _ (fun _ => True) _ _ _ (mirrored_new db) trivial
    (fun _ _ _ h hw => mirrored_apply_iff h hw) (fun _ _ _ _ _ _ => trivial) _
    (eachStep_of_forall_mem hw _)

end SessionManager

/-! ## A session whose connection failed -/

def unreachable : ConnectFailure where
  step := .reach
  error := ⟨"SSH connect failed".toList, by decide⟩

def sampleUnreachable : List Op :=
  [.create (.working uuidA []) [] { name := "s".toList, transport := .ssh "h".toList },
    .connect { Env.working uuidA [] with connect := some unreachable } uuidA.val]

theorem sampleUnreachable_written : ∀ op ∈ sampleUnreachable, op.Written := by
  intro op hop
  simp only [sampleUnreachable, List.mem_cons, List.not_mem_nil, or_false] at hop
  rcases hop with rfl | rfl <;> exact fun _ => rfl

theorem mirrored_iff_errorFree_sample :
    Always SessionManager.apply SessionManager.Mirrored (.new []) sampleUnreachable :=
  (SessionManager.mirrored_iff_errorFree [] sampleUnreachable_written).mpr
    ⟨trivial, trivial, trivial⟩

/-- The session is disconnected, and keeps the error in memory only. -/
theorem disconnect_clears_error_of_row : ¬ ∀ (db : List SessionRow) (ops : List Op),
    (∀ op ∈ ops, op.Written) →
      Always SessionManager.apply SessionManager.Mirrored (.new db) ops := by
  intro h
  have hops : ∀ op ∈ sampleUnreachable ++ [.disconnect (.working uuidA []) uuidA.val],
      op.Written := by
    intro op hop
    rcases List.mem_append.mp hop with hop | hop
    · exact sampleUnreachable_written op hop
    · rw [List.mem_singleton] at hop
      subst hop
      exact fun _ => rfl
  have hall := always_iff_forall.mp (h [] _ hops)
  have hlast := hall _ [] (List.append_nil _).symm
  rw [run_append] at hlast
  have hw : (Op.disconnect (.working uuidA []) uuidA.val).Written := fun _ => rfl
  have hfree := (SessionManager.mirrored_apply_iff (hall _ _ rfl) hw).mp hlast
  exact absurd (hfree _ rfl) (by simp)

end Oxmux.Session
