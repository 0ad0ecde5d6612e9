import Oxmux.Lib.Runs
import Oxmux.Session.ManagerOps

/-! What an operation leaves behind when the database refuses its write. `create`
writes the row before the memory, `update` and `delete` the memory before the
row, and none of them takes back what it did. -/

namespace Oxmux.Session
open Oxmux.Lib Oxmux.Lib.Runs

namespace SessionManager

/-- `insert_session`, `update_session_name` or `delete_session` failed, and the
operation returned its error. -/
def FailedWrite (m : SessionManager) : Op → Prop
  | .create env userId req =>
    (m.create env userId req).2 = .error "failed to insert session".toList
  | .update env id req => (m.update env id req).2 = .error "failed to update session name".toList
  | .delete env id => (m.delete env id).2 = .error "failed to delete session".toList
  | _ => False

/-- The operation comes to its database write with the memory as it was: a
session is named what it is called already. -/
def Spares (m : SessionManager) : Op → Prop
  | .update _ id req =>
    ∀ entry name, m.sessions id = some entry → req.name = some name → entry.metadata.name = name
  | .delete _ _ => False
  | _ => True

variable {m : SessionManager} {env : Env} {id : Text}

/-- The error of a session that is not there begins with its own words. -/
theorem notFound_ne {t : Text} (h : t.head? = some 'f') : notFound id ≠ t := by
  rintro rfl
  have hs : (notFound id).head? = some 's' := rfl
  rw [hs] at h
  exact absurd (Option.some.inj h) (by decide)

/-- `create` returns before it touches the memory. -/
theorem create_failed {userId : Text} {req : CreateSessionRequest}
    (h : m.FailedWrite (.create env userId req)) : m.apply (.create env userId req) = m := by
  change (m.create env userId req).2 = _ at h
  change (m.create env userId req).1 = m
  unfold create at h ⊢
  simp only at h ⊢
  split at h
  · cases h
  · rename_i hc
    exact if_neg hc ▸ rfl

/-- `update` returns with the new name in memory. -/
theorem update_failed {req : UpdateSessionRequest} (h : m.FailedWrite (.update env id req)) :
    ∃ entry name, m.sessions id = some entry ∧ req.name = some name ∧
      m.apply (.update env id req) =
        m.setEntry id { entry with metadata := { entry.metadata with name } } := by
  change (m.update env id req).2 = _ at h
  change ∃ entry name, _ ∧ _ ∧ (m.update env id req).1 = _
  unfold update at h ⊢
  cases hs : m.sessions id with
  | none =>
    rw [hs] at h
    exact absurd (Except.error.inj h) (notFound_ne rfl)
  | some entry =>
    cases hn : req.name with
    | none =>
      rw [hs, hn] at h
      cases h
    | some name =>
      simp only [hs, hn] at h ⊢
      split at h
      · cases h
      · rename_i hw
        exact ⟨entry, name, rfl, rfl, by rw [if_neg hw]⟩

/-- `delete` returns with the session gone from memory. -/
theorem delete_failed (h : m.FailedWrite (.delete env id)) :
    (m.sessions id).isSome ∧ ((m.apply (.delete env id)).sessions id) = none := by
  change (m.delete env id).2 = _ at h
  change _ ∧ ((m.delete env id).1).sessions id = none
  unfold delete at h ⊢
  simp only at h ⊢
  cases hs : m.sessions id with
  | none =>
    have hr : (m.removeRoutes id).sessions id = none := hs
    rw [hr] at h
    exact absurd (Except.error.inj h) (notFound_ne rfl)
  | some entry =>
    have hr : (m.removeRoutes id).sessions id = some entry := hs
    refine ⟨rfl, ?_⟩
    simp only [hr]
    split <;> exact Function.update_self id (none : Option SessionEntry) m.sessions

/-- Setting a name is silent for the name that is there. -/
theorem setEntry_name_iff {entry : SessionEntry} (hs : m.sessions id = some entry) (name : Text) :
    m.setEntry id { entry with metadata := { entry.metadata with name } } = m ↔
      entry.metadata.name = name := by
  constructor
  · intro h
    have he := congrArg (fun m' => m'.sessions id) h
    simp only [setEntry, Function.update_self, hs, Option.some.injEq] at he
    exact (congrArg (·.metadata.name) he).symm
  · rintro rfl
    have hu : Function.update m.sessions id (some entry) = m.sessions := by
      rw [← hs]
      exact Function.update_eq_self id m.sessions
    change ({ m with sessions := Function.update m.sessions id (some entry) } : SessionManager) = m
    rw [hu]

/-- A failed operation changes nothing exactly if it comes to its write with the
memory as it was. -/
theorem apply_failed_iff {op : Op} (h : m.FailedWrite op) : m.apply op = m ↔ m.Spares op := by
  cases op with
  | create env userId req => exact iff_of_true (create_failed h) trivial
  | update env id req =>
    obtain ⟨entry, name, hs, hn, ha⟩ := update_failed h
    rw [ha, setEntry_name_iff hs]
    constructor
    · intro he entry' name' hs' hn'
      obtain rfl := Option.some.inj (hs.symm.trans hs')
      obtain rfl := Option.some.inj (hn.symm.trans hn')
      exact he
    · intro hsp
      exact hsp entry name hs hn
  | delete env id =>
    obtain ⟨hsome, hnone⟩ := delete_failed h
    refine iff_of_false (fun he => ?_) (fun hsp => hsp)
    rw [he] at hnone
    rw [hnone] at hsome
    cases hsome
  | _ => exact h.elim

/-- **Failed operations in a run.** All of them leave the state as it was exactly
if each of them is a `create`, or an `update` to the name the session has. -/
theorem failed_atomic_iff (m : SessionManager) (ops : List Op) :
    EachStep apply (fun m op => m.FailedWrite op → m.apply op = m) m ops ↔
      EachStep apply (fun m op => m.FailedWrite op → m.Spares op) m ops := by
  have hstep : ∀ (m : SessionManager) (op : Op),
      (m.FailedWrite op → m.apply op = m) ↔ (m.FailedWrite op → m.Spares op) :=
    fun m op => forall_congr' fun h => apply_failed_iff h
  exact eachStep_congr hstep m ops

/-- A session is created, and then renamed while the database is away: it keeps
the new name. -/
theorem update_leaves_name :
    ¬ ∀ m, Reachable apply (new []) m → ∀ op, m.FailedWrite op → m.apply op = m := by
  intro h
  let env := Env.working uuidA []
  let req : CreateSessionRequest :=
    { name := ['a'], transport := { browser := .websocket, backend := .local } }
  let op := Op.update { env with dbWrite := fun _ => false } ['a'] { name := some ['b'] }
  let m := (new []).apply (.create env ['u'] req)
  have hop := h m ((reachable_init _).next _) op rfl
  have hname := congrArg (fun m => (m.get ['a']).map (·.name)) hop
  exact absurd hname (by decide)

end SessionManager

end Oxmux.Session
