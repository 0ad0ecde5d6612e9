import Oxmux.Session.CallRoutes

/-! Sessions that come back, when a delete and loads interleave. A load reads the
rows first and looks at the memory later; a delete empties the memory first and
deletes the row later. -/

namespace Oxmux.Session
open Oxmux.Lib Oxmux.Lib.Runs

namespace Call

def Deletes (id : Text) : Call → Prop
  | delete id' | deleteRemove id' | deleteLock id' _ | deleteReach id' _ | deleteKey id' _
  | deleteRow id' _ => id' = id
  | _ => False

/-- The call is a delete that has taken the session out of memory. -/
def Took (id : Text) : Call → Prop
  | deleteLock id' _ | deleteReach id' _ | deleteKey id' _ | deleteRow id' _ => id' = id
  | _ => False

instance (id : Text) : DecidablePred (Took id) := fun c => by
  induction c using Call.casesOn <;> unfold Took <;> infer_instance

variable {client : Nat} {env : Env} {s s' : Shared} {c c' : Call} {id : Text}

theorem deletes_step (hs : c.step client env s = (s', .inl c')) (h : c.Deletes id) :
    c'.Deletes id := by
  cases c with
  | delete id' =>
    cases hs
    exact h
  | deleteRemove id' =>
    simp only [step] at hs
    split at hs <;> cases hs
    exact h
  | deleteLock id' entry =>
    simp only [step, acquire] at hs
    split at hs <;> cases hs <;> exact h
  | deleteReach id' entry =>
    cases hs
    exact h
  | deleteKey id' entry =>
    cases hs
    exact h
  | deleteRow id' entry =>
    simp only [step] at hs
    split at hs <;> cases hs
  | _ => cases h

/-- A delete that succeeds has deleted the row, and took the session before. -/
theorem deletes_ok {reply : Reply} (hs : c.step client env s = (s', .inr reply))
    (h : c.Deletes id) (hok : reply.isOk = true) : c.Took id ∧ ∀ row ∈ s'.db, row.id.val ≠ id := by
  cases c with
  | delete id' => cases hs
  | deleteRemove id' =>
    simp only [step] at hs
    split at hs <;> cases hs
    cases hok
  | deleteLock id' entry =>
    simp only [step, acquire] at hs
    split at hs <;> cases hs
  | deleteReach id' entry => cases hs
  | deleteKey id' entry => cases hs
  | deleteRow id' entry =>
    cases h
    simp only [step] at hs
    split at hs
    · cases hs
      exact ⟨rfl, fun row hr => of_decide_eq_true (List.mem_filter.mp hr).2⟩
    · cases hs
      cases hok
  | _ => cases h

/-- Who has taken the session did so by removing it. -/
theorem took_step (hs : c.step client env s = (s', .inl c')) (h : c'.Took id) :
    c.Took id ∨ c.effect s = .remove id := by
  cases c with
  | deleteRemove id' =>
    simp only [step] at hs
    split at hs <;> cases hs
    exact .inr (congrArg Effect.remove h)
  | deleteLock id' entry =>
    left
    simp only [step, acquire] at hs
    split at hs <;> cases hs <;> exact h
  | deleteReach id' entry =>
    left
    cases hs
    exact h
  | deleteKey id' entry =>
    left
    cases hs
    exact h
  | loadRows rows sessions =>
    cases rows <;> simp only [step] at hs
    · cases hs
    · split at hs
      · cases hs
      · split at hs <;> cases hs <;> cases h
  | connectReach id' t =>
    simp only [step] at hs
    split at hs <;> cases hs <;> cases h
  | connectRoute id' panes tree => cases panes <;> cases hs <;> cases h
  | refreshRoute id' panes tree => cases panes <;> cases hs <;> cases h
  | load | connect | connectLock | refresh | refreshLock | refreshList | get | disconnectFind
  | disconnectLock | deleteRow =>
    simp only [step, find, acquire] at hs
    split at hs <;> cases hs <;> cases h
  | _ => cases hs <;> cases h

theorem mem_db_step {row : SessionRow} (h : row ∈ (c.step client env s).1.db) :
    ∃ row' ∈ s.db, row'.id = row.id := by
  have hstatus : ∀ (ok : Bool) (id : Text) (status : SessionStatus) (error : Option Text),
      row ∈ (s.updateSessionStatus ok id status error).db → ∃ row' ∈ s.db, row'.id = row.id := by
    intro ok id status error h
    unfold Shared.updateSessionStatus at h
    split at h
    · obtain ⟨row', hm, rfl⟩ := List.mem_map.mp h
      refine ⟨row', hm, ?_⟩
      split <;> rfl
    · exact ⟨row, h, rfl⟩
  cases c with
  | connectNote id' t => exact hstatus _ _ _ _ h
  | connectStore id' => exact hstatus _ _ _ _ h
  | connectFailStore id' errMsg => exact hstatus _ _ _ _ h
  | disconnectStore id' => exact hstatus _ _ _ _ h
  | deleteRow id' entry =>
    simp only [step] at h
    split at h
    · exact ⟨row, List.mem_of_mem_filter h, rfl⟩
    · exact ⟨row, h, rfl⟩
  | connectLock id' t => exact ⟨row, (acquire_maps ..).2.2 ▸ h, rfl⟩
  | refreshLock id' t => exact ⟨row, (acquire_maps ..).2.2 ▸ h, rfl⟩
  | disconnectLock id' t => exact ⟨row, (acquire_maps ..).2.2 ▸ h, rfl⟩
  | deleteLock id' entry => exact ⟨row, (acquire_maps ..).2.2 ▸ h, rfl⟩
  | connect id' =>
    rw [step, find_fst] at h
    exact ⟨row, h, rfl⟩
  | refresh id' =>
    rw [step, find_fst] at h
    exact ⟨row, h, rfl⟩
  | disconnectFind id' =>
    rw [step, find_fst] at h
    exact ⟨row, h, rfl⟩
  | connectRoute id' panes tree => cases panes <;> exact ⟨row, h, rfl⟩
  | refreshRoute id' panes tree => cases panes <;> exact ⟨row, h, rfl⟩
  | deleteKey id' entry =>
    simp only [step, Shared.removeKey] at h
    split at h <;> exact ⟨row, h, rfl⟩
  | loadRows rows sessions =>
    cases rows <;> simp only [step] at h
    · exact ⟨row, h, rfl⟩
    · split at h <;> exact ⟨row, h, rfl⟩
  | load | refreshList | get | deleteRemove =>
    simp only [step] at h
    split at h <;> exact ⟨row, h, rfl⟩
  | _ => exact ⟨row, h, rfl⟩

end Call

/-! ## Clients -/

namespace Client

/-- The client was told that the session is deleted. -/
def Deleted (id : Text) (c : Client) : Prop :=
  ∃ r ∈ c.replies, r.1 = .delete id ∧ r.2.isOk = true

/-- The client has taken the session, in a call that is under way or was answered. -/
def HasTaken (id : Text) (c : Client) : Prop := c.At (·.Took id) ∨ c.Deleted id

instance (id : Text) (c : Client) : Decidable (c.Deleted id) :=
  inferInstanceAs (Decidable (∃ r ∈ c.replies, r.1 = .delete id ∧ r.2.isOk = true))

instance (id : Text) (c : Client) : Decidable (c.HasTaken id) :=
  inferInstanceAs (Decidable (c.At (·.Took id) ∨ c.Deleted id))

def Deletes (c : Client) : Prop :=
  ∀ id call, c.current = some (.delete id, call) → call.Deletes id

variable {i : Nat} {env : Env} {s : Shared} {c : Client} {id : Text}

theorem took_request (request : Request) : ¬ request.call.Took id := by
  cases request <;> exact fun h => h

theorem deletes_step (h : c.Deletes) : (c.step i env s).2.Deletes := by
  have ht := c.turn i env s
  generalize c.step i env s = r at ht
  cases ht with
  | idle hc => exact h
  | start hc =>
    intro id call hcall
    cases hcall
    rfl
  | go hc hs =>
    intro id call hcall
    cases hcall
    exact Call.deletes_step hs (h id _ hc)
  | answer hc hs =>
    intro id call hcall
    cases hcall

/-- Who has taken a session had, or removes it now. -/
theorem hasTaken_step (hd : c.Deletes) (h : (c.step i env s).2.HasTaken id) :
    c.HasTaken id ∨ c.effect s = .remove id := by
  have ht := c.turn i env s
  generalize c.step i env s = r at ht h
  cases ht with
  | idle hc => exact .inl h
  | start hc =>
    rcases h with h | h
    · exact absurd ((at_iff rfl).mp h) (took_request _)
    · exact .inl (.inr h)
  | go hc hs =>
    rcases h with h | h
    · rw [effect_eq hc]
      rcases Call.took_step hs ((at_iff rfl).mp h) with h | h
      · exact .inl (.inl ((at_iff hc).mpr h))
      · exact .inr h
    · exact .inl (.inr h)
  | answer hc hs =>
    rcases h with h | ⟨r, h, hr, hok⟩
    · exact absurd h (not_at rfl)
    · rcases List.mem_append.mp h with h | h
      · exact .inl (.inr ⟨r, h, hr, hok⟩)
      · cases List.mem_singleton.mp h
        cases hr
        exact .inl (.inl ((at_iff hc).mpr (Call.deletes_ok hs (hd id _ hc) hok).1))

/-- Who is told so had taken the session, and its row is gone. -/
theorem deleted_step (hd : c.Deletes) (h : (c.step i env s).2.Deleted id) :
    c.Deleted id ∨ c.HasTaken id ∧ ∀ row ∈ (c.step i env s).1.db, row.id.val ≠ id := by
  have ht := c.turn i env s
  generalize c.step i env s = r at ht h
  cases ht with
  | idle hc => exact .inl h
  | start hc => exact .inl h
  | go hc hs => exact .inl h
  | answer hc hs =>
    obtain ⟨r, h, hr, hok⟩ := h
    rcases List.mem_append.mp h with h | h
    · exact .inl ⟨r, h, hr, hok⟩
    · cases List.mem_singleton.mp h
      cases hr
      obtain ⟨htook, hrow⟩ := Call.deletes_ok hs (hd id _ hc) hok
      exact .inr ⟨.inl ((at_iff hc).mpr htook), hrow⟩

theorem mem_db_step {row : SessionRow} (h : row ∈ (c.step i env s).1.db) :
    ∃ row' ∈ s.db, row'.id = row.id := by
  have ht := c.turn i env s
  generalize c.step i env s = r at ht h
  cases ht with
  | idle hc => exact ⟨row, h, rfl⟩
  | start hc => exact ⟨row, h, rfl⟩
  | @go request call call' s' hc hs =>
    have h' : row ∈ (call.step i env s).1.db := by
      rw [hs]
      exact h
    exact Call.mem_db_step h'
  | @answer request call reply s' hc hs =>
    have h' : row ∈ (call.step i env s).1.db := by
      rw [hs]
      exact h
    exact Call.mem_db_step h'

end Client

/-! ## Runs -/

theorem Effect.sessions_eq_none {e : Effect} {m : Text → Option CallEntry} {id : Text}
    (hnone : m id = Option.none) (hput : ∀ entry, e ≠ .put id entry) :
    e.sessions m id = Option.none := by
  cases e with
  | none | prune | route => exact hnone
  | put id' entry =>
    have hne : id ≠ id' := by
      rintro rfl
      exact hput entry rfl
    exact (Function.update_of_ne hne _ _).trans hnone
  | remove id' =>
    by_cases hid : id = id'
    · exact hid ▸ Function.update_self ..
    · exact (Function.update_of_ne hid _ _).trans hnone
  | modify id' f =>
    by_cases hid : id = id'
    · subst hid
      simp [sessions, hnone]
    · exact (Function.update_of_ne hid _ _).trans hnone

namespace Calls

/-- The session is neither in memory nor in the table. -/
def Gone (id : Text) (s : Shared) : Prop :=
  s.sessions id = none ∧ ∀ row ∈ s.db, row.id.val ≠ id

/-- A load puts the session into memory only while no delete has taken it. -/
def TimelyCall (s : Calls) (id : Text) : Call → Prop
  | .loadInsert metadata _ _ => metadata.id = id → ∀ c ∈ s.locals, ¬ c.HasTaken id
  | _ => True

instance (id : Text) (s : Calls) : DecidablePred (s.TimelyCall id) := fun call => by
  induction call using Call.casesOn <;> unfold TimelyCall <;> infer_instance

/-- The step that a client takes is timely. -/
def Timely (s : Calls) (id : Text) (pick : Nat × Env) : Prop :=
  ∀ c ∈ s.locals[pick.1]?, ∀ call ∈ c.call, s.TimelyCall id call

instance (id : Text) (s : Calls) (pick : Nat × Env) : Decidable (s.Timely id pick) :=
  inferInstanceAs (Decidable (∀ c ∈ s.locals[pick.1]?, ∀ call ∈ c.call, s.TimelyCall id call))

/-- What was taken is not in memory, and what was deleted is not in the table. -/
structure Taken (s : Calls) (id : Text) : Prop where
  deletes : ∀ c ∈ s.locals, c.Deletes
  memory : ∀ c ∈ s.locals, c.HasTaken id → s.shared.sessions id = none
  table : ∀ c ∈ s.locals, c.Deleted id → ∀ row ∈ s.shared.db, row.id.val ≠ id

theorem taken_step {id : Text} {s : Calls} (h : s.Taken id) {pick : Nat × Env}
    (htimely : s.Timely id pick) : (s.step pick).Taken id := by
  cases hi : s.locals[pick.1]? with
  | none =>
    rw [step, Threads.step_none hi]
    exact h
  | some c =>
    have hmem := List.mem_of_getElem? hi
    have hshared : (s.step pick).shared = (c.step pick.1 pick.2 s.shared).1 := by
      rw [step, Threads.step_some hi]
    obtain ⟨hsessions, -⟩ := c.step_maps pick.1 pick.2 s.shared
    rw [← hshared] at hsessions
    refine ⟨fun c' hc' => ?_, fun c' hc' ht => ?_, fun c' hc' hd => ?_⟩
    · rcases Threads.mem_of_step hi hc' with rfl | hc'
      · exact Client.deletes_step (h.deletes c hmem)
      · exact h.deletes c' hc'
    · have hbefore : (∃ c ∈ s.locals, c.HasTaken id) ∨ c.effect s.shared = .remove id := by
        rcases Threads.mem_of_step hi hc' with rfl | hc'
        · rcases Client.hasTaken_step (h.deletes c hmem) ht with ht | hr
          · exact .inl ⟨c, hmem, ht⟩
          · exact .inr hr
        · exact .inl ⟨c', hc', ht⟩
      rw [hsessions]
      rcases hbefore with ⟨u, hu, ht⟩ | hr
      · have hnone := h.memory u hu ht
        refine Effect.sessions_eq_none hnone fun entry he => ?_
        obtain ⟨request, call, hc, hcall⟩ := Client.effect_call he (by simp)
        obtain ⟨metadata, rows, sessions, rfl, hid⟩ := Call.effect_put hcall
        have htime : s.TimelyCall id (.loadInsert metadata rows sessions) :=
          htimely c hi _ (by simp [Client.call, hc])
        exact htime hid u hu ht
      · rw [hr]
        exact Function.update_self ..
    · intro row hrow
      rw [hshared] at hrow
      have hold : (∃ c ∈ s.locals, c.Deleted id) → row.id.val ≠ id := by
        rintro ⟨u, hu, hd⟩
        obtain ⟨row', hm, hid⟩ := Client.mem_db_step hrow
        rw [← hid]
        exact h.table u hu hd row' hm
      rcases Threads.mem_of_step hi hc' with rfl | hc'
      · rcases Client.deleted_step (h.deletes c hmem) hd with hd | ⟨-, hgone⟩
        · exact hold ⟨c, hmem, hd⟩
        · exact hgone row hrow
      · exact hold ⟨c', hc', hd⟩

/-- **When a deleted session stays deleted**: in a run whose loads put a session
into memory only while no delete has taken it, a session whose deletion was
confirmed is gone whenever no call is under way. -/
theorem gone_of_timely (id : Text) (db : List SessionRow) (todos : List (List Request))
    (picks : List (Nat × Env))
    (h : EachStep step (fun s => s.Timely id) (start (.new db) todos) picks) :
    Always step (fun s => (∃ c ∈ s.locals, c.Deleted id) → s.Quiet → Gone id s.shared)
      (start (.new db) todos) picks := by
  have hnew : (start (.new db) todos).Taken id := by
    have hc : ∀ c ∈ (start (.new db) todos).locals, ∃ todo, c = .new todo := by
      intro c hm
      obtain ⟨todo, -, rfl⟩ := List.mem_map.mp hm
      exact ⟨todo, rfl⟩
    refine ⟨fun c hm => ?_, fun c hm ht => rfl, fun c hm hd => ?_⟩
    · obtain ⟨todo, rfl⟩ := hc c hm
      intro id call hcall
      cases hcall
    · obtain ⟨todo, rfl⟩ := hc c hm
      obtain ⟨r, hd, -⟩ := hd
      cases hd
  refine always_of_eachStep (I := fun s => s.Taken id) hnew (fun _ _ hi ht => taken_step hi ht)
    (fun s hi => ?_) h
  rintro ⟨c, hc, hd⟩ -
  exact ⟨hi.memory c hc (.inr hd), hi.table c hc hd⟩

/-! ## A load during a delete -/

def deleteTodos : List (List Request) :=
  [[.load "u".toList, .delete ['a']], [.load "u".toList]]

/-- The first client loads the session; the second one reads the rows; the first
one deletes the session; the second one looks at the memory. -/
def loadDuringDelete : List (Nat × Env) :=
  let env := Env.working uuidB []
  List.replicate 6 (0, env) ++ List.replicate 2 (1, env) ++ List.replicate 7 (0, env) ++
    List.replicate 4 (1, env)

/-- The second client comes when the session is deleted. -/
def loadAfterDelete : List (Nat × Env) :=
  let env := Env.working uuidB []
  List.replicate 13 (0, env) ++ List.replicate 3 (1, env)

theorem gone_of_timely_sample :
    Always step (fun s => (∃ c ∈ s.locals, c.Deleted ['a']) → s.Quiet → Gone ['a'] s.shared)
      (start (.new [.saved uuidA]) deleteTodos) loadAfterDelete :=
  gone_of_timely ['a'] _ _ _ (by decide +kernel)

def reloadedCalls : Calls :=
  run step (start (.new [.saved uuidA]) deleteTodos) loadDuringDelete

/-- A session that is deleted, and in memory. -/
theorem deleted_session_returns : ¬ ∀ (id : Text) (db : List SessionRow)
    (todos : List (List Request)) (picks : List (Nat × Env)),
    Always step (fun s => (∃ c ∈ s.locals, c.Deleted id) → s.Quiet → Gone id s.shared)
      (start (.new db) todos) picks := by
  intro h
  have hquiet : reloadedCalls.Quiet := by decide +kernel
  have hdeleted : ∃ c ∈ reloadedCalls.locals, c.Deleted ['a'] := by decide +kernel
  have hback : (reloadedCalls.shared.sessions ['a']).isSome = true := by decide +kernel
  have hgone : (∃ c ∈ reloadedCalls.locals, c.Deleted ['a']) → reloadedCalls.Quiet →
      Gone ['a'] reloadedCalls.shared := (h _ _ _ _).last
  rw [(hgone hdeleted hquiet).1] at hback
  cases hback

end Calls

end Oxmux.Session
