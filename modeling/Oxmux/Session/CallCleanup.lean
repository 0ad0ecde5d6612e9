import Oxmux.Session.CallRoutes

/-! A user comes back while the old connection is cleaned up. The new socket
connects the user's sessions again; the cleanup of the old one disconnects what
it finds connected, whoever connected it. -/

namespace Oxmux.Session
open Oxmux.Lib Oxmux.Lib.Runs

namespace Call

/-- The call connects the session, and has yet to mark it as connected. -/
def Connects (id : Text) : Call → Prop
  | connect id' | connectMark id' _ | connectNote id' _ | connectLock id' _ | connectReach id' _
  | connectList id' _ | connectRoute id' _ _ => id' = id
  | _ => False

def Fails (id : Text) : Call → Prop
  | connectFail id' _ | connectFailStore id' _ => id' = id
  | _ => False

def Ends (id : Text) : Call → Prop
  | connectStore id' | get id' => id' = id
  | _ => False

/-- The session that a call connects, for the calls that only a connect makes. -/
def connecting : Call → Option Text
  | connect id | connectMark id _ | connectNote id _ | connectLock id _ | connectReach id _
  | connectList id _ | connectRoute id _ _ | connectStore id | connectFail id _
  | connectFailStore id _ => some id
  | _ => none

def Serves (c : Call) : Request → Prop
  | .connect id => c.Connects id ∨ c.Fails id ∨ c.Ends id
  | _ => c.connecting = none

instance (id : Text) : DecidablePred (Connects id) := fun c => by
  induction c using Call.casesOn <;> unfold Connects <;> infer_instance

variable {client : Nat} {env : Env} {s s' : Shared} {c c' : Call} {out : Call ⊕ Reply} {id : Text}

/-- A connect goes on, fails, or marks the session. -/
theorem connects_step (hs : c.step client env s = (s', out)) (h : c.Connects id) :
    (∃ c', out = .inl c' ∧ (c'.Connects id ∨ c'.Fails id)) ∨ (∃ e, out = .inr (.error e)) ∨
      (∃ c', out = .inl c' ∧ c'.Ends id) ∧
        ∃ f, c.effect s = .modify id f ∧ ∀ session, (f session).status = .connected := by
  cases c with
  | connect id' =>
    simp only [step, find] at hs
    split at hs <;> cases hs
    · exact .inl ⟨_, rfl, .inl h⟩
    · exact .inr (.inl ⟨_, rfl⟩)
  | connectMark id' t =>
    cases hs
    exact .inl ⟨_, rfl, .inl h⟩
  | connectNote id' t =>
    cases hs
    exact .inl ⟨_, rfl, .inl h⟩
  | connectLock id' t =>
    simp only [step, acquire] at hs
    split at hs <;> cases hs <;> exact .inl ⟨_, rfl, .inl h⟩
  | connectReach id' t =>
    simp only [step] at hs
    split at hs <;> cases hs
    · exact .inl ⟨_, rfl, .inl h⟩
    · exact .inl ⟨_, rfl, .inr h⟩
  | connectList id' t =>
    cases hs
    exact .inl ⟨_, rfl, .inl h⟩
  | connectRoute id' panes tree =>
    cases h
    cases panes with
    | nil =>
      cases hs
      exact .inr (.inr ⟨⟨_, rfl, rfl⟩, _, rfl, fun session => rfl⟩)
    | cons pane panes =>
      cases hs
      exact .inl ⟨_, rfl, .inl rfl⟩
  | _ => cases h

theorem fails_step (hs : c.step client env s = (s', out)) (h : c.Fails id) :
    (∃ c', out = .inl c' ∧ c'.Fails id) ∨ ∃ e, out = .inr (.error e) := by
  cases c with
  | connectFail id' errMsg =>
    cases hs
    exact .inl ⟨_, rfl, h⟩
  | connectFailStore id' errMsg =>
    cases hs
    exact .inr ⟨_, rfl⟩
  | _ => cases h

/-- A call that ends without its session ends with an error. -/
theorem ends_step (hs : c.step client env s = (s', out)) (h : c.Ends id)
    (hnone : s.sessions id = none) :
    (∃ c', out = .inl c' ∧ c'.Ends id) ∨ ∃ e, out = .inr (.error e) := by
  cases c with
  | connectStore id' =>
    cases hs
    exact .inl ⟨_, rfl, h⟩
  | get id' =>
    cases h
    simp only [step, hnone] at hs
    cases hs
    exact .inr ⟨_, rfl⟩
  | _ => cases h

theorem other_step (hs : c.step client env s = (s', .inl c')) (h : c.connecting = none) :
    c'.connecting = none := by
  cases c with
  | connect | connectMark | connectNote | connectLock | connectReach | connectList | connectRoute
  | connectStore | connectFail | connectFailStore => cases h
  | loadRows rows sessions =>
    cases rows <;> simp only [step] at hs
    · cases hs
    · split at hs
      · cases hs
      · split at hs <;> cases hs <;> rfl
  | refreshRoute id' panes tree => cases panes <;> cases hs <;> rfl
  | load | refresh | refreshLock | refreshList | get | disconnectFind | disconnectLock
  | deleteRemove | deleteLock | deleteRow =>
    simp only [step, find, acquire] at hs
    split at hs <;> cases hs <;> rfl
  | _ =>
    cases hs
    rfl

/-- A call serves its request until it is answered. -/
theorem serves_step {request : Request} (hs : c.step client env s = (s', .inl c'))
    (h : c.Serves request) : c'.Serves request := by
  cases request with
  | connect id =>
    rcases h with h | h | h
    · rcases connects_step hs h with ⟨c'', he, h⟩ | ⟨e, he⟩ | ⟨⟨c'', he, h⟩, -⟩
      · cases he
        exact h.imp_right .inl
      · cases he
      · cases he
        exact .inr (.inr h)
    · rcases fails_step hs h with ⟨c'', he, h⟩ | ⟨e, he⟩
      · cases he
        exact .inr (.inl h)
      · cases he
    · cases c with
      | connectStore id' =>
        cases hs
        exact .inr (.inr h)
      | get id' =>
        simp only [step] at hs
        split at hs <;> cases hs
      | _ => cases h
  | _ => exact other_step hs h

/-- A modification keeps the status, or is one of a connect or a disconnect. -/
theorem modify_cases {f : ManagedSession → ManagedSession} (h : c.effect s = .modify id f) :
    c.Connects id ∨ c.Fails id ∨ c = .disconnectMark id ∨
      ∀ session, (f session).status = session.status := by
  cases c with
  | connectMark id' t =>
    cases h
    exact .inl rfl
  | connectRoute id' panes tree =>
    cases panes with
    | nil =>
      cases h
      exact .inl rfl
    | cons pane panes => cases h
  | connectFail id' errMsg =>
    cases h
    exact .inr (.inl rfl)
  | refreshRoute id' panes tree =>
    cases panes with
    | nil =>
      cases h
      exact .inr (.inr (.inr fun session => rfl))
    | cons pane panes => cases h
  | disconnectMark id' =>
    cases h
    exact .inr (.inr (.inl rfl))
  | _ => cases h

theorem connecting_of_connects (h : c.Connects id) : c.connecting = some id := by
  cases c <;> first | exact congrArg some h | exact False.elim h

theorem connecting_of_fails (h : c.Fails id) : c.connecting = some id := by
  cases c <;> first | exact congrArg some h | exact False.elim h

/-- Only the request to connect a session is served by connecting it. -/
theorem serves_connecting {request : Request} (hr : c.Serves request)
    (h : c.connecting = some id) : request = .connect id := by
  cases request with
  | connect id' =>
    rcases hr with hr | hr | hr
    · rw [connecting_of_connects hr] at h
      rw [Option.some.inj h]
    · rw [connecting_of_fails hr] at h
      rw [Option.some.inj h]
    · cases c with
      | connectStore id'' =>
        cases hr
        rw [Option.some.inj h]
      | get id'' => cases h
      | _ => cases hr
  | _ =>
    rw [hr] at h
    cases h

end Call

/-! ## Clients -/

namespace Client

def Serves (c : Client) : Prop :=
  ∀ request call, c.current = some (request, call) → call.Serves request

/-- The client has yet to mark the session as connected. -/
def Awaits (id : Text) (c : Client) : Prop := .connect id ∈ c.todo ∨ c.At (·.Connects id)

def Failed (c : Client) : Prop :=
  (∃ id, c.At (·.Fails id)) ∨ ∃ r ∈ c.replies, ∃ id, r.1 = .connect id ∧ r.2.isOk = false

def Ends (id : Text) (c : Client) : Prop :=
  ∃ call, c.current = some (.connect id, call) ∧ call.Ends id

instance (id : Text) (c : Client) : Decidable (c.Awaits id) :=
  inferInstanceAs (Decidable (.connect id ∈ c.todo ∨ c.At (·.Connects id)))

variable {i : Nat} {env : Env} {s : Shared} {c : Client} {id : Text}

theorem serves_request (request : Request) : request.call.Serves request := by
  cases request with
  | connect id => exact .inl rfl
  | _ => rfl

theorem serves_step (h : c.Serves) : (c.step i env s).2.Serves := by
  have ht := c.turn i env s
  generalize c.step i env s = r at ht
  cases ht with
  | idle hc => exact h
  | start hc =>
    intro request call hcall
    cases hcall
    exact serves_request _
  | go hc hs =>
    intro request call hcall
    cases hcall
    exact Call.serves_step hs (h _ _ hc)
  | answer hc hs =>
    intro request call hcall
    cases hcall

theorem failed_of_reply {todo : List Request} {replies : List (Request × Reply)} {e : Text} :
    Failed { todo, current := none, replies := replies ++ [(.connect id, .error e)] } :=
  .inr ⟨(.connect id, .error e), by simp, id, rfl, rfl⟩

/-- Who awaits a session goes on to do so, fails, or marks it. -/
theorem awaits_step (hserves : c.Serves) (h : c.Awaits id) : (c.step i env s).2.Awaits id ∨
    (c.step i env s).2.Failed ∨ (c.step i env s).2.Ends id ∧
      ∃ f, c.effect s = .modify id f ∧ ∀ session, (f session).status = .connected := by
  have ht := c.turn i env s
  generalize c.step i env s = r at ht
  cases ht with
  | idle hc => exact .inl h
  | start hc htodo =>
    left
    rcases h with h | h
    · rw [htodo] at h
      rcases List.mem_cons.mp h with rfl | h
      · exact .inr ⟨.connect id, rfl, rfl⟩
      · exact .inl h
    · exact absurd h (not_at hc)
  | go hc hs =>
    rcases h with h | h
    · exact .inl (.inl h)
    · have hconn := (at_iff hc).mp h
      have hreq := Call.serves_connecting (hserves _ _ hc) (Call.connecting_of_connects hconn)
      rw [effect_eq hc]
      rcases Call.connects_step hs hconn with ⟨c', ho, h | h⟩ | ⟨e, ho⟩ | ⟨⟨c', ho, h⟩, hm⟩
      · cases ho
        exact .inl (.inr ((at_iff rfl).mpr h))
      · cases ho
        exact .inr (.inl (.inl ⟨id, (at_iff rfl).mpr h⟩))
      · cases ho
      · cases ho
        exact .inr (.inr ⟨⟨_, by rw [hreq], h⟩, hm⟩)
  | answer hc hs =>
    rcases h with h | h
    · exact .inl (.inl (List.mem_append_right _ h))
    · have hconn := (at_iff hc).mp h
      have hreq := Call.serves_connecting (hserves _ _ hc) (Call.connecting_of_connects hconn)
      rcases Call.connects_step hs hconn with ⟨c', ho, -⟩ | ⟨e, ho⟩ | ⟨⟨c', ho, -⟩, -⟩
      · cases ho
      · cases ho
        rw [hreq]
        exact .inr (.inl failed_of_reply)
      · cases ho

theorem failed_step (hserves : c.Serves) (h : c.Failed) : (c.step i env s).2.Failed := by
  have ht := c.turn i env s
  generalize c.step i env s = r at ht
  cases ht with
  | idle hc => exact h
  | start hc =>
    rcases h with ⟨id, h⟩ | h
    · exact absurd h (not_at hc)
    · exact .inr h
  | go hc hs =>
    rcases h with ⟨id, h⟩ | h
    · rcases Call.fails_step hs ((at_iff hc).mp h) with ⟨c', ho, h⟩ | ⟨e, ho⟩
      · cases ho
        exact .inl ⟨id, (at_iff rfl).mpr h⟩
      · cases ho
    · exact .inr h
  | answer hc hs =>
    rcases h with ⟨id, h⟩ | ⟨r, hr, h⟩
    · have hfails := (at_iff hc).mp h
      rcases Call.fails_step hs hfails with ⟨c', ho, -⟩ | ⟨e, ho⟩
      · cases ho
      · cases ho
        rw [Call.serves_connecting (hserves _ _ hc) (Call.connecting_of_fails hfails)]
        exact failed_of_reply
    · exact .inr ⟨r, List.mem_append_left _ hr, h⟩

theorem ends_step (h : c.Ends id) (hnone : s.sessions id = none) :
    (c.step i env s).2.Ends id ∨ (c.step i env s).2.Failed := by
  obtain ⟨call, hcall, hends⟩ := h
  have ht := c.turn i env s
  generalize c.step i env s = r at ht
  cases ht with
  | idle hc => exact absurd (hc.symm.trans hcall) (by simp)
  | start hc => exact absurd (hc.symm.trans hcall) (by simp)
  | go hc hs =>
    cases hc.symm.trans hcall
    rcases Call.ends_step hs hends hnone with ⟨c', ho, h⟩ | ⟨e, ho⟩
    · cases ho
      exact .inl ⟨_, rfl, h⟩
    · cases ho
  | answer hc hs =>
    cases hc.symm.trans hcall
    rcases Call.ends_step hs hends hnone with ⟨c', ho, -⟩ | ⟨e, ho⟩
    · cases ho
    · cases ho
      exact .inr failed_of_reply

end Client

/-! ## Runs -/

namespace Calls

def Connected (id : Text) (s : Shared) : Prop :=
  (s.sessions id).map (·.metadata.status) = some .connected

/-- When all is done and every connect succeeded, the sessions are connected. -/
def Restored (ids : List Text) (s : Calls) : Prop :=
  (∀ c ∈ s.locals, c.Done) →
    (∀ c ∈ s.locals, ∀ r ∈ c.replies, ∀ id, r.1 = .connect id → r.2.isOk = true) →
    ∀ id ∈ ids, Connected id s.shared

/-- Some client has yet to mark the session as connected. -/
def Awaited (s : Calls) (id : Text) : Prop := ∃ c ∈ s.locals, c.Awaits id

instance (s : Calls) (id : Text) : Decidable (s.Awaited id) :=
  inferInstanceAs (Decidable (∃ c ∈ s.locals, c.Awaits id))

/-- A session that is to be restored is marked as disconnected, put into memory
or taken from it only while somebody has yet to mark it as connected. -/
def EarlyCall (s : Calls) (ids : List Text) : Call → Prop
  | .disconnectMark id => id ∈ ids → s.Awaited id
  | .loadInsert metadata _ _ => metadata.id ∈ ids → s.Awaited metadata.id
  | .deleteRemove id => id ∈ ids → s.Awaited id
  | _ => True

instance (s : Calls) (ids : List Text) : DecidablePred (s.EarlyCall ids) := fun call => by
  induction call using Call.casesOn <;> unfold EarlyCall <;> infer_instance

/-- The step that a client takes is early. -/
def Early (s : Calls) (ids : List Text) (pick : Nat × Env) : Prop :=
  ∀ c ∈ s.locals[pick.1]?, ∀ call ∈ c.call, s.EarlyCall ids call

instance (s : Calls) (ids : List Text) (pick : Nat × Env) : Decidable (s.Early ids pick) :=
  inferInstanceAs (Decidable (∀ c ∈ s.locals[pick.1]?, ∀ call ∈ c.call, s.EarlyCall ids call))

/-- Where a session that is to be restored stands. -/
structure Restoring (ids : List Text) (s : Calls) : Prop where
  serves : ∀ c ∈ s.locals, c.Serves
  stands : ∀ id ∈ ids, s.Awaited id ∨ (∃ c ∈ s.locals, c.Failed) ∨ Connected id s.shared ∨
    s.shared.sessions id = none ∧ ∃ c ∈ s.locals, c.Ends id

/-- What a step does to a session that nobody awaits and no connect fails on. -/
theorem early_effect {s : Calls} {ids : List Text} {pick : Nat × Env} {c : Client} {id : Text}
    (h : s.Early ids pick) (hi : s.locals[pick.1]? = some c) (hid : id ∈ ids)
    (hawait : ¬ s.Awaited id) (hfail : ∀ c ∈ s.locals, ¬ c.Failed) :
    (c.effect s.shared).sessions s.shared.sessions id = s.shared.sessions id ∨
      ∃ f, c.effect s.shared = .modify id f ∧ ∀ session, (f session).status = session.status := by
  have hmem := List.mem_of_getElem? hi
  have hcall : ∀ request call, c.current = some (request, call) → s.EarlyCall ids call :=
    fun request call hc => h c hi call (by simp [Client.call, hc])
  cases he : c.effect s.shared with
  | none => exact .inl rfl
  | prune id' => exact .inl rfl
  | route pane id' => exact .inl rfl
  | put id' entry =>
    left
    refine Function.update_of_ne ?_ _ _
    rintro rfl
    obtain ⟨request, call, hc, hce⟩ := Client.effect_call he (by simp)
    obtain ⟨metadata, rows, sessions, rfl, rfl⟩ := Call.effect_put hce
    exact hawait (hcall _ _ hc hid)
  | remove id' =>
    left
    refine Function.update_of_ne ?_ _ _
    rintro rfl
    obtain ⟨request, call, hc, hce⟩ := Client.effect_call he (by simp)
    obtain rfl := Call.effect_remove hce
    exact hawait (hcall _ _ hc hid)
  | modify id' f =>
    by_cases hne : id = id'
    · subst hne
      right
      refine ⟨f, rfl, ?_⟩
      obtain ⟨request, call, hc, hce⟩ := Client.effect_call he (by simp)
      rcases Call.modify_cases hce with hconn | hf | rfl | hkeep
      · exact absurd ⟨c, hmem, .inr ((Client.at_iff hc).mpr hconn)⟩ hawait
      · exact absurd (.inl ⟨id, (Client.at_iff hc).mpr hf⟩) (hfail c hmem)
      · exact absurd (hcall _ _ hc hid) hawait
      · exact hkeep
    · exact .inl (Function.update_of_ne hne _ _)

/-- Where one session stands. -/
def Stands (s : Calls) (id : Text) : Prop :=
  s.Awaited id ∨ (∃ c ∈ s.locals, c.Failed) ∨ Connected id s.shared ∨
    s.shared.sessions id = none ∧ ∃ c ∈ s.locals, c.Ends id

section
variable {s : Calls} {pick : Nat × Env} {c : Client} {id : Text}

theorem sessions_step (hi : s.locals[pick.1]? = some c) : (s.step pick).shared.sessions =
    (c.effect s.shared).sessions s.shared.sessions := by
  rw [step, Threads.step_some hi]
  exact (c.step_maps pick.1 pick.2 s.shared).1

/-- Who is to mark the session goes on, fails, or marks it if it is there. -/
theorem stands_awaited (hi : s.locals[pick.1]? = some c) (hserves : c.Serves)
    (h : s.Awaited id) : (s.step pick).Stands id := by
  have hself : (c.step pick.1 pick.2 s.shared).2 ∈ (s.step pick).locals :=
    Threads.mem_step_self hi
  obtain ⟨u, hu, ha⟩ := h
  have hstep : u = c ∨ u ∈ (s.step pick).locals := Threads.mem_step hi hu
  rcases hstep with rfl | hu
  · rcases @Client.awaits_step pick.1 pick.2 s.shared _ _ hserves ha with
      ha | hf | ⟨hends, f, he, hconn⟩
    · exact .inl ⟨_, hself, ha⟩
    · exact .inr (.inl ⟨_, hself, hf⟩)
    · right; right
      cases hs : s.shared.sessions id with
      | none =>
        right
        refine ⟨?_, _, hself, hends⟩
        simp [sessions_step hi, he, Effect.sessions, hs]
      | some entry =>
        left
        simp [Connected, sessions_step hi, he, Effect.sessions, hs, hconn]
  · exact .inl ⟨u, hu, ha⟩

theorem stands_failed (hi : s.locals[pick.1]? = some c) (hserves : c.Serves)
    (h : ∃ c ∈ s.locals, c.Failed) : (s.step pick).Stands id := by
  obtain ⟨u, hu, hf⟩ := h
  have hstep : u = c ∨ u ∈ (s.step pick).locals := Threads.mem_step hi hu
  rcases hstep with rfl | hu
  · exact .inr (.inl ⟨_, Threads.mem_step_self hi, Client.failed_step hserves hf⟩)
  · exact .inr (.inl ⟨u, hu, hf⟩)

section
variable (hi : s.locals[pick.1]? = some c)
  (heffect : (s.step pick).shared.sessions id = s.shared.sessions id ∨
    ∃ f, c.effect s.shared = .modify id f ∧ ∀ session, (f session).status = session.status)
include hi heffect

theorem stands_connected (h : Connected id s.shared) : (s.step pick).Stands id := by
  right; right; left
  rcases heffect with hsame | ⟨f, he, hkeep⟩
  · rwa [Connected, hsame]
  · rw [Connected, sessions_step hi, he]
    obtain ⟨entry, hs, hstatus⟩ := Option.map_eq_some_iff.mp h
    simp [Effect.sessions, hs, hkeep, hstatus]

theorem stands_ends (hnone : s.shared.sessions id = none) (h : ∃ c ∈ s.locals, c.Ends id) :
    (s.step pick).Stands id := by
  have hnone' : (s.step pick).shared.sessions id = none := by
    rcases heffect with hsame | ⟨f, he, -⟩
    · exact hsame.trans hnone
    · simp [sessions_step hi, he, Effect.sessions, hnone]
  obtain ⟨u, hu, hends⟩ := h
  have hstep : u = c ∨ u ∈ (s.step pick).locals := Threads.mem_step hi hu
  rcases hstep with rfl | hu
  · rcases @Client.ends_step pick.1 pick.2 _ _ _ hends hnone with hends | hf
    · exact .inr (.inr (.inr ⟨hnone', _, Threads.mem_step_self hi, hends⟩))
    · exact .inr (.inl ⟨_, Threads.mem_step_self hi, hf⟩)
  · exact .inr (.inr (.inr ⟨hnone', u, hu, hends⟩))

end

end

theorem restoring_step {ids : List Text} {s : Calls} (h : s.Restoring ids) {pick : Nat × Env}
    (hearly : s.Early ids pick) : (s.step pick).Restoring ids := by
  cases hi : s.locals[pick.1]? with
  | none =>
    rw [step, Threads.step_none hi]
    exact h
  | some c =>
    have hserves := h.serves c (List.mem_of_getElem? hi)
    refine ⟨fun c' hc' => ?_, fun id hid => ?_⟩
    · rcases Threads.mem_of_step hi hc' with rfl | hc'
      · exact Client.serves_step hserves
      · exact h.serves c' hc'
    · by_cases hawait : s.Awaited id
      · exact stands_awaited hi hserves hawait
      by_cases hfail : ∃ c ∈ s.locals, c.Failed
      · exact stands_failed hi hserves hfail
      have heffect := early_effect hearly hi hid hawait fun c hc hf => hfail ⟨c, hc, hf⟩
      rw [← sessions_step hi] at heffect
      rcases h.stands id hid with ha | hf | hconn | ⟨hnone, hends⟩
      · exact absurd ha hawait
      · exact absurd hf hfail
      · exact stands_connected hi heffect hconn
      · exact stands_ends hi heffect hnone hends

theorem restored_of_restoring {ids : List Text} {s : Calls} (h : s.Restoring ids) :
    s.Restored ids := by
  intro hdone hok id hid
  have hcurrent : ∀ c ∈ s.locals, c.current = none := fun c hc => (hdone c hc).2
  rcases h.stands id hid with ⟨c, hc, hwait | hwait⟩ | ⟨c, hc, ⟨id', hf⟩ | ⟨r, hr, id', he, hf⟩⟩ |
    hconn | ⟨-, c, hc, call, hcall, -⟩
  · rw [(hdone c hc).1] at hwait
    cases hwait
  · exact absurd hwait (Client.not_at (hcurrent c hc))
  · exact absurd hf (Client.not_at (hcurrent c hc))
  · rw [hok c hc r hr id' he] at hf
    cases hf
  · exact hconn
  · rw [hcurrent c hc] at hcall
    cases hcall

/-- The old socket of a user is cleaned up; the new one loads the sessions as it
is accepted and as the browser lists them, and then connects some of them. -/
def comeback (s : Shared) (userId : Text) (ids : List Text) : Calls :=
  start s [[.cleanup userId], [.load userId, .load userId] ++ ids.map .connect]

/-- **When a user's sessions are restored**: in a run whose cleanup leaves a
session, or puts it into memory, only while the new socket has yet to mark it as
connected. -/
theorem restored_of_early (s : Shared) (userId : Text) (ids : List Text)
    (picks : List (Nat × Env))
    (h : EachStep step (fun s => s.Early ids) (comeback s userId ids) picks) :
    Always step (Restored ids) (comeback s userId ids) picks := by
  have hlocals : (comeback s userId ids).locals =
      [.new [.cleanup userId], .new ([.load userId, .load userId] ++ ids.map .connect)] := rfl
  refine always_of_eachStep (I := Restoring ids) ⟨fun c hc => ?_, fun id hid => ?_⟩
    (fun _ _ hi he => restoring_step hi he) (fun _ hi => restored_of_restoring hi) h
  · rw [hlocals] at hc
    simp only [List.mem_cons, List.not_mem_nil, or_false] at hc
    rcases hc with rfl | rfl <;> exact fun request call hcall => by cases hcall
  · left
    refine ⟨.new ([.load userId, .load userId] ++ ids.map .connect), by rw [hlocals]; simp, .inl ?_⟩
    exact List.mem_append_right _ (List.mem_map_of_mem hid)

/-! ## A cleanup that comes late -/

/-- A user has loaded a session and connected it, over a socket that then drops. -/
def droppedShared : Shared :=
  (run step (start (.new [.saved uuidA]) [[.load "u".toList, .connect ['a']]])
    (List.replicate 17 (0, .working uuidB [.single "%0".toList]))).shared

/-- The new socket is served first, and the old one is cleaned up then. -/
def lateCleanup : List (Nat × Env) :=
  let env := Env.working uuidB [.single "%0".toList]
  List.replicate 21 (1, env) ++ List.replicate 13 (0, env)

/-- The old socket is cleaned up first. -/
def promptCleanup : List (Nat × Env) :=
  let env := Env.working uuidB [.single "%0".toList]
  List.replicate 13 (0, env) ++ List.replicate 21 (1, env)

theorem restored_of_early_sample :
    Always step (Restored [['a']]) (comeback droppedShared "u".toList [['a']]) promptCleanup :=
  restored_of_early _ _ _ _ (by decide +kernel)

def cleanedCalls : Calls := run step (comeback droppedShared "u".toList [['a']]) lateCleanup

/-- The session that the new socket connected is disconnected at the end. -/
theorem cleanup_disconnects_restored : ¬ ∀ (s : Shared) (userId : Text) (ids : List Text)
    (picks : List (Nat × Env)), Always step (Restored ids) (comeback s userId ids) picks := by
  intro h
  have hdone : ∀ c ∈ cleanedCalls.locals, c.todo = [] ∧ c.current.isNone = true := by
    decide +kernel
  have hok : ∀ c ∈ cleanedCalls.locals, ∀ r ∈ c.replies, r.2.isOk = true := by decide +kernel
  have hstatus : (cleanedCalls.shared.sessions ['a']).map (·.metadata.status) =
      some .disconnected := by
    decide +kernel
  have hrestored : Restored [['a']] cleanedCalls := (h _ _ _ _).last
  have hconn := hrestored
    (fun c hc => ⟨(hdone c hc).1, Option.isNone_iff_eq_none.mp (hdone c hc).2⟩)
    (fun c hc r hr _ _ => hok c hc r hr) ['a'] (by simp)
  rw [Connected, hstatus] at hconn
  cases hconn

end Calls

end Oxmux.Session
