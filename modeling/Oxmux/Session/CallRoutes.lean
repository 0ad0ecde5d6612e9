import Oxmux.Session.Calls

/-! Routes of sessions that were left, when calls on a session interleave. A
disconnect and a delete take the routes away first and leave the session later;
a connect and a refresh add routes without looking whether it is being left. -/

namespace Oxmux.Session
open Oxmux.Lib Oxmux.Lib.Runs

namespace Call

/-- The call has taken the session's routes away, and has yet to leave it. -/
def Leaving (id : Text) : Call → Prop
  | disconnectFind id' | disconnectLock id' _ | disconnectReach id' _ | disconnectMark id'
  | deleteRemove id' => id' = id
  | _ => False

/-- The call adds a session's routes, and is yet to mark it as connected. -/
def Joining (id : Text) : Call → Prop
  | connectRoute id' _ _ => id' = id
  | _ => False

instance (id : Text) : DecidablePred (Leaving id) := fun c => by
  induction c using Call.casesOn <;> unfold Leaving <;> infer_instance

/-- The effect of a modification on whether a session is disconnected: only a
call that is leaving makes it so. -/
theorem modify_status {s : Shared} {c : Call} {id : Text} {f : ManagedSession → ManagedSession}
    (h : c.effect s = .modify id f) :
    c.Leaving id ∨ ∀ session, (f session).status = .disconnected →
      session.status = .disconnected := by
  cases c with
  | connectMark id' t =>
    cases h
    exact .inr fun session hs => by cases hs
  | connectRoute id' panes tree =>
    cases panes with
    | nil =>
      cases h
      exact .inr fun session hs => by cases hs
    | cons pane panes => cases h
  | connectFail id' errMsg =>
    cases h
    exact .inr fun session hs => by cases hs
  | refreshRoute id' panes tree =>
    cases panes with
    | nil =>
      cases h
      exact .inr fun session hs => hs
    | cons pane panes => cases h
  | disconnectMark id' =>
    cases h
    exact .inl rfl
  | _ => cases h

/-- Only a load puts a session into memory. -/
theorem effect_put {s : Shared} {c : Call} {id : Text} {entry : CallEntry}
    (h : c.effect s = .put id entry) :
    ∃ metadata rows sessions, c = .loadInsert metadata rows sessions ∧ metadata.id = id := by
  cases c with
  | loadInsert metadata rows sessions =>
    cases h
    exact ⟨metadata, rows, sessions, rfl, rfl⟩
  | connectRoute id' panes tree => cases panes <;> cases h
  | refreshRoute id' panes tree => cases panes <;> cases h
  | _ => cases h

/-- Only a delete takes one out. -/
theorem effect_remove {s : Shared} {c : Call} {id : Text} (h : c.effect s = .remove id) :
    c = .deleteRemove id := by
  cases c with
  | deleteRemove id' =>
    cases h
    rfl
  | connectRoute id' panes tree => cases panes <;> cases h
  | refreshRoute id' panes tree => cases panes <;> cases h
  | _ => cases h

/-- A connect and a refresh add routes. -/
theorem effect_route {s : Shared} {c : Call} {pane id : Text} (h : c.effect s = .route pane id) :
    ∃ panes tree, c = .connectRoute id (pane :: panes) tree ∨
      c = .refreshRoute id (pane :: panes) tree := by
  cases c with
  | connectRoute id' panes tree =>
    cases panes with
    | nil => cases h
    | cons pane' panes =>
      cases h
      exact ⟨panes, tree, .inl rfl⟩
  | refreshRoute id' panes tree =>
    cases panes with
    | nil => cases h
    | cons pane' panes =>
      cases h
      exact ⟨panes, tree, .inr rfl⟩
  | _ => cases h

/-- A call is leaving since it took the routes away. -/
theorem leaving_step {client : Nat} {env : Env} {s s' : Shared} {c c' : Call} {id : Text}
    (hs : c.step client env s = (s', .inl c')) (h : c'.Leaving id) :
    c.Leaving id ∨ c.effect s = .prune id := by
  cases c with
  | disconnect id' =>
    cases hs
    exact .inr (congrArg Effect.prune h)
  | delete id' =>
    cases hs
    exact .inr (congrArg Effect.prune h)
  | disconnectFind id' =>
    left
    simp only [step, find] at hs
    split at hs <;> cases hs
    exact h
  | disconnectLock id' t =>
    left
    simp only [step, acquire] at hs
    split at hs <;> cases hs <;> exact h
  | disconnectReach id' t =>
    left
    cases hs
    exact h
  | loadRows rows sessions =>
    cases rows <;> simp only [step] at hs
    · cases hs
    · split at hs
      · cases hs
      · split at hs <;> cases hs <;> cases h
  | connectReach id' t =>
    simp only [step] at hs
    split at hs <;> cases hs <;> cases h
  | connectRoute id' panes tree => cases panes <;> cases hs <;> cases h
  | refreshRoute id' panes tree => cases panes <;> cases hs <;> cases h
  | load | connect | connectLock | refresh | refreshLock | refreshList | get | deleteRemove
  | deleteLock | deleteRow =>
    simp only [step, find, acquire] at hs
    split at hs <;> cases hs <;> cases h
  | _ => cases hs <;> cases h

/-- A call that joins goes on to do so until it marks the session. -/
theorem joining_step {client : Nat} {env : Env} {s s' : Shared} {c : Call} {out : Call ⊕ Reply}
    {id : Text} (hs : c.step client env s = (s', out)) (h : c.Joining id) :
    (∃ c', out = .inl c' ∧ c'.Joining id) ∨
      ∃ f, c.effect s = .modify id f ∧ ∀ session, (f session).status = .connected := by
  cases c with
  | connectRoute id' panes tree =>
    cases h
    cases panes with
    | nil =>
      cases hs
      exact .inr ⟨_, rfl, fun session => rfl⟩
    | cons pane panes =>
      cases hs
      exact .inl ⟨_, rfl, rfl⟩
  | _ => cases h

end Call

/-! ## Clients -/

namespace Client

/-- What the client's call does next satisfies `P`. -/
def At (P : Call → Prop) (c : Client) : Prop := ∃ call ∈ c.call, P call

instance {P : Call → Prop} [DecidablePred P] (c : Client) : Decidable (c.At P) :=
  inferInstanceAs (Decidable (∃ call ∈ c.call, P call))

theorem at_iff {P : Call → Prop} {c : Client} {request : Request} {call : Call}
    (hc : c.current = some (request, call)) : c.At P ↔ P call := by
  simp [At, Client.call, hc]

theorem not_at {P : Call → Prop} {c : Client} (hc : c.current = none) : ¬ c.At P := by
  simp [At, Client.call, hc]

variable {i : Nat} {env : Env} {s : Shared} {c : Client} {id : Text}

theorem leaving_request (request : Request) : ¬ request.call.Leaving id := by
  cases request <;> exact fun h => h

theorem leaving_step (h : (c.step i env s).2.At (·.Leaving id)) :
    c.At (·.Leaving id) ∨ c.effect s = .prune id := by
  have ht := c.turn i env s
  generalize c.step i env s = r at ht h
  cases ht with
  | idle hc => exact absurd h (not_at hc)
  | start hc => exact absurd ((at_iff rfl).mp h) (leaving_request _)
  | go hc hs =>
    rw [effect_eq hc, at_iff hc]
    exact Call.leaving_step hs ((at_iff rfl).mp h)
  | answer hc hs => exact absurd h (not_at rfl)

theorem joining_step (h : c.At (·.Joining id)) : (c.step i env s).2.At (·.Joining id) ∨
    ∃ f, c.effect s = .modify id f ∧ ∀ session, (f session).status = .connected := by
  have ht := c.turn i env s
  generalize c.step i env s = r at ht
  cases ht with
  | idle hc => exact absurd h (not_at hc)
  | start hc => exact absurd h (not_at hc)
  | go hc hs =>
    rw [effect_eq hc]
    rcases Call.joining_step hs ((at_iff hc).mp h) with ⟨c', ho, hj⟩ | hm
    · cases ho
      exact .inl ((at_iff rfl).mpr hj)
    · exact .inr hm
  | answer hc hs =>
    rw [effect_eq hc]
    rcases Call.joining_step hs ((at_iff hc).mp h) with ⟨c', ho, -⟩ | hm
    · cases ho
    · exact .inr hm

theorem effect_call {e : Effect} (h : c.effect s = e) (he : e ≠ .none) :
    ∃ request call, c.current = some (request, call) ∧ call.effect s = e := by
  cases hc : c.current with
  | none => exact absurd (h.symm.trans (by simp [effect, Client.call, hc])) he
  | some running => exact ⟨running.1, running.2, rfl, (effect_eq hc).symm.trans h⟩

theorem modify_status {f : ManagedSession → ManagedSession} (h : c.effect s = .modify id f) :
    c.At (·.Leaving id) ∨ ∀ session, (f session).status = .disconnected →
      session.status = .disconnected := by
  obtain ⟨request, call, hc, he⟩ := effect_call h (by simp)
  rw [at_iff hc]
  exact Call.modify_status he

theorem remove_leaving (h : c.effect s = .remove id) : c.At (·.Leaving id) := by
  obtain ⟨request, call, hc, he⟩ := effect_call h (by simp)
  rw [at_iff hc, Call.effect_remove he]
  rfl

end Client

/-! ## Runs -/

namespace Calls

/-- No route leads to a session that is gone or disconnected. -/
def Settled (s : Shared) : Prop :=
  ∀ pane id, s.paneToSession pane = some id → ∃ entry, s.sessions id = some entry ∧
    entry.metadata.status ≠ .disconnected

def Quiet (s : Calls) : Prop := ∀ c ∈ s.locals, c.call.isNone = true

instance (s : Calls) : Decidable s.Quiet :=
  inferInstanceAs (Decidable (∀ c ∈ s.locals, c.call.isNone = true))

/-- The session is there, and no call is about to leave it. -/
def Stays (s : Calls) (id : Text) : Prop :=
  (s.shared.sessions id).isSome ∧ ∀ c ∈ s.locals, ¬ c.At (·.Leaving id)

instance (s : Calls) (id : Text) : Decidable (s.Stays id) :=
  inferInstanceAs (Decidable (_ ∧ _))

/-- A call adds a route only to a session that stays, a refresh only to one that
is not disconnected; and a load puts no session in the place of another. -/
def CleanCall (s : Calls) : Call → Prop
  | .connectRoute id (_ :: _) _ => s.Stays id
  | .refreshRoute id (_ :: _) _ =>
    s.Stays id ∧ ∀ entry ∈ s.shared.sessions id, entry.metadata.status ≠ .disconnected
  | .loadInsert metadata _ _ => (s.shared.sessions metadata.id).isNone
  | _ => True

instance (s : Calls) : DecidablePred s.CleanCall := fun call => by
  induction call using Call.casesOn
  case connectRoute id panes tree | refreshRoute id panes tree =>
    induction panes using List.casesOn <;> unfold CleanCall <;> infer_instance
  all_goals
    unfold CleanCall
    infer_instance

/-- The step that a client takes is clean. -/
def Clean (s : Calls) (pick : Nat × Env) : Prop :=
  ∀ c ∈ s.locals[pick.1]?, ∀ call ∈ c.call, s.CleanCall call

instance (s : Calls) (pick : Nat × Env) : Decidable (s.Clean pick) :=
  inferInstanceAs (Decidable (∀ c ∈ s.locals[pick.1]?, ∀ call ∈ c.call, s.CleanCall call))

/-- A session with routes is there, nobody is about to leave it, and if it is
disconnected somebody is about to mark it as connected. -/
def Inv (s : Calls) : Prop :=
  ∀ pane id, s.shared.paneToSession pane = some id →
    (∃ entry, s.shared.sessions id = some entry ∧ (entry.metadata.status = .disconnected →
      ∃ c ∈ s.locals, c.At (·.Joining id))) ∧
    ∀ c ∈ s.locals, ¬ c.At (·.Leaving id)

theorem settled_of_inv {s : Calls} (h : s.Inv) (hq : s.Quiet) : Settled s.shared := by
  intro pane id hr
  obtain ⟨⟨entry, hs, hj⟩, -⟩ := h pane id hr
  refine ⟨entry, hs, fun hd => ?_⟩
  obtain ⟨c, hc, call, hcall, -⟩ := hj hd
  have hnone := hq c hc
  rw [hcall] at hnone
  cases hnone

/-- What the condition says about the effect of a step. -/
theorem clean_effect {s : Calls} {pick : Nat × Env} {c : Client} (h : s.Clean pick)
    (hi : s.locals[pick.1]? = some c) :
    (∀ pane id, c.effect s.shared = .route pane id → s.Stays id ∧ (c.At (·.Joining id) ∨
      ∀ entry, s.shared.sessions id = some entry → entry.metadata.status ≠ .disconnected)) ∧
    ∀ id entry, c.effect s.shared = .put id entry → s.shared.sessions id = none := by
  refine ⟨fun pane id he => ?_, fun id entry he => ?_⟩
  · obtain ⟨request, call, hc, hcall⟩ := Client.effect_call he (by simp)
    have hclean := h c hi call (by simp [Client.call, hc])
    rw [Client.at_iff hc]
    obtain ⟨panes, tree, rfl | rfl⟩ := Call.effect_route hcall
    · exact ⟨hclean, .inl rfl⟩
    · exact ⟨hclean.1, .inr hclean.2⟩
  · obtain ⟨request, call, hc, hcall⟩ := Client.effect_call he (by simp)
    have hclean := h c hi call (by simp [Client.call, hc])
    obtain ⟨metadata, rows, sessions, rfl, rfl⟩ := Call.effect_put hcall
    exact Option.isNone_iff_eq_none.mp hclean

/-- Nobody starts to leave a session but by taking its routes away. -/
theorem leaving_step {s : Calls} {pick : Nat × Env} {c : Client} {id : Text}
    (hi : s.locals[pick.1]? = some c) (hne : c.effect s.shared ≠ .prune id)
    (h : ∀ c ∈ s.locals, ¬ c.At (·.Leaving id)) :
    ∀ c ∈ (s.step pick).locals, ¬ c.At (·.Leaving id) := by
  intro c' hc' hl
  rcases Threads.mem_of_step hi hc' with rfl | hc'
  · rcases Client.leaving_step hl with hl | hp
    · exact h c (List.mem_of_getElem? hi) hl
    · exact hne hp
  · exact h c' hc' hl

theorem joining_step {s : Calls} {pick : Nat × Env} {c : Client} {id : Text}
    (hi : s.locals[pick.1]? = some c) (h : ∃ c ∈ s.locals, c.At (·.Joining id)) :
    (∃ c ∈ (s.step pick).locals, c.At (·.Joining id)) ∨
      ∃ f, c.effect s.shared = .modify id f ∧ ∀ session, (f session).status = .connected := by
  obtain ⟨u, hu, hj⟩ := h
  have hstep : u = c ∨ u ∈ (s.step pick).locals := Threads.mem_step hi hu
  rcases hstep with rfl | hu
  · rcases @Client.joining_step pick.1 pick.2 s.shared _ _ hj with hj | hm
    · exact .inl ⟨_, Threads.mem_step_self hi, hj⟩
    · exact .inr hm
  · exact .inl ⟨u, hu, hj⟩

/-- What the invariant says of a session with routes. -/
def Held (s : Calls) (id : Text) : Prop :=
  (∃ entry, s.shared.sessions id = some entry ∧ (entry.metadata.status = .disconnected →
    ∃ c ∈ s.locals, c.At (·.Joining id))) ∧
  ∀ c ∈ s.locals, ¬ c.At (·.Leaving id)

section
variable {s : Calls} {pick : Nat × Env} {c : Client} {id : Text}

/-- A step that leaves the session as it is, and nobody leaves it. -/
theorem held_keep (hi : s.locals[pick.1]? = some c) (h : s.Held id)
    (hne : c.effect s.shared ≠ .prune id)
    (hs : (s.step pick).shared.sessions id = s.shared.sessions id)
    (hf : ∀ f, c.effect s.shared ≠ .modify id f) : (s.step pick).Held id := by
  obtain ⟨⟨entry, he, hj⟩, hl⟩ := h
  refine ⟨⟨entry, hs.trans he, fun hd => ?_⟩, leaving_step hi hne hl⟩
  rcases joining_step hi (hj hd) with hj | ⟨f, hm, -⟩
  · exact hj
  · exact absurd hm (hf f)

theorem held_route (hi : s.locals[pick.1]? = some c) {pane : Text}
    (he : c.effect s.shared = .route pane id) (hstays : s.Stays id)
    (hs : (s.step pick).shared.sessions id = s.shared.sessions id)
    (hj : c.At (·.Joining id) ∨
      ∀ entry, s.shared.sessions id = some entry → entry.metadata.status ≠ .disconnected) :
    (s.step pick).Held id := by
  obtain ⟨entry, hentry⟩ := Option.isSome_iff_exists.mp hstays.1
  refine ⟨⟨entry, hs.trans hentry, fun hd => ?_⟩, leaving_step hi (by simp [he]) hstays.2⟩
  rcases hj with hj | hnot
  · rcases joining_step hi ⟨c, List.mem_of_getElem? hi, hj⟩ with hj | ⟨f, hm, -⟩
    · exact hj
    · rw [he] at hm
      cases hm
  · exact absurd hd (hnot entry hentry)

theorem held_modify (hi : s.locals[pick.1]? = some c) (h : s.Held id)
    {f : ManagedSession → ManagedSession} (he : c.effect s.shared = .modify id f)
    (hs : (s.step pick).shared.sessions = (c.effect s.shared).sessions s.shared.sessions) :
    (s.step pick).Held id := by
  obtain ⟨⟨entry, hentry, hj⟩, hl⟩ := h
  refine ⟨⟨{ entry with metadata := f entry.metadata }, ?_, fun hd => ?_⟩,
    leaving_step hi (by simp [he]) hl⟩
  · rw [hs, he]
    simp [Effect.sessions, hentry]
  · rcases Client.modify_status he with hleave | hkept
    · exact absurd hleave (hl c (List.mem_of_getElem? hi))
    · rcases joining_step hi (hj (hkept _ hd)) with hj | ⟨f', hm, hconn⟩
      · exact hj
      · rw [he] at hm
        cases hm
        rw [hconn] at hd
        cases hd

end

theorem inv_step {s : Calls} (h : s.Inv) {pick : Nat × Env} (hclean : s.Clean pick) :
    (s.step pick).Inv := by
  cases hi : s.locals[pick.1]? with
  | none =>
    rw [step, Threads.step_none hi]
    exact h
  | some c =>
    obtain ⟨hsessions, hroutes⟩ := c.step_maps pick.1 pick.2 s.shared
    obtain ⟨hroute, hput⟩ := clean_effect hclean hi
    have hshared : (s.step pick).shared = (c.step pick.1 pick.2 s.shared).1 := by
      rw [step, Threads.step_some hi]
    rw [← hshared] at hsessions hroutes
    intro pane id hr
    rw [hroutes] at hr
    cases he : c.effect s.shared with
    | none =>
      rw [he] at hsessions hr
      exact held_keep hi (h pane id hr) (by simp [he]) (congrFun hsessions id) (by simp [he])
    | prune id' =>
      rw [he] at hsessions hr
      simp only [Effect.routes, Option.filter_eq_some_iff, decide_eq_true_eq] at hr
      refine held_keep hi (h pane id hr.1) ?_ (congrFun hsessions id) (by simp [he])
      rw [he]
      simp [Ne.symm hr.2]
    | route pane' id' =>
      rw [he] at hsessions hr
      by_cases hp : pane = pane'
      · subst hp
        simp only [Effect.routes, Function.update_self, Option.some.injEq] at hr
        subst hr
        obtain ⟨hstays, hj⟩ := hroute _ _ he
        exact held_route hi he hstays (congrFun hsessions _) hj
      · simp only [Effect.routes, Function.update_of_ne hp] at hr
        exact held_keep hi (h pane id hr) (by simp [he]) (congrFun hsessions id) (by simp [he])
    | put id' entry =>
      rw [he] at hsessions hr
      have hne : id ≠ id' := by
        rintro rfl
        obtain ⟨⟨entry', hentry, -⟩, -⟩ := h pane id hr
        rw [hput id entry he] at hentry
        cases hentry
      refine held_keep hi (h pane id hr) (by simp [he]) ?_ (by simp [he])
      rw [hsessions]
      exact Function.update_of_ne hne _ _
    | remove id' =>
      rw [he] at hsessions hr
      have hne : id ≠ id' := by
        rintro rfl
        exact (h pane id hr).2 c (List.mem_of_getElem? hi) (Client.remove_leaving he)
      refine held_keep hi (h pane id hr) (by simp [he]) ?_ (by simp [he])
      rw [hsessions]
      exact Function.update_of_ne hne _ _
    | modify id' f =>
      by_cases hid : id = id'
      · subst hid
        rw [he] at hr
        exact held_modify hi (h pane id hr) he hsessions
      · rw [he] at hsessions hr
        refine held_keep hi (h pane id hr) (by simp [he]) ?_ (by simp [he, Ne.symm hid])
        rw [hsessions]
        exact Function.update_of_ne hid _ _

/-- **When no route outlives its session**: in a run whose calls add routes only
to sessions that stay, whenever no call is under way no route leads to a session
that is gone or disconnected. -/
theorem settled_of_clean (db : List SessionRow) (todos : List (List Request))
    (picks : List (Nat × Env)) (h : EachStep step Clean (start (.new db) todos) picks) :
    Always step (fun s => s.Quiet → Settled s.shared) (start (.new db) todos) picks :=
  always_of_eachStep (I := Inv) (fun pane id hr => by cases hr)
    (fun _ _ hi hclean => inv_step hi hclean) (fun _ hi => settled_of_inv hi) h

/-! ## A disconnect during a connect -/

def disconnectTodos : List (List Request) :=
  [[.load "u".toList, .connect ['a']], [.disconnect ['a']]]

/-- The first client loads a session, connects it, and has listed its panes. -/
def listedPicks : List (Nat × Env) :=
  List.replicate 13 (0, .working uuidB [.single "%0".toList])

/-- The second client takes the routes away, and waits for the transport; the
first one adds them again, and ends; the second one leaves the session. -/
def disconnectDuringConnect : List (Nat × Env) :=
  let env := Env.working uuidB []
  listedPicks ++ List.replicate 3 (1, env) ++ List.replicate 4 (0, env) ++
    List.replicate 5 (1, env)

/-- The second client comes when the first one has ended. -/
def disconnectAfterConnect : List (Nat × Env) :=
  let env := Env.working uuidB []
  listedPicks ++ List.replicate 4 (0, env) ++ List.replicate 8 (1, env)

theorem settled_of_clean_sample :
    Always step (fun s => s.Quiet → Settled s.shared)
      (start (.new [.saved uuidA]) disconnectTodos) disconnectAfterConnect :=
  settled_of_clean _ _ _ (by decide +kernel)

def disconnectedCalls : Calls :=
  run step (start (.new [.saved uuidA]) disconnectTodos) disconnectDuringConnect

/-- A session that is disconnected, with a route. -/
theorem route_outlives_session : ¬ ∀ (db : List SessionRow) (todos : List (List Request))
    (picks : List (Nat × Env)),
    Always step (fun s => s.Quiet → Settled s.shared) (start (.new db) todos) picks := by
  intro h
  have hquiet : disconnectedCalls.Quiet := by decide +kernel
  have hroute : disconnectedCalls.shared.paneToSession "%0".toList = some ['a'] := by
    decide +kernel
  have hstatus : (disconnectedCalls.shared.sessions ['a']).map (·.metadata.status) =
      some .disconnected := by
    decide +kernel
  have hsettled : disconnectedCalls.Quiet → Settled disconnectedCalls.shared := (h _ _ _).last
  obtain ⟨entry, hs, hne⟩ := hsettled hquiet _ _ hroute
  rw [hs, Option.map_some, Option.some.injEq] at hstatus
  exact hne hstatus

end Calls

end Oxmux.Session
