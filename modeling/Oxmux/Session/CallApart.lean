import Oxmux.Session.CallAlone
import Oxmux.Session.CallRoutes

/-! Clients that work on different sessions. Their calls share the maps, the
table and the locks, but no session, row or transport: whatever the order of
their steps, each is answered as if it were alone. What they do share are the
routes of the panes, which no call reads, and the uploaded keys: a deletion takes
the key of its session away, which a `connect` of another may look up. So no two
sessions may name the same key. -/

namespace Oxmux.Session
open Oxmux.Lib Oxmux.Lib.Runs

def Request.On (id : Text) : Request → Prop
  | connect id' | refresh id' | disconnect id' | delete id' => id' = id
  | load _ | cleanup _ => False

/-- The transport of each session and the uploaded key that it names; no two have
the same. -/
structure Fleet where
  of : Text → Option Nat
  key : Text → Option Text
  own : ∀ id id' t, of id = some t → of id' = some t → id = id'
  ownKey : ∀ id id' keyId, key id = some keyId → key id' = some keyId → id = id'

/-- A call on one session, which holds its transport or none. -/
def Call.On (fleet : Fleet) (id : Text) : Call → Prop
  | .load _ | .loadRows _ _ | .loadInsert _ _ _ | .loadGet _ _ _ => False
  | .connect id' | .connectRoute id' _ _ | .connectStore id' | .connectFail id' _
  | .connectFailStore id' _ | .refresh id' | .refreshRoute id' _ _ | .disconnect id'
  | .disconnectFind id' | .disconnectMark id' | .disconnectStore id' | .get id' | .delete id'
  | .deleteRemove id' => id' = id
  | .connectMark id' t | .connectNote id' t | .connectLock id' t | .connectReach id' t
  | .connectList id' t | .refreshLock id' t | .refreshList id' t | .disconnectLock id' t
  | .disconnectReach id' t => id' = id ∧ fleet.of id = some t
  | .deleteLock id' entry | .deleteReach id' entry | .deleteKey id' entry
  | .deleteRow id' entry => id' = id ∧ fleet.of id = some entry.transport ∧
      fleet.key id = SessionManager.uploadedKeyId entry.metadata

namespace Shared

/-- No two sessions in memory name the same uploaded key. -/
def KeysApart (s : Shared) : Prop :=
  ∀ id id' entry entry' keyId, s.sessions id = some entry → s.sessions id' = some entry' →
    SessionManager.uploadedKeyId entry.metadata = some keyId →
      SessionManager.uploadedKeyId entry'.metadata = some keyId → id = id'

/-- The transports and the keys that the sessions in memory have. -/
def Owned.fleet {s : Shared} (h : s.Owned) (hkeys : s.KeysApart) : Fleet where
  of id := (s.sessions id).map (·.transport)
  key id := (s.sessions id).bind (SessionManager.uploadedKeyId ·.metadata)
  own id id' t h₁ h₂ := by
    obtain ⟨entry, he, rfl⟩ := Option.map_eq_some_iff.mp h₁
    obtain ⟨entry', he', ht⟩ := Option.map_eq_some_iff.mp h₂
    exact h.own id id' entry entry' he he' ht.symm
  ownKey id id' keyId h₁ h₂ := by
    obtain ⟨entry, he, hk⟩ := Option.bind_eq_some_iff.mp h₁
    obtain ⟨entry', he', hk'⟩ := Option.bind_eq_some_iff.mp h₂
    exact hkeys id id' entry entry' keyId he he' hk hk'

/-- Two states that a call on one session cannot tell apart. -/
structure Agree (fleet : Fleet) (id : Text) (s s' : Shared) : Prop where
  entry : s.sessions id = s'.sessions id
  transport : ∀ t, fleet.of id = some t → s.transports[t]? = s'.transports[t]?
  holder : ∀ t, fleet.of id = some t → s.holder t = s'.holder t
  keys : ∀ keyId, fleet.key id = some keyId → s.ephemeralKeys keyId = s'.ephemeralKeys keyId
  rows : s.db.filter (·.id.val = id) = s'.db.filter (·.id.val = id)

/-- The sessions in memory have the transports and the keys of the fleet, and no
transport logs in with another key than its session's. -/
structure Manned (fleet : Fleet) (s : Shared) : Prop where
  transport : ∀ id entry, s.sessions id = some entry → fleet.of id = some entry.transport
  key : ∀ id entry, s.sessions id = some entry →
    fleet.key id = SessionManager.uploadedKeyId entry.metadata
  login : ∀ id t, fleet.of id = some t → ∀ host port user keyId passphrase,
    (s.transports[t]?).map (·.backend) =
      some (.ssh host port user (.uploadedKey keyId passphrase)) → fleet.key id = some keyId

section
variable {fleet : Fleet} {id id' : Text} {s s' s'' : Shared}

theorem Agree.refl (s : Shared) : Agree fleet id s s :=
  ⟨rfl, fun _ _ => rfl, fun _ _ => rfl, fun _ _ => rfl, rfl⟩

theorem Agree.symm (h : Agree fleet id s s') : Agree fleet id s' s :=
  ⟨h.entry.symm, fun t ht => (h.transport t ht).symm, fun t ht => (h.holder t ht).symm,
    fun k hk => (h.keys k hk).symm, h.rows.symm⟩

theorem Agree.trans (h : Agree fleet id s s') (h' : Agree fleet id s' s'') :
    Agree fleet id s s'' :=
  ⟨h.entry.trans h'.entry, fun t ht => (h.transport t ht).trans (h'.transport t ht),
    fun t ht => (h.holder t ht).trans (h'.holder t ht),
    fun k hk => (h.keys k hk).trans (h'.keys k hk), h.rows.trans h'.rows⟩

/-! ## What is done to the session -/

theorem Agree.modify (h : Agree fleet id s s') (f : ManagedSession → ManagedSession) :
    Agree fleet id (s.modify id f) (s'.modify id f) := by
  refine ⟨?_, h.transport, h.holder, h.keys, h.rows⟩
  simp only [Shared.modify, Function.update_self, h.entry]

theorem Agree.remove (h : Agree fleet id s s') :
    Agree fleet id (s.remove id) (s'.remove id) := by
  refine ⟨?_, h.transport, h.holder, h.keys, h.rows⟩
  simp only [Shared.remove, Function.update_self]

theorem Agree.onTransport (h : Agree fleet id s s') (t : Nat) (f : Transport → Transport) :
    Agree fleet id (s.onTransport t f) (s'.onTransport t f) := by
  refine ⟨h.entry, fun u hu => ?_, h.holder, h.keys, h.rows⟩
  simp only [Shared.onTransport, List.getElem?_modify, h.transport u hu]

/-- What an update leaves of the rows of one session. -/
theorem filter_updateRow (id id' : Text) (f : SessionRow → SessionRow)
    (hf : ∀ r, (f r).id = r.id) (db : List SessionRow) :
    (updateRow id' f db).filter (·.id.val = id) =
      updateRow id' f (db.filter (·.id.val = id)) := by
  unfold updateRow
  rw [List.filter_map]
  congr 1
  refine List.filter_congr fun r _ => ?_
  simp only [Function.comp_apply]
  split <;> simp [hf]

theorem Agree.updateSessionStatus (h : Agree fleet id s s') (ok : Bool) (status : SessionStatus)
    (error : Option Text) :
    Agree fleet id (s.updateSessionStatus ok id' status error)
      (s'.updateSessionStatus ok id' status error) := by
  cases ok with
  | false => exact h
  | true =>
    refine ⟨h.entry, h.transport, h.holder, h.keys, ?_⟩
    simp only [Shared.updateSessionStatus, if_true]
    have hf := filter_updateRow id id' (fun r => { r with status := status.show, error })
      fun _ => rfl
    rw [hf, hf, h.rows]

theorem Agree.deleteRow (h : Agree fleet id s s') :
    Agree fleet id { s with db := s.db.filter (·.id.val ≠ id') }
      { s' with db := s'.db.filter (·.id.val ≠ id') } := by
  refine ⟨h.entry, h.transport, h.holder, h.keys, ?_⟩
  simp only
  rw [List.filter_comm, h.rows, List.filter_comm]

theorem Agree.acquire (h : Agree fleet id s s') {t : Nat} (ht : fleet.of id = some t) (client : Nat)
    (now next : Call) :
    Agree fleet id (Call.acquire client t now next s).1 (Call.acquire client t now next s').1 ∧
      (Call.acquire client t now next s).2 = (Call.acquire client t now next s').2 := by
  have hh := h.holder t ht
  by_cases hn : s.holder t = none
  · rw [Call.acquire_free hn, Call.acquire_free (hh ▸ hn)]
    refine ⟨⟨h.entry, h.transport, fun u hu => ?_, h.keys, h.rows⟩, rfl⟩
    simp only [Shared.locked, Function.update_apply, h.holder u hu]
  · rw [Call.acquire_held hn, Call.acquire_held (hh ▸ hn)]
    exact ⟨h, rfl⟩

theorem Agree.release (h : Agree fleet id s s') (client : Nat) :
    Agree fleet id (s.release client) (s'.release client) := by
  refine ⟨h.entry, h.transport, fun u hu => ?_, h.keys, h.rows⟩
  simp only [Shared.release, h.holder u hu]

theorem Agree.find (h : Agree fleet id s s') (next : Nat → Call) :
    Agree fleet id (Call.find id next s).1 (Call.find id next s').1 ∧
      (Call.find id next s).2 = (Call.find id next s').2 := by
  rw [Call.find_fst, Call.find_fst]
  refine ⟨h, ?_⟩
  unfold Call.find
  rw [h.entry]
  cases s'.sessions id <;> rfl

theorem Agree.listing (h : Agree fleet id s s') {t : Nat} (ht : fleet.of id = some t) (env : Env) :
    s.listing env t = s'.listing env t := by
  unfold Shared.listing
  rw [h.transport t ht]

/-- The key that a transport logs in with is its session's. -/
theorem Agree.authenticate (h : Agree fleet id s s') (hm : s.Manned fleet) {t : Nat}
    (ht : fleet.of id = some t) (env : Env) : s.authenticate env t = s'.authenticate env t := by
  unfold Shared.authenticate
  rw [← h.transport t ht]
  cases hs : s.transports[t]? with
  | none => rfl
  | some transport =>
    simp only [Option.map_some, Option.getD_some, Transport.authenticate]
    split
    · next host port user keyId passphrase hb =>
      have hkey := hm.login id t ht host port user keyId passphrase (by rw [hs, ← hb]; rfl)
      simp only [SshTransport.uploadedKey, h.keys keyId hkey]
    · rfl

theorem Agree.removeKey (h : Agree fleet id s s') (keyId : Option Text) :
    Agree fleet id (s.removeKey keyId) (s'.removeKey keyId) := by
  cases keyId with
  | none => exact h
  | some keyId =>
    refine ⟨h.entry, h.transport, h.holder, fun k hk => ?_, h.rows⟩
    simp only [Shared.removeKey, Function.update_apply, h.keys k hk]

/-! ## What is done to another -/

end

end Shared

open Shared

namespace Call

variable {fleet : Fleet} {id id' : Text} {s s' : Shared} {c : Call}

/-- The transport that a call finds is its session's. -/
theorem find_on (hm : s.Manned fleet) {next : Nat → Call} {c' : Call}
    (h : (find id next s).2 = .inl c')
    (hnext : ∀ t, fleet.of id = some t → (next t).On fleet id) : c'.On fleet id := by
  unfold find at h
  cases hs : s.sessions id with
  | none =>
    rw [hs] at h
    cases h
  | some entry =>
    rw [hs] at h
    cases h
    exact hnext entry.transport (hm.transport id entry hs)

theorem acquire_out {now next c' : Call} {client t : Nat}
    (h : (acquire client t now next s).2 = .inl c') : c' = now ∨ c' = next := by
  by_cases hn : s.holder t = none
  · rw [acquire_free hn] at h
    cases h
    exact .inr rfl
  · rw [acquire_held hn] at h
    cases h
    exact .inl rfl

theorem acquire_transports (client t : Nat) (now next : Call) (s : Shared) :
    (acquire client t now next s).1.transports = s.transports := by
  by_cases hn : s.holder t = none
  · rw [acquire_free hn]
    rfl
  · rw [acquire_held hn]

theorem acquire_holder_ne {t u : Nat} (h : t ≠ u) (client : Nat) (now next : Call) (s : Shared) :
    (acquire client u now next s).1.holder t = s.holder t := by
  by_cases hn : s.holder u = none
  · rw [acquire_free hn]
    exact Function.update_of_ne h _ _
  · rw [acquire_held hn]

/-- A call stays on its session. -/
theorem step_on (hm : s.Manned fleet) (hc : c.On fleet id) {client : Nat} {env : Env} {c' : Call}
    (h : (c.step client env s).2 = .inl c') : c'.On fleet id := by
  cases c with
  | load | loadRows | loadInsert | loadGet => exact hc.elim
  | connect _ | refresh _ | disconnectFind _ =>
    obtain rfl := hc
    simp only [step] at h
    exact find_on hm h fun t ht => ⟨rfl, ht⟩
  | connectLock | refreshLock | disconnectLock | deleteLock =>
    simp only [step] at h
    rcases acquire_out h with rfl | rfl <;> exact hc
  | connectReach _ t =>
    simp only [step, Sum.inl.injEq] at h
    subst h
    split
    · exact hc
    · exact hc.1
  | connectRoute _ panes tree | refreshRoute _ panes tree =>
    cases panes <;> cases h <;> exact hc
  | refreshList _ t =>
    simp only [step] at h
    split at h
    · cases h
    · cases h
      exact hc.1
  | connectStore | disconnectStore | connectFail | disconnect | disconnectMark | delete =>
    cases h
    exact hc
  | connectMark | connectNote | deleteReach | deleteKey =>
    cases h
    exact hc
  | connectList | disconnectReach =>
    cases h
    exact hc.1
  | connectFailStore => cases h
  | get _ =>
    simp only [step] at h
    split at h <;> cases h
  | deleteRemove k =>
    obtain rfl : k = id := hc
    simp only [step] at h
    split at h
    · next entry hs =>
      cases h
      exact ⟨rfl, hm.transport k entry hs, hm.key k entry hs⟩
    · cases h
  | deleteRow =>
    simp only [step] at h
    split at h <;> cases h

theorem effect_modify {f : ManagedSession → ManagedSession} (h : c.effect s = .modify id f)
    (session : ManagedSession) : (f session).transport = session.transport := by
  cases c with
  | connectMark | connectFail | disconnectMark =>
    cases h
    rfl
  | connectRoute _ panes | refreshRoute _ panes =>
    cases panes <;> cases h
    rfl
  | _ => cases h

/-- A call on a session makes no transport, and leaves the backends of those that
there are. -/
theorem step_backend (hc : c.On fleet id) (client : Nat) (env : Env) (t : Nat) :
    ((c.step client env s).1.transports[t]?).map (·.backend) =
      (s.transports[t]?).map (·.backend) := by
  cases c with
  | load | loadRows | loadInsert | loadGet => exact hc.elim
  | connectLock | refreshLock | disconnectLock | deleteLock => simp only [step, acquire_transports]
  | connect | refresh | disconnectFind => simp only [step, find_fst]
  | connectReach => exact backend_onTransport (fun _ => Transport.connect_backend ..) _ _ _
  | disconnectReach | deleteReach =>
    exact backend_onTransport (f := (·.disconnect)) (fun _ => rfl) _ _ _
  | connectNote | connectStore | connectFailStore | disconnectStore =>
    simp only [step, updateSessionStatus]
    split <;> rfl
  | connectRoute _ panes | refreshRoute _ panes => cases panes <;> rfl
  | refreshList | get | deleteRemove | deleteRow =>
    simp only [step]
    split <;> rfl
  | deleteKey =>
    simp only [step, removeKey]
    split <;> rfl
  | _ => rfl

/-- A session in memory behind a step of a call was there before, with its transport. -/
theorem session_of_step (hc : c.On fleet id) (client : Nat) (env : Env) {k : Text}
    {entry : CallEntry} (hk : (c.step client env s).1.sessions k = some entry) :
    ∃ old, s.sessions k = some old ∧ old.transport = entry.transport ∧
      old.metadata.transport = entry.metadata.transport := by
  rw [(step_maps client env s c).1] at hk
  cases he : c.effect s with
  | none | prune | route =>
    rw [he] at hk
    exact ⟨entry, hk, rfl, rfl⟩
  | put =>
    obtain ⟨metadata, rows, sessions, rfl, -⟩ := effect_put he
    exact hc.elim
  | remove id' =>
    rw [he] at hk
    simp only [Effect.sessions, Function.update_apply] at hk
    split at hk
    · cases hk
    · exact ⟨entry, hk, rfl, rfl⟩
  | modify id' f =>
    rw [he] at hk
    simp only [Effect.sessions, Function.update_apply] at hk
    split at hk
    · next hid =>
      obtain ⟨old, hs, rfl⟩ := Option.map_eq_some_iff.mp hk
      exact ⟨old, hid ▸ hs, rfl, (effect_modify he _).symm⟩
    · exact ⟨entry, hk, rfl, rfl⟩

/-- A call leaves the transports and the keys to their sessions. -/
theorem step_manned (hm : s.Manned fleet) (hc : c.On fleet id) (client : Nat) (env : Env) :
    (c.step client env s).1.Manned fleet := by
  refine ⟨fun k entry hk => ?_, fun k entry hk => ?_, fun k t ht host port user keyId pp hb => ?_⟩
  · obtain ⟨old, hs, ht, -⟩ := session_of_step hc client env hk
    exact ht ▸ hm.transport k old hs
  · obtain ⟨old, hs, -, hb⟩ := session_of_step hc client env hk
    rw [hm.key k old hs, SessionManager.uploadedKeyId, SessionManager.uploadedKeyId, hb]
  · exact hm.login k t ht host port user keyId pp (step_backend hc client env t ▸ hb)

/-- A call takes the lock of its transport and no other. -/
theorem holder_step (hc : c.On fleet id) {t : Nat} (ht : fleet.of id ≠ some t) (client : Nat)
    (env : Env) : (c.step client env s).1.holder t = s.holder t := by
  have hne {u : Nat} (hu : fleet.of id = some u) : t ≠ u := fun he => ht (he ▸ hu)
  cases c with
  | load | loadRows | loadInsert | loadGet => exact hc.elim
  | connectLock | refreshLock | disconnectLock => exact acquire_holder_ne (hne hc.2) ..
  | deleteLock => exact acquire_holder_ne (hne hc.2.1) ..
  | connect | refresh | disconnectFind => simp only [step, find_fst]
  | connectNote | connectStore | connectFailStore | disconnectStore =>
    exact updateSessionStatus_holder ..
  | connectRoute _ panes tree | refreshRoute _ panes tree => cases panes <;> rfl
  | refreshList | get | deleteRemove | deleteRow =>
    simp only [step]
    split <;> rfl
  | deleteKey =>
    simp only [step, removeKey]
    split <;> rfl
  | _ => rfl

end Call

structure Client.Works (fleet : Fleet) (id : Text) (c : Client) : Prop where
  todo : ∀ r ∈ c.todo, r.On id
  current : ∀ r call, c.current = some (r, call) → r.On id ∧ call.On fleet id

namespace Calls

/-- Every client works on a session of its own, and holds no lock but that of its
transport. -/
structure Apart (fleet : Fleet) (own : Nat → Text) (s : Calls) : Prop where
  manned : s.shared.Manned fleet
  held : ∀ t i, s.shared.holder t = some i → fleet.of (own i) = some t
  clients : ∀ i c, s.locals[i]? = some c → Client.Works fleet (own i) c

variable {fleet : Fleet} {own : Nat → Text}

/-- The locks are those of the clients' transports behind the step of a call. -/
theorem holder_call {s : Calls} (h : Apart fleet own s) {i : Nat} {call : Call}
    (hcall : call.On fleet (own i)) (env : Env) (t j : Nat)
    (hj : (call.step i env s.shared).1.holder t = some j) : fleet.of (own j) = some t := by
  rcases Call.step_holder i env s.shared call t with he | he
  · exact h.held t j (he ▸ hj)
  · -- the lock is new, so it is that of the call's transport
    obtain rfl := Option.some.inj (he.symm.trans hj)
    by_contra ht
    rw [Call.holder_step hcall ht] at hj
    exact ht (h.held t i hj)

theorem next_on {request : Request} {id : Text} (h : request.On id) (reply : Reply) :
    request.next reply = [] := by
  cases request with
  | load | cleanup => exact h.elim
  | _ => rfl

/-- **A client stays with its session**, and so do the transports and the locks. -/
theorem Apart.turn {s : Calls} (h : Apart fleet own s) {i : Nat} {c : Client}
    (hc : s.locals[i]? = some c) (env : Env) :
    (c.step i env s.shared).1.Manned fleet ∧
      (c.step i env s.shared).2.Works fleet (own i) ∧
      ∀ t j, (c.step i env s.shared).1.holder t = some j → fleet.of (own j) = some t := by
  have hw := h.clients i c hc
  have ht := c.turn i env s.shared
  generalize c.step i env s.shared = r at ht
  cases ht with
  | idle => exact ⟨h.manned, hw, h.held⟩
  | @start request todo hcur htodo =>
    have hon := hw.todo request (by rw [htodo]; exact List.mem_cons_self)
    refine ⟨h.manned, ⟨fun r hr => ?_, fun r call he => ?_⟩, h.held⟩
    · exact hw.todo r (by rw [htodo]; exact List.mem_cons_of_mem _ hr)
    · obtain ⟨rfl, rfl⟩ := Prod.mk.inj (Option.some.inj he)
      refine ⟨hon, ?_⟩
      cases request <;> exact hon
  | @go request call call' s' hcur hs =>
    obtain ⟨hon, hcall⟩ := hw.current request call hcur
    have hm := Call.step_manned h.manned hcall i env
    have hh := holder_call h hcall env
    have hon' := Call.step_on h.manned hcall (congrArg Prod.snd hs)
    rw [hs] at hm hh
    refine ⟨hm, ⟨hw.todo, fun r c'' he => ?_⟩, hh⟩
    obtain ⟨rfl, rfl⟩ := Prod.mk.inj (Option.some.inj he)
    exact ⟨hon, hon'⟩
  | @answer request call reply s' hcur hs =>
    obtain ⟨hon, hcall⟩ := hw.current request call hcur
    have hm := Call.step_manned h.manned hcall i env
    have hh := holder_call h hcall env
    rw [hs] at hm hh
    refine ⟨⟨hm.transport, hm.key, hm.login⟩, ⟨?_, fun r c'' he => by cases he⟩,
      fun t j hj => hh t j ?_⟩
    · rw [next_on hon, List.nil_append]
      exact hw.todo
    · simp only [release] at hj
      split at hj
      · cases hj
      · exact hj

theorem Apart.step {s : Calls} (h : Apart fleet own s) (pick : Nat × Env) :
    Apart fleet own (s.step pick) := by
  cases hc : s.locals[pick.1]? with
  | none =>
    rw [Calls.step, Threads.step_none hc]
    exact h
  | some c =>
    obtain ⟨hm, hw, hh⟩ := h.turn hc pick.2
    have hs : Threads.step Client.step s pick = _ := Threads.step_some hc
    refine ⟨?_, ?_, fun j d hd => ?_⟩
    · rw [Calls.step, hs]
      exact hm
    · rw [Calls.step, hs]
      exact hh
    · rcases Threads.getElem?_step hc hd with ⟨rfl, rfl⟩ | ⟨-, hd'⟩
      · exact hw
      · exact h.clients j d hd'

def sampleSession (id keyId : Text) : ManagedSession where
  id
  name := "main".toList
  transport :=
    { browser := .websocket, backend := .ssh "host".toList 22 ['u'] (.uploadedKey keyId none) }
  status := .created
  error := none
  tmuxSessions := []

def samplePicks : List (Nat × Env) :=
  (List.range 40).map fun k => (k % 2, .working uuidA [.single "%0".toList])

end Calls

end Oxmux.Session
