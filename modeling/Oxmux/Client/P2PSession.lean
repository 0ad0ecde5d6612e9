import Oxmux.Client.P2PClose

/-! Whose direct connections the store has. An upgrade can finish when its
session is connected no more, and nothing looks whether it is. -/

namespace Oxmux.Client
open Oxmux.Lib Oxmux.Lib.Runs Oxmux.Session

/-! ## The store -/

namespace Store

/-- Every direct connection is one of a connected session. -/
def P2PConnected (s : Store) : Prop :=
  ∀ id ∈ s.p2pConnections.keys, id ∈ s.connectedSessionIds

theorem p2pConnected_iff {s : Store} :
    s.P2PConnected ↔ ∀ id c, s.p2pConnections.get id = some c → id ∈ s.connectedSessionIds := by
  simp only [P2PConnected, Table.mem_keys_iff, Option.isSome_iff_exists, forall_exists_index]

/-- A session that lost its direct connection has none. -/
theorem get_teardownP2P_ne {s : Store} {id k : Text} {c : P2PConnection}
    (h : (s.teardownP2P id).p2pConnections.get k = some c) : k ≠ id := by
  rintro rfl
  by_cases hid : k = []
  · subst hid
    cases h
  · rw [get_teardownP2P_self hid] at h
    cases h

/-- **What turns up elsewhere** keeps the direct connections with the sessions. -/
theorem Turns.p2pConnected {s s' : Store} (h : s.Turns s') (hp : s.P2PConnected) :
    s'.P2PConnected := by
  rw [p2pConnected_iff] at hp ⊢
  intro k c hk
  have hmem := hp k c (h.sheds k c hk)
  cases h with
  | keeps conns ids => exact ids hmem
  | tears id conns ids => exact ids ▸ hmem
  | leaves id conns ids =>
    rw [conns] at hk
    rw [ids]
    exact List.mem_filter.mpr ⟨hmem, decide_eq_true (get_teardownP2P_ne hk)⟩
  | clears conns =>
    rw [conns] at hk
    cases hk

theorem p2pConnected_set {s s' : Store} (hp : s.P2PConnected) {id : Text} {c : P2PConnection}
    (h : Sends { s with p2pConnections := s.p2pConnections.set id c } s') :
    s'.P2PConnected ↔ id ∈ s.connectedSessionIds := by
  rw [P2PConnected, h.p2pConnections, h.connectedSessionIds]
  simp only [Table.mem_keys_set, forall_eq_or_imp]
  exact and_iff_left hp

end Store

/-! ## Steps and runs -/

namespace Direct

variable {d : Direct}

/-- An upgrade finishes only while its session is connected. -/
def Attended (d : Direct) : Act → Prop
  | .established conn _ =>
    ∀ a, d.attempts[conn]? = some a → a.phase = .opening →
      a.sessionId.val ∈ d.store.connectedSessionIds
  | _ => True

theorem p2pConnected_establish_iff (h : d.store.P2PConnected) (conn : Nat) (a : Attempt)
    (terminals : Terminals) :
    (d.establish conn a terminals).store.P2PConnected ↔
      a.sessionId.val ∈ d.store.connectedSessionIds := by
  unfold establish
  cases a.mode with
  | quic => exact Store.p2pConnected_set h (d.store.sends_quicConnected conn terminals a.sessionId)
  | webrtc =>
    exact Store.p2pConnected_set h (d.store.sends_webrtcConnected conn terminals a.sessionId)

theorem turns_p2pLost (sizes : Terminals) (id : Text) (s : Store) :
    s.Turns (s.p2pLost sizes id) :=
  .sends (.tears id rfl (Store.connectedSessionIds_teardownP2P id s))
    (Store.sends_resubscribePanesViaWS _ sizes id)

theorem p2pConnected_fail (h : d.store.P2PConnected) (conn : Nat) (a : Attempt) :
    (d.fail conn a).store.P2PConnected := by
  have ht : d.store.Turns (d.store.teardownP2P a.sessionId) :=
    .tears a.sessionId rfl (Store.connectedSessionIds_teardownP2P _ _)
  unfold fail
  split
  · exact ht.p2pConnected h
  · exact ht.p2pConnected h
  · exact h

/-- **What a step must meet.** -/
theorem p2pConnected_step_iff (h : d.store.P2PConnected) (act : Act) :
    (d.step act).store.P2PConnected ↔ d.Attended act := by
  cases act with
  | upgradeReady sessionId target =>
    simp only [step, Attended, iff_true]
    split <;> exact h
  | established conn terminals =>
    simp only [step, Attended]
    cases ha : d.attempts[conn]? with
    | none => exact iff_of_true h (by simp)
    | some a =>
      by_cases hp : a.phase = .opening
      · simp [hp, p2pConnected_establish_iff h]
      · simp [hp, h]
  | failed conn =>
    simp only [step, Attended, iff_true]
    split
    · next a _ =>
      split
      · exact p2pConnected_fail h conn a
      · exact h
    · exact h
  | closed event conn terminals =>
    simp only [step, Attended, iff_true]
    split
    · next a _ =>
      split
      · unfold close
        split
        · exact (turns_p2pLost terminals a.sessionId d.store).p2pConnected h
        · exact h
      · exact h
    · exact h
  | store e =>
    simp only [step, Attended, iff_true]
    split
    · exact h
    · next he => exact (d.store.turns_step (by simpa using he)).p2pConnected h

/-- **When no direct connection outlives its session**: in every state of a run,
exactly if every upgrade of the run finishes while its session is connected. -/
theorem p2pConnected_iff_attended (h : d.store.P2PConnected) (acts : List Act) :
    Always step (fun d => d.store.P2PConnected) d acts ↔ EachStep step Attended d acts :=
  @always_iff_eachStep _ _ step _ (fun _ => True) _ _ h trivial
    (fun _ act _ h => p2pConnected_step_iff h act) (fun _ _ _ _ _ => trivial) acts

/-- Upgrades are requested for connected sessions. -/
def Requested (d : Direct) : Act → Prop
  | .upgradeReady sessionId _ => sessionId.val ∈ d.store.connectedSessionIds
  | _ => True

end Direct

def upgradedSession : SessionId := ⟨"u1".toList, by decide⟩

def sampleConnected : Direct :=
  { Direct.new with store := { Store.new with connectedSessionIds := [upgradedSession.val] } }

theorem sampleConnected_p2pConnected : sampleConnected.store.P2PConnected :=
  fun _ h => by cases h

/-- An upgrade finishes, and then its session is left. -/
theorem p2pConnected_iff_attended_sample :
    Always Direct.step (fun d => d.store.P2PConnected) sampleConnected
      [.upgradeReady upgradedSession none, .established 0 fun _ => none,
        .store (.disconnectSession upgradedSession.val)] := by
  refine (Direct.p2pConnected_iff_attended sampleConnected_p2pConnected _).mpr
    ⟨trivial, ?_, trivial, trivial⟩
  intro a ha _
  cases ha
  decide

/-- The session is left while its upgrade is under way. -/
def sampleLeft : List Act :=
  [.upgradeReady upgradedSession none, .store (.disconnectSession upgradedSession.val),
    .established 0 fun _ => none]

theorem late_upgrade_outlives_session :
    ¬ ∀ acts, EachStep Direct.step Direct.Requested sampleConnected acts →
      Always Direct.step (fun d => d.store.P2PConnected) sampleConnected acts := by
  intro h
  have hr : EachStep Direct.step Direct.Requested sampleConnected sampleLeft :=
    ⟨List.mem_singleton_self _, trivial, trivial, trivial⟩
  have hlast := (h sampleLeft hr).last upgradedSession.val (by decide +kernel)
  have hnone : (run Direct.step sampleConnected sampleLeft).store.connectedSessionIds = [] := by
    decide +kernel
  rw [hnone] at hlast
  cases hlast

end Oxmux.Client
