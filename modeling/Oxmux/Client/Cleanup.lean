import Oxmux.Client.Registered

/-! `disconnectSessionCleanup`: what belongs to a session leaves the store, and
what belongs to the others stays. Handlers and the active pane belong to the
session that their qualified id names. -/

namespace Oxmux.Client
open Oxmux.Lib

def sessionOf (qid : Text) : Text := (parseQualifiedPaneId qid).sessionId

/-- `[...connectedSessionIds][0] || null`. -/
def firstOf (ids : List Text) : Option Text := ids.head?.filter (· ≠ [])

/-- Where a focus on the session goes; the ids are those of the session's last
moment. -/
def nextFocus (id : Text) (ids : List Text) (focus : Option Text) : Option Text :=
  if focus = some id then firstOf (ids.filter (· ≠ id)) else focus

namespace Store

structure CleanedUp (id : Text) (s s' : Store) : Prop where
  p2p : ∀ k, s'.p2pConnections.get k = if k = id then none else s.p2pConnections.get k
  handlers : ∀ qid, s'.paneHandlers.get qid =
    if sessionOf qid = id then none else s.paneHandlers.get qid
  qualified : ':' ∉ id → ∀ pane, s'.paneHandlers.get (qualifyPaneId id pane) = none
  connected : id ∉ s'.connectedSessionIds ∧
    s'.connectedSessionIds = s.connectedSessionIds.filter (· ≠ id)
  trees : ∀ k, s'.sessionTrees.get k = if k = id then none else s.sessionTrees.get k
  focus : s'.focusedSessionId ≠ some id ∧ s'.focusedSessionId =
    if s.focusedSessionId = some id then firstOf s'.connectedSessionIds else s.focusedSessionId
  active : ∀ qid, s'.activePane = some qid ↔ s.activePane = some qid ∧ sessionOf qid ≠ id
  rest : s' = { s with
    p2pConnections := s'.p2pConnections
    p2pClosed := s.p2pClosed ++ ((s.p2pConnections.get id).map (·.conn)).toList
    paneHandlers := s'.paneHandlers
    connectedSessionIds := s'.connectedSessionIds
    sessionTrees := s'.sessionTrees
    focusedSessionId := s'.focusedSessionId
    activePane := s'.activePane }

/-- The same store, but for the order in which connections were closed. -/
def SameButOrder (s s' : Store) : Prop :=
  s = { s' with p2pClosed := s.p2pClosed } ∧ s.p2pClosed.Perm s'.p2pClosed

/-! ## One session -/

section
variable {a b : Text} {s : Store}

theorem teardownP2P_eq (ha : a ≠ []) (s : Store) : s.teardownP2P a = { s with
    p2pClosed := s.p2pClosed ++ ((s.p2pConnections.get a).map (·.conn)).toList
    p2pConnections := s.p2pConnections.delete a } := by
  cases hc : s.p2pConnections.get a with
  | some c => rw [teardownP2P_some ha hc]; rfl
  | none =>
    rw [teardownP2P_none ha hc, Table.delete_of_get hc]
    simp

/-- All pieces of the store that a cleanup sets. -/
theorem disconnectSessionCleanup_eq (ha : a ≠ []) (s : Store) :
    s.disconnectSessionCleanup a = { s with
      p2pClosed := s.p2pClosed ++ ((s.p2pConnections.get a).map (·.conn)).toList
      p2pConnections := s.p2pConnections.delete a
      paneHandlers := s.paneHandlers.filter fun e => sessionOf e.1 ≠ a
      connectedSessionIds := s.connectedSessionIds.filter (· ≠ a)
      sessionTrees := s.sessionTrees.delete a
      focusedSessionId := nextFocus a s.connectedSessionIds s.focusedSessionId
      activePane := s.activePane.filter fun q => q = [] ∨ sessionOf q ≠ a } := by
  rw [disconnectSessionCleanup, teardownP2P_eq ha]
  rfl

theorem firstOf_filter_ne (ids : List Text) : firstOf (ids.filter (· ≠ a)) ≠ some a := by
  intro h
  obtain ⟨hm, -⟩ := Option.filter_eq_some_iff.mp h
  simpa using List.mem_of_mem_head? hm

/-- The active pane of the empty id belongs to no session. -/
theorem active_iff (ha : a ≠ []) (q : Text) : (q = [] ∨ sessionOf q ≠ a) ↔ sessionOf q ≠ a := by
  constructor
  · rintro (rfl | h)
    · exact fun h => ha h.symm
    · exact h
  · exact .inr

theorem cleanedUp (ha : a ≠ []) (s : Store) : s.CleanedUp a (s.disconnectSessionCleanup a) := by
  rw [disconnectSessionCleanup_eq ha]
  refine ⟨fun k => ?_, fun qid => ?_, fun hc pane => ?_, ⟨by simp, rfl⟩, fun k => ?_, ⟨?_, rfl⟩,
    fun qid => ?_, rfl⟩
  · simp only [Table.get_delete, ite_not]
  · rw [Table.get_filter (fun q => sessionOf q ≠ a)]
    simp only [ite_not]
  · rw [Table.get_filter (fun q => sessionOf q ≠ a), if_neg]
    simp [sessionOf, parse_qualifyPaneId hc]
  · simp only [Table.get_delete, ite_not]
  · unfold nextFocus
    simp only
    split
    · exact firstOf_filter_ne _
    · assumption
  · simp [Option.filter_eq_some_iff, active_iff ha]

/-! ## Two cleanups -/

/-- Behind another session that comes first, the order does not matter. -/
theorem firstOf_filter {ids : List Text} (hb : b ≠ []) (h : firstOf ids ≠ some b) :
    firstOf (ids.filter (· ≠ b)) = firstOf ids := by
  cases ids with
  | nil => rfl
  | cons c ids =>
    have hc : c ≠ b := by
      rintro rfl
      exact h (by simp [firstOf, hb])
    simp [firstOf, hc]

theorem cleanup_idem (ha : a ≠ []) (s : Store) :
    (s.disconnectSessionCleanup a).disconnectSessionCleanup a = s.disconnectSessionCleanup a := by
  have h := cleanedUp ha s
  have hf : (s.disconnectSessionCleanup a).focusedSessionId ≠ some a := h.focus.1
  rw [disconnectSessionCleanup_eq ha (s.disconnectSessionCleanup a), nextFocus, if_neg hf]
  rw [disconnectSessionCleanup_eq ha s]
  simp [Table.delete_delete, Option.filter_filter]

/-- A focus that moves on to the next session moves on from there. -/
theorem nextFocus_nextFocus (hb : b ≠ []) (hab : a ≠ b) (ids : List Text) :
    nextFocus b (ids.filter (· ≠ a)) (nextFocus a ids (some a)) =
      nextFocus a (ids.filter (· ≠ b)) (nextFocus b ids (some a)) := by
  have hstay : nextFocus b ids (some a) = some a := if_neg (by simpa using hab)
  have hleft : nextFocus a ids (some a) = firstOf (ids.filter (· ≠ a)) := if_pos rfl
  rw [hstay, hleft, nextFocus, nextFocus, if_pos rfl, List.filter_comm]
  split
  · rfl
  · next hne => rw [List.filter_comm, firstOf_filter hb hne]

theorem nextFocus_comm (ha : a ≠ []) (hb : b ≠ []) (ids : List Text) (focus : Option Text) :
    nextFocus b (ids.filter (· ≠ a)) (nextFocus a ids focus) =
      nextFocus a (ids.filter (· ≠ b)) (nextFocus b ids focus) := by
  by_cases hab : a = b
  · rw [hab]
  by_cases hfa : focus = some a
  · rw [hfa]
    exact nextFocus_nextFocus hb hab ids
  by_cases hfb : focus = some b
  · rw [hfb]
    exact (nextFocus_nextFocus ha (Ne.symm hab) ids).symm
  · simp [nextFocus, hfa, hfb]

/-- The direct connection of another session is there in either order. -/
theorem closed_comm (a b : Text) (t : Table Text P2PConnection) (closed : List Nat) :
    ((closed ++ ((t.get a).map (·.conn)).toList) ++
      (((t.delete a).get b).map (·.conn)).toList).Perm
    ((closed ++ ((t.get b).map (·.conn)).toList) ++
      (((t.delete b).get a).map (·.conn)).toList) := by
  by_cases hab : a = b
  · rw [hab]
  · rw [Table.get_delete_ne (Ne.symm hab), Table.get_delete_ne hab, List.append_assoc,
      List.append_assoc]
    exact List.Perm.append_left closed List.perm_append_comm

theorem cleanup_comm (ha : a ≠ []) (hb : b ≠ []) (s : Store) :
    SameButOrder ((s.disconnectSessionCleanup a).disconnectSessionCleanup b)
      ((s.disconnectSessionCleanup b).disconnectSessionCleanup a) := by
  simp only [disconnectSessionCleanup_eq ha, disconnectSessionCleanup_eq hb, SameButOrder]
  refine ⟨?_, closed_comm a b s.p2pConnections s.p2pClosed⟩
  have hactive : ∀ p q : Text → Bool, (s.activePane.filter p).filter q =
      (s.activePane.filter q).filter p := by
    intro p q
    rw [Option.filter_filter, Option.filter_filter]
    simp only [Bool.and_comm]
  rw [Table.delete_comm b a, Table.delete_comm b a, nextFocus_comm ha hb, hactive,
    List.filter_comm _ _ s.paneHandlers, List.filter_comm _ _ s.connectedSessionIds]

end

/-- **Cleaning up a session** touches nothing of the others, can be repeated, and
commutes with cleaning up another. -/
theorem cleanup_local {a : Text} (ha : a ≠ []) (s : Store) :
    s.CleanedUp a (s.disconnectSessionCleanup a) ∧
      (s.disconnectSessionCleanup a).disconnectSessionCleanup a = s.disconnectSessionCleanup a ∧
      ∀ b : Text, b ≠ [] →
        SameButOrder ((s.disconnectSessionCleanup a).disconnectSessionCleanup b)
          ((s.disconnectSessionCleanup b).disconnectSessionCleanup a) :=
  ⟨cleanedUp ha s, cleanup_idem ha s, fun _ hb => cleanup_comm ha hb s⟩

/-- Two connected sessions; the first one has the focus, a pane and a direct
connection. -/
def sampleTwo : Store := { Store.new with
  connectedSessionIds := ["a".toList, "b".toList]
  focusedSessionId := some "a".toList
  paneHandlers := [("a::%0".toList, 0), ("b::%0".toList, 1)]
  activePane := some "a::%0".toList
  p2pConnections := [("a".toList, { conn := 0, mode := .webrtc })] }

theorem cleanup_local_sample :
    sampleTwo.CleanedUp "a".toList (sampleTwo.disconnectSessionCleanup "a".toList) ∧
      (sampleTwo.disconnectSessionCleanup "a".toList).focusedSessionId = some "b".toList :=
  ⟨(cleanup_local (by decide) sampleTwo).1, by decide⟩

end Store

end Oxmux.Client
