import Oxmux.Client.Writes

/-! The life of the store's sockets. -/

namespace Oxmux.Client
open Oxmux.Lib Oxmux.Session Oxmux.Ws

namespace Store

def Past (s : Store) (socket : Nat) : Prop :=
  ∃ state, s.sockets[socket]? = some state ∧ state ≠ .connecting

theorem isOpen_iff {s : Store} {socket : Nat} :
    s.isOpen socket = true ↔ s.sockets[socket]? = some .open := by
  simp [isOpen]

theorem Online.past {s : Store} {socket : Nat} (h : s.Online socket) : s.Past socket :=
  ⟨.open, isOpen_iff.mp h.2, by simp⟩

/-- Setting a socket to another state than connecting. -/
theorem past_of_set {s s' : Store} {k : Nat} {state : ReadyState} (hne : state ≠ .connecting)
    (hs : s'.sockets = s.sockets.set k state) {socket : Nat} (h : s.Past socket) :
    s'.Past socket := by
  obtain ⟨old, hold, hne'⟩ := h
  rw [Past, hs, List.getElem?_set]
  split
  · obtain ⟨hlt, -⟩ := List.getElem?_eq_some_iff.mp hold
    subst socket
    exact ⟨state, by simp [hlt], hne⟩
  · exact ⟨old, hold, hne'⟩

/-- Setting a socket to another state than open opens none. -/
theorem isOpen_of_set {s s' : Store} {k : Nat} {state : ReadyState} (hne : state ≠ .open)
    (hs : s'.sockets = s.sockets.set k state) {socket : Nat} (h : s'.isOpen socket = true) :
    s.isOpen socket = true := by
  rw [isOpen_iff, hs, List.getElem?_set] at h
  split at h
  · split at h
    · exact absurd (Option.some.inj h) hne
    · cases h
  · exact isOpen_iff.mpr h

/-! ## Making and closing -/

/-- `s'` has what `s` wrote and handed over; no socket was opened, and none went
back to connecting. -/
structure Quiet (s s' : Store) : Prop where
  wire : s'.wire = s.wire
  wsSend : s'.wsSend = none ∨ s'.wsSend = s.wsSend
  handed : s'.handed = s.handed
  isOpen : ∀ socket, s'.isOpen socket = true → s.isOpen socket = true
  past : ∀ socket, s.Past socket → s'.Past socket

theorem Quiet.refl (s : Store) : s.Quiet s := ⟨rfl, .inr rfl, rfl, fun _ h => h, fun _ h => h⟩

theorem quiet_connect (s : Store) : s.Quiet s.connect := by
  unfold connect
  split
  · exact .refl s
  · refine ⟨rfl, .inr rfl, rfl, fun socket h => ?_, fun socket ⟨state, hs, hne⟩ => ⟨state, ?_, hne⟩⟩
    · rw [isOpen_iff, List.getElem?_append] at h
      split at h
      · exact isOpen_iff.mpr h
      · have hc := List.mem_of_getElem? h
        simp at hc
    · rw [List.getElem?_append_left (List.getElem?_eq_some_iff.mp hs).1]
      exact hs

/-- Making and closing sockets writes nothing. -/
theorem quiet_step {e : Event} (h : e.ofSocket = true) (hne : ∀ socket, e ≠ .opened socket)
    (s : Store) : s.Quiet (s.step e) := by
  cases e with
  | connect => exact quiet_connect s
  | opened socket => exact absurd rfl (hne socket)
  | closing socket =>
    simp only [step]
    split
    · exact ⟨rfl, .inr rfl, rfl, fun _ => isOpen_of_set (by simp) rfl,
        fun _ => past_of_set (by simp) rfl⟩
    · exact .refl s
  | closed socket =>
    simp only [step]
    split
    · exact ⟨rfl, .inl rfl, rfl, fun _ => isOpen_of_set (by simp) rfl,
        fun _ => past_of_set (by simp) rfl⟩
    · exact .refl s
  | reconnectTimer =>
    simp only [step]
    split
    · obtain ⟨hw, hs, hh, ho, hp⟩ := quiet_connect
        { s with reconnectTimeout := false, backoffMs := min (s.backoffMs * 2) 30000 }
      exact ⟨hw, hs, hh, ho, hp⟩
    · exact .refl s
  | _ => cases h

/-! ## Opening -/

/-- The store at the start of `onopen`, before it sends. -/
def opened (socket : Nat) (s : Store) : Store :=
  { s with
    sockets := s.sockets.set socket .open
    connectionStatus := .connected
    backoffMs := 1000
    wsSend := some socket }

/-- `onopen` writes no subscription. -/
theorem wrote_onOpen (socket : Nat) (s : Store) :
    (s.opened socket).Wrote (s.onOpen socket) [] [] :=
  (wrote_sendMsg (rfl : Msg.sessList.isSub = false) (s.opened socket)).trans
    (wrote_foldl_sessConnect s.connectedSessionIds _)

/-- **What an event hands over**, whatever the event. -/
theorem handed_step (e : Event) (s : Store) : (s.step e).handed = s.handed ++ s.gives e := by
  cases hs : e.ofSocket with
  | false => exact (wrote_step hs s).handed
  | true =>
    have hq := fun hne => quiet_step hs hne s
    cases e with
    | opened socket =>
      simp only [step, gives, List.append_nil]
      split
      · exact (s.wrote_onOpen socket).handed.trans (List.append_nil _)
      · rfl
    | connect | closing | closed | reconnectTimer =>
      exact (hq (by simp)).handed.trans (List.append_nil _).symm
    | _ => cases hs

/-! ## One socket at a time -/

/-- Only the last socket can be alive, and none is when a reconnect is due. -/
structure OneSocket (s : Store) : Prop where
  live : ∀ (k : Nat) (state : ReadyState), s.sockets[k]? = some state → state ≠ .closed →
    k + 1 = s.sockets.length
  timer : s.reconnectTimeout = true → s.sockets ≠ [] ∧
    ∀ (k : Nat) (state : ReadyState), s.sockets[k]? = some state → state = .closed

theorem oneSocket_new : new.OneSocket := ⟨by simp [new], by simp [new]⟩

theorem OneSocket.of_eq {s s' : Store} (h : s.OneSocket) (hk : s'.sockets = s.sockets)
    (ht : s'.reconnectTimeout = s.reconnectTimeout) : s'.OneSocket :=
  ⟨by rw [hk]; exact h.live, by rw [hk, ht]; exact h.timer⟩

/-- A socket that is made when all others are closed. -/
theorem OneSocket.push {s s' : Store}
    (hc : ∀ (k : Nat) (state : ReadyState), s.sockets[k]? = some state → state = .closed)
    (hk : s'.sockets = s.sockets ++ [.connecting]) (ht : s'.reconnectTimeout = false) :
    s'.OneSocket := by
  refine ⟨fun k state hs hne => ?_, fun h => absurd (ht.symm.trans h) (by simp)⟩
  rw [hk, List.getElem?_append] at hs
  split at hs
  · exact absurd (hc k state hs) hne
  · have hlt := (List.getElem?_eq_some_iff.mp hs).1
    simp only [List.length_singleton] at hlt
    rw [hk, List.length_append, List.length_singleton]
    omega

/-- A change of the state of a socket that is alive. -/
theorem OneSocket.set {s s' : Store} (h : s.OneSocket) {k : Nat} {old new : ReadyState}
    (hold : s.sockets[k]? = some old) (hne : old ≠ .closed) (hk : s'.sockets = s.sockets.set k new)
    (ht : s'.reconnectTimeout = true → s.reconnectTimeout = true ∨ new = .closed) :
    s'.OneSocket := by
  obtain ⟨hlt, -⟩ := List.getElem?_eq_some_iff.mp hold
  refine ⟨fun k' state hs hc => ?_, fun hr => ⟨?_, fun k' state hs => ?_⟩⟩
  · rw [hk, List.length_set]
    rw [hk, List.getElem?_set] at hs
    split at hs
    · next he => exact he ▸ h.live k old hold hne
    · exact h.live k' state hs hc
  · rw [hk]
    intro hnil
    have hlen := congrArg List.length hnil
    simp only [List.length_set, List.length_nil] at hlen
    omega
  · rw [hk, List.getElem?_set] at hs
    split at hs
    · next he =>
      rw [Option.some.injEq] at hs
      rcases ht hr with hr | hn
      · exact absurd ((h.timer hr).2 k old hold) hne
      · exact hs ▸ hn
    · next he =>
      by_contra hc
      have h₁ := h.live k' state hs hc
      have h₂ := h.live k old hold hne
      omega

/-- When all sockets are closed, `ws` is none that is open. -/
theorem ws_not_open {s : Store}
    (hc : ∀ (k : Nat) (state : ReadyState), s.sockets[k]? = some state → state = .closed) :
    s.ws.elim false (fun socket => s.isOpen socket) = false := by
  cases s.ws with
  | none => rfl
  | some k =>
    rw [Option.elim_some]
    by_contra ho
    exact absurd (hc k .open (isOpen_iff.mp (by simpa using ho))) (by simp)

/-- **`connect` is called once**, and then only by the timer: the sockets follow
one another. -/
theorem oneSocket_step {s : Store} (h : s.OneSocket) {e : Event}
    (hc : e = .connect → s.sockets = []) : (s.step e).OneSocket := by
  cases hs : e.ofSocket with
  | false =>
    have hw := wrote_step hs s
    exact h.of_eq hw.sockets hw.timer
  | true =>
    cases e with
    | connect =>
      have hnil := hc rfl
      have hclosed : ∀ (k : Nat) (state : ReadyState), s.sockets[k]? = some state →
          state = .closed := by
        simp [hnil]
      have hnot := ws_not_open hclosed
      have ht : s.reconnectTimeout = false := by
        by_contra hr
        exact (h.timer (by simpa using hr)).1 hnil
      exact OneSocket.push hclosed (by simp [step, connect, hnot])
        (by simp [step, connect, hnot, ht])
    | opened k =>
      simp only [step]
      split
      · next hk =>
        have hw := s.wrote_onOpen k
        refine h.set hk (by simp) hw.sockets fun hr => .inl ?_
        exact hw.timer.symm.trans hr
      · exact h
    | closing k =>
      simp only [step]
      split
      · next hk =>
        rcases hk with hk | hk
        · exact h.set hk (by simp) rfl fun hr => .inl hr
        · exact h.set (isOpen_iff.mp hk) (by simp) rfl fun hr => .inl hr
      · exact h
    | closed k =>
      simp only [step]
      split
      · next hk => exact h.set hk (by simp) rfl fun _ => .inr rfl
      · exact h
    | reconnectTimer =>
      simp only [step]
      split
      · next hr =>
        have hclosed := (h.timer hr).2
        have hnot' : (s.ws.elim false fun socket => s.sockets[socket]? == some .open) = false :=
          ws_not_open hclosed
        exact OneSocket.push hclosed (by simp [reconnect, connect, isOpen, hnot'])
          (by simp [reconnect, connect, isOpen, hnot'])
      · exact h
    | _ => cases hs

end Store

end Oxmux.Client
