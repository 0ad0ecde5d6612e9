import Oxmux.Client.Direct
import Oxmux.Client.Registered
import Oxmux.Lib.Runs

/-! When a close handler acts for its own connection, and once. -/

namespace Oxmux.Client
open Oxmux.Lib Oxmux.Lib.Runs Oxmux.Session

namespace Direct

variable {d : Direct} {conn : Nat}

/-! ## What a close handler writes -/

theorem subsOf_subscribeMsgs (terminals : Terminals) (qids : List Text) :
    subsOf (qids.flatMap (Store.subscribeMsgs terminals)) =
      qids.map fun qid => (parseQualifiedPaneId qid).paneId := by
  induction qids with
  | nil => rfl
  | cons qid qids ih =>
    have hone : subsOf (Store.subscribeMsgs terminals qid) =
        [(parseQualifiedPaneId qid).paneId] := by
      unfold Store.subscribeMsgs subsOf
      cases terminals qid with
      | none => rfl
      | some size =>
        simp only
        split <;> rfl
    rw [List.flatMap_cons, subsOf, List.filterMap_append, ← subsOf, ← subsOf, hone, ih]
    rfl

/-- **What a close handler subscribes**: all panes if the socket is open, and none
otherwise. -/
theorem resubscribed_closeHandler (conn : Nat) (sessionId : Text) (terminals : Terminals)
    (d : Direct) : (d.closeHandler conn sessionId terminals).resubscribed = d.resubscribed ++
      if d.store.online then (rawPanes sessionId d.store).map (conn, ·) else [] := by
  simp only [closeHandler, Store.p2pLost_eq, List.drop_left]
  cases ho : d.store.online with
  | false =>
    rw [Store.onWire_offline ho]
    rfl
  | true =>
    obtain ⟨k, hk⟩ := Store.onWire_online ho
    rw [hk, List.map_map, show Prod.snd ∘ (k, ·) = (id : Msg → Msg) from rfl, List.map_id,
      subsOf_subscribeMsgs]
    rfl

theorem wsSend_of_online {s : Store} (h : s.online = true) : s.wsSend.isSome = true := by
  cases hw : s.wsSend with
  | some k => rfl
  | none => simp [Store.online, hw] at h

theorem terminalPanes_eq_nil {sessionId : Text} {s : Store} (terminals : Terminals)
    (h : s.handlerPanes sessionId = []) : terminalPanes terminals sessionId s = [] := by
  rw [terminalPanes, h, List.filter_nil]

theorem closeHandler_idle {sessionId : Text} (hid : sessionId ≠ []) (terminals : Terminals)
    (hc : d.store.p2pConnections.get sessionId = none)
    (hp : d.store.online = false ∨ d.store.handlerPanes sessionId = [])
    (ht : d.store.wsSend = none ∨ terminalPanes terminals sessionId d.store = []) :
    d.closeHandler conn sessionId terminals = d := by
  have hresets : (if d.store.wsSend.isSome then
      (terminalPanes terminals sessionId d.store).map (conn, ·) else []) = [] := by
    rcases ht with hw | ht
    · simp [hw]
    · simp [ht]
  simp only [closeHandler, Store.p2pLost_idle hid terminals hc hp, List.drop_length, List.map_nil,
    hresets, List.append_nil]
  exact congrArg (fun log => { d with resubscribed := log }) (List.append_nil _)

theorem changed_iff {sessionId : Text} (hid : sessionId ≠ []) (terminals : Terminals) :
    (d.noticeOf conn sessionId terminals).changed = true ↔
      d.store.p2pConnections.get sessionId ≠ none ∨
        (d.store.online = true ∧ d.store.handlerPanes sessionId ≠ []) ∨
        (d.store.wsSend ≠ none ∧ terminalPanes terminals sessionId d.store ≠ []) := by
  rw [noticeOf, decide_eq_true_iff]
  constructor
  · intro h
    by_contra hn
    simp only [not_or, not_and_or, not_not, Bool.not_eq_true] at hn
    rw [closeHandler_idle hid terminals hn.1 hn.2.1 hn.2.2] at h
    simp at h
  · rintro (hc | ⟨ho, hp⟩ | ⟨hw, ht⟩)
    · obtain ⟨c, hc⟩ := Option.ne_none_iff_exists'.mp hc
      refine .inl fun hs => ?_
      have hl := congrArg Store.p2pClosed hs
      simp only [closeHandler, Store.p2pClosed_p2pLost _ hid, hc] at hl
      simp at hl
    · -- the first subscription is written
      refine .inl fun hs => hp ?_
      have hwire := congrArg Store.wire hs
      obtain ⟨k, hk⟩ := Store.onWire_online ho
      simp only [closeHandler, Store.p2pLost_eq, hk, List.append_right_eq_self,
        List.map_eq_nil_iff] at hwire
      have hsubs := subsOf_subscribeMsgs terminals (d.store.handlerPanes sessionId)
      rw [hwire] at hsubs
      exact List.map_eq_nil_iff.mp hsubs.symm
    · refine .inr ?_
      have hs : d.store.wsSend.isSome = true := Option.isSome_iff_ne_none.mpr hw
      simpa [closeHandler, hs] using ht

/-- The connection that a close handler closes is the registered one. -/
theorem mem_closed {sessionId : Text} (hid : sessionId ≠ []) (terminals : Terminals) (k : Nat) :
    k ∈ (d.noticeOf conn sessionId terminals).closed ↔
      (d.store.p2pConnections.get sessionId).map (·.conn) = some k := by
  simp [noticeOf, closeHandler, Store.p2pClosed_p2pLost terminals hid]

/-! ## One call -/

/-- The close handler of this connection did nothing so far, and the connection
was not lost. -/
def Untouched (d : Direct) (conn : Nat) : Prop :=
  (∀ e ∈ d.resubscribed, e.1 ≠ conn) ∧ (∀ e ∈ d.resets, e.1 ≠ conn) ∧
    ∀ l ∈ d.losses, l.conn ≠ conn

theorem entries_append (conn : Nat) (log log' : List (Nat × Text)) :
    entries conn (log ++ log') = entries conn log ++ entries conn log' := by
  simp [entries]

theorem entries_eq_nil {log : List (Nat × Text)} (h : ∀ e ∈ log, e.1 ≠ conn) :
    entries conn log = [] := by
  simpa [entries] using h

theorem entries_map_self (conn : Nat) (panes : List Text) :
    entries conn (panes.map (conn, ·)) = panes := by
  induction panes with
  | nil => rfl
  | cons qid panes ih => simpa [entries] using ih

theorem entries_map_ne {conn' : Nat} (h : conn ≠ conn') (panes : List Text) :
    entries conn' (panes.map (conn, ·)) = [] :=
  entries_eq_nil (by simpa using fun _ _ => h)

theorem fst_of_mem_ite {p : Bool} {panes : List Text} {e : Nat × Text}
    (h : e ∈ if p then panes.map (conn, ·) else []) : e.1 = conn := by
  cases p
  · cases h
  · obtain ⟨qid, -, rfl⟩ := List.mem_map.mp h
    rfl

theorem entries_ite_self (p : Bool) (panes : List Text) :
    entries conn (if p then panes.map (conn, ·) else []) = if p then panes else [] := by
  cases p
  · rfl
  · exact entries_map_self conn panes

theorem entries_ite_ne {conn' : Nat} (h : conn ≠ conn') (p : Bool) (panes : List Text) :
    entries conn' (if p then panes.map (conn, ·) else []) = [] := by
  cases p
  · rfl
  · exact entries_map_ne h panes

theorem ownOnce_notify_iff (h : d.OwnOnce) (sessionId : Text) (terminals : Terminals) :
    (d.notify conn sessionId terminals).OwnOnce ↔
      ((d.noticeOf conn sessionId terminals).changed = true →
        d.store.isRegistered conn sessionId = true) ∧
      (∀ k ∈ (d.noticeOf conn sessionId terminals).closed, k = conn) ∧
      ∀ l ∈ (d.notify conn sessionId terminals).losses,
        entries l.conn (d.notify conn sessionId terminals).resubscribed = l.panes ∧
          entries l.conn (d.notify conn sessionId terminals).resets = l.terminals := by
  have hlast : d.noticeOf conn sessionId terminals ∈ (d.notify conn sessionId terminals).notices :=
    List.mem_append_right _ (List.mem_singleton_self _)
  refine ⟨fun h' => ⟨h'.own _ hlast, h'.only _ hlast, h'.once⟩, fun ⟨hown, honly, honce⟩ => ?_⟩
  refine ⟨fun n hn => ?_, fun n hn => ?_, honce⟩
  · rcases List.mem_append.mp hn with hn | hn
    · exact h.own n hn
    · exact List.mem_singleton.mp hn ▸ hown
  · rcases List.mem_append.mp hn with hn | hn
    · exact h.only n hn
    · exact List.mem_singleton.mp hn ▸ honly

section
variable {sessionId : Text} (hid : sessionId ≠ []) (terminals : Terminals)
include hid

/-- A call for a session that has no connection. -/
theorem ownOnce_notify_none (h : d.OwnOnce)
    (hc : d.store.p2pConnections.get sessionId = none) :
    (d.notify conn sessionId terminals).OwnOnce ↔
      (d.store.online = false ∨ d.store.handlerPanes sessionId = []) ∧
        (d.store.wsSend = none ∨ terminalPanes terminals sessionId d.store = []) := by
  have hr : d.store.isRegistered conn sessionId = false := by simp [Store.isRegistered, hc]
  rw [ownOnce_notify_iff h, hr, changed_iff hid]
  constructor
  · rintro ⟨hown, -⟩
    by_contra hn
    rw [not_and_or, not_or, not_or, Bool.not_eq_false] at hn
    exact absurd (hown (.inr hn)) (by simp)
  · rintro ⟨hp, ht⟩
    refine ⟨fun hch => ?_, fun k hk => ?_, fun l hl => ?_⟩
    · rcases hch with hne | ⟨ho, hne⟩ | ⟨hw, hne⟩
      · exact absurd hc hne
      · rw [ho] at hp
        exact absurd hp (not_or.mpr ⟨by simp, hne⟩)
      · exact absurd ht (not_or.mpr ⟨hw, hne⟩)
    · rw [mem_closed hid, hc] at hk
      cases hk
    · have hidle : d.closeHandler conn sessionId terminals = d :=
        closeHandler_idle hid terminals hc hp ht
      simp only [notify, hr, Bool.false_eq_true, if_false, hidle] at hl ⊢
      exact h.once l hl

/-- A call for a session that has another connection. -/
theorem not_ownOnce_notify (h : d.OwnOnce) {c : P2PConnection}
    (hc : d.store.p2pConnections.get sessionId = some c) (hne : c.conn ≠ conn) :
    ¬ (d.notify conn sessionId terminals).OwnOnce := by
  rw [ownOnce_notify_iff h]
  rintro ⟨-, honly, -⟩
  exact hne (honly c.conn ((mem_closed hid terminals c.conn).mpr (by rw [hc]; rfl)))

theorem ownOnce_notify_registered (h : d.OwnOnce) {c : P2PConnection}
    (hc : d.store.p2pConnections.get sessionId = some c) (hk : c.conn = conn)
    (hu : d.Untouched conn) :
    (d.notify conn sessionId terminals).OwnOnce ↔
      (d.store.online = true ∨ d.store.handlerPanes sessionId = []) := by
  have hr : d.store.isRegistered conn sessionId = true := by simp [Store.isRegistered, hc, hk]
  have hnew : ∀ (log : List (Nat × Text)) (p : Bool) (panes : List Text), (∀ e ∈ log, e.1 ≠ conn) →
      entries conn (log ++ if p then panes.map (conn, ·) else []) = if p then panes else [] := by
    intro log p panes hlog
    rw [entries_append, entries_eq_nil hlog, List.nil_append, entries_ite_self]
  have hsubs := resubscribed_closeHandler conn sessionId terminals d
  have hresets : (d.closeHandler conn sessionId terminals).resets = d.resets ++
      if d.store.wsSend.isSome then (terminalPanes terminals sessionId d.store).map (conn, ·)
      else [] := rfl
  rw [ownOnce_notify_iff h, hr]
  simp only [notify, hr, if_true, List.mem_append, List.mem_singleton, hsubs, hresets]
  constructor
  · rintro ⟨-, -, honce⟩
    rw [or_iff_not_imp_left, Bool.not_eq_true]
    intro ho
    have hl := (honce _ (.inr rfl)).1
    rw [show (d.lossOf conn sessionId terminals).conn = conn from rfl, hnew _ _ _ hu.1, ho] at hl
    exact List.map_eq_nil_iff.mp hl.symm
  · intro hp
    refine ⟨fun _ => trivial, fun k hk' => ?_, fun l hl => ?_⟩
    · rw [mem_closed hid, hc] at hk'
      exact (Option.some.inj hk').symm.trans hk
    · rcases hl with hl | rfl
      · have hne : conn ≠ l.conn := (hu.2.2 l hl).symm
        rw [entries_append, entries_append, entries_ite_ne hne, entries_ite_ne hne,
          List.append_nil, List.append_nil]
        exact h.once l hl
      · rw [show (d.lossOf conn sessionId terminals).conn = conn from rfl,
          hnew _ _ _ hu.1, hnew _ _ _ hu.2.1]
        rcases hp with ho | hp
        · rw [ho, wsSend_of_online ho]
          exact ⟨rfl, rfl⟩
        · simp [lossOf, rawPanes, hp, terminalPanes_eq_nil]

/-- **One call of a close handler** keeps what is asked for exactly if it finds
what it should. -/
theorem ownOnce_notify (h : d.OwnOnce)
    (hu : d.store.isRegistered conn sessionId = true → d.Untouched conn) :
    (d.notify conn sessionId terminals).OwnOnce ↔ Finds conn sessionId terminals d.store := by
  unfold Finds
  cases hc : d.store.p2pConnections.get sessionId with
  | none => exact ownOnce_notify_none hid terminals h hc
  | some c =>
    by_cases hk : c.conn = conn
    · have hr : d.store.isRegistered conn sessionId = true := by simp [Store.isRegistered, hc, hk]
      rw [ownOnce_notify_registered hid terminals h hc hk (hu hr)]
      exact (and_iff_right hk).symm
    · exact iff_of_false (not_ownOnce_notify hid terminals h hc hk) fun hf => hk hf.1

end

/-! ## The invariant -/

/-- A connection that is not up was not touched, and a registered one is up; it
was not touched either, unless its read loop had ended before. -/
structure Sound (d : Direct) : Prop where
  silent : ∀ conn : Nat, (∀ a, d.attempts[conn]? = some a → a.phase ≠ .up) → d.Untouched conn
  held : ∀ id c, d.store.p2pConnections.get id = some c →
    ∃ a, d.attempts[c.conn]? = some a ∧ a.phase = .up ∧ a.sessionId.val = id ∧
      (a.mode = .quic ∧ a.ended = true ∨ d.Untouched c.conn)
  early : ∀ (conn : Nat) (a : Attempt), d.attempts[conn]? = some a → a.phase = .opening →
    a.ended = true → a.mode = .quic

theorem sound_new : new.Sound where
  silent _ _ := ⟨by simp [new], by simp [new], by simp [new]⟩
  held _ _ h := by cases h
  early _ _ h := by simp [new] at h

/-- Another store, that registers no connection. -/
theorem Sound.store (h : d.Sound) {s : Store} (hs : d.store.Sheds s) :
    { d with store := s }.Sound where
  silent := h.silent
  held id c hc := by
    obtain ⟨a, ha, hup, hid, hu⟩ := h.held id c (hs id c hc)
    exact ⟨a, ha, hup, hid, hu⟩
  early := h.early

theorem Sound.push (h : d.Sound) {a : Attempt} (he : a.ended = false) :
    { d with attempts := d.attempts ++ [a] }.Sound where
  silent k hk := h.silent k fun b hb => hk b (List.getElem?_append_left
    (List.getElem?_eq_some_iff.mp hb).1 ▸ hb)
  held id c hc := by
    obtain ⟨b, hb, hup, hid, hu⟩ := h.held id c hc
    exact ⟨b, List.getElem?_append_left (List.getElem?_eq_some_iff.mp hb).1 ▸ hb, hup, hid, hu⟩
  early k b hb := by
    rw [List.getElem?_append] at hb
    split at hb
    · exact h.early k b hb
    · rw [List.getElem?_singleton] at hb
      split at hb
      · cases hb
        intro _ hended
        rw [he] at hended
        cases hended
      · cases hb

/-- Another phase for an attempt that is not up. -/
theorem Sound.replace (h : d.Sound) {a b : Attempt} (ha : d.attempts[conn]? = some a)
    (hp : a.phase ≠ .up)
    (he : b.phase = .opening → b.ended = true → b.mode = .quic) :
    { d with attempts := d.attempts.set conn b }.Sound where
  silent k hk := by
    refine h.silent k fun a' ha' => ?_
    by_cases hkc : conn = k
    · subst hkc
      rw [ha] at ha'
      exact Option.some.inj ha' ▸ hp
    · exact hk a' (by rw [List.getElem?_set_ne hkc]; exact ha')
  held id c hc := by
    obtain ⟨a', ha', hup, hid, hu⟩ := h.held id c hc
    have hkc : conn ≠ c.conn := by
      rintro rfl
      rw [ha] at ha'
      exact hp (Option.some.inj ha' ▸ hup)
    exact ⟨a', by rw [List.getElem?_set_ne hkc]; exact ha', hup, hid, hu⟩
  early k b' hb' := by
    rw [List.getElem?_set] at hb'
    split at hb'
    · split at hb'
      · cases hb'
        exact he
      · cases hb'
    · exact h.early k b' hb'

theorem Sound.mark (h : d.Sound) {a : Attempt} (ha : d.attempts[conn]? = some a) (ended : Bool)
    (he : a.ended = true → ended = true)
    (hq : a.phase = .opening → ended = true → a.mode = .quic) :
    { d with attempts := d.attempts.set conn { a with ended } }.Sound := by
  have hset : (d.attempts.set conn { a with ended })[conn]? = some { a with ended } := by
    simp [(List.getElem?_eq_some_iff.mp ha).1]
  refine ⟨fun k hk => h.silent k fun b hb => ?_, fun id c hc => ?_, fun k b hb => ?_⟩
  · by_cases hkc : conn = k
    · subst hkc
      rw [ha] at hb
      cases hb
      exact hk { a with ended } hset
    · exact hk b (by rw [List.getElem?_set_ne hkc]; exact hb)
  · obtain ⟨b, hb, hup, hid, hu⟩ := h.held id c hc
    by_cases hkc : conn = c.conn
    · rw [← hkc, ha] at hb
      cases hb
      exact ⟨{ a with ended }, hkc ▸ hset, hup, hid, hu.imp_left fun hu => ⟨hu.1, he hu.2⟩⟩
    · exact ⟨b, by rw [List.getElem?_set_ne hkc]; exact hb, hup, hid, hu⟩
  · rw [List.getElem?_set] at hb
    split at hb
    · split at hb
      · cases hb
        exact hq
      · cases hb
    · exact h.early k b hb

theorem p2pConnections_establish (conn : Nat) (a : Attempt) (terminals : Terminals) (d : Direct) :
    (d.establish conn a terminals).store.p2pConnections =
      d.store.p2pConnections.set a.sessionId.val { conn, mode := a.mode } := by
  unfold establish
  cases a.mode with
  | quic => exact (d.store.sends_quicConnected conn terminals a.sessionId).p2pConnections
  | webrtc => exact (d.store.sends_webrtcConnected conn terminals a.sessionId).p2pConnections

theorem mem_losses_establish {a : Attempt} {terminals : Terminals} {l : Loss}
    (h : l ∈ (d.establish conn a terminals).losses) :
    l ∈ d.losses ∨ a.ended = true ∧ l = d.lossOf conn a.sessionId terminals := by
  simp only [establish] at h
  split at h
  · next he =>
    rcases List.mem_append.mp h with h | h
    · exact .inl h
    · exact .inr ⟨he, List.mem_singleton.mp h⟩
  · exact .inl h

theorem sound_establish (h : d.Sound) {a : Attempt} (ha : d.attempts[conn]? = some a)
    (hp : a.phase = .opening) (terminals : Terminals) :
    (d.establish conn a terminals).Sound := by
  have hnot : a.phase ≠ .up := by simp [hp]
  have hr := h.replace (b := { a with phase := .up }) ha hnot (by simp)
  have hmine : d.Untouched conn := h.silent conn fun a' ha' => by
    rw [ha] at ha'
    exact Option.some.inj ha' ▸ hnot
  have hother : ∀ k, k ≠ conn → d.Untouched k → (d.establish conn a terminals).Untouched k := by
    intro k hk hu
    refine ⟨hu.1, hu.2.1, fun l hl => ?_⟩
    rcases mem_losses_establish hl with hl | ⟨-, rfl⟩
    · exact hu.2.2 l hl
    · exact hk.symm
  have hself : (d.attempts.set conn { a with phase := .up })[conn]? =
      some { a with phase := .up } := by
    simp [(List.getElem?_eq_some_iff.mp ha).1]
  refine ⟨fun k hk => ?_, fun id c hc => ?_, hr.early⟩
  · have hne : k ≠ conn := by
      rintro rfl
      exact hk _ hself rfl
    exact hother k hne (hr.silent k hk)
  · rw [p2pConnections_establish] at hc
    by_cases hid : id = a.sessionId.val
    · subst hid
      rw [Table.get_set_self] at hc
      cases hc
      refine ⟨_, hself, rfl, rfl, ?_⟩
      cases he : a.ended with
      | true => exact .inl ⟨h.early conn a ha hp he, rfl⟩
      | false =>
        refine .inr ⟨hmine.1, hmine.2.1, fun l hl => ?_⟩
        rcases mem_losses_establish hl with hl | ⟨he', -⟩
        · exact hmine.2.2 l hl
        · rw [he] at he'
          cases he'
    · rw [Table.get_set_ne hid] at hc
      obtain ⟨b, hb, hup, hbid, hu⟩ := hr.held id c hc
      have hne : c.conn ≠ conn := by
        obtain ⟨b', hb', hup', -⟩ := h.held id c hc
        intro hk
        rw [hk, ha] at hb'
        exact hnot (Option.some.inj hb' ▸ hup')
      exact ⟨b, hb, hup, hbid, hu.imp_right (hother c.conn hne)⟩

theorem sound_fail (h : d.Sound) {a : Attempt} (ha : d.attempts[conn]? = some a)
    (hp : a.phase = .opening) : (d.fail conn a).Sound := by
  have hnot : a.phase ≠ .up := by simp [hp]
  have hr := h.replace (b := { a with phase := .failed }) ha hnot (by simp)
  have ht := hr.store (d.store.sheds_teardownP2P a.sessionId)
  unfold fail
  split
  · exact ht.push rfl
  · exact ht
  · exact hr

theorem sound_notify (h : d.Sound) {a : Attempt} (ha : d.attempts[conn]? = some a)
    (hup : a.phase = .up) (terminals : Terminals) :
    (d.notify conn a.sessionId terminals).Sound := by
  have hother : ∀ k, k ≠ conn → d.Untouched k →
      (d.notify conn a.sessionId terminals).Untouched k := by
    intro k hk ⟨hs, hr, hl⟩
    refine ⟨fun e he => ?_, fun e he => ?_, fun l hl' => ?_⟩
    · rcases List.mem_append.mp he with he | he
      · exact hs e he
      · obtain ⟨pane, -, rfl⟩ := List.mem_map.mp he
        exact hk.symm
    · rcases List.mem_append.mp he with he | he
      · exact hr e he
      · exact fst_of_mem_ite he ▸ hk.symm
    · simp only [notify] at hl'
      split at hl'
      · rcases List.mem_append.mp hl' with hl' | hl'
        · exact hl l hl'
        · exact List.mem_singleton.mp hl' ▸ hk.symm
      · exact hl l hl'
  refine ⟨fun k hk => ?_, fun id c hc => ?_, h.early⟩
  · have hne : k ≠ conn := by
      rintro rfl
      exact hk a ha hup
    exact hother k hne (h.silent k hk)
  · have hc' : (d.store.teardownP2P a.sessionId).p2pConnections.get id = some c := by
      rw [← Store.p2pConnections_p2pLost terminals]
      exact hc
    obtain ⟨b, hb, hbup, hbid, hu⟩ := h.held id c (d.store.sheds_teardownP2P a.sessionId id c hc')
    have hne : c.conn ≠ conn := by
      intro hk
      rw [hk, ha] at hb
      cases hb
      rw [← hbid, Store.get_teardownP2P_self a.sessionId.property] at hc'
      cases hc'
    exact ⟨b, hb, hbup, hbid, hu.imp_right (hother c.conn hne)⟩

theorem sound_close (h : d.Sound) {event : CloseEvent} {a : Attempt}
    (ha : d.attempts[conn]? = some a) (terminals : Terminals)
    (hf : event.fires (d.store.p2pClosed.contains conn) a = true) :
    (d.close event conn a terminals).Sound := by
  have hm := h.mark ha (a.ended || event.ends) (by simp +contextual) fun hp he => by
    rcases Bool.or_eq_true_iff.mp he with he | he
    · exact h.early conn a ha hp he
    · cases event with
      | dataChannel => simp [CloseEvent.fires, hp] at hf
      | connectionState => cases he
      | readLoop =>
        simp only [CloseEvent.fires, Bool.and_eq_true, decide_eq_true_eq] at hf
        exact hf.1.1
  unfold close
  split
  · next hup =>
    have hset : (d.attempts.set conn { a with ended := a.ended || event.ends })[conn]? =
        some { a with ended := a.ended || event.ends } := by
      simp [(List.getElem?_eq_some_iff.mp ha).1]
    exact sound_notify hm hset hup terminals
  · exact hm

theorem sound_step (h : d.Sound) (act : Act) : (d.step act).Sound := by
  cases act with
  | upgradeReady sessionId target =>
    simp only [step]
    split
    · exact h.push rfl
    · exact h.push rfl
  | established conn terminals =>
    simp only [step]
    split
    · next a ha =>
      split
      · next hp => exact sound_establish h ha hp terminals
      · exact h
    · exact h
  | failed conn =>
    simp only [step]
    split
    · next a ha =>
      split
      · next hp => exact sound_fail h ha hp
      · exact h
    · exact h
  | closed event conn terminals =>
    simp only [step]
    split
    · next a ha =>
      split
      · next hf => exact sound_close h ha terminals hf
      · exact h
    · exact h
  | store e =>
    simp only [step]
    split
    · exact h
    · next he => exact h.store (Store.sheds_step (by simpa using he) d.store)

/-! ## Runs -/

theorem ownOnce_new : new.OwnOnce where
  own _ h := by cases h
  only _ h := by cases h
  once _ h := by cases h

/-- A connection that was never up is registered. -/
theorem ownOnce_establish_iff (hs : d.Sound) (h : d.OwnOnce) {a : Attempt}
    (ha : d.attempts[conn]? = some a) (hp : a.phase = .opening) (terminals : Terminals) :
    (d.establish conn a terminals).OwnOnce ↔
      (a.ended = true → d.store.handlerPanes a.sessionId = []) := by
  have hu : d.Untouched conn := hs.silent conn fun a' ha' => by
    rw [ha] at ha'
    cases ha'
    simp [hp]
  constructor
  · intro h' he
    have hl := (h'.once (d.lossOf conn a.sessionId terminals) (by simp [establish, he])).1
    exact List.map_eq_nil_iff.mp (hl.symm.trans (entries_eq_nil hu.1))
  · intro hn
    refine ⟨h.own, h.only, fun l hl => ?_⟩
    rcases mem_losses_establish hl with hl | ⟨he, rfl⟩
    · exact h.once l hl
    · have hnil := hn he
      exact ⟨(entries_eq_nil hu.1).trans (by simp [lossOf, rawPanes, hnil]),
        (entries_eq_nil hu.2.1).trans (terminalPanes_eq_nil terminals hnil).symm⟩

/-- A registered connection that calls its close handler did not do so before. -/
theorem Sound.untouched (hs : d.Sound) {event : CloseEvent} {a : Attempt}
    (ha : d.attempts[conn]? = some a)
    (hf : event.fires (d.store.p2pClosed.contains conn) a = true)
    (hr : d.store.isRegistered conn a.sessionId = true) : d.Untouched conn := by
  obtain ⟨c, hc, hk⟩ := (Option.any_eq_true _ _).mp hr
  obtain ⟨b, hb, -, -, hu⟩ := hs.held a.sessionId c hc
  have hk : c.conn = conn := by simpa using hk
  rw [hk, ha] at hb
  cases hb
  rcases hu with ⟨hq, he⟩ | hu
  · cases event <;> simp [CloseEvent.fires, hq, he] at hf
  · exact hk ▸ hu

theorem ownOnce_close_iff (hs : d.Sound) (h : d.OwnOnce) {event : CloseEvent} {a : Attempt}
    (ha : d.attempts[conn]? = some a) (terminals : Terminals)
    (hf : event.fires (d.store.p2pClosed.contains conn) a = true) :
    (d.close event conn a terminals).OwnOnce ↔
      (a.phase = .up → Finds conn a.sessionId terminals d.store) := by
  by_cases hup : a.phase = .up
  · have hnotify := @ownOnce_notify
      { d with attempts := d.attempts.set conn { a with ended := a.ended || event.ends } } conn _
      a.sessionId.property terminals ⟨h.own, h.only, h.once⟩ fun hr => hs.untouched ha hf hr
    rw [close, if_pos hup]
    exact hnotify.trans (imp_iff_right hup).symm
  · rw [close, if_neg hup]
    exact iff_of_true ⟨h.own, h.only, h.once⟩ fun h => absurd h hup

/-- **What a step must meet.** -/
theorem ownOnce_step_iff (hs : d.Sound) (h : d.OwnOnce) (act : Act) :
    (d.step act).OwnOnce ↔ d.Timely act := by
  cases act with
  | upgradeReady sessionId target =>
    simp only [step, Timely, iff_true]
    split
    · exact ⟨h.own, h.only, h.once⟩
    · exact ⟨h.own, h.only, h.once⟩
  | established conn terminals =>
    simp only [step, Timely]
    cases ha : d.attempts[conn]? with
    | none => exact iff_of_true h (by simp)
    | some a =>
      by_cases hp : a.phase = .opening
      · simp [hp, ownOnce_establish_iff hs h ha hp terminals]
      · simp [hp, h]
  | failed conn =>
    simp only [step, Timely, iff_true]
    cases ha : d.attempts[conn]? with
    | none => exact h
    | some a =>
      by_cases hp : a.phase = .opening
      · simp only [hp, if_true, fail]
        split <;> exact ⟨h.own, h.only, h.once⟩
      · simpa only [hp, if_false] using h
  | closed event conn terminals =>
    simp only [step, Timely]
    cases ha : d.attempts[conn]? with
    | none => exact iff_of_true h (by simp)
    | some a =>
      simp only [Option.some.injEq, forall_eq']
      by_cases hf : event.fires (d.store.p2pClosed.contains conn) a = true
      · rw [if_pos hf, ownOnce_close_iff hs h ha terminals hf]
        exact (imp_iff_right hf).symm
      · rw [if_neg hf]
        exact iff_of_true h fun hf' => absurd hf' hf
  | store e =>
    simp only [step, Timely, iff_true]
    split
    · exact h
    · exact ⟨h.own, h.only, h.once⟩

/-- **When a close handler acts for its own connection, once**: in every state
of a run, exactly if every close handler of the run is called when it may be. -/
theorem ownOnce_iff_timely (acts : List Act) :
    Always step OwnOnce new acts ↔ EachStep step Timely new acts :=
  always_iff_eachStep ownOnce_new sound_new (fun _ act hs h => ownOnce_step_iff hs h act)
    (fun _ act hs _ _ => sound_step hs act) acts

end Direct

/-! ## A connection that is torn down by the one before -/

/-- A session with a QUIC connection is upgraded to WebRTC. The QUIC connection
is left to itself, and its read loop ends later. -/
def sampleUpgrades : List Act :=
  let sessionId : SessionId := ⟨"s1".toList, by decide⟩
  let terminals : Terminals := fun _ => some (80, 24)
  [.store .connect, .store (.opened 0), .store (.subscribePane "s1::%0".toList 0),
    .upgradeReady sessionId none, .established 0 terminals,
    .upgradeReady sessionId (some webrtcP2P), .established 1 terminals,
    .closed .readLoop 0 terminals]

/-- The close handler of the first connection closes the second. -/
theorem stale_close_tears_down_newer :
    ¬ ∀ acts, Always Direct.step Direct.OwnOnce Direct.new acts := by
  intro h
  have hn : { conn := 0, registered := false, changed := true, closed := [1] } ∈
      (run Direct.step Direct.new sampleUpgrades).notices := by
    decide +kernel
  exact absurd ((h sampleUpgrades).last.own _ hn rfl) (by simp)

end Oxmux.Client
