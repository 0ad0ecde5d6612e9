import Oxmux.Ws.Relay

/-! Subscribing again. A `Subscribe` puts a new receiver in the place of the one
that the connection has (`server/src/ws/session_handler.rs`), and the client
subscribes again whenever a terminal comes back into view
(`client/src/composables/useTerminal.ts`). -/

namespace Oxmux.Ws
open Oxmux.Lib Oxmux.Lib.Runs Oxmux.Lib.Broadcast Oxmux.Session

variable {κ : Type} [DecidableEq κ]

def bytesOf (pieces : List Chunk) : Bytes := pieces.flatMap (·.data)

theorem bytesOf_append (a b : List Chunk) : bytesOf (a ++ b) = bytesOf a ++ bytesOf b :=
  List.flatMap_append

namespace Server

/-- The receiver that a connection has for a pane. -/
def receiver (c : κ) (pane : Text) (s : Server κ) : Option Receiver :=
  (s.clients c).bind (·.paneSubs.get pane)

/-- The bytes that the connection was sent for the pane behind position `n` of its
outbox. -/
def sentSince (n : Nat) (c : κ) (pane : Text) (s : Server κ) : Bytes :=
  bytesOf (chunks pane ((s.outbox c).drop n))

/-- The bytes that its receiver has not read yet. -/
def pending (c : κ) (pane : Text) (s : Server κ) : Bytes :=
  (s.receiver c pane).elim [] fun r => bytesOf ((s.app.log pane).drop r.next)

/-- The bytes that were broadcast for the pane behind position `k` of its channel. -/
def broadcastSince (k : Nat) (pane : Text) (s : Server κ) : Bytes :=
  bytesOf ((s.app.log pane).drop k)

/-- What was sent, and then what is pending, is what was broadcast. -/
def Complete (n k : Nat) (c : κ) (pane : Text) (s : Server κ) : Prop :=
  s.sentSince n c pane ++ s.pending c pane = s.broadcastSince k pane

/-- Behind a turn of the connection, the frames that it was sent hold all that was
broadcast. -/
def SendsAll (n k : Nat) (c : κ) (pane : Text) (s : Server κ) (i : Input κ) : Prop :=
  i = .drain c → (s.step i).sentSince n c pane = (s.step i).broadcastSince k pane

/-- The connection stays, and does not unsubscribe from the pane. -/
def Stays (c : κ) (pane : Text) : Input κ → Prop
  | .message c' (.unsubscribe pane' _) _ => ¬ (c' = c ∧ pane' = pane)
  | .close c' _ | .leave c' => c' ≠ c
  | _ => True

/-- The buffer holds what the receiver has not read. -/
def KeepsUp (c : κ) (pane : Text) (s : Server κ) : Prop :=
  ∀ r, s.receiver c pane = some r → (s.app.log pane).length ≤ r.next + paneCapacity

/-- A step of the runs that are looked at. -/
def Follows (c : κ) (pane : Text) (s : Server κ) (i : Input κ) : Prop :=
  Stays c pane i ∧ (i = .drain c → s.KeepsUp c pane)

/-- A subscription to the pane finds nothing pending. -/
def FindsNothing (c : κ) (pane : Text) (s : Server κ) (i : Input κ) : Prop :=
  ∀ sessionId env, i = .message c (.subscribe pane sessionId) env → s.pending c pane = []

/-! ## What a step does to one subscription -/

/-- A step drains the connection, or a piece is broadcast for the pane, or the
subscription begins anew, or nothing happens to it. -/
inductive Hears (c : κ) (pane : Text) (s : Server κ) (i : Input κ) (s' : Server κ) : Prop
  | drained (conn : ConnectionState) (hi : i = .drain c) (hc : s.clients c = some conn)
      (h : s' = s.drain c conn)
  | heard (piece : Chunk) (hi : ∀ sessionId env, i ≠ .message c (.subscribe pane sessionId) env)
      (hl : s'.app.log pane = s.app.log pane ++ [piece]) (ho : s'.outbox c = s.outbox c)
      (hr : s'.receiver c pane = s.receiver c pane)
  | renewed (sessionId : Option Text) (env : MsgEnv)
      (hi : i = .message c (.subscribe pane sessionId) env)
      (hl : s'.app.log pane = s.app.log pane) (ho : s'.outbox c = s.outbox c)
      (hr : s'.receiver c pane = some ⟨(s.app.log pane).length⟩)
  | kept (hi : ∀ sessionId env, i ≠ .message c (.subscribe pane sessionId) env)
      (hl : s'.app.log pane = s.app.log pane)
      (ho : ∃ msgs, s'.outbox c = s.outbox c ++ msgs ∧ Quiet msgs)
      (hr : s'.receiver c pane = s.receiver c pane)

section Hears
variable {c : κ} {pane : Text} {s : Server κ} {i : Input κ}

omit [DecidableEq κ] in
theorem receiver_of_clients {s' : Server κ} (h : s'.clients c = s.clients c) :
    s'.receiver c pane = s.receiver c pane := by
  unfold receiver
  rw [h]

theorem hears_leftAlone {s' : Server κ}
    (hi : ∀ sessionId env, i ≠ .message c (.subscribe pane sessionId) env)
    (hl : s'.app.log pane = s.app.log pane) (h : LeftAlone c s s') : Hears c pane s i s' := by
  obtain ⟨hc, msgs, ho, hq, -⟩ := h
  exact .kept hi hl ⟨msgs, ho, hq⟩ (receiver_of_clients hc)

theorem hears_message {msg : ClientMsg} {env : MsgEnv} {conn : ConnectionState}
    (hc : s.clients c = some conn) (hu : Stays c pane (.message c msg env)) :
    Hears c pane s (.message c msg env) (s.message c msg env conn) := by
  have hl : (s.message c msg env conn).app.log pane = s.app.log pane :=
    log_handleClientMsg env msg s.app conn pane
  have ho := sent_send (c := c) (quiet_handleClientMsg env msg s.app conn)
    { s with app := (handleClientMsg env msg s.app conn).1,
             clients := Function.update s.clients c
               (some (handleClientMsg env msg s.app conn).2.1) } c
  have hr : (s.message c msg env conn).receiver c pane =
      (handleClientMsg env msg s.app conn).2.1.paneSubs.get pane := by
    simp [receiver, message, send]
  have hold : s.receiver c pane = conn.paneSubs.get pane := by simp [receiver, hc]
  rw [paneSubs_handleClientMsg] at hr
  cases msg with
  | subscribe p sessionId =>
    by_cases hp : pane = p
    · subst hp
      refine .renewed sessionId env rfl hl ?_ (by rw [hr, Table.get_set_self])
      rw [message, outbox_send, if_pos rfl]
      exact List.append_nil _
    · refine .kept ?_ hl ho (by rw [hr, hold, Table.get_set_ne hp])
      intro sessionId' env' he
      cases he
      exact hp rfl
  | unsubscribe p sessionId =>
    have hp : pane ≠ p := by
      rintro rfl
      exact hu ⟨rfl, rfl⟩
    exact .kept (by simp) hl ho (by rw [hr, hold, Table.get_delete_ne hp])
  | _ => exact .kept (by simp) hl ho (by rw [hr, hold])

/-- **What a step does to a subscription** of a connection that stays. -/
theorem hears_step {conn : ConnectionState} (hc : s.clients c = some conn)
    (hu : Stays c pane i) : Hears c pane s i (s.step i) := by
  by_cases hi : concerns c i
  · cases i with
    | accept c' userId env =>
      cases hi
      have hsame : s.step (.accept c userId env) = s := by simp [step, hc]
      rw [hsame]
      exact hears_leftAlone (by simp) rfl (leftAlone_of_same rfl rfl)
    | message c' msg env =>
      cases hi
      simp only [step, hc]
      exact hears_message hc hu
    | drain c' =>
      cases hi
      simp only [step, hc]
      exact .drained conn rfl hc rfl
    | close c' envs => exact absurd hi hu
    | leave c' => exact absurd hi hu
    | _ => exact hi.elim
  · have hnot : ∀ sessionId env, i ≠ .message c (.subscribe pane sessionId) env := by
      rintro sessionId env rfl
      exact hi rfl
    by_cases hout : ∃ sessionId data, i = .output sessionId pane data
    · obtain ⟨sessionId, data, rfl⟩ := hout
      simp only [step]
      split
      · refine .heard { origin := sessionId, pane, data } hnot ?_ rfl rfl
        rw [log_publish, if_pos rfl]
      · exact hears_leftAlone hnot rfl (leftAlone_of_same rfl rfl)
    · refine hears_leftAlone hnot (log_step (fun sessionId data he => ?_) s) (step_leftAlone hi s)
      exact hout ⟨sessionId, data, he⟩

end Hears

/-! ## What a step does to the balance -/

section Balance
variable {c : κ} {pane : Text} {n k : Nat} {s s' : Server κ} {i : Input κ}

omit [DecidableEq κ] in
theorem sentSince_quiet {msgs : List ServerMsg} (ho : s'.outbox c = s.outbox c ++ msgs)
    (hq : Quiet msgs) (hn : n ≤ (s.outbox c).length) :
    s'.sentSince n c pane = s.sentSince n c pane := by
  rw [sentSince, ho, List.drop_append_of_le_length hn, chunks_append, hq.chunks_eq,
    List.append_nil]
  rfl

/-- **A drain** sends what is pending, and nothing is pending then. -/
theorem drain_balance {conn : ConnectionState} (hf : s.Framed) (hc : s.clients c = some conn)
    (hkeep : s.KeepsUp c pane) (hn : n ≤ (s.outbox c).length) :
    (s.drain c conn).sentSince n c pane = s.sentSince n c pane ++ s.pending c pane ∧
      (s.drain c conn).pending c pane = [] := by
  have hold : s.receiver c pane = conn.paneSubs.get pane := by simp [receiver, hc]
  have hnew : (s.drain c conn).receiver c pane =
      (conn.paneSubs.get pane).map fun r => (drainSub s.app pane r).2 := by
    have hc' : (s.drain c conn).clients c = some (drainPaneOutputs s.app conn).1 :=
      Function.update_self _ _ _
    rw [receiver, hc']
    exact get_drain hc' pane
  rw [sentSince, chunks_drain hf hc hn, bytesOf_append, pending, pending, hold, hnew]
  cases hg : conn.paneSubs.get pane with
  | none => exact ⟨rfl, rfl⟩
  | some r =>
    have hb := hf.bounded c conn pane r hc hg
    have hcap := hkeep r (hold.trans hg)
    have hmax : max r.next ((s.app.log pane).length - paneCapacity) = r.next := by omega
    have hd := drainSub_eq hb
    rw [hmax] at hd
    simp only [Option.map_some, Option.getD_some, Option.elim_some, hd]
    refine ⟨rfl, ?_⟩
    change bytesOf ((s.app.log pane).drop (s.app.log pane).length) = []
    rw [List.drop_length]
    rfl

/-- The connection has a receiver for the pane, and both logs go on behind the
positions at which it subscribed first. -/
structure Subscribed (n k : Nat) (c : κ) (pane : Text) (s : Server κ) : Prop where
  sound : s.app.sessionManager.Sound
  framed : s.Framed
  sent : n ≤ (s.outbox c).length
  logged : k ≤ (s.app.log pane).length
  receives : (s.receiver c pane).isSome

omit [DecidableEq κ] in
theorem Subscribed.client (h : s.Subscribed n k c pane) :
    ∃ conn r, s.clients c = some conn ∧ s.receiver c pane = some r ∧
      r.next ≤ (s.app.log pane).length := by
  obtain ⟨r, hr⟩ := Option.isSome_iff_exists.mp h.receives
  obtain ⟨conn, hc, hg⟩ := Option.bind_eq_some_iff.mp hr
  exact ⟨conn, r, hc, hr, h.framed.bounded c conn pane r hc hg⟩

theorem subscribed_step (h : s.Subscribed n k c pane) (hu : s.Follows c pane i) :
    (s.step i).Subscribed n k c pane := by
  obtain ⟨conn, r, hc, hr, -⟩ := h.client
  have hrel := relays_step h.sound i
  have hlog := (log_relays hrel pane).length_le
  have hout := (outbox_relays hrel c).length_le
  refine ⟨sound_step h.sound i, h.framed.relays hrel, ?_, ?_, ?_⟩
  · exact Nat.le_trans h.sent hout
  · exact Nat.le_trans h.logged hlog
  · cases hears_step hc hu.1 with
    | drained conn' hi hc' he =>
      obtain rfl := Option.some.inj (hc.symm.trans hc')
      have hg : conn.paneSubs.get pane = some r := by simpa [receiver, hc] using hr
      rw [he]
      simp [receiver, drain, send, drainPaneOutputs, Table.get_mapValues, hg]
    | heard piece hi hl ho hr' => rw [hr', hr, Option.isSome_some]
    | renewed sessionId env hi hl ho hr' => rw [hr', Option.isSome_some]
    | kept hi hl ho hr' => rw [hr', hr, Option.isSome_some]

/-- The balance holds behind a step exactly if the step is no subscription, or
finds nothing pending. -/
theorem complete_step_iff (h : s.Subscribed n k c pane) (hP : s.Complete n k c pane)
    (hu : s.Follows c pane i) : (s.step i).Complete n k c pane ↔ s.FindsNothing c pane i := by
  obtain ⟨conn, r, hc, hr, hb⟩ := h.client
  unfold Complete at hP ⊢
  cases hears_step hc hu.1 with
  | drained conn' hi hc' he =>
    obtain ⟨hsent, hpend⟩ := drain_balance h.framed hc' (hu.2 hi) h.sent
    refine iff_of_true ?_ fun sessionId env hm => ?_
    · rw [he, hsent, hpend, List.append_nil]
      exact hP
    · rw [hi] at hm
      cases hm
  | heard piece hi hl ho hr' =>
    refine iff_of_true ?_ fun sessionId env hm => absurd hm (hi sessionId env)
    have hsent : (s.step i).sentSince n c pane = s.sentSince n c pane := by
      rw [sentSince, ho]
      rfl
    have hpend : (s.step i).pending c pane = s.pending c pane ++ bytesOf [piece] := by
      rw [pending, hr', hl, pending, hr, Option.elim_some, Option.elim_some,
        List.drop_append_of_le_length hb, bytesOf_append]
    have hbroad : (s.step i).broadcastSince k pane =
        s.broadcastSince k pane ++ bytesOf [piece] := by
      rw [broadcastSince, hl, List.drop_append_of_le_length h.logged, bytesOf_append]
      rfl
    rw [hsent, hpend, hbroad, ← List.append_assoc, hP]
  | renewed sessionId env hi hl ho hr' =>
    have hsent : (s.step i).sentSince n c pane = s.sentSince n c pane := by
      rw [sentSince, ho]
      rfl
    have hpend : (s.step i).pending c pane = [] := by
      rw [pending, hr', hl, Option.elim_some, List.drop_length]
      rfl
    have hbroad : (s.step i).broadcastSince k pane = s.broadcastSince k pane := by
      rw [broadcastSince, hl]
      rfl
    rw [hsent, hpend, hbroad, ← hP, List.append_right_inj]
    -- what the old receiver had pending is gone
    constructor
    · intro hnil _ _ _
      exact hnil.symm
    · intro hfinds
      exact (hfinds sessionId env hi).symm
  | kept hi hl ho hr' =>
    refine iff_of_true ?_ fun sessionId env hm => absurd hm (hi sessionId env)
    obtain ⟨msgs, ho, hq⟩ := ho
    rw [sentSince_quiet ho hq h.sent, pending, hr', hl, broadcastSince, hl]
    exact hP

end Balance

/-! ## Runs -/

theorem framed_reachable {db : List SessionRow} {s : Server κ} (h : Reachable step (new db) s) :
    s.app.sessionManager.Sound ∧ s.Framed :=
  h.invariant (P := fun s : Server κ => s.app.sessionManager.Sound ∧ s.Framed)
    ⟨SessionManager.sound_new db, framed_new db⟩
    fun _ i hs => ⟨sound_step hs.1 i, hs.2.relays (relays_step hs.1 i)⟩

/-- The first subscription begins at the ends of both logs. -/
theorem first_subscription {db : List SessionRow} {s : Server κ} (hs : Reachable step (new db) s)
    {c : κ} {conn : ConnectionState} (hc : s.clients c = some conn) (pane : Text)
    (sessionId : Option Text) (env : MsgEnv) :
    let s₁ := s.step (.message c (.subscribe pane sessionId) env)
    s₁.Subscribed (s.outbox c).length (s.app.log pane).length c pane ∧
      s₁.Complete (s.outbox c).length (s.app.log pane).length c pane := by
  intro s₁
  have hs₁ := framed_reachable (hs.next (.message c (.subscribe pane sessionId) env))
  have hstays : Stays c pane (.message c (.subscribe pane sessionId) env) := trivial
  cases hears_step hc hstays with
  | drained conn' hi => cases hi
  | heard piece hi => exact absurd rfl (hi sessionId env)
  | kept hi => exact absurd rfl (hi sessionId env)
  | renewed sessionId' env' hi hl ho hr =>
    refine ⟨⟨hs₁.1, hs₁.2, ?_, ?_, ?_⟩, ?_⟩
    · exact Nat.le_of_eq (congrArg List.length ho.symm)
    · exact Nat.le_of_eq (congrArg List.length hl.symm)
    · exact hr ▸ rfl
    · have hsent : s₁.sentSince (s.outbox c).length c pane = [] := by
        rw [sentSince, ho, List.drop_length]
        rfl
      have hpend : s₁.pending c pane = [] := by
        rw [pending, hr, hl, Option.elim_some, List.drop_length]
        rfl
      have hbroad : s₁.broadcastSince (s.app.log pane).length pane = [] := by
        rw [broadcastSince, hl, List.drop_length]
        rfl
      rw [Complete, hsent, hpend, hbroad]
      rfl

/-- A turn of a complete subscription sends all that was broadcast. -/
theorem Complete.sendsAll {n k : Nat} {c : κ} {pane : Text} {s : Server κ} {i : Input κ}
    (h : s.Subscribed n k c pane) (hP : s.Complete n k c pane) (hu : s.Follows c pane i) :
    s.SendsAll n k c pane i := by
  intro hi
  obtain ⟨conn, r, hc, -, -⟩ := h.client
  have hstep : s.step i = s.drain c conn := by simp [step, hi, hc]
  have hbroad : (s.drain c conn).broadcastSince k pane = s.broadcastSince k pane := rfl
  rw [hstep, (drain_balance h.framed hc (hu.2 hi) h.sent).1, hbroad]
  exact hP

/-- **Subscribing again.** From a connection's first subscription to a pane on, as
long as the connection stays, does not unsubscribe and keeps up: behind every turn
the frames that it was sent hold all that was broadcast, and between the turns
what is pending makes up the rest, exactly if no further subscription to the pane
finds something pending. -/
theorem resubscribe_complete_iff {db : List SessionRow} {s : Server κ}
    (hs : Reachable step (new db) s) {c : κ} {conn : ConnectionState} (hc : s.clients c = some conn)
    (pane : Text) (sessionId : Option Text) (env : MsgEnv) (inputs : List (Input κ)) :
    let s₁ := s.step (.message c (.subscribe pane sessionId) env)
    let n := (s.outbox c).length
    let k := (s.app.log pane).length
    EachStep step (Follows c pane) s₁ inputs →
      (Always step (Complete n k c pane) s₁ inputs ∧
          EachStep step (SendsAll n k c pane) s₁ inputs ↔
        EachStep step (FindsNothing c pane) s₁ inputs) := by
  intro s₁ n k hu
  obtain ⟨hsub, hP⟩ := first_subscription hs hc pane sessionId env
  have hkept : ∀ (s : Server κ) (i : Input κ), s.Subscribed n k c pane → s.Follows c pane i →
      (s.step i).Subscribed n k c pane := fun _ _ h hu => subscribed_step h hu
  have hiff : Always step (Complete n k c pane) s₁ inputs ↔
      EachStep step (FindsNothing c pane) s₁ inputs :=
    always_iff_eachStep_of hP hsub (fun _ _ h hP hu => complete_step_iff h hP hu)
      (fun _ _ h _ hu _ => hkept _ _ h hu) hu
  constructor
  · intro h
    exact hiff.mp h.1
  · intro h
    have hcomplete := hiff.mpr h
    exact ⟨hcomplete, eachStep_of_always hsub hkept (fun _ _ h hP hu => hP.sendsAll h hu) hu
      hcomplete⟩

/-! ## A pane that is looked at again -/

omit [DecidableEq κ] in
theorem keepsUp_of_length {c : κ} {pane : Text} {s : Server κ}
    (h : (s.app.log pane).length ≤ paneCapacity) : s.KeepsUp c pane := by
  intro r _
  omega

/-- Tmux lists nothing; the samples need no tree. -/
def plainEnv : MsgEnv := .working uuidA []

def subscription : Input Unit := .message () (.subscribe "%0".toList none) plainEnv

def opening : List (Input Unit) :=
  [.accept () ['u'] plainEnv.toEnv,
    .message () (.createSession { name := ['s'], transport := .ssh ['h'] }) plainEnv,
    .message () (.connectSession uuidA.val) plainEnv]

/-- The client subscribes again, behind the turn that sends what was written or
before it. -/
def lookingAgain (drained : Bool) : List (Input Unit) :=
  .output uuidA.val "%0".toList [97] :: (if drained then [.drain ()] else []) ++
    [subscription, .output uuidA.val "%0".toList [98], .drain ()]

theorem follows_lookingAgain (drained : Bool) :
    EachStep step (Follows () "%0".toList) ((run step (new []) opening).step subscription)
      (lookingAgain drained) := by
  cases drained with
  | true =>
    refine ⟨⟨trivial, by simp⟩, ⟨trivial, fun _ => keepsUp_of_length ?_⟩,
      ⟨by simp [Stays, subscription], by simp [subscription]⟩, ⟨trivial, by simp⟩,
      ⟨trivial, fun _ => keepsUp_of_length ?_⟩, trivial⟩
    · decide +kernel
    · decide +kernel
  | false =>
    refine ⟨⟨trivial, by simp⟩, ⟨by simp [Stays, subscription], by simp [subscription]⟩,
      ⟨trivial, by simp⟩, ⟨trivial, fun _ => keepsUp_of_length ?_⟩, trivial⟩
    decide +kernel

theorem resubscribe_complete_drained :
    let s := run step (new []) opening
    Always step (Complete (s.outbox ()).length 0 () "%0".toList) (s.step subscription)
        (lookingAgain true) ∧
      EachStep step (SendsAll (s.outbox ()).length 0 () "%0".toList) (s.step subscription)
        (lookingAgain true) := by
  intro s
  have hc : s.clients () = some (.new ['u']) := by decide +kernel
  have hk : (s.app.log "%0".toList).length = 0 := by decide +kernel
  have h := resubscribe_complete_iff ⟨opening, rfl⟩ hc "%0".toList none plainEnv
    (lookingAgain true) (follows_lookingAgain true)
  rw [hk] at h
  refine h.mpr ⟨by simp [FindsNothing], by simp [FindsNothing], fun _ _ _ => ?_,
    by simp [FindsNothing], by simp [FindsNothing], trivial⟩
  decide +kernel

/-- What the first receiver had pending is never sent, not even by the last turn. -/
theorem resubscribe_loses :
    ¬ ∀ (db : List SessionRow) (s : Server Unit), Reachable step (new db) s →
      ∀ (c : Unit) (conn : ConnectionState), s.clients c = some conn →
      ∀ (pane : Text) (sessionId : Option Text) (env : MsgEnv) (inputs : List (Input Unit)),
        let s₁ := s.step (.message c (.subscribe pane sessionId) env)
        EachStep step (Follows c pane) s₁ inputs →
          EachStep step (SendsAll (s.outbox c).length (s.app.log pane).length c pane) s₁
            inputs := by
  intro h
  have hc : (run step (new []) opening).clients () = some (.new ['u']) := by decide +kernel
  have hsends := h [] _ ⟨opening, rfl⟩ () _ hc "%0".toList none plainEnv (lookingAgain false)
    (follows_lookingAgain false)
  -- the run ends with a turn
  obtain ⟨-, -, -, hturn, -⟩ := hsends
  have hlast := hturn rfl
  revert hlast
  decide +kernel

end Server

end Oxmux.Ws
