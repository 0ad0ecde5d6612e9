import Oxmux.Client.Registered
import Oxmux.Lib.Steps

/-! The upgrade of a session to a direct connection, `connectWebRtcTransport` and
`connectQuicP2P` of `client/src/stores/tmux.ts` with `connectQuic` and
`connectWebRtc`: what it opens, with every answer that a step can get, and what
its error paths can still close. -/

namespace Oxmux.Client
open Oxmux.Lib Steps

/-! ## What an upgrade opens -/

/-- The connections of an upgrade and the interval that keeps the first one
alive. -/
inductive Resource where
  | signaling
  | keepAlive
  | webRtc
  | fallback
  deriving DecidableEq

/-- What was opened, what ended by itself or was closed where it was opened, and what
the `close` of each direct connection closes. -/
structure Upgrade where
  store : Store
  opened : List Resource
  closed : List Resource
  closes : Table Nat (List Resource)

namespace Upgrade

def start (store : Store) : Upgrade := { store, opened := [], closed := [], closes := [] }

def onStore (f : Store → Store) (u : Upgrade) : Upgrade := { u with store := f u.store }

def open_ (r : Resource) (u : Upgrade) : Upgrade := { u with opened := u.opened ++ [r] }

def close (r : Resource) (u : Upgrade) : Upgrade := { u with closed := u.closed ++ [r] }

/-- What the `close` of this direct connection closes. -/
def closedBy (conn : Nat) (u : Upgrade) : List Resource := (u.closes.get conn).getD []

def IsClosed (r : Resource) (u : Upgrade) : Prop :=
  r ∈ u.closed ∨ ∃ conn ∈ u.store.p2pClosed, r ∈ u.closedBy conn

/-- The entry of the session closes it. -/
def Reachable (sessionId : Text) (r : Resource) (u : Upgrade) : Prop :=
  ∃ c, u.store.p2pConnections.get sessionId = some c ∧ r ∈ u.closedBy c.conn

/-- **Nothing is leaked**: what was opened is closed, or its session's entry in
`p2pConnections` closes it. -/
def Clean (sessionId : Text) (u : Upgrade) : Prop :=
  ∀ r ∈ u.opened, u.IsClosed r ∨ u.Reachable sessionId r

end Upgrade

/-! ## The steps and their answers -/

inductive UpgradeError where
  | transport
  | stream
  | closedDuringAuth
  | auth
  | iceConfig
  | peerConnection
  | offer
  | timeout

inductive AuthResp where
  | rejected
  | done
  | undecodable
  | result (t : Text)

/-- How one `connectQuic` goes; the transport may end by itself before the upgrade has
settled. -/
structure QuicAnswers where
  created : Bool
  ready : Bool
  stream : Bool
  authWritten : Bool
  authResp : AuthResp
  ended : Bool

structure WebRtcAnswers where
  created : Bool
  offered : Bool
  dataChannel : Bool
  outerTimeout : Bool

/-- Where an upgrade waits and the store can change. -/
inductive Pause where
  | signaling
  | iceConfig
  | webRtc
  | fallback

/-- How the steps of an upgrade go, the numbers of its connections, and what other
events do to the store meanwhile. -/
structure UpgradeAnswers where
  signaling : QuicAnswers
  iceFetched : Bool
  iceParsed : Bool
  webRtc : WebRtcAnswers
  fallback : QuicAnswers
  signalingConn : Nat
  webRtcConn : Nat
  fallbackConn : Nat
  meanwhile : Pause → Store → Store

/-- The stream, the auth message and its answer. -/
def authenticate (a : QuicAnswers) : Except UpgradeError Unit :=
  if !a.stream || !a.authWritten then .error .stream
  else match a.authResp with
    | .rejected => .error .stream
    | .done => .error .closedDuringAuth
    | .undecodable => .error .auth
    | .result t => if t = "auth_ok".toList then .ok () else .error .auth

def connectQuic (r : Resource) (a : QuicAnswers) : Steps UpgradeError Upgrade Unit := do
  ensure a.created .transport
  ensure a.ready .transport
  modify (·.open_ r)
  if a.ended then
    modify (·.close r)
  liftExcept (authenticate a)

def connectWebRtc (a : WebRtcAnswers) : Steps UpgradeError Upgrade Unit := do
  ensure a.created .peerConnection
  modify (·.open_ .webRtc)
  if !a.offered then
    -- the connection is left to the outer timeout
    if a.outerTimeout then
      modify (·.close .webRtc)
    throw .offer
  if !a.dataChannel then
    modify (·.close .webRtc)
    throw .timeout

section
variable (a : UpgradeAnswers) (sizes : Text → Option (Nat × Nat)) (sessionId : Text)

def connectQuicP2P : Steps UpgradeError Upgrade Unit := do
  modify (·.onStore (a.meanwhile .fallback))
  connectQuic .fallback a.fallback
  modify fun u =>
    { u with
      store := u.store.quicConnected a.fallbackConn sizes sessionId
      closes := u.closes.set a.fallbackConn [.fallback] }

/-- `sess?.name || 'default'`. -/
def attachName (s : Store) : Text :=
  match s.managedSessions.find? (·.id = sessionId) with
  | some sess => if sess.name = [] then "default".toList else sess.name
  | none => "default".toList

/-- From the ICE configuration on. -/
def connectSignaled : Steps UpgradeError Upgrade Unit := do
  modify (·.onStore (a.meanwhile .iceConfig))
  ensure a.iceFetched .iceConfig
  ensure a.iceParsed .iceConfig
  modify (·.onStore (a.meanwhile .webRtc))
  connectWebRtc a.webRtc
  modify fun u =>
    { u with
      store := u.store.webrtcConnected a.webRtcConn sizes sessionId
      closes := u.closes.set a.webRtcConn [.keepAlive, .webRtc, .signaling] }

/-- The `try` of `connectWebRtcTransport`. -/
def tryWebRtc : Steps UpgradeError Upgrade Unit := do
  modify (·.onStore (a.meanwhile .signaling))
  connectQuic .signaling a.signaling
  modify fun u => u.onStore fun s =>
    s.sendP2P a.signalingConn (.attach (attachName sessionId s))
  modify (·.open_ .keepAlive)
  connectSignaled a sizes sessionId

def fallBack : Steps UpgradeError Upgrade Unit := do
  modify (·.onStore (Store.teardownP2P sessionId))
  tryCatch (connectQuicP2P a sizes sessionId) fun _ =>
    modify (·.onStore (Store.teardownP2P sessionId))

def connectWebRtcTransport : Steps UpgradeError Upgrade Unit :=
  tryCatch (tryWebRtc a sizes sessionId) fun _ => fallBack a sizes sessionId

def settled (store : Store) : Upgrade :=
  (exec (connectWebRtcTransport a sizes sessionId) (Upgrade.start store)).2

end

/-! ## How the connections come out -/

namespace QuicAnswers
variable (a : QuicAnswers)

def Opens : Prop := a.created = true ∧ a.ready = true

instance : Decidable a.Opens := inferInstanceAs (Decidable (_ ∧ _))

/-- The connection is handed to the caller. -/
def Connects : Prop := a.Opens ∧ (authenticate a).isOk = true

/-- The attempt fails with its transport open. -/
def LeavesOpen : Prop := a.Opens ∧ ¬ a.Connects ∧ a.ended = false

end QuicAnswers

def WebRtcAnswers.Connects (a : WebRtcAnswers) : Prop :=
  a.created = true ∧ a.offered = true ∧ a.dataChannel = true

namespace UpgradeAnswers
variable (a : UpgradeAnswers)

/-- WebRTC comes up. -/
def Upgrades : Prop :=
  a.signaling.Connects ∧ a.iceFetched = true ∧ a.iceParsed = true ∧ a.webRtc.Connects

/-- WebRTC comes up, or nothing that fails leaves its transport open: neither
the signalling connection, which must not have connected, nor the fallback. -/
def LeavesNothing : Prop :=
  a.Upgrades ∨ ¬ a.signaling.Connects ∧ ¬ a.signaling.LeavesOpen ∧ ¬ a.fallback.LeavesOpen

end UpgradeAnswers

def Upgrade.opening (r : Resource) (a : QuicAnswers) (u : Upgrade) : Upgrade :=
  if a.ended then (u.open_ r).close r else u.open_ r

theorem Upgrade.opening_onStore (r : Resource) (a : QuicAnswers) (f : Store → Store)
    (u : Upgrade) : (u.onStore f).opening r a = (u.opening r a).onStore f := by
  unfold opening
  split <;> rfl

@[simp] theorem Upgrade.closes_opening (r : Resource) (a : QuicAnswers) (u : Upgrade) :
    (u.opening r a).closes = u.closes := by
  unfold opening
  split <;> rfl

@[simp] theorem Upgrade.opened_opening (r : Resource) (a : QuicAnswers) (u : Upgrade) :
    (u.opening r a).opened = u.opened ++ [r] := by
  unfold opening
  split <;> rfl

@[simp] theorem Upgrade.mem_closed_opening {r r' : Resource} {a : QuicAnswers} {u : Upgrade} :
    r' ∈ (u.opening r a).closed ↔ r' ∈ u.closed ∨ r' = r ∧ a.ended = true := by
  unfold opening
  split <;> simp_all [close, open_]

theorem exec_connectQuic_opens {a : QuicAnswers} (h : a.Opens) (r : Resource) (u : Upgrade) :
    exec (connectQuic r a) u = (authenticate a, u.opening r a) := by
  unfold connectQuic Upgrade.opening
  rw [h.1, h.2]
  cases a.ended <;> simp

theorem exec_connectQuic_closed {a : QuicAnswers} (h : ¬ a.Opens) (r : Resource) (u : Upgrade) :
    exec (connectQuic r a) u = (.error .transport, u) := by
  unfold connectQuic
  cases hc : a.created
  · simp
  · cases hr : a.ready
    · simp
    · exact absurd ⟨hc, hr⟩ h

theorem exec_connectQuic_connects {a : QuicAnswers} (h : a.Connects) (r : Resource)
    (u : Upgrade) : exec (connectQuic r a) u = (.ok (), u.opening r a) := by
  rw [exec_connectQuic_opens h.1]
  cases hauth : authenticate a with
  | ok => rfl
  | error e => exact absurd h.2 (by simp [hauth, Except.isOk, Except.toBool])

theorem exec_connectQuic_error {a : QuicAnswers} (h : ¬ a.Connects) (r : Resource) (u : Upgrade) :
    ∃ e, exec (connectQuic r a) u = (.error e, if a.Opens then u.opening r a else u) := by
  by_cases ho : a.Opens
  · rw [exec_connectQuic_opens ho, if_pos ho]
    cases hauth : authenticate a with
    | ok => exact absurd ⟨ho, by rw [hauth]; rfl⟩ h
    | error e => exact ⟨e, rfl⟩
  · rw [exec_connectQuic_closed ho, if_neg ho]
    exact ⟨_, rfl⟩

theorem exec_connectWebRtc_connects {a : WebRtcAnswers} (h : a.Connects) (u : Upgrade) :
    exec (connectWebRtc a) u = (.ok (), u.open_ .webRtc) := by
  unfold connectWebRtc
  rw [h.1, h.2.1, h.2.2]
  simp

theorem exec_connectWebRtc_error {a : WebRtcAnswers} (h : ¬ a.Connects) (u : Upgrade) :
    ∃ e u', exec (connectWebRtc a) u = (.error e, u') ∧
      (u' = u ∨ u' = u.open_ .webRtc ∨ u' = (u.open_ .webRtc).close .webRtc) := by
  unfold connectWebRtc
  cases hc : a.created with
  | false => exact ⟨_, _, by simp; rfl, .inl rfl⟩
  | true =>
    cases ho : a.offered with
    | false =>
      cases a.outerTimeout with
      | false => exact ⟨.offer, _, by simp, .inr (.inl rfl)⟩
      | true => exact ⟨.offer, _, by simp, .inr (.inr rfl)⟩
    | true =>
      cases hd : a.dataChannel with
      | false => exact ⟨.timeout, _, by simp, .inr (.inr rfl)⟩
      | true => exact absurd ⟨hc, ho, hd⟩ h

/-! ## What is lost -/

namespace Upgrade

/-- Opened, not closed, and no direct connection closes it. -/
def Lost (r : Resource) (u : Upgrade) : Prop :=
  r ∈ u.opened ∧ r ∉ u.closed ∧ ∀ conn, r ∉ u.closedBy conn

section
variable {r r' : Resource} {u : Upgrade}

theorem Lost.not_clean (h : u.Lost r) (sessionId : Text) : ¬ u.Clean sessionId := by
  intro hclean
  rcases hclean r h.1 with (hc | ⟨conn, -, hc⟩) | ⟨c, -, hc⟩
  · exact h.2.1 hc
  · exact h.2.2 conn hc
  · exact h.2.2 c.conn hc

theorem clean_of_closed (h : ∀ r ∈ u.opened, r ∈ u.closed) (sessionId : Text) :
    u.Clean sessionId :=
  fun r hr => .inl (.inl (h r hr))

theorem Lost.store (h : u.Lost r) (s : Store) : Lost r { u with store := s } := h

theorem Lost.onStore (h : u.Lost r) (f : Store → Store) : (u.onStore f).Lost r := h

theorem Lost.open_ (h : u.Lost r) : (u.open_ r').Lost r :=
  ⟨List.mem_append_left _ h.1, h.2⟩

theorem Lost.close (h : u.Lost r) (hne : r ≠ r') : (u.close r').Lost r :=
  ⟨h.1, by simp [Upgrade.close, h.2.1, hne], h.2.2⟩

theorem Lost.opening (h : u.Lost r) (hne : r ≠ r') (a : QuicAnswers) :
    (u.opening r' a).Lost r := by
  unfold Upgrade.opening
  split
  · exact h.open_.close hne
  · exact h.open_

theorem Lost.register (h : u.Lost r) {rs : List Resource} (hr : r ∉ rs) (s : Store)
    (conn : Nat) : Lost r { u with store := s, closes := u.closes.set conn rs } := by
  refine ⟨h.1, h.2.1, fun conn' => ?_⟩
  by_cases hc : conn' = conn
  · subst hc
    simpa [closedBy] using hr
  · simpa [closedBy, Table.get_set_ne hc] using h.2.2 conn'

end

end Upgrade

section
variable (a : UpgradeAnswers) (sizes : Text → Option (Nat × Nat)) (sessionId : Text)

theorem exec_fallBack_connects (h : a.fallback.Connects) (u : Upgrade) :
    ∃ s : Store, (exec (fallBack a sizes sessionId) u).2 =
      { u.opening .fallback a.fallback with
        store := s.quicConnected a.fallbackConn sizes sessionId
        closes := u.closes.set a.fallbackConn [.fallback] } := by
  unfold fallBack connectQuicP2P
  simp only [exec_bind, exec_modify, andThen_ok, exec_tryCatch, exec_connectQuic_connects h,
    Upgrade.opening_onStore]
  exact ⟨a.meanwhile .fallback ((u.opening .fallback a.fallback).store.teardownP2P sessionId),
    by simp [Upgrade.onStore]⟩

theorem exec_fallBack_error (h : ¬ a.fallback.Connects) (u : Upgrade) :
    ∃ s : Store, (exec (fallBack a sizes sessionId) u).2 =
      { (if a.fallback.Opens then u.opening .fallback a.fallback else u) with store := s } := by
  unfold fallBack connectQuicP2P
  simp only [exec_bind, exec_modify, andThen_ok, exec_tryCatch]
  obtain ⟨e, he⟩ := exec_connectQuic_error h .fallback
    ((u.onStore (Store.teardownP2P sessionId)).onStore (a.meanwhile .fallback))
  rw [he]
  by_cases ho : a.fallback.Opens
  · simp only [if_pos ho, andThen_error, Upgrade.opening_onStore]
    exact ⟨_, rfl⟩
  · simp only [if_neg ho, andThen_error]
    exact ⟨_, rfl⟩

/-! ## Every end of the upgrade -/

variable {a sizes sessionId}

theorem Upgrade.Lost.fallBack {r : Resource} {u : Upgrade} (h : u.Lost r) (hr : r ≠ .fallback) :
    (exec (fallBack a sizes sessionId) u).2.Lost r := by
  by_cases hc : a.fallback.Connects
  · obtain ⟨s, hs⟩ := exec_fallBack_connects a sizes sessionId hc u
    have hnot : r ∉ [Resource.fallback] := by simpa using hr
    have hlost := (h.opening hr a.fallback).register hnot
      (s.quicConnected a.fallbackConn sizes sessionId) a.fallbackConn
    rw [hs]
    simpa using hlost
  · obtain ⟨s, hs⟩ := exec_fallBack_error a sizes sessionId hc u
    rw [hs]
    by_cases ho : a.fallback.Opens
    · rw [if_pos ho]
      exact (h.opening hr a.fallback).store s
    · rw [if_neg ho]
      exact h.store s

/-- The fallback, where nothing was left open before it. -/
theorem clean_fallBack_iff {u : Upgrade} (hopen : ∀ r ∈ u.opened, r ∈ u.closed)
    (hfallback : Resource.fallback ∉ u.closed) (hcloses : u.closes = []) :
    (exec (fallBack a sizes sessionId) u).2.Clean sessionId ↔ ¬ a.fallback.LeavesOpen := by
  by_cases hc : a.fallback.Connects
  · obtain ⟨s, hs⟩ := exec_fallBack_connects a sizes sessionId hc u
    rw [hs]
    refine iff_of_true (fun r hr => ?_) fun h => h.2.1 hc
    rcases List.mem_append.mp (Upgrade.opened_opening .fallback a.fallback u ▸ hr) with hr | hr
    · exact .inl (.inl (Upgrade.mem_closed_opening.mpr (.inl (hopen r hr))))
    · refine .inr ⟨{ conn := a.fallbackConn, mode := .quic }, ?_, ?_⟩
      · simp only [(s.sends_quicConnected a.fallbackConn sizes sessionId).p2pConnections,
          Table.get_set_self]
      · simpa [Upgrade.closedBy] using hr
  · obtain ⟨s, hs⟩ := exec_fallBack_error a sizes sessionId hc u
    rw [hs]
    by_cases ho : a.fallback.Opens
    · rw [if_pos ho]
      cases he : a.fallback.ended with
      | true =>
        refine iff_of_true (Upgrade.clean_of_closed (fun r hr => ?_) sessionId)
          fun h => absurd h.2.2 (by simp [he])
        rcases List.mem_append.mp (Upgrade.opened_opening .fallback a.fallback u ▸ hr) with hr | hr
        · exact Upgrade.mem_closed_opening.mpr (.inl (hopen r hr))
        · exact Upgrade.mem_closed_opening.mpr (.inr ⟨List.mem_singleton.mp hr, he⟩)
      | false =>
        have hlost : (u.opening .fallback a.fallback).Lost .fallback :=
          ⟨by simp, by simp [hfallback, he], by simp [Upgrade.closedBy, hcloses]⟩
        exact iff_of_false ((hlost.store s).not_clean sessionId) (not_not.mpr ⟨ho, hc, he⟩)
    · rw [if_neg ho]
      exact iff_of_true (fun r hr => .inl (.inl (hopen r hr))) fun h => ho h.1

section
variable (a sizes sessionId) (store : Store)

theorem exec_tryWebRtc_refused (h : ¬ a.signaling.Connects) :
    ∃ e s, exec (tryWebRtc a sizes sessionId) (.start store) =
      (.error e, if a.signaling.Opens then (Upgrade.start s).opening .signaling a.signaling
        else .start s) := by
  obtain ⟨e, he⟩ := exec_connectQuic_error h .signaling
    ((Upgrade.start store).onStore (a.meanwhile .signaling))
  refine ⟨e, a.meanwhile .signaling store, ?_⟩
  unfold tryWebRtc
  simp only [exec_bind, exec_modify, andThen_ok, he, andThen_error]
  rfl

theorem exec_tryWebRtc_connects (h : a.signaling.Connects) :
    ∃ s, exec (tryWebRtc a sizes sessionId) (.start store) =
      exec (connectSignaled a sizes sessionId)
        (((Upgrade.start s).opening .signaling a.signaling).open_ .keepAlive) := by
  let s := a.meanwhile .signaling store
  refine ⟨s.sendP2P a.signalingConn (.attach (attachName sessionId s)), ?_⟩
  have hs : (Upgrade.start store).onStore (a.meanwhile .signaling) = .start s := rfl
  unfold tryWebRtc
  simp only [exec_bind, exec_modify, andThen_ok, hs, exec_connectQuic_connects h]
  unfold Upgrade.opening
  cases a.signaling.ended <;> rfl

/-- WebRTC does not come up behind the signalling connection. -/
theorem exec_connectSignaled_error
    (h : ¬ (a.iceFetched = true ∧ a.iceParsed = true ∧ a.webRtc.Connects)) {u : Upgrade}
    (hlost : u.Lost .keepAlive) :
    ∃ e u', exec (connectSignaled a sizes sessionId) u = (.error e, u') ∧ u'.Lost .keepAlive := by
  unfold connectSignaled
  simp only [exec_bind, exec_modify, andThen_ok, exec_ensure]
  by_cases hf : a.iceFetched = true
  · by_cases hp : a.iceParsed = true
    · obtain ⟨e, u', he, hu'⟩ := exec_connectWebRtc_error (fun hw => h ⟨hf, hp, hw⟩)
        ((u.onStore (a.meanwhile .iceConfig)).onStore (a.meanwhile .webRtc))
      refine ⟨e, u', by simp [hf, hp, he], ?_⟩
      have hlost' := (hlost.onStore (a.meanwhile .iceConfig)).onStore (a.meanwhile .webRtc)
      rcases hu' with rfl | rfl | rfl
      · exact hlost'
      · exact hlost'.open_
      · exact hlost'.open_.close (by decide)
    · exact ⟨.iceConfig, u.onStore (a.meanwhile .iceConfig), by simp [hf, hp],
        hlost.onStore (a.meanwhile .iceConfig)⟩
  · exact ⟨.iceConfig, u.onStore (a.meanwhile .iceConfig), by simp [hf],
      hlost.onStore (a.meanwhile .iceConfig)⟩

theorem exec_connectSignaled_connects (hf : a.iceFetched = true) (hp : a.iceParsed = true)
    (hw : a.webRtc.Connects) (u : Upgrade) :
    ∃ s : Store, exec (connectSignaled a sizes sessionId) u =
      (.ok (), { u.open_ .webRtc with
        store := s.webrtcConnected a.webRtcConn sizes sessionId
        closes := u.closes.set a.webRtcConn [.keepAlive, .webRtc, .signaling] }) := by
  unfold connectSignaled
  simp only [exec_bind, exec_modify, andThen_ok, exec_ensure, hf, hp, if_true,
    exec_connectWebRtc_connects hw]
  exact ⟨_, rfl⟩

end

/-- **An upgrade leaks nothing exactly when** WebRTC comes up, or neither the
signalling connection nor the fallback fails with its transport open. -/
theorem settled_clean_iff (a : UpgradeAnswers) (sizes : Text → Option (Nat × Nat))
    (sessionId : Text) (store : Store) :
    (settled a sizes sessionId store).Clean sessionId ↔ a.LeavesNothing := by
  unfold settled connectWebRtcTransport
  rw [exec_tryCatch]
  by_cases hc : a.signaling.Connects
  · obtain ⟨s, hs⟩ := exec_tryWebRtc_connects a sizes sessionId store hc
    rw [hs]
    by_cases hup : a.iceFetched = true ∧ a.iceParsed = true ∧ a.webRtc.Connects
    · obtain ⟨s', hs'⟩ := exec_connectSignaled_connects a sizes sessionId hup.1 hup.2.1 hup.2.2
        (((Upgrade.start s).opening .signaling a.signaling).open_ .keepAlive)
      rw [hs']
      refine iff_of_true (fun r hr => .inr ⟨{ conn := a.webRtcConn, mode := .webrtc }, ?_, ?_⟩)
        (.inl ⟨hc, hup⟩)
      · simp only [(s'.sends_webrtcConnected a.webRtcConn sizes sessionId).p2pConnections,
          Table.get_set_self]
      · rw [Upgrade.closedBy, Table.get_set_self]
        revert r
        simp [Upgrade.open_, Upgrade.start]
    · have hlost : (((Upgrade.start s).opening .signaling a.signaling).open_ .keepAlive).Lost
          .keepAlive :=
        ⟨List.mem_append_right _ (List.mem_singleton_self _),
          by simp [Upgrade.open_, Upgrade.start],
          fun conn => by simp [Upgrade.closedBy, Upgrade.open_, Upgrade.start]⟩
      obtain ⟨e, u, hu, hlost'⟩ := exec_connectSignaled_error a sizes sessionId hup hlost
      rw [hu]
      refine iff_of_false (hlost'.fallBack (by decide) |>.not_clean sessionId) ?_
      rintro (h | h)
      · exact hup h.2
      · exact h.1 hc
  · obtain ⟨e, s, hs⟩ := exec_tryWebRtc_refused a sizes sessionId store hc
    rw [hs]
    have hiff : a.LeavesNothing ↔ ¬ a.signaling.LeavesOpen ∧ ¬ a.fallback.LeavesOpen :=
      ⟨fun h => (h.resolve_left fun hup => hc hup.1).2, fun h => .inr ⟨hc, h⟩⟩
    rw [hiff]
    by_cases ho : a.signaling.Opens
    · simp only [if_pos ho]
      cases he : a.signaling.ended with
      | true =>
        rw [clean_fallBack_iff (by simp [Upgrade.start, he]) (by simp [Upgrade.start])
          (by simp [Upgrade.start])]
        exact (and_iff_right fun h => absurd h.2.2 (by simp [he])).symm
      | false =>
        have hlost : ((Upgrade.start s).opening .signaling a.signaling).Lost .signaling :=
          ⟨by simp, by simp [Upgrade.start, he], by simp [Upgrade.closedBy, Upgrade.start]⟩
        exact iff_of_false ((hlost.fallBack (by decide)).not_clean sessionId)
          fun h => h.1 ⟨ho, hc, he⟩
    · simp only [if_neg ho]
      rw [clean_fallBack_iff (by simp [Upgrade.start]) (by simp [Upgrade.start]) rfl]
      exact (and_iff_right fun h => ho h.1).symm

end

/-! ## A failed ICE configuration -/

def connectingQuic : QuicAnswers where
  created := true
  ready := true
  stream := true
  authWritten := true
  authResp := .result "auth_ok".toList
  ended := false

/-- The signalling connection and the fallback come up, the ICE configuration
cannot be fetched. -/
def iceUnreachable : UpgradeAnswers where
  signaling := connectingQuic
  iceFetched := false
  iceParsed := false
  webRtc := { created := false, offered := false, dataChannel := false, outerTimeout := false }
  fallback := connectingQuic
  signalingConn := 0
  webRtcConn := 1
  fallbackConn := 2
  meanwhile _ := id

/-- The pings of the first connection go on. -/
theorem ice_unreachable_leaks :
    ¬ (settled iceUnreachable (fun _ => none) ['a'] Store.new).Clean ['a'] := by
  let u := settled iceUnreachable (fun _ => none) ['a'] Store.new
  have hclosed : u.store.p2pClosed = [] := by decide +kernel
  have hentry : u.store.p2pConnections.get ['a'] = some { conn := 2, mode := .quic } := by
    decide +kernel
  intro h
  rcases h .keepAlive (by decide +kernel) with (hc | ⟨conn, hc, -⟩) | ⟨c, hc, hr⟩
  · revert hc
    decide +kernel
  · rw [hclosed] at hc
    cases hc
  · obtain rfl := Option.some.inj (hentry.symm.trans hc)
    revert hr
    decide +kernel

end Oxmux.Client
