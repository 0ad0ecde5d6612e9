import Oxmux.Auth.Handler
import Oxmux.Ws.Server

/-! The server with its HTTP routes and its WebTransport port in front of the
connections, and what a client needs to get past them. The history says which
token was given to whom, and which one let a request in. -/

namespace Oxmux.System
open Oxmux.Lib Oxmux.Lib.Runs Oxmux.Session Oxmux.Ws Oxmux.Auth

variable {κ : Type} [DecidableEq κ]

/-- A token of a registration or a login, one of `create_agent_token`, and one with
which a handler lets a request in. -/
inductive AuthEvent (κ : Type) where
  | granted (c : κ) (token : Text)
  | agentToken (c : κ) (token : Text)
  | accepted (c : κ) (token : Text) (claims : Claims)
  deriving DecidableEq

structure Gateway (κ : Type) where
  users : List UserRow
  server : Server κ
  log : List (AuthEvent κ)

namespace Gateway

/-- A request, the first message of a WebTransport session, what goes on behind the
routes, and a restart, which the tables and the tokens outlive. -/
inductive Input (κ : Type) where
  | request (c : κ) (request : Auth.Request) (env : HttpEnv)
  | webTransport (c : κ) (token : Text) (env : Env)
  | behind (i : Ws.Input κ)
  | restart

def new : Gateway κ where
  users := []
  server := .new []
  log := []

/-- The agent whose token a `TransportUpgrade` asks for: the one on the host of
the session. -/
def upgradeAgent (sessionId : Text) (s : AppState) : Option AgentInfo :=
  (s.sessionManager.get sessionId).bind fun session =>
    match session.transport.backend with
    | .ssh host _ _ _ => s.agentRegistry.findByHost host
    | .agent host _ _ => s.agentRegistry.findByHost host
    | BackendTransport.local => none

section
variable (jwt : Jsonwebtoken) (secret : Text)

/-- The token that a message makes the server create. -/
def messageToken (now : Nat) (s : AppState) : ClientMsg → Option Text
  | .transportUpgrade id _ =>
    (upgradeAgent id s).bind fun agent => jwt.createAgentToken now agent.id secret
  | _ => none

/-- The event of a request that a token let in. -/
def acceptance (c : κ) (now : Nat) (token : Option Text) : List (AuthEvent κ) :=
  match token with
  | none => []
  | some token =>
    match authenticate jwt secret now (some token) with
    | .ok claims => [.accepted c token claims]
    | .error _ => []

/-- The event of a response that holds a token. -/
def handedOut (c : κ) : Response → List (AuthEvent κ)
  | .auth token _ => [.granted c token]
  | .agentToken token _ _ _ => [.agentToken c token]
  | _ => []

/-- What a response makes of the server: an upgraded connection is handled, and
an uploaded key is stored. -/
def follow (c : κ) (env : HttpEnv) (server : Server κ) : Auth.Request → Response → Server κ
  | .ws _, .upgrade userId => server.step (.accept c userId env.toEnv)
  | .uploadSshKey _ req, .key _ => server.step (.uploadKey env.uuid req.keyPem req.passphrase)
  | _, _ => server

def request (c : κ) (req : Auth.Request) (env : HttpEnv) (s : Gateway κ) : Gateway κ :=
  let r := respond jwt secret env s.users s.server.app.agentRegistry req
  { users := r.1
    server := follow c env s.server req r.2
    log := s.log ++ handedOut c r.2 ++ acceptance jwt secret c env.now req.presented }

def webTransport (c : κ) (token : Text) (env : Env) (s : Gateway κ) : Gateway κ :=
  match authenticate jwt secret env.now (some token) with
  | .error _ => s
  | .ok claims =>
    { s with
      server := s.server.step (.accept c claims.sub env)
      log := s.log ++ [.accepted c token claims] }

def message (c : κ) (msg : ClientMsg) (env : MsgEnv) (s : Gateway κ) : Gateway κ :=
  match s.server.clients c with
  | none => s
  | some conn =>
    let agentToken := messageToken jwt secret env.now s.server.app msg
    { s with
      server := s.server.message c msg { env with agentToken } conn
      log := s.log ++ (agentToken.map (.agentToken c)).toList }

/-- One step. A connection starts, and a key is stored, by a request only. -/
def step (s : Gateway κ) : Input κ → Gateway κ
  | .request c req env => s.request jwt secret c req env
  | .webTransport c token env => s.webTransport jwt secret c token env
  | .behind (.message c msg env) => s.message jwt secret c msg env
  | .behind (.accept _ _ _) | .behind (.uploadKey _ _ _) => s
  | .behind i => { s with server := s.server.step i }
  | .restart => { s with server := .new s.server.app.sessionManager.db }

/-- The token that a step presents, and when. -/
def Input.presented : Input κ → Option (Text × Nat)
  | .request _ req env => req.presented.map (·, env.now)
  | .webTransport _ token env => some (token, env.now)
  | _ => none

/-- A token that the server made, whoever has it. -/
def Made (s : Gateway κ) (token : Text) : Prop :=
  ∃ c, .granted c token ∈ s.log ∨ .agentToken c token ∈ s.log

/-- Nobody presents a valid token that the server did not make. -/
def Unforged (s : Gateway κ) (i : Input κ) : Prop :=
  ∀ token now, i.presented = some (token, now) →
    (jwt.validateToken now token secret).isSome → s.Made token

structure LoginOnly (s : Gateway κ) : Prop where
  granted : ∀ c token claims, .accepted c token claims ∈ s.log → ∃ c', .granted c' token ∈ s.log
  user : ∀ c token claims, .accepted c token claims ∈ s.log → ∃ user ∈ s.users, user.id = claims.sub
  stranger : ∀ c, (∀ token, .granted c token ∉ s.log) → ∀ token, .agentToken c token ∈ s.log →
    ∀ now, jwt.validateToken now token secret = none
  agent : ∀ c token, .agentToken c token ∈ s.log →
    ∀ now, jwt.validateToken now token secret = none

end

/-- The step asks for no agent's token: a request for one names no registered
agent, and a transport upgrade a session on whose host there is no agent. -/
def AsksNoAgentToken (s : Gateway κ) : Input κ → Prop
  | .request _ (.agentToken agentId) _ =>
    s.server.app.agentRegistry.find? (fun agent => agent.id = agentId) = none
  | .behind (.message c (.transportUpgrade id _) _) =>
    (s.server.clients c).isSome → upgradeAgent id s.server.app = none
  | _ => True

/-! ## What a step adds to the history -/

section
variable {jwt : Jsonwebtoken} {secret : Text}

inductive Justified (jwt : Jsonwebtoken) (secret : Text) (users : List UserRow) (i : Input κ) :
    AuthEvent κ → Prop where
  | granted {c : κ} {token : Text} {user : UserRow} {now : Nat} (hu : user ∈ users)
      (he : jwt.createToken now user.id user.username secret = some token) :
      Justified jwt secret users i (.granted c token)
  | accepted {c : κ} {token : Text} {now : Nat} {claims : Claims}
      (hp : i.presented = some (token, now))
      (hv : jwt.validateToken now token secret = some claims) :
      Justified jwt secret users i (.accepted c token claims)

omit [DecidableEq κ] in
theorem mem_acceptance {c : κ} {now : Nat} {token : Option Text} {e : AuthEvent κ}
    (h : e ∈ acceptance jwt secret c now token) :
    ∃ t claims, token = some t ∧ jwt.validateToken now t secret = some claims ∧
      e = .accepted c t claims := by
  unfold acceptance at h
  split at h
  · simp at h
  · next t =>
    cases hv : jwt.validateToken now t secret with
    | none => simp [authenticate, hv] at h
    | some claims =>
      simp only [authenticate, hv, List.mem_singleton] at h
      exact ⟨t, claims, rfl, hv, h⟩

omit [DecidableEq κ] in
theorem handedOut_tokenless (c : κ) {response : Response} (h : response.Tokenless) :
    handedOut c response = [] := by
  cases response with
  | auth token user => exact h.elim
  | agentToken token host port expires => exact h.elim
  | _ => rfl

/-- No user is lost, and what is added to the log is justified. -/
def AddsJustified (jwt : Jsonwebtoken) (secret : Text) (i : Input κ) (s s' : Gateway κ) : Prop :=
  s.users ⊆ s'.users ∧ ∃ events, s'.log = s.log ++ events ∧
    ∀ e ∈ events, Justified jwt secret s'.users i e

omit [DecidableEq κ] in
theorem addsJustified_quiet {i : Input κ} {s s' : Gateway κ} (hu : s'.users = s.users)
    (hl : s'.log = s.log) : AddsJustified jwt secret i s s' :=
  ⟨by rw [hu]; exact List.Subset.refl _, [], by simp [hl], by simp⟩

omit [DecidableEq κ] in
/-- What a response hands out was granted, unless it is an agent's token. -/
theorem justified_respond {s : Gateway κ} {c : κ} {req : Auth.Request} {env : HttpEnv}
    (hc : s.AsksNoAgentToken (.request c req env)) {e : AuthEvent κ}
    (he : e ∈ handedOut c
      (respond jwt secret env s.users s.server.app.agentRegistry req).2) :
    Justified jwt secret (respond jwt secret env s.users s.server.app.agentRegistry req).1
      (.request c req env) e := by
  rcases @respond_cases jwt secret env s.users
    s.server.app.agentRegistry req with ⟨user, hu, hr⟩ | ⟨agentId, rfl, ha⟩ | hr
  · rw [hr] at he
    cases ht : jwt.createToken env.now user.id user.username secret with
    | none => simp [authResponse, ht, handedOut] at he
    | some token =>
      simp only [authResponse, ht, handedOut, List.mem_singleton] at he
      subst he
      exact .granted hu ht
  · rw [show _ = none from hc] at ha
    cases ha
  · simp [handedOut_tokenless c hr] at he

theorem addsJustified_webTransport (c : κ) (token : Text) (env : Env) (s : Gateway κ) :
    AddsJustified jwt secret (.webTransport c token env) s
      (s.webTransport jwt secret c token env) := by
  unfold webTransport
  cases hv : jwt.validateToken env.now token secret with
  | none =>
    simp only [authenticate, hv]
    exact addsJustified_quiet rfl rfl
  | some claims =>
    simp only [authenticate, hv]
    refine ⟨List.Subset.refl _, _, rfl, fun e he => ?_⟩
    obtain rfl := List.mem_singleton.mp he
    exact .accepted rfl hv

/-- A message that asks for no agent's token is answered without one. -/
theorem addsJustified_message {s : Gateway κ} {c : κ} {msg : ClientMsg} {env : MsgEnv}
    (hc : s.AsksNoAgentToken (.behind (.message c msg env))) :
    AddsJustified jwt secret (.behind (.message c msg env)) s
      (s.message jwt secret c msg env) := by
  unfold message
  cases hs : s.server.clients c with
  | none => exact addsJustified_quiet rfl rfl
  | some conn =>
    have ht : messageToken jwt secret env.now s.server.app msg = none := by
      cases msg with
      | transportUpgrade id target =>
        have ha : upgradeAgent id s.server.app = none := hc (by simp [hs])
        simp [messageToken, ha]
      | _ => rfl
    exact addsJustified_quiet rfl (by simp [ht])

/-- **What a step adds** that asks for no agent's token. -/
theorem addsJustified_step {s : Gateway κ} {i : Input κ} (hc : s.AsksNoAgentToken i) :
    AddsJustified jwt secret i s (s.step jwt secret i) := by
  cases i with
  | request c req env =>
    refine ⟨subset_respond _ _ _ _, _, List.append_assoc _ _ _, fun e he => ?_⟩
    rcases List.mem_append.mp he with he | he
    · exact justified_respond hc he
    · obtain ⟨t, claims, hp, hv, rfl⟩ := mem_acceptance he
      exact .accepted (by simp [Input.presented, hp]) hv
  | webTransport c token env => exact addsJustified_webTransport c token env s
  | restart => exact addsJustified_quiet rfl rfl
  | behind i =>
    cases i with
    | message c msg env => exact addsJustified_message hc
    | _ => exact addsJustified_quiet rfl rfl

/-- A step that asks for an agent's token hands one out. -/
theorem agentToken_of_asks (h : jwt.Lawful) {s : Gateway κ} {i : Input κ}
    (hc : ¬s.AsksNoAgentToken i) :
    ∃ c agentId now token, jwt.createAgentToken now agentId secret = some token ∧
      .agentToken c token ∈ (s.step jwt secret i).log := by
  cases i with
  | request c req env =>
    cases req with
    | agentToken agentId =>
      obtain ⟨agent, ha⟩ := Option.ne_none_iff_exists'.mp hc
      obtain ⟨token, ht⟩ := h.createAgentToken_isSome env.now agentId secret
      refine ⟨c, agentId, env.now, token, ht, ?_⟩
      simp [step, Gateway.request, respond, Auth.agentToken, ha, ht, handedOut]
    | _ => exact (hc trivial).elim
  | webTransport c token env => exact (hc trivial).elim
  | restart => exact (hc trivial).elim
  | behind i =>
    cases i with
    | message c msg env =>
      cases msg with
      | transportUpgrade id target =>
        simp only [AsksNoAgentToken, not_forall] at hc
        obtain ⟨hs, ha⟩ := hc
        obtain ⟨conn, hs⟩ := Option.isSome_iff_exists.mp hs
        obtain ⟨agent, ha⟩ := Option.ne_none_iff_exists'.mp ha
        obtain ⟨token, ht⟩ := h.createAgentToken_isSome env.now agent.id secret
        refine ⟨c, agent.id, env.now, token, ht, ?_⟩
        simp [step, message, hs, messageToken, ha, ht]
      | _ => exact (hc trivial).elim
    | _ => exact (hc trivial).elim

/-! ## Whole runs -/

/-- A returned token was made for a row of the table. -/
def GrantsToUsers (jwt : Jsonwebtoken) (secret : Text) (s : Gateway κ) : Prop :=
  ∀ c token, .granted c token ∈ s.log →
    ∃ user ∈ s.users, ∃ now, jwt.createToken now user.id user.username secret = some token

theorem grantsToUsers_step {s : Gateway κ} (h : s.GrantsToUsers jwt secret) {i : Input κ}
    (hc : s.AsksNoAgentToken i) : (s.step jwt secret i).GrantsToUsers jwt secret := by
  obtain ⟨hu, events, hl, he⟩ := @addsJustified_step κ _ jwt secret s i hc
  intro c token hg
  rw [hl, List.mem_append] at hg
  rcases hg with hg | hg
  · obtain ⟨user, hm, now, ht⟩ := h c token hg
    exact ⟨user, hu hm, now, ht⟩
  · obtain ⟨hm, ht⟩ := he _ hg
    exact ⟨_, hm, _, ht⟩

/-- **A step keeps strangers out exactly if it asks for no agent's token.** -/
theorem loginOnly_step (h : jwt.Lawful) {s : Gateway κ} {i : Input κ}
    (hg : s.GrantsToUsers jwt secret) (hl : s.LoginOnly jwt secret)
    (hf : s.Unforged jwt secret i) :
    (s.step jwt secret i).LoginOnly jwt secret ↔ s.AsksNoAgentToken i := by
  constructor
  · intro hl'
    by_contra hc
    obtain ⟨c, agentId, now, token, ht, hm⟩ := agentToken_of_asks h hc
    have hv : (jwt.validateToken now token secret).isSome := h.validate_agentToken ht
    rw [hl'.agent c token hm now] at hv
    cases hv
  · intro hc
    obtain ⟨hu, events, hlog, he⟩ := @addsJustified_step κ _ jwt secret s i hc
    have hagent : ∀ c token, .agentToken c token ∈ (s.step jwt secret i).log →
        ∀ now, jwt.validateToken now token secret = none := by
      intro c token hm
      rw [hlog, List.mem_append] at hm
      rcases hm with hm | hm
      · exact hl.agent c token hm
      · cases he _ hm
    -- a token that is accepted now was made before, and no agent's token is valid
    have hnew : ∀ c token claims, .accepted c token claims ∈ events →
        ∃ c', .granted c' token ∈ s.log ∧ ∃ user ∈ s.users, user.id = claims.sub := by
      intro c token claims hm
      cases he _ hm with
      | accepted hp hv =>
        obtain ⟨c', hm | hm⟩ := hf _ _ hp (by simp [hv])
        · obtain ⟨user, hmem, now, ht⟩ := hg c' token hm
          exact ⟨c', hm, user, hmem, by rw [h.claims_eq ht hv]⟩
        · rw [hl.agent c' token hm] at hv
          cases hv
    refine ⟨fun c token claims hm => ?_, fun c token claims hm => ?_,
      fun c _ => hagent c, hagent⟩
    · rw [hlog, List.mem_append] at hm
      rcases hm with hm | hm
      · obtain ⟨c', hg⟩ := hl.granted c token claims hm
        exact ⟨c', by rw [hlog]; exact List.mem_append_left _ hg⟩
      · obtain ⟨c', hg, -⟩ := hnew c token claims hm
        exact ⟨c', by rw [hlog]; exact List.mem_append_left _ hg⟩
    · rw [hlog, List.mem_append] at hm
      rcases hm with hm | hm
      · obtain ⟨user, hmem, hid⟩ := hl.user c token claims hm
        exact ⟨user, hu hmem, hid⟩
      · obtain ⟨c', -, user, hmem, hid⟩ := hnew c token claims hm
        exact ⟨user, hu hmem, hid⟩

omit [DecidableEq κ] in
theorem loginOnly_new : (new : Gateway κ).LoginOnly jwt secret where
  granted _ _ _ h := by cases h
  user _ _ _ h := by cases h
  stranger _ _ _ h := by cases h
  agent _ _ h := by cases h

/-- **Only those who registered or logged in get in**, in the runs in which
nobody asks for an agent's token, and in no others. -/
theorem loginOnly_iff_asksNoAgentToken (h : jwt.Lawful) {as : List (Input κ)}
    (hf : EachStep (step jwt secret) (Unforged jwt secret) (new : Gateway κ) as) :
    Always (step jwt secret) (LoginOnly jwt secret) (new : Gateway κ) as ↔
      EachStep (step jwt secret) AsksNoAgentToken (new : Gateway κ) as :=
  always_iff_eachStep_of loginOnly_new (I := GrantsToUsers jwt secret) (by rintro c token ⟨⟩)
    (fun _ _ hg hl hf => loginOnly_step h hg hl hf)
    (fun _ _ hg _ _ hc => grantsToUsers_step hg hc) hf

end

/-! ## A visitor with an agent's token -/

def sampleEnv : HttpEnv := .working ⟨"7".toList, by decide⟩ 0

def sampleAgent : AgentInfo where
  id := "a".toList
  hostname := "host".toList
  host := "host".toList
  quicPort := 4433
  version := "0.1.0".toList
  lastSeen := 0
  certHash := none

/-- An agent comes online. A visitor asks for its token, and connects with it. -/
def intrusion : List (Input Nat) :=
  [.behind (.registerAgent sampleAgent),
    .request 0 (.agentToken "a".toList) sampleEnv,
    .request 0 (.ws (some "300.1.5.aagentk".toList)) sampleEnv]

/-- A visitor registers and connects, and nobody has the token of an agent. -/
def visit : List (Input Nat) :=
  [.request 0 (.register { username := "al".toList, password := "abcd".toList }) sampleEnv,
    .request 0 (.ws (some "604800.1.2.7alk".toList)) sampleEnv,
    .request 1 (.agentToken "a".toList) sampleEnv]

theorem intrusion_unforged :
    EachStep (step .plain "k".toList) (Unforged .plain "k".toList) new intrusion := by
  refine ⟨fun _ _ h => (by cases h), fun _ _ h => (by cases h), fun token now h _ => ?_, trivial⟩
  obtain ⟨rfl, -⟩ := Prod.mk.inj (Option.some.inj h)
  exact ⟨0, .inr (by decide +kernel)⟩

theorem visit_unforged :
    EachStep (step .plain "k".toList) (Unforged .plain "k".toList) new visit := by
  refine ⟨fun _ _ h => (by cases h), fun token now h _ => ?_, fun _ _ h => (by cases h),
    trivial⟩
  obtain ⟨rfl, -⟩ := Prod.mk.inj (Option.some.inj h)
  exact ⟨0, .inl (by decide +kernel)⟩

theorem loginOnly_iff_asksNoAgentToken_sample :
    Always (step .plain "k".toList) (LoginOnly .plain "k".toList) new visit :=
  (loginOnly_iff_asksNoAgentToken Jsonwebtoken.plain_lawful visit_unforged).mpr
    ⟨trivial, trivial, rfl, trivial⟩

/-- Who never registered gets in with the token of an agent. -/
theorem agentToken_lets_stranger_in :
    ¬∀ jwt : Jsonwebtoken, jwt.Lawful → ∀ (secret : Text) (as : List (Input Nat)),
      EachStep (step jwt secret) (Unforged jwt secret) new as →
        Always (step jwt secret) (LoginOnly jwt secret) new as := by
  intro h
  have hl := (h .plain Jsonwebtoken.plain_lawful "k".toList intrusion intrusion_unforged).last
  have hlog : (run (step .plain "k".toList) new intrusion).log =
      [.agentToken 0 "300.1.5.aagentk".toList, .accepted 0 "300.1.5.aagentk".toList
        { sub := "a".toList, username := "agent".toList, exp := 300 }] := by decide +kernel
  obtain ⟨c, hc⟩ := hl.granted 0 _ _ (by rw [hlog]; exact List.mem_cons_of_mem _ (.head _))
  rw [hlog] at hc
  simp at hc

end Gateway

end Oxmux.System
