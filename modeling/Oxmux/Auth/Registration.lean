import Oxmux.Auth.Handler
import Oxmux.Lib.Threads

/-! Registering and logging in with the same request. `register` trims the name
before it looks it up and stores it; `login` takes the name as it comes. Between
the lookup and the insertion of a registration, others may run. -/

namespace Oxmux.Auth
open Oxmux.Lib Oxmux.Lib.Runs

variable {jwt : Jsonwebtoken} {secret : Text}

/-! ## Logging in behind a registration -/

/-- The login gives a token, and the token is one of this user. -/
def LogsIn (jwt : Jsonwebtoken) (secret : Text) (env : HttpEnv) (req : AuthRequest)
    (users : List UserRow) (userId : Text) : Prop :=
  ∃ token user, login jwt secret env req users = .auth token user ∧ user.id = userId ∧
    (jwt.validateToken env.now token secret).map (·.sub) = some userId

/-- The table can be read, and the password that was hashed is accepted. -/
structure Accepts (env env' : HttpEnv) (req : AuthRequest) : Prop where
  read : env'.dbRead = true
  verified : ∀ hash, env.hashPassword req.password = .ok hash →
    env'.verifyPassword req.password hash = true

theorem authResponse_user {now : Nat} {row : UserRow} {token : Text} {user : UserInfo}
    (h : authResponse jwt secret now row = .auth token user) :
    user.id = row.id ∧ user.username = row.username := by
  unfold authResponse at h
  split at h
  · cases h
  · cases h
    exact ⟨rfl, rfl⟩

theorem register_ok {env : HttpEnv} {req : AuthRequest} {users users' : List UserRow}
    {token : Text} {user : UserInfo}
    (h : register jwt secret env req users = (users', .auth token user)) :
    ∃ row : UserRow, createUser row users = some users' ∧ row.id = user.id ∧
      row.username = trim req.username ∧ env.hashPassword req.password = .ok row.passwordHash := by
  simp only [register] at h
  split at h
  · cases h
  split at h
  · cases h
  split at h
  · cases h
  split at h
  · cases h
  · next passwordHash hhash =>
    split at h
    · cases h
    · next created =>
      obtain ⟨rfl, hr⟩ := Prod.mk.inj h
      refine ⟨{ id := env.uuid.val, username := trim req.username, passwordHash }, ?_, ?_, rfl,
        hhash⟩
      · split at created
        · exact created
        · cases created
      · exact (authResponse_user hr).1.symm

/-- A new row has an id and a name of its own. -/
theorem createUser_fresh {user : UserRow} {users users' : List UserRow}
    (h : createUser user users = some users') :
    users' = users ++ [user] ∧ ∀ u ∈ users, u.id ≠ user.id ∧ u.username ≠ user.username := by
  refine ⟨mem_createUser h, fun u hu => ?_⟩
  unfold createUser at h
  split at h
  · cases h
  · next hany =>
    simp only [List.any_eq_true, decide_eq_true_eq, not_exists, not_and, not_or] at hany
    exact hany u hu

/-- A login finds the row that was added under its own name only. -/
theorem findUserByUsername_append {row : UserRow} {users : List UserRow} {username : Text}
    (h : ∀ u ∈ users, u.username ≠ row.username) (hn : username = row.username) :
    findUserByUsername username (users ++ [row]) = some row := by
  have hnone : users.find? (fun user => user.username = username) = none := by
    rw [List.find?_eq_none]
    intro u hu
    simpa [hn] using h u hu
  rw [findUserByUsername, List.find?_append, hnone]
  simp [hn]

theorem id_ne_of_findUserByUsername {row user : UserRow} {users : List UserRow} {username : Text}
    (h : ∀ u ∈ users, u.id ≠ row.id) (hn : username ≠ row.username)
    (hf : findUserByUsername username (users ++ [row]) = some user) : user.id ≠ row.id := by
  rcases List.mem_append.mp (List.mem_of_find?_eq_some hf) with hm | hm
  · exact h user hm
  · rw [List.mem_singleton] at hm
    subst hm
    have hname := List.find?_some hf
    exact absurd (of_decide_eq_true hname).symm hn

/-- Tokens can be made, and tell whose they are. -/
theorem authResponse_ok (hjwt : jwt.Lawful) (secret : Text) (now : Nat) (user : UserRow) :
    ∃ token, authResponse jwt secret now user =
        .auth token { id := user.id, username := user.username } ∧
      (jwt.validateToken now token secret).map (·.sub) = some user.id := by
  obtain ⟨token, htoken⟩ := Option.isSome_iff_exists.mp (hjwt.encode_isSome
    { sub := user.id, username := user.username, exp := now + 7 * 24 * 3600 } secret)
  refine ⟨token, ?_, ?_⟩
  · simp only [authResponse, Jsonwebtoken.createToken, htoken]
  · rw [Jsonwebtoken.validateToken, hjwt.decode_encode htoken, if_pos (by simp; omega)]
    rfl

/-- A registered name is found again exactly if nothing was trimmed off it. -/
theorem logsIn_iff_trimmed (hjwt : jwt.Lawful) {env env' : HttpEnv} {req : AuthRequest}
    {users users' : List UserRow} {token : Text} {user : UserInfo}
    (hreg : register jwt secret env req users = (users', .auth token user))
    (hacc : Accepts env env' req) :
    LogsIn jwt secret env' req users' user.id ↔ trim req.username = req.username := by
  obtain ⟨row, hcreate, hid, hname, hhash⟩ := register_ok hreg
  obtain ⟨rfl, hfresh⟩ := createUser_fresh hcreate
  constructor
  · rintro ⟨token', user', hlogin, hid', -⟩
    by_contra hne
    simp only [login, hacc.read, Bool.true_eq_false, if_false] at hlogin
    cases hf : findUserByUsername req.username (users ++ [row]) with
    | none =>
      rw [hf] at hlogin
      cases hlogin
    | some found =>
      have hother : found.id ≠ row.id := id_ne_of_findUserByUsername
        (fun u hu => (hfresh u hu).1) (fun he => hne (hname.symm.trans he.symm)) hf
      simp only [hf] at hlogin
      split at hlogin
      · obtain ⟨token'', hauth, -⟩ := authResponse_ok hjwt secret env'.now found
        rw [hauth] at hlogin
        cases hlogin
        exact hother (hid'.trans hid.symm)
      · cases hlogin
  · intro htrim
    have hf : findUserByUsername req.username (users ++ [row]) = some row :=
      findUserByUsername_append (fun u hu => (hfresh u hu).2) (htrim.symm.trans hname.symm)
    obtain ⟨token', hauth, hsub⟩ := authResponse_ok hjwt secret env'.now row
    refine ⟨token', { id := row.id, username := row.username }, ?_, hid, hid ▸ hsub⟩
    simp only [login, hacc.read, Bool.true_eq_false, if_false, hf,
      hacc.verified row.passwordHash hhash, if_true]
    exact hauth

/-! ## Registrations at the same time -/

/-- A registration, by what it does next: the name is looked up, then the row is
inserted. -/
inductive Registration where
  | find (req : AuthRequest)
  | insert (req : AuthRequest)
  | done (response : Response)

namespace Registration

/-- The checks of `register`, up to the lookup. -/
def lookUp (env : HttpEnv) (users : List UserRow) (req : AuthRequest) : Registration :=
  let username := trim req.username
  if username = [] ∨ (Utf8.encode req.password).length < 4 then
    done (.error 400 "username required, password must be at least 4 characters".toList)
  else if env.dbRead = false then done (.error 500 "failed to query user".toList)
  else if (findUserByUsername username users).isSome then
    done (.error 409 "username already taken".toList)
  else insert req

def act (jwt : Jsonwebtoken) (secret : Text) (env : HttpEnv) (users : List UserRow) :
    Registration → List UserRow × Registration
  | find req => (users, lookUp env users req)
  | insert req =>
    match env.hashPassword req.password with
    | .error e => (users, done (.error 500 e))
    | .ok passwordHash =>
      let user := { id := env.uuid.val, username := trim req.username, passwordHash }
      match if env.dbWrite 0 then createUser user users else none with
      | none => (users, done (.error 500 "failed to create user".toList))
      | some users => (users, done (authResponse jwt secret env.now user))
  | done response => (users, done response)

/-- One right after the other, the two steps are `register`. -/
theorem register_eq_act (env : HttpEnv) (req : AuthRequest) (users : List UserRow) :
    act jwt secret env users (lookUp env users req) =
      ((register jwt secret env req users).1, done (register jwt secret env req users).2) := by
  simp only [lookUp, register]
  split
  · rfl
  split
  · rfl
  split
  · rfl
  simp only [act]
  cases env.hashPassword req.password with
  | error e => rfl
  | ok passwordHash =>
    simp only
    cases (if env.dbWrite 0 then createUser
      { id := env.uuid.val, username := trim req.username, passwordHash } users else none) <;> rfl

end Registration

namespace Registrations

/-- The users table, and the registrations that run. -/
abbrev State := Threads (List UserRow) Registration

def start (users : List UserRow) (reqs : List AuthRequest) : State where
  shared := users
  locals := reqs.map .find

def step (jwt : Jsonwebtoken) (secret : Text) : State → Nat × HttpEnv → State :=
  Threads.step fun _ env users r => r.act jwt secret env users

def Succeeded (username : Text) (r : Registration) : Prop :=
  ∃ token user, r = .done (.auth token user) ∧ user.username = username

/-- At most one registration of a name succeeds. -/
def Once (s : State) : Prop :=
  ∀ (i j : Nat) (username : Text) (r r' : Registration),
    s.locals[i]? = some r → s.locals[j]? = some r' →
      Succeeded username r → Succeeded username r' → i = j

/-- A registration that succeeded has its row. -/
def Stored (s : State) : Prop :=
  ∀ r ∈ s.locals, ∀ username, Succeeded username r → username ∈ s.shared.map (·.username)

/-- A step that succeeds adds a name that was not there; no step takes one away. -/
theorem act_cases (env : HttpEnv) (users : List UserRow) (r : Registration) :
    (∀ username ∈ users.map (·.username),
      username ∈ (r.act jwt secret env users).1.map (·.username)) ∧
    ∀ username, Succeeded username (r.act jwt secret env users).2 → Succeeded username r ∨
      username ∉ users.map (·.username) ∧
        username ∈ (r.act jwt secret env users).1.map (·.username) := by
  cases r with
  | find req =>
    refine ⟨fun _ hu => hu, fun username hs => ?_⟩
    obtain ⟨token, user, hdone, -⟩ := hs
    simp only [Registration.act, Registration.lookUp] at hdone
    split_ifs at hdone <;> cases hdone
  | insert req =>
    simp only [Registration.act]
    split
    · refine ⟨fun _ hu => hu, fun username hs => ?_⟩
      obtain ⟨token, user, hdone, -⟩ := hs
      cases hdone
    · split
      · refine ⟨fun _ hu => hu, fun username hs => ?_⟩
        obtain ⟨token, user, hdone, -⟩ := hs
        cases hdone
      · next passwordHash hhash users' created =>
        split at created
        · obtain ⟨rfl, hfresh⟩ := createUser_fresh created
          refine ⟨fun _ hu => ?_, fun username hs => .inr ⟨fun hmem => ?_, ?_⟩⟩
          · rw [List.map_append]
            exact List.mem_append_left _ hu
          all_goals
            obtain ⟨token, user, hdone, rfl⟩ := hs
            have hname := (authResponse_user (Registration.done.inj hdone)).2
          · obtain ⟨u, hu, he⟩ := List.mem_map.mp hmem
            exact (hfresh u hu).2 (he.trans hname)
          · rw [hname]
            simp
        · cases created
  | done response => exact ⟨fun _ hu => hu, fun username hs => .inl hs⟩

theorem locals_step {s : State} {pick : Nat × HttpEnv} {j : Nat} {r : Registration}
    (h : (step jwt secret s pick).locals[j]? = some r) :
    s.locals[j]? = some r ∨ j = pick.1 ∧ ∃ r₀, s.locals[j]? = some r₀ ∧
      r = (r₀.act jwt secret pick.2 s.shared).2 ∧
      (step jwt secret s pick).shared = (r₀.act jwt secret pick.2 s.shared).1 := by
  cases hp : s.locals[pick.1]? with
  | none =>
    rw [step, Threads.step_none hp] at h
    exact .inl h
  | some r₀ =>
    rcases Threads.getElem?_step hp h with ⟨rfl, rfl⟩ | ⟨-, hold⟩
    · refine .inr ⟨rfl, r₀, hp, rfl, ?_⟩
      rw [step, Threads.step_some hp]
    · exact .inl hold

theorem names_step (s : State) (pick : Nat × HttpEnv) {username : Text}
    (h : username ∈ s.shared.map (·.username)) :
    username ∈ (step jwt secret s pick).shared.map (·.username) := by
  cases hp : s.locals[pick.1]? with
  | none => rwa [step, Threads.step_none hp]
  | some r =>
    rw [step, Threads.step_some hp]
    exact (act_cases pick.2 s.shared r).1 username h

/-- **One step of one registration.** -/
theorem once_step {s : State} (h : Once s ∧ Stored s) (pick : Nat × HttpEnv) :
    Once (step jwt secret s pick) ∧ Stored (step jwt secret s pick) := by
  -- a registration that succeeds now has succeeded before, or found its name free
  have hnew : ∀ j r username, (step jwt secret s pick).locals[j]? = some r →
      Succeeded username r →
      (∃ r₀, s.locals[j]? = some r₀ ∧ Succeeded username r₀) ∨ j = pick.1 ∧
        username ∉ s.shared.map (·.username) ∧
        username ∈ (step jwt secret s pick).shared.map (·.username) := by
    intro j r username hj hs
    rcases locals_step hj with hold | ⟨hjp, r₀, hold, rfl, hshared⟩
    · exact .inl ⟨r, hold, hs⟩
    · rcases (act_cases pick.2 s.shared r₀).2 username hs with hs₀ | hfresh
      · exact .inl ⟨r₀, hold, hs₀⟩
      · exact .inr ⟨hjp, hfresh.1, hshared ▸ hfresh.2⟩
  have hstored : ∀ {j r username}, s.locals[j]? = some r → Succeeded username r →
      username ∈ s.shared.map (·.username) :=
    fun hj hs => h.2 _ (List.mem_of_getElem? hj) _ hs
  constructor
  · intro i j username r r' hi hj hs hs'
    rcases hnew i r username hi hs with ⟨r₀, hi₀, hs₀⟩ | ⟨hip, hfree, -⟩
    · rcases hnew j r' username hj hs' with ⟨r₁, hj₁, hs₁⟩ | ⟨-, hfree, -⟩
      · exact h.1 i j username r₀ r₁ hi₀ hj₁ hs₀ hs₁
      · exact absurd (hstored hi₀ hs₀) hfree
    · rcases hnew j r' username hj hs' with ⟨r₁, hj₁, hs₁⟩ | ⟨hjp, -, -⟩
      · exact absurd (hstored hj₁ hs₁) hfree
      · exact hip.trans hjp.symm
  · intro r hr username hs
    obtain ⟨j, hj⟩ := List.mem_iff_getElem?.mp hr
    rcases hnew j r username hj hs with ⟨r₀, hj₀, hs₀⟩ | ⟨-, -, hmem⟩
    · exact names_step s pick (hstored hj₀ hs₀)
    · exact hmem

/-- However the registrations interleave, at most one succeeds for a name. -/
theorem once_run (users : List UserRow) (reqs : List AuthRequest)
    (picks : List (Nat × HttpEnv)) : Once (run (step jwt secret) (start users reqs) picks) := by
  have hfind : ∀ {username : Text} {r : Registration}, r ∈ (start users reqs).locals →
      ¬ Succeeded username r := by
    intro username r hr ⟨token, user, hdone, _⟩
    obtain ⟨req, -, rfl⟩ := List.mem_map.mp hr
    cases hdone
  have hstart : Once (start users reqs) ∧ Stored (start users reqs) :=
    ⟨fun i j username r r' hi _ hs _ => absurd hs (hfind (List.mem_of_getElem? hi)),
      fun r hr username hs => absurd hs (hfind hr)⟩
  exact (always_of_invariant (P := fun s => Once s ∧ Stored s) hstart
    (fun s pick h => once_step h pick) picks).last.1

end Registrations

/-- **When registered credentials log in**: exactly if the name has no white
space around it. Of several registrations of a name at most one succeeds. -/
theorem registered_logs_in_iff (hjwt : jwt.Lawful) :
    (∀ (env env' : HttpEnv) (req : AuthRequest) (users users' : List UserRow) (token : Text)
      (user : UserInfo), register jwt secret env req users = (users', .auth token user) →
      Accepts env env' req →
      (LogsIn jwt secret env' req users' user.id ↔ trim req.username = req.username)) ∧
    ∀ (users : List UserRow) (reqs : List AuthRequest) (picks : List (Nat × HttpEnv)),
      Registrations.Once (run (Registrations.step jwt secret) (Registrations.start users reqs)
        picks) :=
  ⟨fun _ _ _ _ _ _ _ hreg hacc => logsIn_iff_trimmed hjwt hreg hacc, Registrations.once_run⟩

/-! ## A name with a space -/

/-- A registration of `username` that works, and the login behind it. -/
def sampleRequest (username : Text) : AuthRequest := { username, password := "pass".toList }

def sampleEnv : HttpEnv := .working Session.uuidA 0

theorem accepts_sampleEnv (req : AuthRequest) : Accepts sampleEnv sampleEnv req where
  read := rfl
  verified hash h := by
    cases h
    exact decide_eq_true rfl

theorem registered_logs_in_sample : LogsIn .plain ['k'] sampleEnv (sampleRequest "bob".toList)
    [{ id := ['a'], username := "bob".toList, passwordHash := "pass".toList }] ['a'] := by
  have hjwt := Jsonwebtoken.plain_lawful
  exact ((@registered_logs_in_iff .plain ['k'] hjwt).1 sampleEnv sampleEnv
    (sampleRequest "bob".toList) [] _ _ { id := ['a'], username := "bob".toList } rfl
    (accepts_sampleEnv _)).mpr (by decide)

/-- The name is registered without its space, and with it nobody is found. -/
theorem name_with_space_locked_out : ¬ ∀ (env env' : HttpEnv) (req : AuthRequest)
    (users users' : List UserRow) (token : Text) (user : UserInfo),
    register .plain ['k'] env req users = (users', .auth token user) → Accepts env env' req →
      LogsIn .plain ['k'] env' req users' user.id := by
  intro h
  obtain ⟨token, user, hlogin, -⟩ := h sampleEnv sampleEnv (sampleRequest "bob ".toList) [] _ _
    { id := ['a'], username := "bob".toList } rfl (accepts_sampleEnv _)
  cases hlogin

end Oxmux.Auth
