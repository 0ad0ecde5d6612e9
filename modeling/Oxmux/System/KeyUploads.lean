import Mathlib.Data.Set.Card
import Oxmux.Auth.Handler
import Oxmux.Session.EphemeralKeys

/-! Uploads of SSH keys that overlap (`server/src/session/key_upload.rs`). A handler
counts the keys in memory before it stores its own, and another handler may come
between: the cap of 100 keys holds up to the uploads that are handled at once. -/

namespace Oxmux.Session.SessionManager
open Oxmux.Lib

def keyIds (m : SessionManager) : Set Text := {keyId | (m.ephemeralKeys keyId).isSome}

variable {m : SessionManager}

theorem keyIds_insert (keyId : Uuid) (key : Text) (pass : Option Text) :
    (m.insertEphemeralKey keyId key pass).keyIds = insert keyId.val m.keyIds := by
  ext id
  by_cases h : id = keyId.val
  · simp [keyIds, insertEphemeralKey, h]
  · simp [keyIds, insertEphemeralKey, h]

theorem keyIds_apply_subset {op : Op} (hup : ∀ keyId key pass, op ≠ .uploadKey keyId key pass) :
    (m.apply op).keyIds ⊆ m.keyIds := by
  by_cases hdel : ∀ env id, op ≠ .delete env id
  · rw [keyIds, ephemeralKeys_apply hdel hup, keyIds]
  · push Not at hdel
    obtain ⟨env, id, rfl⟩ := hdel
    cases hs : m.sessions id with
    | none =>
      have hr : (m.removeRoutes id).sessions id = m.sessions id := rfl
      have hsame : m.apply (.delete env id) = m.removeRoutes id := by
        unfold apply delete
        simp only [hr, hs]
      rw [hsame]
      rfl
    | some entry =>
      rw [keyIds, apply, ephemeralKeys_delete hs]
      cases uploadedKeyId entry.metadata with
      | none => rfl
      | some keyId =>
        intro id' h
        by_cases he : id' = keyId
        · simp [he] at h
        · simpa [keyIds, he] using h

end Oxmux.Session.SessionManager

namespace Oxmux.System
open Oxmux.Lib Oxmux.Lib.Runs Oxmux.Session Oxmux.Auth

/-- An upload whose checks passed, and whose key is not stored yet. -/
structure PassedUpload where
  keyId : Uuid
  req : UploadKeyRequest

structure KeyUploads where
  manager : SessionManager
  passed : List PassedUpload

namespace KeyUploads

inductive Pick where
  | request (env : HttpEnv) (credentials : Credentials) (req : UploadKeyRequest)
  | store (i : Nat)
  | manage (op : Op)

def new (db : List SessionRow) : KeyUploads where
  manager := .new db
  passed := []

def stored (i : Nat) (upload : PassedUpload) (u : KeyUploads) : KeyUploads where
  manager := u.manager.insertEphemeralKey upload.keyId upload.req.keyPem upload.req.passphrase
  passed := u.passed.eraseIdx i

def step (jwt : Jsonwebtoken) (secret : Text) (u : KeyUploads) : Pick → KeyUploads
  | .request env credentials req =>
    match uploadSshKey jwt secret env credentials req with
    | .key _ => { u with passed := u.passed ++ [{ keyId := env.uuid, req }] }
    | _ => u
  | .store i => u.passed[i]?.elim u fun upload => u.stored i upload
  | .manage (.uploadKey ..) => u
  | .manage op => { u with manager := u.manager.apply op }

/-- A handler finds the store full if there are 100 keys in it. -/
def Counts (u : KeyUploads) : Pick → Prop
  | .request env _ _ => env.keysFull = true ↔ 100 ≤ u.manager.keyIds.ncard
  | _ => True

/-- At most so many uploads wait to be stored. -/
def AtOnce (n : Nat) (u : KeyUploads) : Prop := u.passed.length ≤ n

/-- A key that waits has its place in what the cap leaves. -/
structure Room (n : Nat) (u : KeyUploads) : Prop where
  finite : u.manager.keyIds.Finite
  room : u.manager.keyIds.ncard + u.passed.length ≤ 99 + n

section
variable {jwt : Jsonwebtoken} {secret : Text} {u : KeyUploads} {n : Nat}

theorem authenticate_refused {now : Nat} {token : Option Text} {response : Response}
    (h : authenticate jwt secret now token = .error response) :
    ∃ status body, response = .error status body := by
  unfold authenticate at h
  split at h
  · cases h
    exact ⟨_, _, rfl⟩
  · split at h
    · cases h
      exact ⟨_, _, rfl⟩
    · cases h

/-- A handler that passes found room. -/
theorem keysFull_of_key {env : HttpEnv} {credentials : Credentials} {req : UploadKeyRequest}
    {keyId : Text} (h : uploadSshKey jwt secret env credentials req = .key keyId) :
    env.keysFull = false := by
  simp only [uploadSshKey] at h
  split at h
  · next refused =>
    obtain ⟨status, body, rfl⟩ := authenticate_refused refused
    cases h
  · cases hf : env.keysFull with
    | false => rfl
    | true =>
      simp only [hf, if_true] at h
      split_ifs at h

theorem uploadSshKey_of_checks {env : HttpEnv} {credentials : Credentials} {claims : Claims}
    {req : UploadKeyRequest}
    (hauth : authenticate jwt secret env.now (extractToken credentials) = .ok claims)
    (hlen : (Utf8.encode req.keyPem).length ≤ 8192) (hne : trim req.keyPem ≠ [])
    (hdecode : ∀ pass, env.decodeSecretKey req.keyPem pass = true) (hroom : env.keysFull = false) :
    uploadSshKey jwt secret env credentials req = .key env.uuid.val := by
  rw [uploadSshKey, hauth]
  simp only [hdecode, hroom]
  rw [if_neg (Nat.not_lt.mpr hlen), if_neg hne, if_neg (by decide), if_neg (by decide)]

/-! ## At most -/

theorem room_request (h : u.Room n) {env : HttpEnv} {credentials : Credentials}
    {req : UploadKeyRequest} (hc : u.Counts (.request env credentials req))
    (hn : (step jwt secret u (.request env credentials req)).AtOnce n) :
    (step jwt secret u (.request env credentials req)).Room n := by
  simp only [step] at hn ⊢
  split at hn
  · next keyId hkey =>
    have hcount : env.keysFull = true ↔ 100 ≤ u.manager.keyIds.ncard := hc
    have hfew : ¬ 100 ≤ u.manager.keyIds.ncard := by
      rw [← hcount, keysFull_of_key hkey]
      simp
    refine ⟨h.finite, ?_⟩
    have hlen : (u.passed ++ [({ keyId := env.uuid, req } : PassedUpload)]).length ≤ n := hn
    simp only
    omega
  · exact h

theorem room_store (h : u.Room n) {i : Nat} {upload : PassedUpload}
    (hi : u.passed[i]? = some upload) : (u.stored i upload).Room n := by
  obtain ⟨hlt, -⟩ := List.getElem?_eq_some_iff.mp hi
  have hkeys := SessionManager.keyIds_insert (m := u.manager) upload.keyId upload.req.keyPem
    upload.req.passphrase
  have hcard := Set.ncard_insert_le upload.keyId.val u.manager.keyIds
  have hpassed : (u.passed.eraseIdx i).length = u.passed.length - 1 :=
    List.length_eraseIdx_of_lt hlt
  have hroom := h.room
  refine ⟨?_, ?_⟩
  · rw [stored, hkeys]
    exact h.finite.insert _
  · simp only [stored, hkeys, hpassed]
    omega

theorem room_manage (h : u.Room n) {op : Op}
    (hup : ∀ keyId key pass, op ≠ .uploadKey keyId key pass) :
    Room n { u with manager := u.manager.apply op } := by
  have hsub := SessionManager.keyIds_apply_subset (m := u.manager) hup
  have hcard := Set.ncard_le_ncard hsub h.finite
  have hroom := h.room
  refine ⟨h.finite.subset hsub, ?_⟩
  simp only
  omega

theorem room_step (h : u.Room n) {p : Pick} (hc : u.Counts p)
    (hn : (step jwt secret u p).AtOnce n) : (step jwt secret u p).Room n := by
  cases p with
  | request env credentials req => exact room_request h hc hn
  | store i =>
    simp only [step]
    cases hi : u.passed[i]? with
    | none => exact h
    | some upload => exact room_store h hi
  | manage op =>
    cases op with
    | uploadKey keyId key pass => exact h
    | _ => exact room_manage h (by simp)

theorem room_new (db : List SessionRow) (n : Nat) : (new db).Room n := by
  have hnone : (new db).manager.keyIds = ∅ := by
    simp [new, SessionManager.keyIds, SessionManager.new]
  refine ⟨?_, ?_⟩
  · rw [hnone]
    exact Set.finite_empty
  · rw [hnone, Set.ncard_empty]
    exact Nat.zero_le _

/-! ## And so many -/

def uuidOf (i : Nat) : Uuid := ⟨List.replicate (i + 1) 'a', by simp [IsUuid]⟩

theorem uuidOf_injective : Function.Injective fun i => (uuidOf i).val := by
  intro i j h
  have hlen := congrArg List.length h
  simpa [uuidOf] using hlen

/-- The first keys are stored, and the next ones wait. -/
structure Filled (k q : Nat) (u : KeyUploads) : Prop where
  keys : u.manager.keyIds = (fun i => (uuidOf i).val) '' (Finset.range k)
  passed : u.passed.map (·.keyId) = (List.range' k q).map uuidOf

theorem Filled.ncard {k q : Nat} (h : u.Filled k q) : u.manager.keyIds.ncard = k := by
  rw [h.keys, Set.ncard_image_of_injective _ uuidOf_injective, Set.ncard_coe_finset,
    Finset.card_range]

theorem Filled.length {k q : Nat} (h : u.Filled k q) : u.passed.length = q := by
  have hlen := congrArg List.length h.passed
  simpa using hlen

theorem filled_new (db : List SessionRow) : (new db).Filled 0 0 := by
  refine ⟨?_, rfl⟩
  simp [new, SessionManager.keyIds, SessionManager.new]

def oneMore (token : Text) (i : Nat) : Pick :=
  .request (.working (uuidOf i) 0) { authorization := none, token := some token }
    { keyPem := ['k'], passphrase := none }

theorem Filled.request {k q : Nat} (h : u.Filled k q) {token : Text} {claims : Claims}
    (ht : jwt.validateToken 0 token secret = some claims) :
    (step jwt secret u (oneMore token (k + q))).Filled k (q + 1) := by
  have hauth : authenticate jwt secret 0 (some token) = .ok claims := by
    simp only [authenticate, ht]
  have hpass : uploadSshKey jwt secret (.working (uuidOf (k + q)) 0)
      { authorization := none, token := some token } { keyPem := ['k'], passphrase := none } =
        .key (uuidOf (k + q)).val :=
    uploadSshKey_of_checks hauth (by decide) (by decide) (fun _ => rfl) rfl
  simp only [step, oneMore, hpass]
  refine ⟨h.keys, ?_⟩
  rw [List.map_append, h.passed, List.range'_concat, Nat.one_mul, List.map_append]
  rfl

theorem Filled.store {k q : Nat} (h : u.Filled k (q + 1)) :
    (step jwt secret u (.store 0)).Filled (k + 1) q := by
  have hpassed := h.passed
  rw [List.range'_succ, List.map_cons] at hpassed
  obtain ⟨upload, passed, hu, hid, hrest⟩ := List.map_eq_cons_iff.mp hpassed
  have hi : u.passed[0]? = some upload := by rw [hu]; rfl
  simp only [step, hi, Option.elim_some, stored]
  refine ⟨?_, ?_⟩
  · rw [SessionManager.keyIds_insert, h.keys, hid, Finset.range_add_one, Finset.coe_insert,
      Set.image_insert_eq]
  · rw [hu]
    exact hrest

/-- Some run fills the store so far. -/
def Attains (jwt : Jsonwebtoken) (secret : Text) (db : List SessionRow) (n k q : Nat) : Prop :=
  ∃ u, ReachableUnder (step jwt secret) (AtOnce n) Counts (new db) u ∧ u.Filled k q

section
variable {db : List SessionRow} {k q : Nat}

theorem Attains.request (h : Attains jwt secret db n k q) {token : Text} {claims : Claims}
    (ht : jwt.validateToken 0 token secret = some claims) (hk : k ≤ 99) (hq : q < n) :
    Attains jwt secret db n k (q + 1) := by
  obtain ⟨u, hr, hf⟩ := h
  have hf' := hf.request ht
  refine ⟨_, hr.next (oneMore token (k + q)) ?_ ?_, hf'⟩
  · have hcard := hf.ncard
    refine iff_of_false (by simp [HttpEnv.working]) ?_
    omega
  · rw [AtOnce, hf'.length]
    exact hq

theorem Attains.store (h : Attains jwt secret db n k (q + 1)) (hq : q < n) :
    Attains jwt secret db n (k + 1) q := by
  obtain ⟨u, hr, hf⟩ := h
  have hf' : (step jwt secret u (.store 0)).Filled (k + 1) q := hf.store
  refine ⟨_, hr.next (.store 0) trivial ?_, hf'⟩
  rw [AtOnce, hf'.length]
  exact hq.le

/-- **As many keys as the cap and the uploads at once allow.** -/
theorem attains_most (hjwt : jwt.Lawful) (secret : Text) (db : List SessionRow) (hn : 0 < n) :
    Attains jwt secret db n (99 + n) 0 := by
  obtain ⟨token, htoken⟩ := Option.isSome_iff_exists.mp
    (hjwt.encode_isSome { sub := [], username := [], exp := 0 } secret)
  have ht : jwt.validateToken 0 token secret = some { sub := [], username := [], exp := 0 } := by
    rw [Jsonwebtoken.validateToken, hjwt.decode_encode htoken, if_pos (Nat.zero_le _)]
  -- 99 uploads one after the other
  have hone (k : Nat) (hk : k ≤ 99) : Attains jwt secret db n k 0 := by
    induction k with
    | zero => exact ⟨_, .init (Nat.zero_le n), filled_new db⟩
    | succ k ih => exact ((ih (by omega)).request ht (by omega) hn).store hn
  -- each of the next ones counts 99
  have hpass (q : Nat) (hq : q ≤ n) : Attains jwt secret db n 99 q := by
    induction q with
    | zero => exact hone 99 le_rfl
    | succ q ih => exact (ih (by omega)).request ht le_rfl hq
  have hstore (j : Nat) (hj : j ≤ n) : Attains jwt secret db n (99 + j) (n - j) := by
    induction j with
    | zero => exact hpass n le_rfl
    | succ j ih =>
      have hleft : n - j = n - (j + 1) + 1 := by omega
      have hwaiting : Attains jwt secret db n (99 + j) (n - (j + 1) + 1) := hleft ▸ ih (by omega)
      exact hwaiting.store (by omega)
  simpa using hstore n le_rfl

end

/-- **The cap with uploads at once.** Whatever users upload and delete: if never
more than so many handlers stand between their check and the store, there are at
most that many keys more than 99 in memory, and there can be so many. -/
theorem keys_bounded_iff (hjwt : jwt.Lawful) (secret : Text) (db : List SessionRow) (hn : 0 < n)
    (bound : Nat) :
    (∀ u, ReachableUnder (step jwt secret) (AtOnce n) Counts (new db) u →
      u.manager.keyIds.ncard ≤ bound) ↔ 99 + n ≤ bound := by
  constructor
  · intro hall
    obtain ⟨u, hr, hf⟩ := attains_most hjwt secret db hn
    rw [← hf.ncard]
    exact hall u hr
  · intro hbound u hr
    have hroom : u.Room n := hr.invariant (room_new db n) fun _ _ h hc hu => room_step h hc hu
    have := hroom.room
    omega

/-- One upload after the other. -/
theorem keys_bounded_one :
    (∀ u, ReachableUnder (step .plain ['s']) (AtOnce 1) Counts (new []) u →
      u.manager.keyIds.ncard ≤ 100) ↔ 99 + 1 ≤ 100 :=
  keys_bounded_iff Jsonwebtoken.plain_lawful ['s'] [] Nat.one_pos 100

end

end KeyUploads

end Oxmux.System
