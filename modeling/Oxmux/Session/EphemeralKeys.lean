import Oxmux.Session.Durable

/-! The uploaded keys (`ephemeral_keys` of `server/src/session/manager.rs`) and the
sessions that log in with them (`SshTransport::connect` in
`server/src/session/ssh_transport.rs`). A key is only in memory: the deletion of
one session takes it away from every other session that names it. -/

namespace Oxmux.Session
open Oxmux.Lib Oxmux.Lib.Runs

/-- The uploaded key that a configuration names, with the passphrase beside it. -/
def TransportConfig.uploadedKey (config : TransportConfig) : Option (Text × Option Text) :=
  match config.backend with
  | .ssh _ _ _ (.uploadedKey keyId passphrase) => some (keyId, passphrase)
  | _ => none

/-- The key that a session names is found, and `decode_secret_key` takes it. -/
def unlocks (decode : Text → Option Text → Bool) (keys : Text → Option (Text × Option Text))
    (used : Text × Option Text) : Bool :=
  match SshTransport.uploadedKey keys used.1 used.2 with
  | .ok (key, pass) => decode key pass
  | .error _ => false

def SessionRow.uploadedKey (row : SessionRow) : Option (Text × Option Text) :=
  (rowToManagedSession row).bind (·.transport.uploadedKey)

def Columns.uploadedKey (c : Columns) : Option (Text × Option Text) :=
  (storedConfig c.transportConfig).bind (·.uploadedKey)

namespace SessionManager

/-- Every session that is stored, and every one in memory, can log in with the key
that it names. -/
structure Serves (decode : Text → Option Text → Bool) (m : SessionManager) : Prop where
  stored : ∀ row ∈ m.db, ∀ used ∈ row.uploadedKey, unlocks decode m.ephemeralKeys used = true
  memory : ∀ id entry, m.sessions id = some entry → ∀ host port user keyId passphrase,
    entry.transport.backend = .ssh host port user (.uploadedKey keyId passphrase) →
      unlocks decode m.ephemeralKeys (keyId, passphrase) = true

/-- A session that is stored names a key that takes it in; a session that is
deleted is the only one with its key, and its row goes too; an upload takes no
session's key away. -/
def KeepsServing (decode : Text → Option Text → Bool) (m : SessionManager) : Op → Prop
  | .create env _ req => env.dbWrite 0 = true → env.uuid ∉ m.db.map (·.id) →
      ∀ used ∈ req.transport.uploadedKey, unlocks decode m.ephemeralKeys used = true
  | .delete env id => ∀ entry, m.sessions id = some entry → ∀ keyId,
      uploadedKeyId entry.metadata = some keyId →
        ∀ row ∈ m.db, ∀ used ∈ row.uploadedKey, used.1 = keyId →
          env.dbWrite 0 = true ∧ row.id.val = id
  | .uploadKey keyId key passphrase => ∀ row ∈ m.db, ∀ used ∈ row.uploadedKey,
      used.1 = keyId.val → decode key (decodePass key (passphrase.or used.2)) = true
  | _ => True

end SessionManager

/-! ## One key -/

section
variable {decode : Text → Option Text → Bool} {keys : Text → Option (Text × Option Text)}
  {used : Text × Option Text} {keyId : Text}

/-- Only the key that is named matters. -/
theorem unlocks_update_of_ne (h : used.1 ≠ keyId) (key : Option (Text × Option Text)) :
    unlocks decode (Function.update keys keyId key) used = unlocks decode keys used := by
  rw [unlocks, unlocks, SshTransport.uploadedKey, SshTransport.uploadedKey,
    Function.update_of_ne h]

/-- A key that is gone takes nobody in. -/
theorem unlocks_removed (h : unlocks decode keys used = true) :
    unlocks decode (Function.update keys keyId none) used = true ↔ used.1 ≠ keyId := by
  by_cases hk : used.1 = keyId
  · have hnone : unlocks decode (Function.update keys keyId none) used = false := by
      rw [unlocks, SshTransport.uploadedKey, hk, Function.update_self]
    simp [hnone, hk]
  · rw [unlocks_update_of_ne hk]
    exact iff_of_true h hk

/-- A key that is stored takes in whom it is decoded for. -/
theorem unlocks_stored (h : unlocks decode keys used = true) (key : Text) (pass : Option Text) :
    unlocks decode (Function.update keys keyId (some (key, pass))) used = true ↔
      (used.1 = keyId → decode key (decodePass key (pass.or used.2)) = true) := by
  by_cases hk : used.1 = keyId
  · rw [unlocks, SshTransport.uploadedKey, hk, Function.update_self]
    simp
  · rw [unlocks_update_of_ne hk]
    exact iff_of_true h fun he => absurd he hk

end

/-! ## The table -/

theorem uploadedKey_columns (row : SessionRow) : row.columns.uploadedKey = row.uploadedKey := by
  rw [SessionRow.uploadedKey, rowToManagedSession, Option.bind_map]
  rfl

theorem uploadedKey_eq_some {config : TransportConfig} {keyId : Text} {passphrase : Option Text} :
    config.uploadedKey = some (keyId, passphrase) ↔
      ∃ host port user, config.backend = .ssh host port user (.uploadedKey keyId passphrase) := by
  unfold TransportConfig.uploadedKey
  split
  · next host port user keyId' passphrase' hb => simp [hb]
  · next hno =>
    constructor
    · intro h
      cases h
    · rintro ⟨host, port, user, hb⟩
      exact absurd hb (hno _ _ _ _ _)

/-- Every row of the table names a key that takes its session in. -/
def Books.Unlocked (decode : Text → Option Text → Bool)
    (keys : Text → Option (Text × Option Text)) (b : Books) : Prop :=
  ∀ c ∈ b.table, ∀ used ∈ c.uploadedKey, unlocks decode keys used = true

namespace SessionManager

section
variable {decode : Text → Option Text → Bool} {m : SessionManager}

theorem stored_iff_unlocked : (∀ row ∈ m.db, ∀ used ∈ row.uploadedKey,
    unlocks decode m.ephemeralKeys used = true) ↔ m.books.Unlocked decode m.ephemeralKeys := by
  constructor
  · intro h c hc
    obtain ⟨row, hm, rfl⟩ := List.mem_map.mp hc
    rw [uploadedKey_columns]
    exact h row hm
  · intro h row hm
    have hrow := h row.columns (List.mem_map_of_mem hm)
    rwa [uploadedKey_columns] at hrow

/-- The table answers for the sessions in memory. -/
theorem serves_iff_unlocked (hb : m.books.Sound) :
    m.Serves decode ↔ m.books.Unlocked decode m.ephemeralKeys := by
  rw [← stored_iff_unlocked]
  refine ⟨fun h => h.stored, fun h => ⟨h, fun id entry hs host port user keyId pp hk => ?_⟩⟩
  obtain ⟨hbackend, c, hc, -, hcfg⟩ :=
    hb.backed id entry.address (Option.map_eq_some_iff.mpr ⟨entry, hs, rfl⟩)
  refine stored_iff_unlocked.mp h c hc (keyId, pp) ?_
  rw [Columns.uploadedKey, hcfg, Option.bind_some]
  exact uploadedKey_eq_some.mpr ⟨host, port, user, hbackend.symm.trans hk⟩

/-! ## The keys -/

theorem ephemeralKeys_updateSessionStatus (ok : Bool) (id : Text) (status : SessionStatus)
    (error : Option Text) (m : SessionManager) :
    (m.updateSessionStatus ok id status error).ephemeralKeys = m.ephemeralKeys := by
  unfold updateSessionStatus
  split <;> rfl

/-- Only a deletion and an upload touch the keys. -/
theorem ephemeralKeys_apply {op : Op} (hdel : ∀ env id, op ≠ .delete env id)
    (hup : ∀ keyId key pass, op ≠ .uploadKey keyId key pass) :
    (m.apply op).ephemeralKeys = m.ephemeralKeys := by
  cases op with
  | create env userId req =>
    change (m.create env userId req).1.ephemeralKeys = m.ephemeralKeys
    unfold create
    split <;> rfl
  | load env userId =>
    change (m.loadUserSessions env userId).1.ephemeralKeys = m.ephemeralKeys
    unfold loadUserSessions
    split
    · exact (loadRows_frame _ m).2.2
    · rfl
  | update env id req =>
    change (m.update env id req).1.ephemeralKeys = m.ephemeralKeys
    unfold update
    cases hs : m.sessions id with
    | none => rfl
    | some entry =>
      cases req.name with
      | none => rfl
      | some name =>
        simp only
        split <;> rfl
  | delete env id => exact absurd rfl (hdel env id)
  | connect env id =>
    change (m.connect env id).1.ephemeralKeys = m.ephemeralKeys
    unfold connect
    cases m.sessions id with
    | none => rfl
    | some entry =>
      cases env.connect with
      | none =>
        exact (ephemeralKeys_updateSessionStatus ..).trans (ephemeralKeys_updateSessionStatus ..)
      | some failure =>
        exact (ephemeralKeys_updateSessionStatus ..).trans (ephemeralKeys_updateSessionStatus ..)
  | disconnect env id =>
    change (m.disconnect env id).1.ephemeralKeys = m.ephemeralKeys
    unfold disconnect
    simp only
    split
    · rfl
    · exact ephemeralKeys_updateSessionStatus ..
  | refresh env id =>
    change (m.refreshTmuxState env id).1.ephemeralKeys = m.ephemeralKeys
    unfold refreshTmuxState
    cases m.sessions id with
    | none => rfl
    | some entry =>
      simp only
      split <;> rfl
  | execute cmd =>
    change (m.executeOnPane cmd).1.ephemeralKeys = m.ephemeralKeys
    unfold executeOnPane
    cases m.paneToSession (commandPane cmd) with
    | none => rfl
    | some id =>
      cases hs : m.sessions id with
      | none =>
        simp only [hs]
      | some entry =>
        simp only [hs]
        split <;> rfl
  | uploadKey keyId key passphrase => exact absurd rfl (hup keyId key passphrase)

/-! ## One operation -/

/-- An operation that leaves the keys and what the rows name. -/
theorem unlocked_same {m' : SessionManager} (h : m.books.Unlocked decode m.ephemeralKeys)
    (hk : m'.ephemeralKeys = m.ephemeralKeys)
    (ht : ∀ c ∈ m'.books.table, ∃ c' ∈ m.books.table, c.uploadedKey = c'.uploadedKey) :
    m'.books.Unlocked decode m'.ephemeralKeys := by
  intro c hc used hu
  obtain ⟨c', hc', he⟩ := ht c hc
  rw [hk]
  exact h c' hc' used (he ▸ hu)

/-- What a row names that a session is stored with. -/
theorem uploadedKey_create (c : Columns) (config : TransportConfig) :
    ({ c with transportConfig := config.toJson } : Columns).uploadedKey = config.uploadedKey := by
  rw [Columns.uploadedKey, storedConfig, TransportConfig.ofJson_toJson]
  rfl

theorem unlocked_create_iff (h : m.books.Unlocked decode m.ephemeralKeys) (env : Env)
    (userId : Text) (req : CreateSessionRequest) :
    (m.create env userId req).1.books.Unlocked decode (m.create env userId req).1.ephemeralKeys ↔
      m.KeepsServing decode (.create env userId req) := by
  have hkeys : (m.apply (.create env userId req)).ephemeralKeys = m.ephemeralKeys :=
    ephemeralKeys_apply (by simp) (by simp)
  rw [apply] at hkeys
  rw [hkeys, KeepsServing]
  let c : Columns :=
    { id := env.uuid, userId, name := req.name, transportConfig := req.transport.toJson }
  have hc : c.uploadedKey = req.transport.uploadedKey := uploadedKey_create c req.transport
  by_cases hnew : env.dbWrite 0 = true ∧ env.uuid ∉ m.db.map (·.id)
  · have htable : (m.create env userId req).1.books.table = m.books.table ++ [c] := by
      unfold create
      simp only [if_pos hnew]
      exact List.map_append
    simp only [Books.Unlocked, htable, List.forall_mem_append, List.forall_mem_singleton, hc]
    exact ⟨fun hall _ _ => hall.2, fun hall => ⟨h, hall hnew.1 hnew.2⟩⟩
  · have hsame : (m.create env userId req).1 = m := by
      unfold create
      simp only [if_neg hnew]
    rw [hsame]
    exact iff_of_true h fun hw hid => absurd ⟨hw, hid⟩ hnew

theorem mem_table_delete {id : Text} {entry : SessionEntry} (hs : m.sessions id = some entry)
    (env : Env) {c : Columns} : c ∈ (m.delete env id).1.books.table ↔
      c ∈ m.books.table ∧ ¬ (env.dbWrite 0 = true ∧ c.id.val = id) := by
  have hr : (m.removeRoutes id).sessions id = m.sessions id := rfl
  have hdb : (m.delete env id).1.db =
      if env.dbWrite 0 then m.db.filter (·.id.val ≠ id) else m.db := by
    unfold delete
    simp only [hr, hs]
    split <;> rfl
  rw [books, books, hdb]
  split
  · next hw =>
    simp only [List.mem_map, List.mem_filter, decide_eq_true_eq, hw, true_and]
    constructor
    · rintro ⟨row, ⟨hm, hne⟩, rfl⟩
      exact ⟨⟨row, hm, rfl⟩, hne⟩
    · rintro ⟨⟨row, hm, rfl⟩, hne⟩
      exact ⟨row, ⟨hm, hne⟩, rfl⟩
  · next hw => simp [hw]

theorem ephemeralKeys_delete {id : Text} {entry : SessionEntry} (hs : m.sessions id = some entry)
    (env : Env) : (m.delete env id).1.ephemeralKeys = match uploadedKeyId entry.metadata with
      | some keyId => Function.update m.ephemeralKeys keyId none
      | none => m.ephemeralKeys := by
  have hr : (m.removeRoutes id).sessions id = m.sessions id := rfl
  unfold delete
  simp only [hr, hs]
  split <;> rfl

theorem unlocked_delete_iff (h : m.books.Unlocked decode m.ephemeralKeys) (env : Env) (id : Text) :
    (m.delete env id).1.books.Unlocked decode (m.delete env id).1.ephemeralKeys ↔
      m.KeepsServing decode (.delete env id) := by
  rw [KeepsServing]
  cases hs : m.sessions id with
  | none =>
    have hr : (m.removeRoutes id).sessions id = m.sessions id := rfl
    have hsame : (m.delete env id).1 = m.removeRoutes id := by
      unfold delete
      simp only [hr, hs]
    rw [hsame]
    exact iff_of_true h fun entry he => by cases he
  | some entry =>
    rw [Books.Unlocked, ephemeralKeys_delete hs]
    simp only [mem_table_delete hs, Option.some.injEq, forall_eq']
    cases uploadedKeyId entry.metadata with
    | none => exact iff_of_true (fun c hc => h c hc.1) (by simp)
    | some keyId =>
      simp only [Option.some.injEq, forall_eq']
      constructor
      · intro hall row hm used hu hk
        by_contra hno
        have hrow := List.mem_map_of_mem (f := SessionRow.columns) hm
        rw [← uploadedKey_columns] at hu
        exact (unlocks_removed (h _ hrow used hu)).mp (hall _ ⟨hrow, hno⟩ used hu) hk
      · rintro hall c ⟨hc, hno⟩ used hu
        rw [unlocks_removed (h c hc used hu)]
        intro hk
        obtain ⟨row, hm, rfl⟩ := List.mem_map.mp hc
        rw [uploadedKey_columns] at hu
        exact hno (hall row hm used hu hk)

theorem unlocked_uploadKey_iff (h : m.books.Unlocked decode m.ephemeralKeys) (keyId : Uuid)
    (key : Text) (pass : Option Text) :
    (m.insertEphemeralKey keyId key pass).books.Unlocked decode
        (m.insertEphemeralKey keyId key pass).ephemeralKeys ↔
      m.KeepsServing decode (.uploadKey keyId key pass) := by
  constructor
  · intro hall row hm used hu hk
    have hrow := List.mem_map_of_mem (f := SessionRow.columns) hm
    rw [← uploadedKey_columns] at hu
    exact (unlocks_stored (h _ hrow used hu) key pass).mp (hall _ hrow used hu) hk
  · intro hall c hc used hu
    refine (unlocks_stored (h c hc used hu) key pass).mpr fun hk => ?_
    obtain ⟨row, hm, rfl⟩ := List.mem_map.mp hc
    rw [uploadedKey_columns] at hu
    exact hall row hm used hu hk

theorem mem_table_update {env : Env} {id : Text} {req : UpdateSessionRequest} {c : Columns}
    (h : c ∈ (m.update env id req).1.books.table) :
    ∃ c' ∈ m.books.table, c.uploadedKey = c'.uploadedKey := by
  cases hs : m.sessions id with
  | none =>
    rw [update_eq_self (.inl hs)] at h
    exact ⟨c, h, rfl⟩
  | some entry =>
    cases hn : req.name with
    | none =>
      rw [update_eq_self (.inr hn)] at h
      exact ⟨c, h, rfl⟩
    | some name =>
      rw [books_update hs hn] at h
      unfold Books.rename at h
      split at h
      · obtain ⟨c', hc', rfl⟩ := List.mem_map.mp h
        refine ⟨c', hc', ?_⟩
        split <;> rfl
      · exact ⟨c, h, rfl⟩

/-- **One operation.** Sessions that can log in still can behind it exactly under
its condition. -/
theorem serves_apply_iff (hb : m.books.Sound) (h : m.Serves decode) (op : Op) :
    (m.apply op).Serves decode ↔ m.KeepsServing decode op := by
  rw [serves_iff_unlocked (sound_books_apply hb op)]
  have hu := (serves_iff_unlocked hb).mp h
  have hsame (hk : (m.apply op).ephemeralKeys = m.ephemeralKeys)
      (ht : (m.apply op).books.table = m.books.table) :
      (m.apply op).books.Unlocked decode (m.apply op).ephemeralKeys :=
    unlocked_same hu hk fun c hc => ⟨c, ht ▸ hc, rfl⟩
  cases op with
  | create env userId req => exact unlocked_create_iff hu env userId req
  | delete env id => exact unlocked_delete_iff hu env id
  | uploadKey keyId key pass => exact unlocked_uploadKey_iff hu keyId key pass
  | load env userId =>
    refine iff_of_true (hsame (ephemeralKeys_apply (by simp) (by simp)) ?_) trivial
    rcases books_load (fun row hm => readable_of_books hb hm) env userId with he | ⟨rows, -, he⟩
    · rw [apply, he]
    · rw [apply, he]
      rfl
  | update env id req =>
    refine iff_of_true (unlocked_same hu (ephemeralKeys_apply (by simp) (by simp)) ?_) trivial
    exact fun c hc => mem_table_update hc
  | connect env id =>
    exact iff_of_true (hsame (ephemeralKeys_apply (by simp) (by simp))
      (by rw [apply, books_connect])) trivial
  | disconnect env id =>
    exact iff_of_true (hsame (ephemeralKeys_apply (by simp) (by simp))
      (by rw [apply, books_disconnect])) trivial
  | refresh env id =>
    exact iff_of_true (hsame (ephemeralKeys_apply (by simp) (by simp))
      (by rw [apply, books_refreshTmuxState])) trivial
  | execute cmd =>
    exact iff_of_true (hsame (ephemeralKeys_apply (by simp) (by simp))
      (by rw [apply, books_executeOnPane])) trivial

/-- **When every session finds its key.** From any state in which all of them do:
in every state of a run, exactly if no session is stored whose key does not take
it in, none is deleted whose key another row names, or whose row stays, and no
upload takes the place of a key in use. -/
theorem serves_iff_keepsServing {db : List SessionRow} (hids : (db.map (·.id)).Nodup)
    (hread : ∀ row ∈ db, (rowToManagedSession row).isSome) (hr : Reachable apply (.new db) m)
    (hs : m.Serves decode) (ops : List Op) :
    Always apply (Serves decode) m ops ↔ EachStep apply (KeepsServing decode) m ops := by
  have hb : m.books.Sound := hr.invariant (P := fun m => m.books.Sound)
    (sound_books_new hids hread) fun _ op h => sound_books_apply h op
  exact always_iff_eachStep (I := fun m => m.books.Sound) hs hb
    (fun _ op hb hs => serves_apply_iff hb hs op) (fun _ op hb _ _ => sound_books_apply hb op) ops

/-! ## A key is shared -/

/-- A key is uploaded, two sessions are created with it, and one is deleted. -/
def sharing : List Op :=
  let transport : TransportConfig :=
    { browser := .websocket, backend := .ssh ['h'] 22 ['u'] (.uploadedKey ['k'] none) }
  [.uploadKey ⟨['k'], by decide⟩ ['p'] none,
    .create (.working uuidA []) ['u'] { name := ['s'], transport },
    .create (.working uuidB []) ['u'] { name := ['t'], transport },
    .delete (.working uuidA []) uuidA.val]

/-- The other session cannot log in any more. -/
theorem serves_iff_keepsServing_shared :
    ¬ Always apply (Serves fun _ _ => true) (new []) sharing := by
  have hs : (new []).Serves fun _ _ => true := ⟨by simp [new], fun _ _ h => by cases h⟩
  have hids : (([] : List SessionRow).map (·.id)).Nodup := List.nodup_nil
  rw [serves_iff_keepsServing hids (fun _ hm => by cases hm) (reachable_init (new [])) hs]
  intro h
  have hdelete := h.2.2.2.1 _ rfl ['k'] rfl _ (List.mem_cons_of_mem _ List.mem_cons_self)
    (['k'], none) (by decide +kernel) rfl
  exact absurd hdelete.2 (by decide)

end

end SessionManager

end Oxmux.Session
