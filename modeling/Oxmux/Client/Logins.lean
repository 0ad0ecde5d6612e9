import Oxmux.Client.Handlers
import Oxmux.Client.Sockets
import Oxmux.Lib.Runs

/-! Logins and the sockets they make. `App.vue` connects the store for the user
that is logged in, `stores/auth.ts` holds the token, and a lost socket is made
anew with the URL that it had. -/

namespace Oxmux.Client
open Oxmux.Lib Oxmux.Lib.Runs

inductive CheckAuth where
  | ok
  | refused
  | failed
  deriving DecidableEq

/-- The store with `auth.token`, the URLs of its sockets, and the one that the
reconnect timer was given. -/
structure Logins where
  store : Store
  token : Option Text
  urls : List Text
  timerUrl : Option Text

inductive LoginEvent where
  | login (token : Text)
  | logout
  | mounted (answer : CheckAuth)
  | opened (socket : Nat)
  | closing (socket : Nat)
  | error (socket : Nat)
  | closed (socket : Nat)
  | reconnectTimer
  | other (e : { e : Event // e.ofSocket = false })

namespace Logins

/-- The page is loaded, with the token of the local storage. -/
def new (token : Option Text) : Logins := { store := .new, token, urls := [], timerUrl := none }

/-- `!!token.value`. -/
def isAuthenticated (l : Logins) : Bool := l.token.any (· ≠ [])

/-- A socket is made for the URL, unless `ws` is open. -/
def make (f : Store → Store) (url : Text) (l : Logins) : Logins :=
  { l with
    store := f l.store
    urls := if l.store.ws.elim false (fun socket => l.store.isOpen socket) then l.urls
      else l.urls ++ [url] }

def connect (url : Text) (l : Logins) : Logins := l.make Store.connect url

/-- `auth.logout`. -/
def logout (l : Logins) : Logins := { l with token := none }

def checkAuth (answer : CheckAuth) (l : Logins) : Logins :=
  if l.isAuthenticated && answer = .refused then l.logout else l

section
variable (origin : Text)

/-- The `wsUrl` of `connectWs`, behind protocol and host. -/
def wsUrl (token : Text) : Text := origin ++ "/ws?token=".toList ++ token

def connectWs (l : Logins) : Logins :=
  match l.token with
  | some token => if token = [] then l else l.connect (wsUrl origin token)
  | none => l

/-- A new token; the watcher of `isAuthenticated` connects when that turns true. -/
def login (token : Text) (l : Logins) : Logins :=
  let l' := { l with token := some token }
  if l'.isAuthenticated && !l.isAuthenticated then l'.connectWs origin else l'

def mounted (answer : CheckAuth) (l : Logins) : Logins :=
  let l := l.checkAuth answer
  if l.isAuthenticated then l.connectWs origin else l

def step (l : Logins) : LoginEvent → Logins
  | .login token => l.login origin token
  | .logout => l.logout
  | .mounted answer => l.mounted origin answer
  | .opened socket => { l with store := l.store.step (.opened socket) }
  | .closing socket => { l with store := l.store.step (.closing socket) }
  | .error socket =>
    if l.store.sockets[socket]? = some .closing then
      { l with store := { l.store with connectionStatus := .reconnecting } }
    else l
  | .closed socket =>
    if l.store.sockets[socket]? = some .closing then
      { l with store := l.store.onClose socket, timerUrl := l.urls[socket]? }
    else l
  | .reconnectTimer =>
    match l.timerUrl with
    | some url => if l.store.reconnectTimeout then l.make Store.reconnect url else l
    | none => l
  | .other e => { l with store := l.store.step e.val }

/-! ## The sender of the current login -/

/-- The most recently created socket, where it is open. -/
def LatestOpen (l : Logins) (socket : Nat) : Prop :=
  socket + 1 = l.store.sockets.length ∧ l.store.isOpen socket = true

def OpenedFor (l : Logins) (socket : Nat) (token : Option Text) : Prop :=
  ∃ t, token = some t ∧ l.urls[socket]? = some (wsUrl origin t)

/-- **The sender belongs to the current login**: the latest socket, where it is
open, is written to and was opened with the current token. -/
def Belongs (l : Logins) : Prop :=
  ∀ socket, l.LatestOpen socket →
    l.store.wsSend = some socket ∧ l.OpenedFor origin socket l.token

/-- The step keeps the sender with the login: the token changes only while the
latest socket is not open or was opened with the new one, a socket that opens is
the latest and was made for the current token, or the latest is not open, and no
other socket closes while the latest is open. -/
def KeepsSender (l : Logins) : LoginEvent → Prop
  | .login token => ∀ socket, l.LatestOpen socket → l.OpenedFor origin socket (some token)
  | .logout => ∀ socket, ¬ l.LatestOpen socket
  | .mounted answer =>
    l.isAuthenticated = true → answer = .refused → ∀ socket, ¬ l.LatestOpen socket
  | .opened socket => l.store.sockets[socket]? = some .connecting →
    if socket + 1 = l.store.sockets.length then l.OpenedFor origin socket l.token
    else ∀ socket', ¬ l.LatestOpen socket'
  | .closed socket => l.store.sockets[socket]? = some .closing → ∀ socket', ¬ l.LatestOpen socket'
  | _ => True

end

/-! ## Sockets and their URLs -/

/-- `ws` is the latest socket, and every socket has its URL. -/
structure Numbered (l : Logins) : Prop where
  ws : ∀ socket, socket + 1 = l.store.sockets.length → l.store.ws = some socket
  urls : l.urls.length = l.store.sockets.length

variable {origin : Text} {l l' : Logins}

theorem numbered_new (token : Option Text) : (new token).Numbered :=
  ⟨fun _ h => absurd h (by simp [new, Store.new]), rfl⟩

theorem Numbered.of_eq (h : l.Numbered) (hw : l'.store.ws = l.store.ws)
    (hs : l'.store.sockets.length = l.store.sockets.length) (hu : l'.urls = l.urls) :
    l'.Numbered :=
  ⟨by rw [hw, hs]; exact h.ws, by rw [hu, hs]; exact h.urls⟩

/-- `ws` is open exactly when the latest socket is. -/
theorem Numbered.wsOpen_iff (h : l.Numbered) :
    l.store.ws.elim false (fun socket => l.store.isOpen socket) = true ↔
      ∃ socket, l.LatestOpen socket := by
  constructor
  · intro ho
    cases hw : l.store.ws with
    | none => simp [hw] at ho
    | some k =>
      rw [hw, Option.elim_some] at ho
      have hlt := (List.getElem?_eq_some_iff.mp (Store.isOpen_iff.mp ho)).1
      have hlast := h.ws (l.store.sockets.length - 1) (by omega)
      obtain rfl : k = l.store.sockets.length - 1 := Option.some.inj (hw.symm.trans hlast)
      exact ⟨_, by omega, ho⟩
  · rintro ⟨k, hk, ho⟩
    rw [h.ws k hk]
    exact ho

theorem belongs_of_not_latestOpen (h : ∀ socket, ¬ l.LatestOpen socket) : l.Belongs origin :=
  fun socket ho => absurd ho (h socket)

theorem belongs_congr (hs : l'.store.sockets = l.store.sockets)
    (hw : l'.store.wsSend = l.store.wsSend) (ht : l'.token = l.token) (hu : l'.urls = l.urls) :
    l'.Belongs origin ↔ l.Belongs origin := by
  simp only [Belongs, LatestOpen, OpenedFor, Store.isOpen, hs, hw, ht, hu]

/-! ## Connecting -/

/-- What `connect` does: nothing while `ws` is open, else a socket. -/
structure Made (s s' : Store) : Prop where
  kept : s.ws.elim false (fun socket => s.isOpen socket) = true →
    s'.sockets = s.sockets ∧ s'.wsSend = s.wsSend ∧ s'.ws = s.ws
  made : ¬ s.ws.elim false (fun socket => s.isOpen socket) = true →
    s'.sockets = s.sockets ++ [.connecting] ∧ s'.ws = some s.sockets.length

theorem made_connect (s : Store) : Made s s.connect := by
  unfold Store.connect
  split
  · next h => exact ⟨fun _ => ⟨rfl, rfl, rfl⟩, fun hn => absurd h hn⟩
  · next h => exact ⟨fun ho => absurd ho h, fun _ => ⟨rfl, rfl⟩⟩

theorem made_reconnect (s : Store) : Made s s.reconnect := by
  obtain ⟨hkept, hmade⟩ := made_connect
    { s with reconnectTimeout := false, backoffMs := min (s.backoffMs * 2) 30000 }
  exact ⟨hkept, hmade⟩

section
variable {f : Store → Store} (hn : l.Numbered) (hf : Made l.store (f l.store)) (url : Text)
include hn hf

theorem numbered_make : (l.make f url).Numbered := by
  unfold make
  by_cases ho : l.store.ws.elim false (fun socket => l.store.isOpen socket) = true
  · obtain ⟨hs, -, hw⟩ := hf.kept ho
    exact hn.of_eq hw (congrArg List.length hs) (if_pos ho)
  · obtain ⟨hs, hw⟩ := hf.made ho
    refine ⟨fun socket h => ?_, ?_⟩
    · simp only [hs, List.length_append, List.length_singleton] at h
      rw [hw, show l.store.sockets.length = socket by omega]
    · simp [if_neg ho, hs, hn.urls]

/-- A new socket is not open. -/
theorem belongs_make_iff : (l.make f url).Belongs origin ↔ l.Belongs origin := by
  by_cases ho : l.store.ws.elim false (fun socket => l.store.isOpen socket) = true
  · obtain ⟨hs, hw, -⟩ := hf.kept ho
    exact belongs_congr hs hw rfl (if_pos ho)
  · obtain ⟨hs, -⟩ := hf.made ho
    refine iff_of_true (belongs_of_not_latestOpen ?_)
      (belongs_of_not_latestOpen fun socket h => ho (hn.wsOpen_iff.mpr ⟨socket, h⟩))
    rintro socket ⟨hlast, hopen⟩
    have hget : (l.make f url).store.sockets = l.store.sockets ++ [.connecting] := hs
    rw [hget, List.length_append, List.length_singleton] at hlast
    rw [Store.isOpen_iff, hget, show socket = l.store.sockets.length by omega] at hopen
    simp at hopen

end

theorem Numbered.checkAuth (hn : l.Numbered) (answer : CheckAuth) :
    (l.checkAuth answer).Numbered := by
  unfold Logins.checkAuth
  split
  · exact hn.of_eq rfl rfl rfl
  · exact hn

theorem numbered_connectWs (hn : l.Numbered) (origin : Text) : (l.connectWs origin).Numbered := by
  unfold connectWs
  split
  · split
    · exact hn
    · exact numbered_make hn (made_connect _) _
  · exact hn

theorem belongs_connectWs_iff (hn : l.Numbered) :
    (l.connectWs origin).Belongs origin ↔ l.Belongs origin := by
  unfold connectWs
  split
  · split
    · exact Iff.rfl
    · exact belongs_make_iff hn (made_connect _) _
  · exact Iff.rfl

theorem belongs_token_iff (h : l.Belongs origin) (token : Option Text) :
    Belongs origin { l with token } ↔
      ∀ socket, l.LatestOpen socket → l.OpenedFor origin socket token :=
  ⟨fun h' socket ho => (h' socket ho).2, fun ht socket ho => ⟨(h socket ho).1, ht socket ho⟩⟩

theorem belongs_logout_iff (h : l.Belongs origin) :
    l.logout.Belongs origin ↔ ∀ socket, ¬ l.LatestOpen socket := by
  refine (belongs_token_iff h none).trans (forall_congr' fun socket => imp_congr_right fun _ => ?_)
  simp [OpenedFor]

theorem belongs_checkAuth_iff (h : l.Belongs origin) (answer : CheckAuth) :
    (l.checkAuth answer).Belongs origin ↔ l.KeepsSender origin (.mounted answer) := by
  simp only [Logins.checkAuth, KeepsSender]
  cases ha : l.isAuthenticated with
  | false => simpa using h
  | true =>
    by_cases hr : answer = .refused
    · simpa [hr] using belongs_logout_iff h
    · simpa [hr] using h

/-! ## One step -/

theorem numbered_step (hn : l.Numbered) (e : LoginEvent) : (l.step origin e).Numbered := by
  cases e with
  | login token =>
    simp only [step, login]
    have hn' : Numbered { l with token := some token } := hn.of_eq rfl rfl rfl
    split
    · exact numbered_connectWs hn' origin
    · exact hn'
  | logout => exact hn.of_eq rfl rfl rfl
  | mounted answer =>
    have hn' := hn.checkAuth answer
    simp only [step, mounted]
    split
    · exact numbered_connectWs hn' origin
    · exact hn'
  | opened socket =>
    simp only [step, Store.step]
    split
    · exact hn.of_eq (l.store.drops_onOpen socket).ws
        (by simp [(l.store.wrote_onOpen socket).sockets, Store.opened]) rfl
    · exact hn
  | closing socket =>
    simp only [step, Store.step]
    split
    · exact hn.of_eq rfl (by simp) rfl
    · exact hn
  | error socket =>
    simp only [step]
    split
    · exact hn.of_eq rfl rfl rfl
    · exact hn
  | closed socket =>
    simp only [step]
    split
    · exact hn.of_eq rfl (by simp [Store.onClose]) rfl
    · exact hn
  | reconnectTimer =>
    simp only [step]
    split
    · split
      · exact numbered_make hn (made_reconnect _) _
      · exact hn
    · exact hn
  | other e =>
    exact hn.of_eq (Store.ws_step e.property l.store)
      (congrArg List.length (Store.wrote_step e.property l.store).sockets) rfl

theorem belongs_opened_iff {socket : Nat}
    (hc : l.store.sockets[socket]? = some .connecting) :
    Belongs origin { l with store := l.store.onOpen socket } ↔
      if socket + 1 = l.store.sockets.length then l.OpenedFor origin socket l.token
      else ∀ socket', ¬ l.LatestOpen socket' := by
  have hlt := (List.getElem?_eq_some_iff.mp hc).1
  have hs : (l.store.onOpen socket).sockets = l.store.sockets.set socket .open :=
    (l.store.wrote_onOpen socket).sockets
  have hw : (l.store.onOpen socket).wsSend = some socket := (l.store.wrote_onOpen socket).wsSend
  have hlatest (k : Nat) : LatestOpen { l with store := l.store.onOpen socket } k ↔
      k + 1 = l.store.sockets.length ∧ (k = socket ∨ l.store.isOpen k = true) := by
    simp only [LatestOpen, Store.isOpen_iff, hs, List.length_set, List.getElem?_set]
    by_cases hk : socket = k
    · simp [hk, hk ▸ hlt]
    · simp [hk, Ne.symm hk]
  unfold Belongs
  simp only [hlatest, hw]
  split
  · next hlast =>
    constructor
    · exact fun h' => (h' socket ⟨hlast, .inl rfl⟩).2
    · rintro ho k ⟨hk, -⟩
      obtain rfl : k = socket := by omega
      exact ⟨rfl, ho⟩
  · next hlast =>
    constructor
    · rintro h' k ⟨hk, ho⟩
      obtain rfl : socket = k := Option.some.inj (h' k ⟨hk, .inr ho⟩).1
      exact hlast hk
    · rintro hnone k ⟨hk, rfl | ho⟩
      · exact absurd hk hlast
      · exact absurd ⟨hk, ho⟩ (hnone k)

theorem belongs_closed_iff {socket : Nat} (hc : l.store.sockets[socket]? = some .closing) :
    Belongs origin { l with store := l.store.onClose socket, timerUrl := l.urls[socket]? } ↔
      ∀ socket', ¬ l.LatestOpen socket' := by
  have hlatest (k : Nat) :
      LatestOpen { l with store := l.store.onClose socket, timerUrl := l.urls[socket]? } k ↔
        l.LatestOpen k := by
    simp only [LatestOpen, Store.isOpen_iff, Store.onClose, List.length_set, List.getElem?_set]
    by_cases hk : socket = k
    · subst hk
      simp [hc]
    · simp [hk]
  unfold Belongs
  simp only [hlatest]
  constructor
  · intro h' k hk
    exact absurd (h' k hk).1 (by simp [Store.onClose])
  · exact fun hnone k hk => absurd hk (hnone k)

theorem belongs_step_iff (hn : l.Numbered) (h : l.Belongs origin) (e : LoginEvent) :
    (l.step origin e).Belongs origin ↔ l.KeepsSender origin e := by
  cases e with
  | login token =>
    have hn' : Numbered { l with token := some token } := hn.of_eq rfl rfl rfl
    refine Iff.trans ?_ (belongs_token_iff h (some token))
    simp only [step, login]
    split
    · exact belongs_connectWs_iff hn'
    · exact Iff.rfl
  | logout => exact belongs_logout_iff h
  | mounted answer =>
    refine Iff.trans ?_ (belongs_checkAuth_iff h answer)
    simp only [step, mounted]
    split
    · exact belongs_connectWs_iff (hn.checkAuth answer)
    · exact Iff.rfl
  | opened socket =>
    simp only [step, Store.step, KeepsSender]
    by_cases hc : l.store.sockets[socket]? = some .connecting
    · rw [if_pos hc]
      exact (belongs_opened_iff hc).trans (imp_iff_right hc).symm
    · rw [if_neg hc]
      exact iff_of_true h fun h' => absurd h' hc
  | closing socket =>
    refine iff_of_true ?_ trivial
    simp only [step, Store.step]
    split
    · rintro k ⟨hk, ho⟩
      exact h k ⟨by simpa using hk, Store.isOpen_of_set (by simp) rfl ho⟩
    · exact h
  | error socket =>
    refine iff_of_true ?_ trivial
    simp only [step]
    split
    · exact (belongs_congr rfl rfl rfl rfl).mpr h
    · exact h
  | closed socket =>
    simp only [step, KeepsSender]
    by_cases hc : l.store.sockets[socket]? = some .closing
    · rw [if_pos hc]
      exact (belongs_closed_iff hc).trans (imp_iff_right hc).symm
    · rw [if_neg hc]
      exact iff_of_true h fun h' => absurd h' hc
  | reconnectTimer =>
    refine iff_of_true ?_ trivial
    simp only [step]
    split
    · split
      · exact (belongs_make_iff hn (made_reconnect _) _).mpr h
      · exact h
    · exact h
  | other e =>
    have hw := Store.wrote_step e.property l.store
    have hiff := @belongs_congr origin l (l.step origin (.other e)) hw.sockets hw.wsSend rfl rfl
    exact iff_of_true (hiff.mpr h) trivial

/-! ## Runs -/

/-- **The sender belongs to the current login in every state of a run exactly
when every step of it keeps it so.** -/
theorem belongs_iff_keepsSender (origin : Text) (token : Option Text) (es : List LoginEvent) :
    Always (step origin) (Belongs origin) (new token) es ↔
      EachStep (step origin) (KeepsSender origin) (new token) es :=
  always_iff_eachStep (belongs_of_not_latestOpen fun _ ho => absurd ho.1 (by simp [new, Store.new]))
    (numbered_new token) (fun _ e hn h => belongs_step_iff hn h e)
    (fun _ e hn _ _ => numbered_step hn e) es

/-- User `a` logs in, the socket opens, `a` logs out and `b` logs in: the sender
is still the socket of `a`. -/
theorem second_login_keeps_socket :
    ¬ Always (step []) (Belongs []) (new none)
      [.login ['a'], .opened 0, .logout, .login ['b']] := by
  intro h
  have hlast := h.last 0 ⟨by decide +kernel, by decide +kernel⟩
  obtain ⟨t, ht, hu⟩ := hlast.2
  obtain rfl : ['b'] = t := Option.some.inj ht
  revert hu
  decide +kernel

end Logins

end Oxmux.Client
