import Oxmux.Lib.Runs
import Oxmux.Session.Carried
import Oxmux.Session.ControlLine
import Oxmux.Session.Report

/-! Where the lines of the SSH transport are addressed. The server looks at no
pane id that a client sends: the routes alone decide, and they have what the
parser took for pane ids when the session was listed. -/

namespace Oxmux.Session
open Oxmux.Lib Oxmux.Lib.Runs

namespace SessionManager

def overSsh (m : SessionManager) (id : Text) : Bool :=
  (m.sessions id).any (·.transport.backend.isSsh)

/-- Every line is one command for the pane of its command. -/
theorem commandFor_controlWrites {cmd : Command} {line : Text} (hl : line ∈ cmd.controlWrites) :
    CommandFor (commandPane cmd) line := by
  cases cmd with
  | input pane data =>
    rw [List.mem_singleton.mp hl]
    exact commandFor_sendInput pane data
  | resize pane cols rows =>
    simp only [Command.controlWrites, SshTransport.resizePane, List.mem_cons, List.not_mem_nil,
      or_false] at hl
    rcases hl with rfl | rfl
    · exact commandFor_resizeCommand (.inl rfl) pane cols rows
    · exact commandFor_resizeCommand (.inr rfl) pane cols rows

/-! ## Runs with tmux -/

/-- An operation, and what tmux answers if it is asked for its panes over SSH. -/
structure Asked where
  op : Op
  answer : Except TransportError (List TmuxPane)

/-- The listing is what the parser makes of tmux's answer. -/
def hearing (answer : Except TransportError (List TmuxPane)) (env : Env) : Env :=
  { env with listing := answer.map fun panes => SshTransport.parsePaneListing (listing panes) }

def answered (m : SessionManager) (a : Asked) : Op :=
  match a.op with
  | .connect env id => if m.overSsh id then .connect (hearing a.answer env) id else a.op
  | .refresh env id => if m.overSsh id then .refresh (hearing a.answer env) id else a.op
  | op => op

/-- The session that an operation lists over SSH, and the panes that tmux reports. -/
def reports (m : SessionManager) (a : Asked) : Option (Text × List TmuxPane) :=
  (m.listed (m.answered a)).bind fun l =>
    if m.overSsh l.1 then a.answer.toOption.map fun panes => (l.1, panes) else none

/-- The manager, and the panes that tmux has reported for each session. -/
structure Watched where
  manager : SessionManager
  reported : Text → List Nat

namespace Watched

def new (db : List SessionRow) : Watched where
  manager := .new db
  reported _ := []

def step (w : Watched) (a : Asked) : Watched where
  manager := w.manager.apply (w.manager.answered a)
  reported :=
    match w.manager.reports a with
    | some (id, panes) => Function.update w.reported id (w.reported id ++ panes.map (·.id))
    | none => w.reported

/-- Every line that was written over SSH is one command for a reported pane. -/
def Targeted (w : Watched) : Prop :=
  ∀ id entry, w.manager.sessions id = some entry → entry.transport.backend.isSsh = true →
    ∀ line ∈ entry.transport.controlWrites,
      ∃ n ∈ w.reported id, CommandFor (paneText n) line

/-- Every route to a session over SSH is for a reported pane. -/
def Routed (w : Watched) : Prop :=
  ∀ pane id, w.manager.paneToSession pane = some id → w.manager.overSsh id = true →
    ∃ n ∈ w.reported id, pane = paneText n

/-- A step that lists a session over SSH enters the reported panes, and nothing else. -/
def Enters (w : Watched) (a : Asked) : Prop :=
  ∀ id panes, w.manager.reports a = some (id, panes) → ∀ pane,
    (w.step a).manager.paneToSession pane =
      if pane ∈ panes.map fun p => paneText p.id then some id
      else w.manager.paneToSession pane

/-- The step lists no session or window whose name contains the separator. -/
def Clean (w : Watched) (a : Asked) : Prop :=
  ∀ id panes, w.manager.reports a = some (id, panes) → ∀ p ∈ panes, p.Unseparated

end Watched

/-! ## One operation -/

section Operation
variable {m : SessionManager} {a : Asked} {id : Text}

theorem overSsh_iff : m.overSsh id = true ↔
    ∃ entry, m.sessions id = some entry ∧ entry.transport.backend.isSsh = true := by
  unfold overSsh
  exact Option.any_eq_true _ _

/-- A transport that is connected over SSH gives what tmux answers. -/
theorem listTmuxSessions_connect {t : Transport} (h : t.backend.isSsh = true) (fresh : Nat)
    (answer : Except TransportError (List TmuxSessionInfo)) :
    (t.connect fresh none).listTmuxSessions answer = answer := by
  unfold Transport.connect Transport.listTmuxSessions
  cases hb : t.backend with
  | ssh host port user auth => rfl
  | agent host port agentId => simp [BackendTransport.isSsh, hb] at h
  | «local» => simp [BackendTransport.isSsh, hb] at h

theorem listTmuxSessions_ok {t : Transport} {tree : List TmuxSessionInfo}
    {answer : Except TransportError (List TmuxSessionInfo)}
    (h : (t.listTmuxSessions answer).toOption = some tree) : answer.toOption = some tree := by
  unfold Transport.listTmuxSessions at h
  split at h
  · cases h
  · cases h
  · exact h

/-- A connect over SSH lists what tmux answers, or nothing. -/
theorem listed_connect {env : Env} {id' : Text} {tree : List TmuxSessionInfo}
    (h : m.listed (.connect env id') = some (id, tree)) :
    id = id' ∧ (m.overSsh id' = true → tree = env.listing.toOption.getD []) := by
  simp only [listed] at h
  split at h
  · next entry hs hc =>
    simp only [Option.some.injEq, Prod.mk.injEq] at h
    refine ⟨h.1.symm, fun hssh => ?_⟩
    obtain ⟨entry', hs', hb⟩ := overSsh_iff.mp hssh
    obtain rfl := Option.some.inj (hs.symm.trans hs')
    rw [← h.2, listTmuxSessions_connect hb]
  · cases h

theorem listed_refresh {env : Env} {id' : Text} {tree : List TmuxSessionInfo}
    (h : m.listed (.refresh env id') = some (id, tree)) :
    id = id' ∧ env.listing.toOption = some tree := by
  obtain ⟨entry, -, h⟩ := Option.bind_eq_some_iff.mp h
  obtain ⟨tree', ht, he⟩ := Option.map_eq_some_iff.mp h
  cases he
  exact ⟨rfl, listTmuxSessions_ok ht⟩

/-- What an operation lists over SSH is what the parser makes of tmux's answer. -/
theorem tree_answered {tree : List TmuxSessionInfo}
    (hl : m.listed (m.answered a) = some (id, tree)) (hssh : m.overSsh id = true) :
    tree = ((a.answer.map fun panes =>
      SshTransport.parsePaneListing (listing panes)).toOption).getD [] := by
  unfold answered at hl
  split at hl
  · next env id' hop =>
    by_cases hid : m.overSsh id' = true
    · rw [if_pos hid] at hl
      exact (listed_connect hl).2 hid
    · rw [if_neg hid, hop] at hl
      exact absurd ((listed_connect hl).1 ▸ hssh) hid
  · next env id' hop =>
    by_cases hid : m.overSsh id' = true
    · rw [if_pos hid] at hl
      have hans : ((a.answer.map fun panes =>
          SshTransport.parsePaneListing (listing panes)).toOption) = some tree :=
        (listed_refresh hl).2
      rw [hans]
      rfl
    · rw [if_neg hid, hop] at hl
      exact absurd ((listed_refresh hl).1 ▸ hssh) hid
  · next hconnect hrefresh =>
    unfold listed at hl
    split at hl
    · next env id' hop => exact absurd hop (hconnect env id')
    · next env id' hop => exact absurd hop (hrefresh env id')
    · cases hl

/-- **The tree of a session over SSH** is what the parser makes of the panes that
tmux reports, and empty if it reports none. -/
theorem listed_answered {tree : List TmuxSessionInfo}
    (hl : m.listed (m.answered a) = some (id, tree)) (hssh : m.overSsh id = true) :
    (∃ panes, m.reports a = some (id, panes) ∧
      tree = SshTransport.parsePaneListing (listing panes)) ∨
    (m.reports a = none ∧ tree = []) := by
  have htree := tree_answered hl hssh
  unfold reports
  rw [hl, Option.bind_some, if_pos hssh]
  cases hans : a.answer with
  | error e =>
    rw [hans] at htree
    exact .inr ⟨rfl, htree⟩
  | ok panes =>
    rw [hans] at htree
    exact .inl ⟨panes, rfl, htree⟩

theorem listed_of_reports {panes : List TmuxPane} (h : m.reports a = some (id, panes)) :
    ∃ tree, m.listed (m.answered a) = some (id, tree) ∧ m.overSsh id = true ∧
      tree = SshTransport.parsePaneListing (listing panes) := by
  obtain ⟨⟨id', tree⟩, hl, hr⟩ := Option.bind_eq_some_iff.mp h
  by_cases hssh : m.overSsh id' = true
  · rw [if_pos hssh] at hr
    obtain ⟨panes', -, he⟩ := Option.map_eq_some_iff.mp hr
    obtain rfl : id' = id := congrArg Prod.fst he
    rcases listed_answered hl hssh with ⟨panes'', hr', ht⟩ | ⟨hr', -⟩
    · obtain rfl : panes'' = panes := congrArg Prod.snd (Option.some.inj (hr'.symm.trans h))
      exact ⟨tree, hl, hssh, ht⟩
    · rw [hr'] at h
      cases h
  · rw [if_neg hssh] at hr
    cases hr

theorem route_of_apply {op : Op} (hl : m.listed op = none) {pane : Text}
    (h : (m.apply op).paneToSession pane = some id) : m.paneToSession pane = some id := by
  have hkeep : ∀ {m₁ m₂ : SessionManager},
      (m₁.paneToSession pane = some id → m.paneToSession pane = some id) → Change m₁ m₂ →
        m₂.paneToSession pane = some id → m.paneToSession pane = some id := by
    intro m₁ m₂ ih hc h₂
    cases hc with
    | same hs hr => exact ih (hr ▸ h₂)
    | set id' entry known kept hs hr => exact ih (hr ▸ h₂)
    | leave id' hr hs gone =>
      rw [hr, removeRoutes] at h₂
      exact ih (Option.filter_eq_some_iff.mp h₂).1
  exact apply_of_change (P := fun m' => m'.paneToSession pane = some id →
    m.paneToSession pane = some id) hkeep (fun h => h) hl h

/-- A session that was in memory leads over SSH only if it did before. -/
theorem overSsh_of_apply (hm : m.Stored) {op : Op} (hs : (m.sessions id).isSome)
    (h : (m.apply op).overSsh id = true) : m.overSsh id = true := by
  obtain ⟨entry', hs', hb'⟩ := overSsh_iff.mp h
  cases carried_apply hm hs' with
  | kept entry hs hb he => exact overSsh_iff.mpr ⟨entry, hs, hb ▸ hb'⟩
  | fresh hnone he =>
    rw [hnone] at hs
    cases hs
  | wrote entry cmd hop hr hs hb he => exact overSsh_iff.mpr ⟨entry, hs, hb ▸ hb'⟩

end Operation

/-! ## Runs -/

namespace Watched

/-- The invariant: what is routed and what was executed over SSH is for reported panes. -/
structure Inv (w : Watched) : Prop where
  sound : w.manager.Sound
  stored : w.manager.Stored
  routed : w.Routed
  executed : ∀ id entry, w.manager.sessions id = some entry →
    entry.transport.backend.isSsh = true → ∀ cmd ∈ entry.transport.executed,
      ∃ n ∈ w.reported id, commandPane cmd = paneText n

theorem inv_new (db : List SessionRow) : (new db).Inv where
  sound := sound_new db
  stored := stored_new db
  routed _ _ h := by cases h
  executed _ _ h := by cases h

variable {w : Watched} {a : Asked}

theorem reported_step {id : Text} {n : Nat} (h : n ∈ w.reported id) :
    n ∈ (w.step a).reported id := by
  unfold step
  cases w.manager.reports a with
  | none => exact h
  | some r =>
    by_cases hid : id = r.1
    · subst hid
      simp only [Function.update_self]
      exact List.mem_append_left _ h
    · simp only [Function.update_of_ne hid]
      exact h

theorem enters_of_clean (hc : w.Clean a) : w.Enters a := by
  intro id panes hr pane
  obtain ⟨tree, hl, -, rfl⟩ := listed_of_reports hr
  have hroute := (listing_apply hl).routes
  change (w.manager.apply (w.manager.answered a)).paneToSession pane = _
  rw [hroute, insertRoutes_paneToSession]
  simp only [mem_paneIds_listing (hc id panes hr)]

theorem routed_step (h : w.Inv) (hc : w.Clean a) : (w.step a).Routed := by
  intro pane id hroute hssh
  change (w.manager.apply (w.manager.answered a)).paneToSession pane = some id at hroute
  have hold (hroute : w.manager.paneToSession pane = some id) :
      ∃ n ∈ (w.step a).reported id, pane = paneText n := by
    have hs := h.sound.routed pane id hroute
    obtain ⟨n, hn, hp⟩ := h.routed pane id hroute (overSsh_of_apply h.stored hs hssh)
    exact ⟨n, reported_step hn, hp⟩
  cases hl : w.manager.listed (w.manager.answered a) with
  | none => exact hold (route_of_apply hl hroute)
  | some l =>
    obtain ⟨id₀, tree⟩ := l
    have hlist := listing_apply hl
    rw [hlist.routes, insertRoutes_paneToSession] at hroute
    split at hroute
    · next hp =>
      obtain rfl := Option.some.inj hroute
      have hssh₀ := overSsh_of_apply h.stored hlist.known hssh
      rcases listed_answered hl hssh₀ with ⟨panes, hr, rfl⟩ | ⟨-, rfl⟩
      · rw [mem_paneIds_listing (hc _ _ hr)] at hp
        obtain ⟨p, hmem, rfl⟩ := List.mem_map.mp hp
        refine ⟨p.id, ?_, rfl⟩
        simp only [step, hr, Function.update_self]
        exact List.mem_append_right _ (List.mem_map_of_mem hmem)
      · cases hp
    · exact hold hroute

/-- **Every step keeps the invariant**, if what it lists is clean. -/
theorem inv_step (h : w.Inv) (hc : w.Clean a) : (w.step a).Inv where
  sound := h.sound.apply _
  stored := h.stored.apply _
  routed := routed_step h hc
  executed id entry' hs' hb' cmd hcmd := by
    cases carried_apply h.stored hs' with
    | kept entry hs hb he =>
      obtain ⟨n, hn, hp⟩ := h.executed id entry hs (hb ▸ hb') cmd (he ▸ hcmd)
      exact ⟨n, reported_step hn, hp⟩
    | fresh hs he =>
      rw [he] at hcmd
      cases hcmd
    | wrote entry cmd' hop hr hs hb he =>
      rw [he, List.mem_append, List.mem_singleton] at hcmd
      rcases hcmd with hcmd | rfl
      · obtain ⟨n, hn, hp⟩ := h.executed id entry hs (hb ▸ hb') cmd hcmd
        exact ⟨n, reported_step hn, hp⟩
      · obtain ⟨n, hn, hp⟩ := h.routed _ id hr (overSsh_iff.mpr ⟨entry, hs, hb ▸ hb'⟩)
        exact ⟨n, reported_step hn, hp⟩

theorem Inv.targeted (h : w.Inv) : w.Targeted := by
  intro id entry hs hb line hline
  obtain ⟨cmd, hcmd, hline⟩ := List.mem_flatMap.mp hline
  obtain ⟨n, hn, hp⟩ := h.executed id entry hs hb cmd hcmd
  exact ⟨n, hn, hp ▸ commandFor_controlWrites hline⟩

theorem clean_of_answers {as : List Asked} (h : ∀ a ∈ as, ∀ panes, a.answer = .ok panes →
    ∀ p ∈ panes, p.Unseparated) (w : Watched) : EachStep step Clean w as := by
  refine (eachStep_of_forall_mem h w).mono fun w a ha id panes hr => ?_
  obtain ⟨l, -, hr⟩ := Option.bind_eq_some_iff.mp hr
  split at hr
  · obtain ⟨panes', hans, he⟩ := Option.map_eq_some_iff.mp hr
    cases he
    cases hok : a.answer with
    | error e =>
      rw [hok] at hans
      cases hans
    | ok panes' =>
      rw [hok] at hans
      cases hans
      exact ha _ hok
  · cases hr

/-- **The server addresses what tmux reported.** In a run that lists no session
and no window with the separator in its name, every line that is written over SSH
is one command for a reported pane, the routes to sessions over SSH are for
reported panes, and a listing enters exactly the panes it reports. -/
theorem targets_reported (db : List SessionRow) (acts : List Asked)
    (h : EachStep step Clean (new db) acts) :
    Always step (fun w => w.Targeted ∧ w.Routed) (new db) acts ∧
      EachStep step Enters (new db) acts :=
  ⟨always_of_eachStep (inv_new db) (fun _ _ => inv_step) (fun _ hi => ⟨hi.targeted, hi.routed⟩) h,
    h.mono fun _ _ => enters_of_clean⟩

/-- A session over SSH is created and connected, tmux has one pane in a window with
this name, and a client sends a keystroke for a pane. -/
def typing (windowName : Name) (pane : Text) : List Asked :=
  let env := Env.working uuidA []
  let tmux : TmuxPane :=
    { session := 0, sessionName := ⟨['m'], by decide⟩, window := 0, windowName, windowIndex := 0
      layout := ⟨[], by decide⟩, id := 7, index := 0, width := 80, height := 24
      command := ⟨"a|||b".toList, by decide⟩, active := true }
  [⟨.create env ['u'] { name := ['s'], transport := .ssh ['h'] }, .ok []⟩,
    ⟨.connect env ['a'], .ok [tmux]⟩, ⟨.execute (.input pane [97]), .ok []⟩]

theorem targets_reported_typing :
    (run step (new []) (typing ⟨"v||".toList, by decide⟩ "%7".toList)).Targeted :=
  (targets_reported [] (typing ⟨"v||".toList, by decide⟩ "%7".toList)
    (clean_of_answers (by simp [typing, TmuxPane.Unseparated]; decide) _)).1.last.1

/-- A window's name ends the command and starts another one. -/
theorem targets_injected :
    ¬ ∀ (db : List SessionRow) (acts : List Asked),
      Always step (fun w => w.Targeted ∧ w.Routed) (new db) acts ∧
        EachStep step Enters (new db) acts := by
  intro h
  let w := run step (new [])
    (typing ⟨"x|||x|||x|||%0;kill-server".toList, by decide⟩ "%0;kill-server".toList)
  have ht : w.Targeted := (h [] _).1.last.1
  have hssh : w.manager.overSsh ['a'] = true := by decide +kernel
  have hline : "send-keys -t %0;kill-server -H 61\n".toList ∈
      (w.manager.sessions ['a']).elim [] (·.transport.controlWrites) := by decide +kernel
  obtain ⟨entry, hs, hb⟩ := overSsh_iff.mp hssh
  rw [hs] at hline
  obtain ⟨n, -, hn⟩ := ht ['a'] entry hs hb _ hline
  have hplain := hn.plain (isPlain_showNat n) ';' (by decide)
  exact absurd hplain (by decide)

end Watched

end SessionManager

end Oxmux.Session
