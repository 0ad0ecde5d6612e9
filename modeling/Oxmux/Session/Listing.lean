import Mathlib.Data.List.Infix
import Oxmux.Lib.Grouping
import Oxmux.Lib.Split
import Oxmux.Session.Types

/-! The pane listing: what `parse_pane_listing` of the SSH transport
(`server/src/session/ssh_transport.rs`) and `query_tmux_state` of the local one
(`server/src/session/local.rs`) build from the output of `tmux list-panes`. The
two differ in the separator alone. -/

namespace Oxmux.Session
open Oxmux.Lib Lines

/-! ## The loop -/

/-- What the loop reads out of the pieces of one line. -/
structure ListedPane where
  sessId : Text
  sessName : Text
  winId : Text
  winName : Text
  winIndex : Nat
  winLayout : Text
  pane : TmuxPaneInfo

def ListedPane.ofParts (parts : List Text) : ListedPane :=
  let part (i : Nat) := parts.getD i []
  let paneCmd := part 10
  { sessId := part 0
    sessName := part 1
    winId := part 2
    winName := part 3
    winIndex := (parseUInt 64 (part 4)).getD 0
    winLayout := part 5
    pane := {
      id := part 6
      index := (parseUInt 64 (part 7)).getD 0
      cols := (parseUInt 16 (part 8)).getD 80
      rows := (parseUInt 16 (part 9)).getD 24
      currentCommand := paneCmd
      isActive := part 11 = ['1']
      isClaude := "claude".toList <:+: paneCmd } }

/-- The window of the pane is found or pushed, and gets the pane. -/
def addToWindows (windows : List TmuxWindowInfo) (p : ListedPane) : List TmuxWindowInfo :=
  upsert (·.id) p.winId
    { id := p.winId, name := p.winName, index := p.winIndex, layout := p.winLayout, panes := [] }
    (fun window => { window with panes := window.panes ++ [p.pane] }) windows

/-- The session of the pane is found or pushed, and its windows get the pane. -/
def addToSessions (sessions : List TmuxSessionInfo) (p : ListedPane) : List TmuxSessionInfo :=
  upsert (·.id) p.sessId { id := p.sessId, name := p.sessName, windows := [] }
    (fun session => { session with windows := addToWindows session.windows p }) sessions

/-- The loop over the lines; one with too few pieces is passed over. -/
def listPanes (sep output : Text) : List TmuxSessionInfo :=
  ((((strLines output).map (splitStr sep)).filter (12 ≤ ·.length)).map ListedPane.ofParts).foldl
    addToSessions []

def SshTransport.separator : Text := "|||".toList

def SshTransport.parsePaneListing (output : Text) : List TmuxSessionInfo :=
  listPanes separator output

/-- What `Command::output` gives for a program that ran. -/
structure ProcessOutput where
  success : Bool
  stdout : Text
  stderr : Text

def LocalTransport.separator : Text := ['\t']

/-- `query_tmux_state`; without an output, tmux could not be started. -/
def LocalTransport.queryTmuxState (output : Option ProcessOutput) :
    Except Text (List TmuxSessionInfo) :=
  match output with
  | none => .error "failed to run tmux list-panes".toList
  | some output =>
    if output.success then .ok (listPanes separator output.stdout)
    else .error ("tmux list-panes failed: ".toList ++ output.stderr)

/-! ## Sessions and windows as groups -/

/-- Windows group the panes of one session. -/
def windowGroups : Grouping ListedPane TmuxWindowInfo Text where
  keyOf := ListedPane.winId
  key := TmuxWindowInfo.id
  new p := { id := p.winId, name := p.winName, index := p.winIndex, layout := p.winLayout
             panes := [] }
  add window p := { window with panes := window.panes ++ [p.pane] }
  key_new _ := rfl
  key_add _ _ := rfl

/-- Sessions group the listed panes. -/
def sessionGroups : Grouping ListedPane TmuxSessionInfo Text where
  keyOf := ListedPane.sessId
  key := TmuxSessionInfo.id
  new p := { id := p.sessId, name := p.sessName, windows := [] }
  add session p := { session with windows := addToWindows session.windows p }
  key_new _ := rfl
  key_add _ _ := rfl

theorem foldl_addToSessions (listed : List ListedPane) :
    listed.foldl addToSessions [] = sessionGroups.rows listed := rfl

theorem windows_foldl (listed : List ListedPane) (session : TmuxSessionInfo) :
    (listed.foldl sessionGroups.add session).windows =
      listed.foldl windowGroups.insert session.windows := by
  induction listed generalizing session with
  | nil => rfl
  | cons p listed ih => exact ih _

theorem panes_foldl (listed : List ListedPane) (window : TmuxWindowInfo) :
    (listed.foldl windowGroups.add window).panes = window.panes ++ listed.map (·.pane) := by
  induction listed generalizing window with
  | nil => simp
  | cons p listed ih =>
    rw [List.foldl_cons, ih]
    simp [windowGroups]

/-- The windows of a session group the panes that are listed for it. -/
theorem windows_of_mem {listed : List ListedPane} {session : TmuxSessionInfo}
    (h : session ∈ sessionGroups.rows listed) :
    session.windows = windowGroups.rows (sessionGroups.members session.id listed) := by
  obtain ⟨p, rest, hm, hs⟩ := sessionGroups.eq_of_mem_rows h
  have hw := windows_foldl (p :: rest) (sessionGroups.new p)
  rw [← hs] at hw
  rw [hw, show session.id = sessionGroups.key session from rfl, hm]
  rfl

/-- The panes of a window are those listed for it. -/
theorem panes_of_mem {listed : List ListedPane} {window : TmuxWindowInfo}
    (h : window ∈ windowGroups.rows listed) :
    window.panes = (windowGroups.members window.id listed).map (·.pane) := by
  obtain ⟨p, rest, hm, hw⟩ := windowGroups.eq_of_mem_rows h
  have hp := panes_foldl (p :: rest) (windowGroups.new p)
  rw [← hw] at hp
  rw [hp, show window.id = windowGroups.key window from rfl, hm]
  rfl

/-- **The panes of the tree** are those that are listed. -/
theorem mem_paneIds_rows {listed : List ListedPane} {pane : Text} :
    pane ∈ paneIds (sessionGroups.rows listed) ↔ ∃ p ∈ listed, p.pane.id = pane := by
  constructor
  · intro h
    obtain ⟨session, hs, h⟩ := List.mem_flatMap.mp h
    obtain ⟨window, hw, h⟩ := List.mem_flatMap.mp h
    obtain ⟨info, hi, rfl⟩ := List.mem_map.mp h
    rw [windows_of_mem hs] at hw
    rw [panes_of_mem hw] at hi
    obtain ⟨p, hp, rfl⟩ := List.mem_map.mp hi
    exact ⟨p, (sessionGroups.mem_members.mp (windowGroups.mem_members.mp hp).1).1, rfl⟩
  · rintro ⟨p, hp, rfl⟩
    obtain ⟨session, hs, hsess⟩ := sessionGroups.exists_mem_rows hp
    have hm : p ∈ sessionGroups.members session.id listed :=
      sessionGroups.mem_members.mpr ⟨hp, hsess.symm⟩
    obtain ⟨window, hw, hwin⟩ := windowGroups.exists_mem_rows hm
    have hp' : p.pane ∈ window.panes := by
      rw [panes_of_mem hw]
      exact List.mem_map_of_mem (windowGroups.mem_members.mpr ⟨hm, hwin.symm⟩)
    rw [← windows_of_mem hs] at hw
    exact List.mem_flatMap.mpr ⟨session, hs, List.mem_flatMap.mpr
      ⟨window, hw, List.mem_map_of_mem hp'⟩⟩

/-! ## Printed lines -/

/-- The lines that tmux prints for a list of records. -/
def printLines (sep : Text) (records : List (List Text)) : Text :=
  joinLines (records.map (List.intercalate sep))

theorem not_mem_intercalate {c : Char} {sep : Text} {fields : List Text} (hsep : c ∉ sep)
    (h : ∀ f ∈ fields, c ∉ f) : c ∉ List.intercalate sep fields := by
  induction fields with
  | nil => simp
  | cons f fields ih =>
    have hf := h f List.mem_cons_self
    cases fields with
    | nil => simpa using hf
    | cons g fields =>
      rw [List.intercalate_cons_cons]
      simp only [List.mem_append, not_or]
      exact ⟨⟨hf, hsep⟩, ih fun x hx => h x (List.mem_cons_of_mem _ hx)⟩

/-- **The loop reads the records back**, those with too few fields left out. -/
theorem listPanes_printLines {d : Char} {ds : Text} {records : List (List Text)}
    (hd : ∀ fields ∈ records, ∀ f ∈ fields, d ∉ f)
    (hnl : ∀ fields ∈ records, ∀ f ∈ fields, '\n' ∉ f)
    (hcr : ∀ fields ∈ records, ∀ f ∈ fields, '\r' ∉ f)
    (hsep : '\n' ∉ d :: ds ∧ '\r' ∉ d :: ds) :
    listPanes (d :: ds) (printLines (d :: ds) records) =
      sessionGroups.rows ((records.filter (12 ≤ ·.length)).map ListedPane.ofParts) := by
  have hlines : strLines (printLines (d :: ds) records) =
      records.map (List.intercalate (d :: ds)) := by
    apply strLines_joinLines
    · intro l hl
      obtain ⟨fields, hf, rfl⟩ := List.mem_map.mp hl
      exact not_mem_intercalate hsep.1 (hnl fields hf)
    · intro l hl
      obtain ⟨fields, hf, rfl⟩ := List.mem_map.mp hl
      exact stripSuffix_eq_self (not_mem_intercalate hsep.2 (hcr fields hf))
  have hsplit : ∀ records' : List (List Text), (∀ fields ∈ records', fields ∈ records) →
      ((records'.map (List.intercalate (d :: ds))).map (splitStr (d :: ds))).filter
        (12 ≤ ·.length) = records'.filter (12 ≤ ·.length) := by
    intro records' hsub
    induction records' with
    | nil => rfl
    | cons fields records' ih =>
      have hrest := ih fun f hf => hsub f (List.mem_cons_of_mem _ hf)
      rw [List.map_cons, List.map_cons, List.filter_cons, List.filter_cons, hrest]
      cases fields with
      | nil => rfl
      | cons f fields =>
        rw [splitStr_intercalate (by simp) (hd _ (hsub _ List.mem_cons_self))]
  rw [listPanes, hlines, hsplit records fun _ h => h, foldl_addToSessions]

/-! ## The tree of a listing -/

/-- The records with all twelve fields. -/
def complete (records : List (List Text)) : List (List Text) := records.filter (12 ≤ ·.length)

/-- The panes of the complete records that carry a session and a window. -/
def panesOf (records : List (List Text)) (sess win : Text) : List TmuxPaneInfo :=
  ((complete records).filter fun fields =>
    fields.getD 0 [] = sess ∧ fields.getD 2 [] = win).map
      fun fields => (ListedPane.ofParts fields).pane

theorem members_ofParts (full : List (List Text)) (sess : Text) :
    sessionGroups.members sess (full.map ListedPane.ofParts) =
      (full.filter (·.getD 0 [] = sess)).map ListedPane.ofParts := by
  rw [Grouping.members, List.filter_map]
  rfl

theorem members_members (full : List (List Text)) (sess win : Text) :
    (windowGroups.members win
        (sessionGroups.members sess (full.map ListedPane.ofParts))).map (·.pane) =
      (full.filter fun fields => fields.getD 0 [] = sess ∧ fields.getD 2 [] = win).map
        fun fields => (ListedPane.ofParts fields).pane := by
  rw [members_ofParts, Grouping.members, List.filter_map, List.filter_filter, List.map_map]
  congr 1
  apply List.filter_congr
  intro fields _
  rw [Bool.decide_and, Bool.and_comm]
  rfl

/-- The parser of the SSH transport on printed records. -/
theorem parsePaneListing_printLines {records : List (List Text)}
    (h : ∀ fields ∈ records, ∀ f ∈ fields, '|' ∉ f ∧ '\t' ∉ f ∧ '\r' ∉ f ∧ '\n' ∉ f) :
    SshTransport.parsePaneListing (printLines SshTransport.separator records) =
      sessionGroups.rows ((complete records).map ListedPane.ofParts) :=
  listPanes_printLines (fun _ hr _ hf => (h _ hr _ hf).1) (fun _ hr _ hf => (h _ hr _ hf).2.2.2)
    (fun _ hr _ hf => (h _ hr _ hf).2.2.1) (by decide)

/-- The query of the local transport on printed records. -/
theorem queryTmuxState_printLines {records : List (List Text)}
    (h : ∀ fields ∈ records, ∀ f ∈ fields, '|' ∉ f ∧ '\t' ∉ f ∧ '\r' ∉ f ∧ '\n' ∉ f)
    (stderr : Text) :
    LocalTransport.queryTmuxState
        (some ⟨true, printLines LocalTransport.separator records, stderr⟩) =
      .ok (sessionGroups.rows ((complete records).map ListedPane.ofParts)) :=
  congrArg Except.ok (listPanes_printLines (fun _ hr _ hf => (h _ hr _ hf).2.1)
    (fun _ hr _ hf => (h _ hr _ hf).2.2.2) (fun _ hr _ hf => (h _ hr _ hf).2.2.1) (by decide))

/-- **Every pane is listed once, where it belongs.** Sessions and windows stand
in the order of their first occurrence, each once; a window has the panes of its
records in their order; incomplete records leave no trace; and both transports
build the same tree. -/
theorem pane_listing_grouped (records : List (List Text))
    (h : ∀ fields ∈ records, ∀ f ∈ fields, '|' ∉ f ∧ '\t' ∉ f ∧ '\r' ∉ f ∧ '\n' ∉ f)
    (stderr : Text) :
    let tree := SshTransport.parsePaneListing (printLines SshTransport.separator records)
    (tree.map (·.id)).Nodup ∧
    tree.map (·.id) = ((complete records).map (·.getD 0 [])).eraseDups ∧
    (∀ session ∈ tree,
      (session.windows.map (·.id)).Nodup ∧
      session.windows.map (·.id) =
        (((complete records).filter (·.getD 0 [] = session.id)).map (·.getD 2 [])).eraseDups ∧
      ∀ window ∈ session.windows, window.panes = panesOf records session.id window.id) ∧
    tree = SshTransport.parsePaneListing (printLines SshTransport.separator (complete records)) ∧
    LocalTransport.queryTmuxState
      (some ⟨true, printLines LocalTransport.separator records, stderr⟩) = .ok tree := by
  intro tree
  have htree : tree = sessionGroups.rows ((complete records).map ListedPane.ofParts) :=
    parsePaneListing_printLines h
  refine ⟨?_, ?_, ?_, ?_, ?_⟩
  · rw [htree]
    exact sessionGroups.nodup_keys _
  · have hkeys := sessionGroups.keys_rows ((complete records).map ListedPane.ofParts)
    rw [List.map_map] at hkeys
    rw [htree]
    exact hkeys
  · intro session hs
    rw [htree] at hs
    have hwindows := windows_of_mem hs
    have hkeys := windowGroups.keys_rows
      (sessionGroups.members session.id ((complete records).map ListedPane.ofParts))
    rw [← hwindows, members_ofParts, List.map_map] at hkeys
    refine ⟨?_, hkeys, ?_⟩
    · rw [hwindows]
      exact windowGroups.nodup_keys _
    · intro window hw
      rw [hwindows] at hw
      rw [panes_of_mem hw, members_members]
      rfl
  · have hfull : ∀ fields ∈ complete records, ∀ f ∈ fields,
        '|' ∉ f ∧ '\t' ∉ f ∧ '\r' ∉ f ∧ '\n' ∉ f :=
      fun fields hf => h fields (List.mem_of_mem_filter hf)
    have hidem : complete (complete records) = complete records := by
      simp [complete, List.filter_filter]
    rw [htree, parsePaneListing_printLines hfull, hidem]
  · rw [htree]
    exact queryTmuxState_printLines h stderr

def sampleFields (sess win pane : Text) : List Text :=
  [sess, ['m'], win, ['v'], ['0'], ['l'], pane, ['0'], ['8'], ['8'], ['s'], ['1']]

/-- Two sessions in turns, and a short line between them. -/
def sampleListing : List (List Text) :=
  [sampleFields "$1".toList "@2".toList "%4".toList,
    sampleFields "$0".toList "@0".toList "%0".toList, [['x']],
    sampleFields "$1".toList "@2".toList "%5".toList]

theorem pane_listing_grouped_in_turns :
    (SshTransport.parsePaneListing (printLines SshTransport.separator sampleListing)).map (·.id) =
      ["$1".toList, "$0".toList] := by
  have h := (pane_listing_grouped sampleListing (by decide) []).2.1
  rw [h]
  decide

end Oxmux.Session
