import Oxmux.Agent.Message
import Oxmux.Lib.Lines
import Oxmux.Lib.Runs

/-! Resizes of panes by the agent's connections, and the SIGWINCHs that tmux
raises for them. Every connection remembers the sizes that it asked for; the
size that a pane has is known to tmux alone. -/

namespace Oxmux.Agent
open Oxmux.Lib Oxmux.Lib.Lines Oxmux.Lib.Runs

/-! ## tmux -/

abbrev Size := Nat × Nat

inductive Control where
  | resize (pane : Text) (size : Size)
  | winch (pane : Text)

/-- A resize command behind its name. -/
def parseResize (command line : Text) : Option Control :=
  (stripPrefix command line).bind fun rest =>
  (splitOnce ' ' rest).bind fun target =>
  (stripPrefix "-x ".toList target.2).bind fun width =>
  (splitOnce ' ' width).bind fun width =>
  (stripPrefix "-y ".toList width.2).bind fun height =>
  (parseUInt 16 width.1).bind fun cols =>
  (parseUInt 16 height).map fun rows => .resize target.1 (cols, rows)

/-- The command that signals the process of a pane. -/
def parseWinch (line : Text) : Option Control :=
  (stripPrefix "run-shell -t ".toList line).bind fun rest =>
  (splitOnce ' ' rest).bind fun target =>
    if target.2 = "\"kill -WINCH #\x7bpane_pid\x7d\"".toList then some (.winch target.1) else none

def parseLine (line : Text) : Option Control :=
  (parseResize "resize-window -t ".toList line).or
    ((parseResize "resize-pane -t ".toList line).or (parseWinch line))

/-- The sizes behind a command, and the signals that it raises. The window of a
pane has no other pane, so it and its pane are resized alike, and a size that
stays raises no signal. -/
def execute (size : Text → Size) : Control → (Text → Size) × Nat
  | .resize pane d => (Function.update size pane d, if size pane = d then 0 else 1)
  | .winch _ => (size, 1)

def executeAll (size : Text → Size) : List Control → (Text → Size) × Nat
  | [] => (size, 0)
  | command :: commands =>
    let r := execute size command
    ((executeAll r.1 commands).1, r.2 + (executeAll r.1 commands).2)

/-- tmux reads what was written to the control mode. -/
def feed (size : Text → Size) (block : Text) : (Text → Size) × Nat :=
  executeAll size ((splitLines block).1.filterMap parseLine)

/-! ## The connections -/

/-- The open connections, the sizes of the panes, and how many SIGWINCHs each resize
raised that reached tmux. -/
structure Agents (κ : Type) where
  connections : κ → Option State
  size : Text → Size
  raised : List Nat

namespace Agents

variable {κ : Type} [DecidableEq κ]

inductive Input (κ : Type) where
  | open (c : κ)
  | close (c : κ)
  | control (c : κ) (stdin : Stdin)
  | resize (c : κ) (msg : Value)

def start (size : Text → Size) : Agents κ where
  connections _ := none
  size
  raised := []

def set (c : κ) (a : Option State) (s : Agents κ) : Agents κ :=
  { s with connections := Function.update s.connections c a }

/-- A resize message, and tmux behind the write that it makes. -/
def resize (c : κ) (msg : Value) (a : State) (s : Agents κ) : Agents κ :=
  let a' := handleResize a msg
  let s := s.set c (some a')
  if a'.written = a.written then s
  else
    let r := feed s.size (a'.written.drop a.written.length).flatten
    { s with size := r.1, raised := s.raised ++ [r.2] }

def step (s : Agents κ) : Input κ → Agents κ
  | .open c => s.set c (some (.new .missing))
  | .close c => s.set c none
  | .control c stdin => s.set c ((s.connections c).map fun a => { a with ctrlStdin := stdin })
  | .resize c msg => (s.connections c).elim s fun a => s.resize c msg a

/-- Every resize that reached tmux raised one signal. -/
def Once (s : Agents κ) : Prop := ∀ n ∈ s.raised, n = 1

/-- The pane of a resize message, and the size that it asks for. -/
def asked (msg : Value) : Text × Size :=
  (getStr msg "pane".toList,
    (getU64 msg "cols".toList % 65536, getU64 msg "rows".toList % 65536))

def Valid (msg : Value) : Prop :=
  isValidPaneId (asked msg).1 = true ∧ 0 < (asked msg).2.1 ∧ 0 < (asked msg).2.2

/-- A resize that reaches tmux asks for the size that the connection asked for
last exactly if the pane has that size. -/
def Knows (s : Agents κ) : Input κ → Prop
  | .resize c msg => ∀ a ∈ s.connections c, a.ctrlStdin = .alive → Valid msg →
      (a.paneDimensions (asked msg).1 = some (asked msg).2 ↔ s.size (asked msg).1 = (asked msg).2)
  | _ => True

end Agents

/-! ## What tmux makes of a block -/

theorem not_mem_pane {pane : Text} (h : isValidPaneId pane = true) {c : Char}
    (hd : c.isDigit = false) (hc : c ≠ '%') : c ∉ pane := by
  simp only [isValidPaneId, Bool.and_eq_true, decide_eq_true_eq] at h
  obtain ⟨⟨hp, hl⟩, hall⟩ := h
  cases pane with
  | nil => simp at hl
  | cons p pane =>
    have hp' : p = '%' := by
      by_contra hne
      simp [startsWith, stripPrefix, Ne.symm hne] at hp
    intro hm
    rcases List.mem_cons.mp hm with rfl | hm
    · exact hc hp'
    · have hdig : c.isDigit = true := List.all_eq_true.mp hall c hm
      rw [hd] at hdig
      cases hdig

/-- The part of a resize line behind the command's name. -/
def resizeArgs (pane : Text) (d : Size) : Text :=
  pane ++ ' ' :: ("-x ".toList ++ (showNat d.1 ++ ' ' :: ("-y ".toList ++ showNat d.2)))

theorem parseResize_args (command : Text) {pane : Text} (h : ' ' ∉ pane) {d : Size}
    (hc : d.1 < 65536) (hr : d.2 < 65536) :
    parseResize command (command ++ resizeArgs pane d) = some (.resize pane d) := by
  have hsp : ' ' ∉ showNat d.1 := not_mem_showNat _ (by decide)
  simp only [parseResize, resizeArgs, stripPrefix_append, Option.bind_some, splitOnce_append _ h,
    splitOnce_append _ hsp, @parseUInt_showNat 16 _ hc, @parseUInt_showNat 16 _ hr,
    Option.map_some]

/-- A resize command; `command` is what stands before the pane. -/
def resizeLine (command pane : Text) (d : Size) : Text := command ++ resizeArgs pane d

/-- A command of the shell. -/
def shellLine (command pane shell : Text) : Text := command ++ (pane ++ ' ' :: shell)

/-- The lines of the block for a size that changes. -/
theorem resizeCommand_eq (pane : Text) (d : Size) :
    resizeCommand pane d.1 d.2 = joinLines [resizeLine "resize-window -t ".toList pane d,
    resizeLine "resize-pane -t ".toList pane d] := by
  have hx : " -x ".toList = ' ' :: "-x ".toList := by simp
  have hy : " -y ".toList = ' ' :: "-y ".toList := by simp
  have hn : "\n".toList = ['\n'] := by decide
  unfold resizeCommand resizeLine resizeArgs
  simp only [joinLines_cons, joinLines_nil]
  rw [hx, hy, hn]
  simp only [List.append_assoc, List.cons_append, List.nil_append]

theorem winchCommand_eq (pane : Text) : winchCommand pane =
    joinLines [shellLine "run-shell -t ".toList pane
      "\"kill -WINCH #\x7bpane_pid\x7d\"".toList] := by
  have hk : " \"kill -WINCH #\x7bpane_pid\x7d\"\n".toList =
      ' ' :: ("\"kill -WINCH #\x7bpane_pid\x7d\"".toList ++ ['\n']) := by simp
  unfold winchCommand shellLine
  rw [hk]
  simp only [joinLines_cons, joinLines_nil, List.append_assoc, List.cons_append]

theorem parseResize_eq_none {c d : Char} (h : c ≠ d) (a p s : Text) :
    parseResize (a ++ c :: p) (a ++ d :: s) = none := by
  rw [parseResize, stripPrefix_ne h]
  rfl

section
variable {pane : Text} {d : Size} (h : isValidPaneId pane = true)

include h in
theorem newline_not_mem_args : '\n' ∉ resizeArgs pane d := by
  have hs (n : Nat) : '\n' ∉ showNat n := not_mem_showNat n (by decide)
  have hp : '\n' ∉ pane := not_mem_pane h (by decide) (by decide)
  have hx : '\n' ∉ "-x ".toList := by simp
  have hy : '\n' ∉ "-y ".toList := by simp
  have hsp : '\n' ≠ ' ' := by decide
  simp only [resizeArgs, List.mem_append, List.mem_cons, hs, hp, hx, hy, hsp, or_self,
    not_false_eq_true]

include h in
theorem newline_not_mem_resizeLine {command : Text} (hc : '\n' ∉ command) :
    '\n' ∉ resizeLine command pane d := by
  simp only [resizeLine, List.mem_append, hc, newline_not_mem_args h, or_self, not_false_eq_true]

include h in
theorem newline_not_mem_shellLine {command shell : Text} (hc : '\n' ∉ command)
    (hs : '\n' ∉ shell) : '\n' ∉ shellLine command pane shell := by
  have hp : '\n' ∉ pane := not_mem_pane h (by decide) (by decide)
  have hsp : '\n' ≠ ' ' := by decide
  simp only [shellLine, List.mem_append, List.mem_cons, hc, hp, hs, hsp, or_self,
    not_false_eq_true]

include h in
theorem parseLine_shellLine : parseLine (shellLine "run-shell -t ".toList pane
    "\"kill -WINCH #\x7bpane_pid\x7d\"".toList) = some (.winch pane) := by
  have hrun : "run-shell -t ".toList = ['r'] ++ 'u' :: "n-shell -t ".toList := by simp
  have hnone {command p : Text} (hc : command = ['r'] ++ 'e' :: p) (shell : Text) :
      parseResize command (shellLine "run-shell -t ".toList pane shell) = none := by
    rw [hc, shellLine, hrun, List.append_assoc]
    exact parseResize_eq_none (by decide) ['r'] p _
  rw [parseLine, hnone (p := "size-window -t ".toList) (by simp),
    hnone (p := "size-pane -t ".toList) (by simp), Option.none_or, Option.none_or, parseWinch,
    shellLine, stripPrefix_append, Option.bind_some,
    splitOnce_append _ (not_mem_pane h (by decide) (by decide)), Option.bind_some]
  exact if_pos rfl

variable (hc : d.1 < 65536) (hr : d.2 < 65536)
include h hc hr

theorem parseLine_windowLine :
    parseLine (resizeLine "resize-window -t ".toList pane d) = some (.resize pane d) := by
  rw [parseLine, resizeLine, parseResize_args _ (not_mem_pane h (by decide) (by decide)) hc hr,
    Option.some_or]

theorem parseLine_paneLine :
    parseLine (resizeLine "resize-pane -t ".toList pane d) = some (.resize pane d) := by
  have hw : parseResize "resize-window -t ".toList
      (resizeLine "resize-pane -t ".toList pane d) = none := by
    have he : "resize-window -t ".toList = "resize-".toList ++ 'w' :: "indow -t ".toList := by simp
    have he' : "resize-pane -t ".toList = "resize-".toList ++ 'p' :: "ane -t ".toList := by simp
    rw [resizeLine, he, he', List.append_assoc, List.cons_append,
      parseResize_eq_none (show 'w' ≠ 'p' by decide)]
  rw [parseLine, hw, Option.none_or, resizeLine,
    parseResize_args _ (not_mem_pane h (by decide) (by decide)) hc hr, Option.some_or]

/-- **One signal for a size that changes**, none for a size that stays. -/
theorem feed_resizeCommand (size : Text → Size) : feed size (resizeCommand pane d.1 d.2) =
    (Function.update size pane d, if size pane = d then 0 else 1) := by
  have hlines : (splitLines (resizeCommand pane d.1 d.2)).1 =
      [resizeLine "resize-window -t ".toList pane d,
        resizeLine "resize-pane -t ".toList pane d] := by
    rw [resizeCommand_eq]
    refine lines_joinLines ?_
    simp only [List.forall_mem_cons, List.not_mem_nil, false_implies, implies_true, and_true]
    exact ⟨newline_not_mem_resizeLine h (by simp), newline_not_mem_resizeLine h (by simp)⟩
  rw [feed, hlines, List.filterMap_cons_some (parseLine_windowLine h hc hr),
    List.filterMap_cons_some (parseLine_paneLine h hc hr)]
  simp [executeAll, execute]

/-- The forced signal comes on top. -/
theorem feed_winchCommand (size : Text → Size) :
    feed size (resizeCommand pane d.1 d.2 ++ winchCommand pane) =
      (Function.update size pane d, (if size pane = d then 0 else 1) + 1) := by
  have hlines : (splitLines (resizeCommand pane d.1 d.2 ++ winchCommand pane)).1 =
      [resizeLine "resize-window -t ".toList pane d, resizeLine "resize-pane -t ".toList pane d,
        shellLine "run-shell -t ".toList pane "\"kill -WINCH #\x7bpane_pid\x7d\"".toList] := by
    rw [resizeCommand_eq, winchCommand_eq, ← joinLines_append]
    refine lines_joinLines ?_
    simp only [List.cons_append, List.nil_append, List.forall_mem_cons, List.not_mem_nil,
      false_implies, implies_true, and_true]
    exact ⟨newline_not_mem_resizeLine h (by simp), newline_not_mem_resizeLine h (by simp),
      newline_not_mem_shellLine h (by simp) (by simp)⟩
  rw [feed, hlines, List.filterMap_cons_some (parseLine_windowLine h hc hr),
    List.filterMap_cons_some (parseLine_paneLine h hc hr),
    List.filterMap_cons_some (parseLine_shellLine h)]
  simp [executeAll, execute]

end

/-! ## What a resize does -/

namespace Agents

variable {κ : Type} [DecidableEq κ]

instance (msg : Value) : Decidable (Valid msg) := by
  unfold Valid
  infer_instance

theorem asked_lt (msg : Value) : (asked msg).2.1 < 65536 ∧ (asked msg).2.2 < 65536 :=
  ⟨Nat.mod_lt _ (by decide), Nat.mod_lt _ (by decide)⟩

/-- The block that a resize to this size writes. -/
def blockFor (a : State) (pane : Text) (d : Size) : Text :=
  if a.paneDimensions pane = some d then resizeCommand pane d.1 d.2 ++ winchCommand pane
  else resizeCommand pane d.1 d.2

def resizeTo (a : State) (pane : Text) (d : Size) : State :=
  if isValidPaneId pane && 0 < d.1 && 0 < d.2 then
    let dimsChanged := a.paneDimensions pane ≠ some (d.1, d.2)
    let a := { a with paneDimensions := Function.update a.paneDimensions pane (some (d.1, d.2)) }
    a.write (if dimsChanged then resizeCommand pane d.1 d.2
      else resizeCommand pane d.1 d.2 ++ winchCommand pane)
  else a

theorem handleResize_eq (a : State) (msg : Value) :
    handleResize a msg = resizeTo a (asked msg).1 (asked msg).2 := rfl

/-- A resize is ignored, or remembered and not written, or remembered and written. -/
theorem resizeTo_written (a : State) (pane : Text) (d : Size) : (resizeTo a pane d).written =
    if a.ctrlStdin = .alive ∧ isValidPaneId pane = true ∧ 0 < d.1 ∧ 0 < d.2 then
      a.written ++ [blockFor a pane d]
    else a.written := by
  by_cases hv : isValidPaneId pane = true ∧ 0 < d.1 ∧ 0 < d.2
  · have hv' : (isValidPaneId pane && decide (0 < d.1) && decide (0 < d.2)) = true := by simp [hv]
    simp only [resizeTo, if_pos hv', State.write]
    by_cases ha : a.ctrlStdin = .alive
    · by_cases hd : a.paneDimensions pane = some d
      · simp [ha, hv, hd, blockFor]
      · simp [ha, hv, hd, blockFor]
    · simp [ha]
  · have hv' : ¬(isValidPaneId pane && decide (0 < d.1) && decide (0 < d.2)) = true := by
      simpa [and_assoc] using hv
    rw [if_neg fun h => hv h.2, resizeTo, if_neg hv']

theorem feed_blockFor {a : State} {msg : Value} (hv : Valid msg) (size : Text → Size) :
    (feed size (blockFor a (asked msg).1 (asked msg).2)).2 =
      (if size (asked msg).1 = (asked msg).2 then 0 else 1) +
        if a.paneDimensions (asked msg).1 = some (asked msg).2 then 1 else 0 := by
  obtain ⟨hc, hr⟩ := asked_lt msg
  unfold blockFor
  by_cases hd : a.paneDimensions (asked msg).1 = some (asked msg).2
  · simp only [if_pos hd, feed_winchCommand hv.1 hc hr]
  · simp only [if_neg hd, feed_resizeCommand hv.1 hc hr, Nat.add_zero]

theorem resize_raised (c : κ) (msg : Value) (a : State) (s : Agents κ) :
    (s.resize c msg a).raised =
      if a.ctrlStdin = .alive ∧ Valid msg then
        s.raised ++ [(feed s.size (blockFor a (asked msg).1 (asked msg).2)).2]
      else s.raised := by
  have hw := resizeTo_written a (asked msg).1 (asked msg).2
  by_cases h : a.ctrlStdin = .alive ∧ Valid msg
  · have hw := hw.trans (if_pos h)
    simp [resize, handleResize_eq, hw, set, if_pos h]
  · have hw := hw.trans (if_neg h)
    simp [resize, handleResize_eq, hw, set, if_neg h]

/-- **One signal exactly where the connection knows the size.** -/
theorem once_step {s : Agents κ} (hs : s.Once) (i : Input κ) : (s.step i).Once ↔ s.Knows i := by
  cases i with
  | «open» c => exact iff_of_true hs trivial
  | close c => exact iff_of_true hs trivial
  | control c stdin => exact iff_of_true hs trivial
  | resize c msg =>
    simp only [step, Knows]
    cases ha : s.connections c with
    | none => exact iff_of_true hs (by simp)
    | some a =>
      simp only [Option.elim_some, Once, resize_raised, Option.mem_def, Option.some.injEq,
        forall_eq']
      by_cases h : a.ctrlStdin = .alive ∧ Valid msg
      · rw [if_pos h, feed_blockFor h.2]
        simp only [List.mem_append, List.mem_singleton]
        constructor
        · intro hn _ _
          have h1 := hn _ (.inr rfl)
          split at h1 <;> split at h1 <;> simp_all
        · rintro hk n (hn | rfl)
          · exact hs n hn
          · have hk := hk h.1 h.2
            split <;> split <;> simp_all
      · rw [if_neg h]
        exact iff_of_true hs fun h₁ h₂ => absurd ⟨h₁, h₂⟩ h

/-- **Exactly one SIGWINCH for each resize**, in the runs in which every resize
that reaches tmux asks for the size that its connection asked for last exactly
when the pane still has that size, and in no others. -/
theorem once_iff_knows (size : Text → Size) (as : List (Input κ)) :
    Always step Once (start size) as ↔ EachStep step Knows (start size) as :=
  always_iff_eachStep (I := fun _ => True) (by rintro n ⟨⟩) trivial
    (fun _ i _ hs => once_step hs i) (fun _ _ _ _ _ => trivial) as

/-! ## Where the remembered sizes are right -/

/-- Every size that a connection remembers is the size of the pane. -/
def Agrees (s : Agents κ) : Prop :=
  ∀ c, ∀ a ∈ s.connections c, ∀ pane, ∀ d ∈ a.paneDimensions pane, s.size pane = d

/-- Nothing goes past the memory of a connection: a resize reaches tmux, or asks
for what the pane has, and no other connection remembers another size. -/
def Undisturbed (s : Agents κ) : Input κ → Prop
  | .resize c msg => ∀ a ∈ s.connections c, Valid msg →
      (a.ctrlStdin = .alive ∨ s.size (asked msg).1 = (asked msg).2) ∧
      ∀ c' ≠ c, ∀ a' ∈ s.connections c', ∀ d ∈ a'.paneDimensions (asked msg).1, d = (asked msg).2
  | _ => True

/-- The first resize that a connection sends for a pane asks for another size
than the pane has. -/
def FirstChanges (s : Agents κ) : Input κ → Prop
  | .resize c msg => ∀ a ∈ s.connections c, a.paneDimensions (asked msg).1 = none →
      s.size (asked msg).1 ≠ (asked msg).2
  | _ => True

omit [DecidableEq κ] in
theorem knows_of_agrees {s : Agents κ} (h : s.Agrees) {i : Input κ} (hf : s.FirstChanges i) :
    s.Knows i := by
  cases i with
  | resize c msg =>
    intro a ha _ _
    cases hd : a.paneDimensions (asked msg).1 with
    | none => simpa using hf a ha hd
    | some d => rw [h c a ha _ d hd, Option.some.injEq]
  | _ => trivial

theorem agrees_set {s : Agents κ} (h : s.Agrees) {c : κ} {a : Option State}
    (ha : ∀ a' ∈ a, ∀ pane, ∀ d ∈ a'.paneDimensions pane, s.size pane = d) :
    (s.set c a).Agrees := by
  intro c' a' hc' pane d hd
  by_cases he : c' = c
  · subst he
    exact ha a' (by simpa [set] using hc') pane d hd
  · exact h c' a' (by simpa [set, Function.update_of_ne he] using hc') pane d hd

theorem resizeTo_paneDimensions (a : State) (pane : Text) (d : Size) :
    (resizeTo a pane d).paneDimensions =
      if isValidPaneId pane = true ∧ 0 < d.1 ∧ 0 < d.2 then
        Function.update a.paneDimensions pane (some d)
      else a.paneDimensions := by
  by_cases hv : isValidPaneId pane = true ∧ 0 < d.1 ∧ 0 < d.2
  · have hv' : (isValidPaneId pane && decide (0 < d.1) && decide (0 < d.2)) = true := by simp [hv]
    simp only [resizeTo, if_pos hv', State.write, if_pos hv]
    split <;> rfl
  · have hv' : ¬(isValidPaneId pane && decide (0 < d.1) && decide (0 < d.2)) = true := by
      simpa [and_assoc] using hv
    simp only [resizeTo, if_neg hv', if_neg hv]

/-- The size of a pane behind a block is the size that was asked for. -/
theorem feed_blockFor_size {a : State} {msg : Value} (hv : Valid msg) (size : Text → Size) :
    (feed size (blockFor a (asked msg).1 (asked msg).2)).1 =
      Function.update size (asked msg).1 (asked msg).2 := by
  obtain ⟨hc, hr⟩ := asked_lt msg
  unfold blockFor
  split
  · rw [feed_winchCommand hv.1 hc hr]
  · rw [feed_resizeCommand hv.1 hc hr]

theorem resize_size (c : κ) (msg : Value) (a : State) (s : Agents κ) :
    (s.resize c msg a).size =
      if a.ctrlStdin = .alive ∧ Valid msg then Function.update s.size (asked msg).1 (asked msg).2
      else s.size := by
  have hw := resizeTo_written a (asked msg).1 (asked msg).2
  by_cases h : a.ctrlStdin = .alive ∧ Valid msg
  · have hw := hw.trans (if_pos h)
    simp [resize, handleResize_eq, hw, set, if_pos h, feed_blockFor_size h.2]
  · have hw := hw.trans (if_neg h)
    simp [resize, handleResize_eq, hw, set, if_neg h]

theorem resize_connections (c : κ) (msg : Value) (a : State) (s : Agents κ) :
    (s.resize c msg a).connections =
      Function.update s.connections c (some (resizeTo a (asked msg).1 (asked msg).2)) := by
  unfold resize
  by_cases hw : (handleResize a msg).written = a.written
  · simp only [if_pos hw]
    rfl
  · simp only [if_neg hw]
    rfl

/-- A connection behind a resize is the one that resized, or as it was. -/
theorem connection_cases {c : κ} {msg : Value} {a : State} {s : Agents κ} {c' : κ} {a' : State}
    (h : (s.resize c msg a).connections c' = some a') :
    c' = c ∧ a' = resizeTo a (asked msg).1 (asked msg).2 ∨
      c' ≠ c ∧ s.connections c' = some a' := by
  rw [resize_connections] at h
  by_cases he : c' = c
  · subst he
    rw [Function.update_self] at h
    exact .inl ⟨rfl, (Option.some.inj h).symm⟩
  · rw [Function.update_of_ne he] at h
    exact .inr ⟨he, h⟩

section
variable {s : Agents κ} {c : κ} {msg : Value} {a : State}

/-- A request that is not for a size changes nothing. -/
theorem agrees_invalid (h : s.Agrees) (ha : s.connections c = some a) (hv : ¬ Valid msg) :
    (s.resize c msg a).Agrees := by
  intro c' a' hc' pane d hd
  rw [resize_size, if_neg fun hn => hv hn.2]
  rcases connection_cases hc' with ⟨-, rfl⟩ | ⟨-, hc'⟩
  · rw [resizeTo_paneDimensions, if_neg (show ¬(_ ∧ _) from hv)] at hd
    exact h c a ha pane d hd
  · exact h c' a' hc' pane d hd

/-- Behind an undisturbed request the pane has the size, written or not. -/
theorem undisturbed_size (hv : Valid msg)
    (hw : a.ctrlStdin = .alive ∨ s.size (asked msg).1 = (asked msg).2) :
    (s.resize c msg a).size = Function.update s.size (asked msg).1 (asked msg).2 := by
  rw [resize_size]
  split
  · rfl
  · next hn =>
    rcases hw with hw | hw
    · exact absurd ⟨hw, hv⟩ hn
    · rw [← hw, Function.update_eq_self]

theorem agrees_valid (h : s.Agrees) (ha : s.connections c = some a) (hv : Valid msg)
    (hw : a.ctrlStdin = .alive ∨ s.size (asked msg).1 = (asked msg).2)
    (ho : ∀ c' ≠ c, ∀ a' ∈ s.connections c', ∀ d ∈ a'.paneDimensions (asked msg).1,
      d = (asked msg).2) : (s.resize c msg a).Agrees := by
  intro c' a' hc' pane d hd
  rw [undisturbed_size hv hw]
  by_cases hp : pane = (asked msg).1
  · subst hp
    rw [Function.update_self]
    rcases connection_cases hc' with ⟨-, rfl⟩ | ⟨hne, hc'⟩
    · rw [resizeTo_paneDimensions, if_pos (show _ ∧ _ from hv), Function.update_self] at hd
      exact Option.some.inj hd
    · exact (ho c' hne a' hc' d hd).symm
  · rw [Function.update_of_ne hp]
    rcases connection_cases hc' with ⟨-, rfl⟩ | ⟨-, hc'⟩
    · rw [resizeTo_paneDimensions, if_pos (show _ ∧ _ from hv), Function.update_of_ne hp] at hd
      exact h c a ha pane d hd
    · exact h c' a' hc' pane d hd

end

/-- **An undisturbed step keeps the memories right.** -/
theorem agrees_step {s : Agents κ} (h : s.Agrees) {i : Input κ} (hu : s.Undisturbed i) :
    (s.step i).Agrees := by
  cases i with
  | «open» c => exact agrees_set h (by simp [State.new])
  | close c => exact agrees_set h (by simp)
  | control c stdin =>
    refine agrees_set h fun a' ha' => ?_
    obtain ⟨a, ha, rfl⟩ := Option.mem_map.mp ha'
    exact h c a ha
  | resize c msg =>
    simp only [step]
    cases ha : s.connections c with
    | none => exact h
    | some a =>
      by_cases hv : Valid msg
      · obtain ⟨hw, ho⟩ := hu a ha hv
        exact agrees_valid h ha hv hw ho
      · exact agrees_invalid h ha hv

/-- **Runs that meet the condition**: connections that do not disturb each other,
whose writes all arrive, and whose first resize of a pane changes its size. -/
theorem knows_of_undisturbed (size : Text → Size) {as : List (Input κ)}
    (h : EachStep step (fun s i => Undisturbed s i ∧ FirstChanges s i) (start size) as) :
    EachStep step Knows (start size) as :=
  eachStep_of_always (P := fun _ => True) (I := Agrees) (fun _ _ hc => (by cases hc))
    (fun _ _ hs hi => agrees_step hs hi.1) (fun _ _ hs _ hi => knows_of_agrees hs hi.2) h
    (always_of_invariant trivial (fun _ _ _ => trivial) as)

/-! ## Two connections, one after the other -/

/-- `{t: "r", pane: "%0", cols: 80, rows: 24}`. -/
def sampleResize : Value :=
  .map [(.str "t".toList, .str "r".toList), (.str "pane".toList, .str "%0".toList),
    (.str "cols".toList, .integer 80), (.str "rows".toList, .integer 24)]

/-- A connection resizes the pane; the next one asks for the same size. -/
def reconnect : List (Input Nat) :=
  [.open 0, .control 0 .alive, .resize 0 sampleResize, .close 0,
    .open 1, .control 1 .alive, .resize 1 sampleResize]

/-- **A reconnect at the same size leaves the terminal blank**: the second
connection remembers no size, so no signal is forced. -/
theorem reconnect_raises_none :
    ¬∀ (size : Text → Size) (as : List (Input Nat)), Always step Once (start size) as := by
  intro h
  have hl := (h (fun _ => (100, 30)) reconnect).last
  have hr : (run step (start fun _ => (100, 30)) reconnect).raised = [1, 0] := by decide +kernel
  have hzero := hl 0 (by rw [hr]; exact List.mem_cons_of_mem _ (.head _))
  cases hzero

end Agents

end Oxmux.Agent
