import Oxmux.Session.ReaderChunks

/-! The agent's `run_control_mode` (`agent/src/quic/server.rs`) next to the
server's parser: a filter over the lines, without a state, that takes every line
that looks like output for output. -/

namespace Oxmux.Agent
open Oxmux.Lib Oxmux.Lib.Runs Oxmux.Session Oxmux.Tmux

/-- `next_line`: a line ends in a newline or in CR LF. -/
def nextLine (line : Text) : Text :=
  if line.getLast? = some '\r' then line.dropLast else line

/-- The pane and the payload of a line that looks like output. -/
def outputLine (line : Text) : Option (Text × Text) :=
  (stripPrefix "%output ".toList line).bind (splitOnce ' ')

/-- `run_control_mode`: what is sent for the lines of tmux. -/
def runControlMode (lines : List Text) : List (Text × Bytes) :=
  lines.filterMap fun line =>
    (outputLine (trimEndMatches '\r' (nextLine line))).map fun p =>
      (p.1, Agent.decodeTmuxOutput p.2)

/-- The output that the server's parser emits for the lines. -/
def serverOutputs (p : ControlModeParser) (lines : List Text) : List (Text × Bytes) :=
  (p.feedLines lines).2.filterMap outputOf

/-- The payload of an output line is escaped as tmux does it. -/
def Escaped (line : Text) : Prop :=
  ∀ pane payload, outputLine (trimEndMatches '\r' line) = some (pane, payload) →
    ∃ data, Utf8.encode payload = escape data

/-- What the parser is after a line. -/
def nextParser (p : ControlModeParser) (line : Text) : ControlModeParser := (p.feedLine line).1

/-- A line of a block does not look like output. -/
def NoOutputInBlock (p : ControlModeParser) (line : Text) : Prop :=
  p.inBlock.isSome → outputLine (trimEndMatches '\r' line) = none

instance (p : ControlModeParser) (line : Text) : Decidable (NoOutputInBlock p line) :=
  inferInstanceAs (Decidable (_ → _))

/-! ## One line -/

theorem trimEndMatches_nextLine (line : Text) :
    trimEndMatches '\r' (nextLine line) = trimEndMatches '\r' line := by
  unfold nextLine
  split
  · next h =>
    obtain ⟨l, rfl⟩ := List.getLast?_eq_some_iff.mp h
    simp [trimEndMatches]
  · rfl

/-- A notification that does not start like output is none. -/
theorem outputOf_eq_none {line : Text} (ho : stripPrefix "%output ".toList line = none)
    {e : TmuxEvent} (h : notification line = some e) : outputOf e = none := by
  unfold notification at h
  rw [ho] at h
  -- what is left are the other notifications, with one or with two fields
  repeat' split at h
  all_goals first
    | contradiction
    | (obtain ⟨p, -, rfl⟩ := Option.map_eq_some_iff.mp h; rfl)
    | (obtain rfl := Option.some.inj h; rfl)

/-- Among the notifications, output is what looks like it. -/
theorem outputOf_notification (line : Text) : (notification line).bind outputOf =
    (outputLine line).map fun p => (p.1, Server.decodeTmuxOutput p.2) := by
  cases ho : stripPrefix "%output ".toList line with
  | some rest =>
    have hn : notification line =
        (splitOnce ' ' rest).map fun p => .output p.1 (Server.decodeTmuxOutput p.2) := by
      rw [notification, ho]
    rw [hn, outputLine, ho, Option.bind_some]
    cases splitOnce ' ' rest with
    | none => rfl
    | some p => rfl
  | none =>
    rw [outputLine, ho, Option.bind_none, Option.map_none, Option.bind_eq_none_iff]
    exact fun e he => outputOf_eq_none ho he

/-- A line that opens a block does not look like output. -/
theorem outputLine_begin {line rest : Text} (h : stripPrefix "%begin ".toList line = some rest) :
    outputLine line = none := by
  have he : "%begin ".toList = ['%'] ++ 'b' :: "egin ".toList := by simp
  have ho : "%output ".toList = ['%'] ++ 'o' :: "utput ".toList := by simp
  have hne : stripPrefix (['%'] ++ 'o' :: "utput ".toList)
      (['%'] ++ 'b' :: ("egin ".toList ++ rest)) =
      none := stripPrefix_ne (by decide) _ _ _
  rw [outputLine, stripPrefix_eq_some h, ho, he, List.append_assoc]
  exact congrArg (·.bind (splitOnce ' ')) hne

/-- **The output of one line**: none inside a block, else what looks like it. -/
theorem outputOf_feedLine (p : ControlModeParser) (line : Text) :
    (p.feedLine line).2.bind outputOf =
      if p.inBlock.isSome then none
      else (outputLine (trimEndMatches '\r' line)).map fun q =>
        (q.1, Server.decodeTmuxOutput q.2) := by
  cases hb : p.inBlock with
  | some block =>
    simp only [ControlModeParser.feedLine, hb, feedBlock, Option.isSome_some, if_true]
    split
    · rfl
    · split <;> rfl
  | none =>
    simp only [ControlModeParser.feedLine, hb, Option.isSome_none, Bool.false_eq_true, if_false]
    cases hbegin : stripPrefix "%begin ".toList (trimEndMatches '\r' line) with
    | some rest => rw [outputLine_begin hbegin]; rfl
    | none => exact outputOf_notification _

theorem serverOutputs_cons (p : ControlModeParser) (line : Text) (lines : List Text) :
    serverOutputs p (line :: lines) =
      ((p.feedLine line).2.bind outputOf).toList ++ serverOutputs (nextParser p line) lines := by
  rw [serverOutputs, ControlModeParser.feedLines_cons, List.filterMap_append]
  cases he : (p.feedLine line).2 with
  | none => rfl
  | some e =>
    cases ho : outputOf e with
    | none => simp [ho, serverOutputs, nextParser]
    | some o => simp [ho, serverOutputs, nextParser]

/-- The agent's decoder agrees on what tmux escaped. -/
theorem runControlMode_cons {line : Text} (h : Escaped line) (lines : List Text) :
    runControlMode (line :: lines) = ((outputLine (trimEndMatches '\r' line)).map fun p =>
      (p.1, Server.decodeTmuxOutput p.2)).toList ++ runControlMode lines := by
  simp only [runControlMode, List.filterMap_cons, trimEndMatches_nextLine]
  cases ho : outputLine (trimEndMatches '\r' line) with
  | none => rfl
  | some p =>
    obtain ⟨data, hd⟩ := h p.1 p.2 ho
    obtain ⟨hs, ha⟩ := decode_tmux_output_escape data p.2 hd
    simp [hs, ha]

/-! ## All lines -/

/-- The server never emits more than the agent sends. -/
theorem length_serverOutputs_le {lines : List Text} (h : ∀ l ∈ lines, Escaped l)
    (p : ControlModeParser) : (serverOutputs p lines).length ≤ (runControlMode lines).length := by
  induction lines generalizing p with
  | nil => rfl
  | cons line lines ih =>
    have hle := ih (fun l hl => h l (by simp [hl])) (nextParser p line)
    rw [serverOutputs_cons, runControlMode_cons (h line (by simp)), outputOf_feedLine,
      List.length_append, List.length_append]
    split
    · simp only [Option.toList_none, List.length_nil]
      omega
    · omega

/-- **When the two paths extract the same output**: exactly when no line that
the server's parser reads inside a block looks like output. -/
theorem runControlMode_eq_iff {lines : List Text} (h : ∀ l ∈ lines, Escaped l) :
    runControlMode lines = serverOutputs .new lines ↔
      EachStep nextParser NoOutputInBlock .new lines := by
  suffices ∀ p, runControlMode lines = serverOutputs p lines ↔
      EachStep nextParser NoOutputInBlock p lines from this _
  induction lines with
  | nil => exact fun p => iff_of_true rfl trivial
  | cons line lines ih =>
    intro p
    have htail : ∀ l ∈ lines, Escaped l := fun l hl => h l (by simp [hl])
    rw [serverOutputs_cons, runControlMode_cons (h line (by simp)), outputOf_feedLine, EachStep,
      ← ih htail]
    by_cases hb : p.inBlock.isSome
    · rw [if_pos hb, Option.toList_none, List.nil_append]
      cases ho : outputLine (trimEndMatches '\r' line) with
      | none => simp [NoOutputInBlock, ho]
      | some q =>
        -- the agent has sent one more than the server will ever emit
        refine iff_of_false (fun he => ?_) fun hc => by simp [hc.1 hb] at ho
        have hlen := congrArg List.length he
        have hle := length_serverOutputs_le htail (nextParser p line)
        simp only [Option.map_some, Option.toList_some, List.length_append,
          List.length_singleton] at hlen
        omega
    · rw [if_neg hb, List.append_cancel_left_eq]
      exact ⟨fun he => ⟨fun hb' => absurd hb' hb, he⟩, And.right⟩

/-! ## Output of a command that looks like output of a pane -/

/-- A payload of plain characters is escaped as it is. -/
theorem escaped_plain {line payload : Text} (hl : outputLine (trimEndMatches '\r' line) =
    some ("%0".toList, payload)) (he : escape (Utf8.encode payload) = Utf8.encode payload) :
    Escaped line := by
  intro pane payload' ho
  obtain ⟨-, rfl⟩ := Prod.mk.inj (Option.some.inj (hl.symm.trans ho))
  exact ⟨_, he.symm⟩

theorem escaped_of_none {line : Text} (h : outputLine (trimEndMatches '\r' line) = none) :
    Escaped line := by
  intro pane payload ho
  rw [h] at ho
  cases ho

/-- A block and a line of output that ends in two carriage returns. -/
theorem runControlMode_eq_sample :
    runControlMode ["%begin 7 3 0".toList, "%window-add @9".toList, "%end 7 3 0".toList,
      "%output %0 a\r\r".toList] =
    serverOutputs .new ["%begin 7 3 0".toList, "%window-add @9".toList, "%end 7 3 0".toList,
      "%output %0 a\r\r".toList] := by
  refine (runControlMode_eq_iff fun l hl => ?_).mpr (by decide +kernel)
  simp only [List.mem_cons, List.not_mem_nil, or_false] at hl
  rcases hl with rfl | rfl | rfl | rfl
  · exact escaped_of_none (by decide +kernel)
  · exact escaped_of_none (by decide +kernel)
  · exact escaped_of_none (by decide +kernel)
  · exact @escaped_plain _ "a".toList (by decide +kernel) (by decide +kernel)

/-- What a command prints is taken for a pane's output. -/
theorem block_line_sent : ¬∀ lines : List Text, (∀ l ∈ lines, Escaped l) →
    runControlMode lines = serverOutputs .new lines := by
  intro h
  have he := h ["%begin 7 3 0".toList, "%output %0 a".toList, "%end 7 3 0".toList] fun l hl => by
    simp only [List.mem_cons, List.not_mem_nil, or_false] at hl
    rcases hl with rfl | rfl | rfl
    · exact escaped_of_none (by decide +kernel)
    · exact @escaped_plain _ "a".toList (by decide +kernel) (by decide +kernel)
    · exact escaped_of_none (by decide +kernel)
  exact absurd he (by decide +kernel)

end Oxmux.Agent
