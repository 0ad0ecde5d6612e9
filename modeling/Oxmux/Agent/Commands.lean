import Oxmux.Agent.Resize

/-! What a message can make the agent write to tmux's control mode
(`agent/src/quic/server.rs`). -/

namespace Oxmux.Agent
open Oxmux.Lib Oxmux.Lib.Lines

/-- A pane id is a percent sign and a number. -/
theorem isValidPaneId_iff {pane : Text} : isValidPaneId pane = true ↔
    ∃ digits, digits ≠ [] ∧ (∀ c ∈ digits, c.isDigit = true) ∧ pane = '%' :: digits := by
  constructor
  · intro h
    simp only [isValidPaneId, Bool.and_eq_true, decide_eq_true_eq] at h
    obtain ⟨⟨hp, hl⟩, hall⟩ := h
    obtain ⟨digits, hs⟩ := Option.isSome_iff_exists.mp hp
    have hpane : pane = '%' :: digits := stripPrefix_eq_some hs
    subst hpane
    refine ⟨digits, ?_, List.all_eq_true.mp hall, rfl⟩
    rintro rfl
    simp at hl
  · rintro ⟨digits, hne, hall, rfl⟩
    have hlen : 0 < digits.length := List.length_pos_iff.mpr hne
    have hd : digits.all Char.isDigit = true := List.all_eq_true.mpr hall
    simp [isValidPaneId, startsWith, stripPrefix, hlen, hd]

/-! ## Keystrokes -/

/-- The line for some keystrokes, without its newline. -/
def keysLine (pane : Text) (data : Bytes) : Text :=
  "send-keys -t ".toList ++ pane ++ " -H".toList ++ hexArgs data

theorem newline_not_mem_keysLine {pane : Text} (hp : isValidPaneId pane = true) (data : Bytes) :
    '\n' ∉ keysLine pane data := by
  have hpane : '\n' ∉ pane := not_mem_pane hp (by decide) (by decide)
  have hdata : '\n' ∉ hexArgs data := not_mem_hexArgs (by decide) (by decide) data
  have hs : '\n' ∉ "send-keys -t ".toList := by simp
  have hH : '\n' ∉ " -H".toList := by simp
  unfold keysLine
  rw [List.mem_append, List.mem_append, List.mem_append]
  rintro (((h | h) | h) | h)
  · exact hs h
  · exact hpane h
  · exact hH h
  · exact hdata h

/-- Keystrokes for a pane are written in one line, if there are any. -/
theorem sendTmuxInput_written (a : State) (pane : Text) (data : Bytes) :
    (sendTmuxInput a pane data).written =
      if a.ctrlStdin = .alive ∧ isValidPaneId pane = true ∧ data ≠ [] then
        a.written ++ [joinLines [keysLine pane data]]
      else a.written := by
  have hn : "\n".toList = ['\n'] := by decide
  unfold sendTmuxInput keysLine
  rw [hn, ← hexArgs]
  by_cases hd : data = []
  · simp [hd]
  · cases hp : isValidPaneId pane with
    | false => simp
    | true =>
      by_cases ha : a.ctrlStdin = .alive
      · simp [hd, ha, State.write]
      · simp [hd, ha, State.write]

/-! ## Messages -/

theorem send_written (env : Env) (a : State) (reply : Reply) :
    (a.send env reply).written = a.written := by
  unfold State.send
  split <;> rfl

theorem handleSub_written (a : State) (msg : Value) : (handleSub a msg).written = a.written := by
  unfold handleSub
  simp only
  split <;> rfl

theorem handleUnsub_written (a : State) (msg : Value) :
    (handleUnsub a msg).written = a.written := by
  unfold handleUnsub
  simp only
  split <;> rfl

theorem handleOffer_written (env : Env) (a : State) : (handleOffer env a).written = a.written := by
  unfold handleOffer
  simp only
  split <;> rw [send_written]

theorem handleIce_written (a : State) (msg : Value) : (handleIce a msg).written = a.written := by
  unfold handleIce takeCandidate
  split
  · rfl
  · split
    · split <;> rfl
    · rfl

/-- What a message may add to what was written: nothing, what its keystrokes add,
or what a resize adds. -/
def Adds (a : State) (msg : Value) (a' : State) : Prop :=
  a'.written = a.written ∨
  (∃ pane data, a'.written = (sendTmuxInput a pane data).written) ∨
  a'.written = (handleResize a msg).written

theorem adds_handleValue (env : Env) (a : State) (msg : Value) :
    Adds a msg (handleValue env a msg) := by
  unfold handleValue
  refine iteInduction (motive := Adds a msg) (fun _ => Or.inl (handleSub_written a msg)) fun _ => ?_
  refine iteInduction (motive := Adds a msg) (fun _ => Or.inl (handleUnsub_written a msg))
    fun _ => ?_
  refine iteInduction (motive := Adds a msg) (fun _ => Or.inr (Or.inl ⟨_, _, rfl⟩)) fun _ => ?_
  refine iteInduction (motive := Adds a msg) (fun _ => Or.inr (Or.inr rfl)) fun _ => ?_
  refine iteInduction (motive := Adds a msg) (fun _ => Or.inl (send_written env a _)) fun _ => ?_
  refine iteInduction (motive := Adds a msg) (fun _ => Or.inl (send_written env a _)) fun _ => ?_
  refine iteInduction (motive := Adds a msg) (fun _ => Or.inl (handleOffer_written env a))
    fun _ => ?_
  refine iteInduction (motive := Adds a msg) (fun _ => Or.inl rfl) fun _ => ?_
  exact iteInduction (motive := Adds a msg) (fun _ => Or.inl (handleIce_written a msg))
    fun _ => Or.inl rfl

/-! ## Allowed commands -/

/-- An argument of two hexadecimal digits. -/
def IsHexPair (arg : Text) : Prop := arg.length = 2 ∧ ∀ c ∈ arg, c ∈ hexDigits

def sizeArgs (digits : Text) (cols rows : Nat) : Text :=
  "-t %".toList ++ digits ++ " -x ".toList ++ showNat cols ++ " -y ".toList ++ showNat rows

/-- The commands that a message may cause for the pane with these digits. -/
inductive Allowed (digits : Text) : List Text → Prop
  | keys (args : List Text) (hne : args ≠ []) (hargs : ∀ arg ∈ args, IsHexPair arg) :
      Allowed digits ["send-keys -t %".toList ++ digits ++ " -H".toList ++
        args.flatMap (' ' :: ·)]
  | resize (cols rows : Nat) (hc : 0 < cols ∧ cols < 65536) (hr : 0 < rows ∧ rows < 65536) :
      Allowed digits ["resize-window ".toList ++ sizeArgs digits cols rows,
        "resize-pane ".toList ++ sizeArgs digits cols rows]
  | winch (cols rows : Nat) (hc : 0 < cols ∧ cols < 65536) (hr : 0 < rows ∧ rows < 65536) :
      Allowed digits ["resize-window ".toList ++ sizeArgs digits cols rows,
        "resize-pane ".toList ++ sizeArgs digits cols rows,
        "run-shell -t %".toList ++ digits ++ " \"kill -WINCH #\x7bpane_pid\x7d\"".toList]

theorem keysLine_cons (digits : Text) (data : Bytes) : keysLine ('%' :: digits) data =
    "send-keys -t %".toList ++ digits ++ " -H".toList ++
      (data.map showHex).flatMap (' ' :: ·) := by
  have hs : "send-keys -t %".toList = "send-keys -t ".toList ++ ['%'] := by simp
  unfold keysLine hexArgs
  rw [hs, List.flatMap_map]
  simp only [List.append_assoc, List.singleton_append]

theorem isHexPair_showHex (b : Byte) : IsHexPair (showHex b) := ⟨rfl, fun _ hc => mem_hexDigits hc⟩

theorem allowed_keysLine (digits : Text) {data : Bytes} (hd : data ≠ []) :
    Allowed digits [keysLine ('%' :: digits) data] := by
  rw [keysLine_cons]
  refine Allowed.keys _ (by simpa using hd) ?_
  intro arg harg
  obtain ⟨b, _, rfl⟩ := List.mem_map.mp harg
  exact isHexPair_showHex b

theorem resizeLine_cons {command name : Text} (hc : command = name ++ "-t ".toList)
    (digits : Text) (d : Size) :
    resizeLine command ('%' :: digits) d = name ++ sizeArgs digits d.1 d.2 := by
  have ht : "-t %".toList = "-t ".toList ++ ['%'] := by simp
  have hx : " -x ".toList = ' ' :: "-x ".toList := by simp
  have hy : " -y ".toList = ' ' :: "-y ".toList := by simp
  unfold resizeLine resizeArgs sizeArgs
  rw [hc, ht, hx, hy]
  simp only [List.append_assoc, List.cons_append, List.nil_append]

theorem shellLine_cons (digits : Text) :
    shellLine "run-shell -t ".toList ('%' :: digits) "\"kill -WINCH #\x7bpane_pid\x7d\"".toList =
      "run-shell -t %".toList ++ digits ++ " \"kill -WINCH #\x7bpane_pid\x7d\"".toList := by
  have hs : "run-shell -t %".toList = "run-shell -t ".toList ++ ['%'] := by simp
  have hk : " \"kill -WINCH #\x7bpane_pid\x7d\"".toList =
      ' ' :: "\"kill -WINCH #\x7bpane_pid\x7d\"".toList := by simp
  unfold shellLine
  rw [hs, hk]
  simp only [List.append_assoc, List.cons_append, List.nil_append]

/-- A resize writes two allowed lines, or three. -/
theorem allowed_blockFor (a : State) {digits : Text} (hp : isValidPaneId ('%' :: digits) = true)
    {d : Size} (hpos : 0 < d.1 ∧ 0 < d.2) (hlt : d.1 < 65536 ∧ d.2 < 65536) :
    ∃ lines, Allowed digits lines ∧ (∀ l ∈ lines, '\n' ∉ l) ∧
      Agents.blockFor a ('%' :: digits) d = joinLines lines := by
  have hw := @resizeLine_cons "resize-window -t ".toList "resize-window ".toList (by simp) digits d
  have hpane := @resizeLine_cons "resize-pane -t ".toList "resize-pane ".toList (by simp) digits d
  have hnw : '\n' ∉ resizeLine "resize-window -t ".toList ('%' :: digits) d :=
    newline_not_mem_resizeLine hp (by simp)
  have hnp : '\n' ∉ resizeLine "resize-pane -t ".toList ('%' :: digits) d :=
    newline_not_mem_resizeLine hp (by simp)
  have hns : '\n' ∉ shellLine "run-shell -t ".toList ('%' :: digits)
      "\"kill -WINCH #\x7bpane_pid\x7d\"".toList :=
    newline_not_mem_shellLine hp (by simp) (by simp)
  unfold Agents.blockFor
  split
  · refine ⟨_, Allowed.winch d.1 d.2 ⟨hpos.1, hlt.1⟩ ⟨hpos.2, hlt.2⟩, ?_, ?_⟩
    · rw [← hw, ← hpane, ← shellLine_cons]
      intro l hl
      simp only [List.mem_cons, List.not_mem_nil, or_false] at hl
      rcases hl with rfl | rfl | rfl
      · exact hnw
      · exact hnp
      · exact hns
    · rw [resizeCommand_eq, winchCommand_eq, ← joinLines_append, hw, hpane, shellLine_cons]
      rfl
  · refine ⟨_, Allowed.resize d.1 d.2 ⟨hpos.1, hlt.1⟩ ⟨hpos.2, hlt.2⟩, ?_, ?_⟩
    · rw [← hw, ← hpane]
      intro l hl
      simp only [List.mem_cons, List.not_mem_nil, or_false] at hl
      rcases hl with rfl | rfl
      · exact hnw
      · exact hnp
    · rw [resizeCommand_eq, hw, hpane]

/-- **No message injects a command.** Whatever the bytes of a message are, it
adds nothing to what was written, or the lines of one allowed block. -/
theorem handleMessage_commands (readValue : Bytes → Option Value) (env : Env) (a : State)
    (data : Bytes) :
    (handleMessage readValue env a data).written = a.written ∨
    ∃ digits lines, digits ≠ [] ∧ (∀ c ∈ digits, c.isDigit = true) ∧ Allowed digits lines ∧
      (∀ l ∈ lines, '\n' ∉ l) ∧
      (handleMessage readValue env a data).written = a.written ++ [joinLines lines] := by
  unfold handleMessage
  cases readValue data with
  | none => exact Or.inl rfl
  | some msg =>
    rcases adds_handleValue env a msg with h | ⟨pane, keys, h⟩ | h
    · exact Or.inl h
    · rw [sendTmuxInput_written] at h
      split at h
      · next hk =>
        obtain ⟨digits, hne, hall, hpane⟩ := isValidPaneId_iff.mp hk.2.1
        subst hpane
        refine Or.inr ⟨digits, _, hne, hall, allowed_keysLine digits hk.2.2, ?_, h⟩
        intro l hl
        rw [List.mem_singleton.mp hl]
        exact newline_not_mem_keysLine hk.2.1 keys
      · exact Or.inl h
    · rw [Agents.handleResize_eq, Agents.resizeTo_written] at h
      split at h
      · next hk =>
        obtain ⟨digits, hne, hall, hpane⟩ := isValidPaneId_iff.mp hk.2.1
        rw [hpane] at h hk
        obtain ⟨lines, hallowed, hnl, hblock⟩ :=
          allowed_blockFor a hk.2.1 hk.2.2 (Agents.asked_lt msg)
        rw [hblock] at h
        exact Or.inr ⟨digits, lines, hne, hall, hallowed, hnl, h⟩
      · exact Or.inl h

end Oxmux.Agent
