import Oxmux.Lib.Hex
import Oxmux.Session.Transport

/-! The lines that the SSH transport writes to its control channel for the
commands of clients (`server/src/session/ssh_transport.rs`). -/

namespace Oxmux.Session
open Oxmux.Lib

namespace SshTransport

def controlData (cmd : Text) : Text := if cmd.getLast? = some '\n' then cmd else cmd ++ ['\n']

def sendInput (pane : Text) (data : Bytes) : Text :=
  let hex := data.flatMap fun b => showHex b ++ [' ']
  controlData ("send-keys -t ".toList ++ pane ++ " -H ".toList ++ trim hex)

/-- One of the two commands of `resize_pane`, by its name. -/
def resizeCommand (name pane : Text) (cols rows : Nat) : Text :=
  controlData (name ++ " -t ".toList ++ pane ++ " -x ".toList ++ showNat cols ++
    " -y ".toList ++ showNat rows)

def resizePane (pane : Text) (cols rows : Nat) : List Text :=
  [resizeCommand "resize-window".toList pane cols rows,
    resizeCommand "resize-pane".toList pane cols rows]

end SshTransport

/-- What one command writes to the control channel. -/
def Command.controlWrites : Command → List Text
  | .input pane data => [SshTransport.sendInput pane data]
  | .resize pane cols rows => SshTransport.resizePane pane cols rows

/-- What an SSH transport has written to its control channels. -/
def Transport.controlWrites (t : Transport) : List Text :=
  t.executed.flatMap Command.controlWrites

namespace SshTransport

theorem controlData_of_ne {cmd : Text} (h : cmd.getLast? ≠ some '\n') :
    controlData cmd = cmd ++ ['\n'] := if_neg h

/-- Bytes that are printed in a row end in a digit. -/
theorem getLast?_hexArgs {data : Bytes} (h : data ≠ []) :
    ∃ c ∈ hexDigits, (hexArgs data).getLast? = some c := by
  induction data with
  | nil => exact absurd rfl h
  | cons b data ih =>
    by_cases hd : data = []
    · subst hd
      exact ⟨_, mem_hexDigits (b := b) (by simp [showHex]), rfl⟩
    · obtain ⟨c, hc, hl⟩ := ih hd
      exact ⟨c, hc, by rw [hexArgs_cons, List.getLast?_append, hl]; rfl⟩

theorem not_isWhitespace_of_mem : ∀ c ∈ hexDigits, isWhitespace c = false := by
  have hall : hexDigits.all (fun c => !isWhitespace c) = true := by decide
  intro c hc
  simpa using List.all_eq_true.mp hall c hc

/-- **Trimming takes the last space** and nothing else. -/
theorem space_cons_trim {data : Bytes} (h : data ≠ []) :
    ' ' :: trim (data.flatMap fun b => showHex b ++ [' ']) = hexArgs data := by
  obtain ⟨c, hc, hl⟩ := getLast?_hexArgs h
  cases data with
  | nil => exact absurd rfl h
  | cons b data =>
    have hflat : (b :: data).flatMap (fun b => showHex b ++ [' ']) =
        (showHex b ++ hexArgs data) ++ [' '] := by
      have he := space_cons_flatMap (b :: data)
      rw [hexArgs_cons, List.cons_append, List.cons_append] at he
      exact (List.cons.inj he).2
    have hfirst : isWhitespace (Nat.digitChar (b.toNat / 16)) = false :=
      not_isWhitespace_of_mem _ (mem_hexDigits (b := b) (by simp [showHex]))
    have hlast : isWhitespace c = false := not_isWhitespace_of_mem c hc
    have hspace : isWhitespace ' ' = true := by decide
    have hl' : (showHex b ++ hexArgs data).getLast? = some c := by
      simpa [showHex] using hl
    have hdrop : ((showHex b ++ hexArgs data) ++ [' ']).dropWhile isWhitespace =
        (showHex b ++ hexArgs data) ++ [' '] := by
      simp [showHex, hfirst]
    rw [hflat, trim, hdrop, List.rdropWhile_concat_pos _ _ _ hspace,
      List.rdropWhile_eq_self_iff.mpr]
    · rfl
    · intro hne hw
      rw [List.getLast?_eq_some_getLast hne] at hl'
      rw [Option.some.inj hl', hlast] at hw
      cases hw

/-- The line of `send_input` without a space at its end. -/
theorem sendInput_eq {pane : Text} {data : Bytes} (h : data ≠ []) :
    sendInput pane data =
      "send-keys -t ".toList ++ pane ++ " -H".toList ++ hexArgs data ++ ['\n'] := by
  obtain ⟨c, hc, hl⟩ := getLast?_hexArgs h
  have hH : " -H ".toList = " -H".toList ++ [' '] := by simp
  have hcmd : "send-keys -t ".toList ++ pane ++ " -H ".toList ++
      trim (data.flatMap fun b => showHex b ++ [' ']) =
        "send-keys -t ".toList ++ pane ++ " -H".toList ++ hexArgs data := by
    rw [hH, ← List.append_assoc, List.append_assoc _ [' '], List.singleton_append,
      space_cons_trim h]
  unfold sendInput
  simp only
  rw [hcmd, controlData_of_ne]
  rw [List.getLast?_append, hl]
  intro he
  have hcn : c = '\n' := Option.some.inj he
  rw [hcn] at hc
  revert hc
  decide

end SshTransport

/-! ## One command a line -/

/-- The characters of an argument: none of them ends a command. -/
def IsPlain (w : Text) : Prop := ∀ c ∈ w, c.isAlphanum = true ∨ c = '-'

instance : DecidablePred IsPlain := fun w => List.decidableBAll _ w

/-- A line that is one command for a target. -/
def CommandFor (target line : Text) : Prop :=
  ∃ name ∈ ["send-keys".toList, "resize-window".toList, "resize-pane".toList],
    ∃ args : List Text, (∀ w ∈ args, IsPlain w) ∧
      line = name ++ ("-t".toList :: target :: args).flatMap (' ' :: ·) ++ ['\n']

theorem isPlain_showNat (n : Nat) : IsPlain (showNat n) := fun c hc => by
  simp [Char.isAlphanum, showNat_isDigit hc]

theorem isPlain_showHex (b : Byte) : IsPlain (showHex b) := by
  have hdigits : IsPlain hexDigits := by decide
  exact fun c hc => hdigits c (mem_hexDigits hc)

/-- A line for a plain target is plain: no character of it starts a second command. -/
theorem CommandFor.plain {digits line : Text} (h : CommandFor ('%' :: digits) line)
    (hd : IsPlain digits) :
    ∀ c ∈ line.dropLast, c.isAlphanum = true ∨ c = '-' ∨ c = ' ' ∨ c = '%' := by
  obtain ⟨name, hname, args, hargs, rfl⟩ := h
  have hn : IsPlain name := by
    simp only [List.mem_cons, List.not_mem_nil, or_false] at hname
    rcases hname with rfl | rfl | rfl <;> decide
  have ht : IsPlain "-t".toList := by decide
  rw [List.dropLast_concat]
  intro c hc
  rw [List.mem_append, List.mem_flatMap] at hc
  rcases hc with hc | ⟨w, hw, hc⟩
  · exact (hn c hc).imp_right Or.inl
  · rcases List.mem_cons.mp hc with rfl | hc
    · exact Or.inr (Or.inr (Or.inl rfl))
    · rcases List.mem_cons.mp hw with rfl | hw
      · exact (ht c hc).imp_right Or.inl
      · rcases List.mem_cons.mp hw with rfl | hw
        · rcases List.mem_cons.mp hc with rfl | hc
          · exact Or.inr (Or.inr (Or.inr rfl))
          · exact (hd c hc).imp_right Or.inl
        · exact (hargs w hw c hc).imp_right Or.inl

theorem commandFor_sendInput (pane : Text) (data : Bytes) :
    CommandFor pane (SshTransport.sendInput pane data) := by
  have hflag : IsPlain "-H".toList := by decide
  by_cases hd : data = []
  · -- without data the line ends in the space behind the flag
    subst hd
    refine ⟨"send-keys".toList, by simp, ["-H".toList, []], ?_, ?_⟩
    · intro w hw
      simp only [List.mem_cons, List.not_mem_nil, or_false] at hw
      rcases hw with rfl | rfl
      · exact hflag
      · simp [IsPlain]
    · have hcmd : "send-keys -t ".toList ++ pane ++ " -H ".toList ++
          trim ([].flatMap fun b => showHex b ++ [' ']) =
            "send-keys -t ".toList ++ pane ++ " -H".toList ++ [' '] := by
        simp [trim]
      unfold SshTransport.sendInput
      simp only
      rw [hcmd, SshTransport.controlData_of_ne]
      · simp
      · rw [List.getLast?_concat]
        decide
  · refine ⟨"send-keys".toList, by simp, "-H".toList :: data.map showHex, ?_, ?_⟩
    · intro w hw
      rcases List.mem_cons.mp hw with rfl | hw
      · exact hflag
      · obtain ⟨b, -, rfl⟩ := List.mem_map.mp hw
        exact isPlain_showHex b
    · rw [SshTransport.sendInput_eq hd, hexArgs]
      simp [List.flatMap_map]

theorem commandFor_resizeCommand {name : Text}
    (hn : name = "resize-window".toList ∨ name = "resize-pane".toList) (pane : Text)
    (cols rows : Nat) : CommandFor pane (SshTransport.resizeCommand name pane cols rows) := by
  refine ⟨name, ?_, ["-x".toList, showNat cols, "-y".toList, showNat rows], ?_, ?_⟩
  · rcases hn with rfl | rfl <;> simp
  · intro w hw
    simp only [List.mem_cons, List.not_mem_nil, or_false] at hw
    rcases hw with rfl | rfl | rfl | rfl
    · decide
    · exact isPlain_showNat cols
    · decide
    · exact isPlain_showNat rows
  · unfold SshTransport.resizeCommand
    rw [SshTransport.controlData_of_ne]
    · simp
    · rw [List.getLast?_append, List.getLast?_eq_some_getLast (showNat_ne_nil rows)]
      intro he
      have hd := showNat_isDigit (List.getLast_mem (showNat_ne_nil rows))
      rw [Option.some.inj he] at hd
      exact absurd hd (by decide)

end Oxmux.Session
