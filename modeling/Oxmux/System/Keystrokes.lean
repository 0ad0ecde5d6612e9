import Oxmux.Agent.Commands
import Oxmux.Session.ControlLine

/-! Keystrokes on their two ways to tmux: `send_input` of the server's SSH
transport (`server/src/session/ssh_transport.rs`) and `send_tmux_input` of the
agent (`agent/src/quic/server.rs`). -/

namespace Oxmux.System
open Oxmux.Lib Lines Oxmux.Session
open Oxmux.Agent (keysLine)

/-- The arguments of a `send-keys` line behind `-H`, read as bytes. -/
def readKeys (line : Text) : Option Bytes :=
  (((splitStr [' '] line).dropWhile (· ≠ "-H".toList)).drop 1).mapM readHex

section
variable {pane : Text} (hp : Agent.isValidPaneId pane = true)
include hp

theorem splitStr_keysLine (data : Bytes) : splitStr [' '] (keysLine pane data) =
    "send-keys".toList :: "-t".toList :: pane :: "-H".toList :: data.map showHex := by
  have hpane : ' ' ∉ pane := Agent.not_mem_pane hp (by decide) (by decide)
  have hline : keysLine pane data = "send-keys".toList ++ ([' '] ++ ("-t".toList ++ ([' '] ++
      (pane ++ ([' '] ++ ("-H".toList ++ hexArgs data)))))) := by
    have hs : "send-keys -t ".toList = "send-keys".toList ++ ([' '] ++ ("-t".toList ++ [' '])) := by
      simp
    have hH : " -H".toList = [' '] ++ "-H".toList := by simp
    unfold keysLine
    rw [hs, hH]
    simp only [List.append_assoc]
  rw [hline, splitStr_append_of_not_mem [] (by simp), splitStr_append_of_not_mem [] (by simp),
    splitStr_append_of_not_mem [] hpane, splitStr_hexArgs (by simp)]

/-- **The bytes are read back.** -/
theorem readKeys_keysLine (data : Bytes) : readKeys (keysLine pane data) = some data := by
  have hs : "send-keys".toList ≠ "-H".toList := by decide
  have ht : "-t".toList ≠ "-H".toList := by decide
  have hpane : pane ≠ "-H".toList := by
    rintro rfl
    revert hp
    decide
  rw [readKeys, splitStr_keysLine hp]
  simp only [List.dropWhile_cons, ne_eq, hs, ht, hpane, not_false_eq_true, decide_true, if_true,
    not_true_eq_false, decide_false, Bool.false_eq_true, if_false, List.drop_succ_cons,
    List.drop_zero]
  exact mapM_readHex data

end

/-- **Keystrokes arrive as they were typed, on both ways.** For a pane and some
bytes the server and the agent write the same line; it ends in its only newline,
and its arguments behind `-H` are the bytes. -/
theorem keystrokes_lossless (digits : Text) (data : Bytes) (hne : digits ≠ [])
    (hall : ∀ c ∈ digits, c.isDigit = true) (hd : data ≠ []) (a : Agent.State)
    (ha : a.ctrlStdin = .alive) (t : Transport) (ht : t.Live) :
    let line := SshTransport.sendInput ('%' :: digits) data
    (∃ t', t.execute (.input ('%' :: digits) data) = .ok t' ∧
      t'.controlWrites = t.controlWrites ++ [line]) ∧
    (Agent.sendTmuxInput a ('%' :: digits) data).written = a.written ++ [line] ∧
    line.count '\n' = 1 ∧ line.getLast? = some '\n' ∧ readKeys line.dropLast = some data := by
  intro line
  have hp := Agent.isValidPaneId_iff.mpr ⟨digits, hne, hall, rfl⟩
  have hline : line = keysLine ('%' :: digits) data ++ ['\n'] := SshTransport.sendInput_eq hd
  refine ⟨⟨_, ht _, ?_⟩, ?_, ?_, ?_, ?_⟩
  · simp only [Transport.controlWrites, List.flatMap_append, List.flatMap_singleton]
    rfl
  · rw [Agent.sendTmuxInput_written, if_pos ⟨ha, hp, hd⟩, hline]
    simp
  · have hcount := List.count_eq_zero_of_not_mem (Agent.newline_not_mem_keysLine hp data)
    rw [hline, List.count_append, hcount]
    rfl
  · rw [hline, List.getLast?_append]
    rfl
  · rw [hline, List.dropLast_concat]
    exact readKeys_keysLine hp data

/-- A newline, a semicolon and a zero byte. -/
theorem keystrokes_lossless_control :
    readKeys (SshTransport.sendInput "%7".toList [10, 59, 0]).dropLast = some [10, 59, 0] :=
  (keystrokes_lossless ['7'] [10, 59, 0] (by decide) (by simp) (by decide) (.new .alive) rfl
    _ (Transport.live_connect 0 (.new (TransportConfig.ssh []).backend []))).2.2.2.2

end Oxmux.System
