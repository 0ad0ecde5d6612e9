import Oxmux.Agent.ControlMode
import Oxmux.Tmux.ControlStream

/-! `run_control_mode` (`agent/src/quic/server.rs`) on bytes. Lines are read as
text, and the `while let` ends with the first line that is none: nothing that
tmux writes behind it is sent. -/

namespace Oxmux.Agent
open Oxmux.Lib Oxmux.Lib.Utf8 Oxmux.Session Oxmux.Tmux

/-- Why `run_control_mode` returned. `next_line` fails on a line that is not UTF-8,
and `tx.send` when the receiver is gone. -/
inductive Returned where
  | endOfStream
  | readError
  | receiverGone
  deriving DecidableEq

/-- What the calls of `next_line` answer, up to the end of the stream; `none`
is an error. Only a line that ends in a newline loses its carriage return. -/
def readLines (stream : Bytes) : List (Option Text) :=
  let pieces := stream.splitOn newlineByte
  pieces.dropLast.map (fun line => (fromUtf8 line).map nextLine) ++
    (pieces.getLast?.toList.filter (· ≠ [])).map fromUtf8

def sentFor (line : Text) : Option (Text × Bytes) :=
  (outputLine (trimEndMatches '\r' line)).map fun p => (p.1, Agent.decodeTmuxOutput p.2)

/-- The loop of `run_control_mode`: what it has sent when it ends, and why it
ends. `alive n` tells whether the receiver is there when pair `n` is sent. -/
def controlLoop (alive : Nat → Bool) : Nat → List (Option Text) → List (Text × Bytes) × Returned
  | _, [] => ([], .endOfStream)
  | _, none :: _ => ([], .readError)
  | n, some line :: lines =>
    match sentFor line with
    | none => controlLoop alive n lines
    | some pair =>
      if alive n then
        let rest := controlLoop alive (n + 1) lines
        (pair :: rest.1, rest.2)
      else ([], .receiverGone)

/-- `run_control_mode`, from the bytes on the standard output of tmux. -/
def controlBytes (alive : Nat → Bool) (stream : Bytes) : List (Text × Bytes) × Returned :=
  controlLoop alive 0 (readLines stream)

/-! ## What tmux writes -/

/-- A line on the output of tmux, without its newline: what a pane wrote, with the
carriage returns that the terminal puts behind it, or any other line. -/
inductive TmuxLine where
  | output (pane : Nat) (data : Bytes) (crs : Nat)
  | other (bytes : Bytes) (oneLine : newlineByte ∉ bytes)

def paneId (pane : Nat) : Text := '%' :: showNat pane

/-- The line with the payload as text, where it is text. -/
def outputText (pane : Nat) (payload : Text) (crs : Nat) : Text :=
  "%output ".toList ++ (paneId pane ++ ' ' :: payload) ++ List.replicate crs '\r'

def TmuxLine.bytes : TmuxLine → Bytes
  | .output pane data crs => encode ("%output ".toList ++ (paneId pane ++ [' '])) ++
      (escape data ++ encode (List.replicate crs '\r'))
  | .other bytes _ => bytes

/-- The pair that the line stands for. -/
def TmuxLine.pair : TmuxLine → Option (Text × Bytes)
  | .output pane data _ => some (paneId pane, data)
  | .other _ _ => none

/-- Lines with a newline between them. The last one has none behind it: it is
empty unless tmux stops in the middle of a line. -/
def streamOf (lines : List TmuxLine) (last : TmuxLine) : Bytes :=
  [newlineByte].intercalate ((lines ++ [last]).map TmuxLine.bytes)

/-- The bytes of an output line's pane are text of their own; any other line is
text and does not look like output. -/
def TmuxLine.Readable : TmuxLine → Prop
  | .output _ data _ => Valid data
  | .other bytes _ => ∃ text, bytes = encode text ∧ outputLine (trimEndMatches '\r' text) = none

/-! ## Reading lines -/

/-- The bytes between two newlines hold none. -/
theorem newlineByte_not_mem_bytes (l : TmuxLine) : newlineByte ∉ l.bytes := by
  cases l with
  | other bytes oneLine => exact oneLine
  | output pane data crs =>
    simp only [TmuxLine.bytes, List.mem_append, not_or]
    refine ⟨fun h => ?_, fun h => ?_, fun h => ?_⟩
    · have hm := newlineByte_mem_encode h
      simp [paneId, not_mem_showNat pane (by decide : '\n'.isDigit = false)] at hm
    · exact absurd (le_toNat_of_mem_escape h) (by decide)
    · have hm := newlineByte_mem_encode h
      simp at hm

/-- **The pieces of the stream are the lines.** -/
theorem splitOn_streamOf (lines : List TmuxLine) (last : TmuxLine) :
    (streamOf lines last).splitOn newlineByte = (lines ++ [last]).map TmuxLine.bytes := by
  refine List.splitOn_intercalate newlineByte (fun l hl => ?_) (by simp)
  obtain ⟨x, -, rfl⟩ := List.mem_map.mp hl
  exact newlineByte_not_mem_bytes x

theorem not_mem_of_mem_splitOn {x : Byte} {bs l : Bytes} (h : l ∈ bs.splitOn x) : x ∉ l := by
  induction bs generalizing l with
  | nil =>
    rw [List.splitOn_nil, List.mem_singleton] at h
    simp [h]
  | cons b bs ih =>
    rw [List.splitOn_cons_eq_if_modifyHead] at h
    split at h
    · rcases List.mem_cons.mp h with rfl | h
      · simp
      · exact ih h
    · next hb =>
      obtain ⟨head, tail, he⟩ := List.exists_cons_of_ne_nil (List.splitOn_ne_nil x bs)
      rw [he, List.modifyHead_cons] at h
      rcases List.mem_cons.mp h with rfl | h
      · have hhead := ih (l := head) (by simp [he])
        simp only [List.mem_cons, not_or]
        exact ⟨fun e => hb (by simp [e]), hhead⟩
      · exact ih (by simp [he, h])

/-- **Every stream is made of lines.** -/
theorem exists_streamOf (stream : Bytes) : ∃ lines last, streamOf lines last = stream := by
  let toLine (l : {l // l ∈ stream.splitOn newlineByte}) : TmuxLine :=
    .other l.1 (not_mem_of_mem_splitOn l.2)
  have hbytes : ((stream.splitOn newlineByte).attach.map toLine).map TmuxLine.bytes =
      stream.splitOn newlineByte := by
    rw [List.map_map]
    exact List.attach_map_subtype_val _
  have hne : (stream.splitOn newlineByte).attach.map toLine ≠ [] := by simp
  refine ⟨((stream.splitOn newlineByte).attach.map toLine).dropLast,
    ((stream.splitOn newlineByte).attach.map toLine).getLast hne, ?_⟩
  rw [streamOf, List.dropLast_append_getLast hne, hbytes, List.intercalate_splitOn]

theorem controlLoop_skip {line : Text} (h : sentFor line = none) (alive : Nat → Bool) (n : Nat)
    (rest : List (Option Text)) :
    controlLoop alive n (some line :: rest) = controlLoop alive n rest := by
  rw [controlLoop, h]

theorem controlLoop_send {line : Text} {pair : Text × Bytes} (h : sentFor line = some pair)
    {alive : Nat → Bool} {n : Nat} (ha : alive n = true) (rest : List (Option Text)) :
    controlLoop alive n (some line :: rest) =
      (pair :: (controlLoop alive (n + 1) rest).1, (controlLoop alive (n + 1) rest).2) := by
  simp only [controlLoop, h, ha, if_true]

theorem sentFor_nextLine (line : Text) : sentFor (nextLine line) = sentFor line := by
  rw [sentFor, sentFor, trimEndMatches_nextLine]

/-- The carriage return in front of a newline makes no difference. -/
theorem controlLoop_nextLine (alive : Nat → Bool) (n : Nat) (ls : List Bytes)
    (rest : List (Option Text)) :
    controlLoop alive n (ls.map (fun line => (fromUtf8 line).map nextLine) ++ rest) =
      controlLoop alive n (ls.map fromUtf8 ++ rest) := by
  induction ls generalizing n with
  | nil => rfl
  | cons l ls ih =>
    rw [List.map_cons, List.map_cons, List.cons_append, List.cons_append]
    cases fromUtf8 l with
    | none => rfl
    | some line =>
      rw [Option.map_some, controlLoop, controlLoop, sentFor_nextLine]
      simp only [ih]

theorem controlLoop_nil (alive : Nat → Bool) (n : Nat) (rs : List (Option Text)) :
    controlLoop alive n (rs ++ [some []]) = controlLoop alive n rs := by
  have hnil : sentFor [] = none := by decide
  induction rs generalizing n with
  | nil => exact controlLoop_skip hnil alive n []
  | cons r rs ih =>
    cases r with
    | none => rfl
    | some line =>
      rw [List.cons_append, controlLoop, controlLoop]
      simp only [ih]

/-- **The loop runs over the lines of tmux.** -/
theorem controlBytes_streamOf (alive : Nat → Bool) (lines : List TmuxLine) (last : TmuxLine) :
    controlBytes alive (streamOf lines last) =
      controlLoop alive 0 ((lines ++ [last]).map fun l => fromUtf8 l.bytes) := by
  have hlast : (lines ++ [last]).map (fun l => fromUtf8 l.bytes) =
      (lines.map TmuxLine.bytes).map fromUtf8 ++ [fromUtf8 last.bytes] := by
    simp
  rw [hlast]
  simp only [controlBytes, readLines, splitOn_streamOf, List.map_append, List.map_singleton,
    List.dropLast_concat, List.getLast?_concat, Option.toList_some]
  rw [controlLoop_nextLine]
  by_cases he : last.bytes = []
  · have hempty : fromUtf8 [] = some [] := fromUtf8_encode []
    simp only [he, List.filter_singleton]
    rw [hempty, controlLoop_nil]
    simp
  · simp [he]

/-! ## One line -/

/-- Output is text exactly if the pane's bytes are. -/
theorem valid_output_iff (pane : Nat) (data : Bytes) (crs : Nat) :
    Valid (TmuxLine.output pane data crs).bytes ↔ Valid data := by
  rw [TmuxLine.bytes, valid_append_iff, valid_append_encode_iff, valid_escape_iff]

theorem trimEndMatches_replicate {s : Text} (h : s.getLast? ≠ some '\r') (n : Nat) :
    trimEndMatches '\r' (s ++ List.replicate n '\r') = s := by
  induction n with
  | zero => simpa using trimEndMatches_eq_self h
  | succ n ih =>
    rw [List.replicate_succ', ← List.append_assoc, trimEndMatches, List.rdropWhile_concat_pos]
    · exact ih
    · rfl

theorem sentFor_outputText {payload : Text} {data : Bytes} (h : encode payload = escape data)
    (pane crs : Nat) : sentFor (outputText pane payload crs) = some (paneId pane, data) := by
  have hcr : '\r' ∉ "%output ".toList ++ (paneId pane ++ ' ' :: payload) := by
    simp [paneId, not_mem_showNat pane (by decide : '\r'.isDigit = false),
      control_not_mem_payload h (by decide : '\r'.toNat < 0x20)]
  have hcr' := mt List.mem_of_getLast? hcr
  have hspace : ' ' ∉ paneId pane := by
    simp [paneId, not_mem_showNat pane (by decide : ' '.isDigit = false)]
  have hd := (decode_tmux_output_escape data payload h).2
  unfold outputText
  rw [sentFor, trimEndMatches_replicate hcr', outputLine, stripPrefix_append, Option.bind_some,
    splitOnce_append payload hspace, Option.map_some, hd]

theorem fromUtf8_output {data : Bytes} (h : Valid data) (pane crs : Nat) :
    ∃ line, fromUtf8 (TmuxLine.output pane data crs).bytes = some line ∧
      sentFor line = some (paneId pane, data) := by
  obtain ⟨payload, hp⟩ := (valid_escape_iff data).mpr h
  have he : (TmuxLine.output pane data crs).bytes = encode (outputText pane payload crs) := by
    unfold outputText
    rw [TmuxLine.bytes, hp, ← encode_append, ← encode_append]
    simp only [List.append_assoc, List.cons_append, List.nil_append]
  exact ⟨_, by rw [he, fromUtf8_encode], sentFor_outputText hp.symm pane crs⟩

theorem sentFor_eq_none {line : Text} :
    sentFor line = none ↔ outputLine (trimEndMatches '\r' line) = none := by
  rw [sentFor, Option.map_eq_none_iff]

/-- A readable line gives its pair and lets the loop go on. -/
theorem TmuxLine.Readable.read {l : TmuxLine} (h : l.Readable) :
    ∃ line, fromUtf8 l.bytes = some line ∧ sentFor line = l.pair := by
  cases l with
  | output pane data crs => exact fromUtf8_output h pane crs
  | other bytes oneLine =>
    obtain ⟨text, rfl, ho⟩ := h
    exact ⟨text, fromUtf8_encode text, sentFor_eq_none.mpr ho⟩

/-- A line that is not readable is not read, or sends a pair that no pane wrote. -/
theorem TmuxLine.not_readable {l : TmuxLine} (h : ¬ l.Readable) :
    fromUtf8 l.bytes = none ∨
      l.pair = none ∧ ∃ line pair, fromUtf8 l.bytes = some line ∧ sentFor line = some pair := by
  cases l with
  | output pane data crs =>
    exact Or.inl (fromUtf8_eq_none (mt (valid_output_iff pane data crs).mp h))
  | other bytes oneLine =>
    by_cases hv : Valid bytes
    · obtain ⟨text, rfl⟩ := hv
      refine Or.inr ⟨rfl, text, ?_⟩
      cases ho : sentFor text with
      | none => exact absurd ⟨text, rfl, sentFor_eq_none.mp ho⟩ h
      | some pair => exact ⟨pair, fromUtf8_encode text, rfl⟩
    · exact Or.inl (fromUtf8_eq_none hv)

/-! ## All lines -/

section
variable {alive : Nat → Bool} (ha : ∀ n, alive n = true)
include ha

/-- A loop that reaches the end has sent every pair of a pane, at the least. -/
theorem length_pairs_le {n : Nat} {ls : List TmuxLine} {sent : List (Text × Bytes)}
    (h : controlLoop alive n (ls.map fun l => fromUtf8 l.bytes) = (sent, .endOfStream)) :
    (ls.filterMap TmuxLine.pair).length ≤ sent.length := by
  induction ls generalizing n sent with
  | nil => simp
  | cons l ls ih =>
    rw [List.map_cons] at h
    by_cases hr : l.Readable
    · obtain ⟨line, hf, hs⟩ := hr.read
      rw [hf] at h
      cases hp : l.pair with
      | none =>
        rw [controlLoop_skip (hs.trans hp)] at h
        rw [List.filterMap_cons_none hp]
        exact ih h
      | some pair =>
        rw [controlLoop_send (hs.trans hp) (ha n)] at h
        obtain ⟨rfl, hend⟩ := Prod.mk.inj h
        rw [List.filterMap_cons_some hp, List.length_cons, List.length_cons]
        exact Nat.succ_le_succ (ih (Prod.ext rfl hend))
    · rcases TmuxLine.not_readable hr with hf | ⟨hp, line, pair, hf, hs⟩
      · rw [hf, controlLoop] at h
        cases h
      · rw [hf, controlLoop_send hs (ha n)] at h
        obtain ⟨rfl, hend⟩ := Prod.mk.inj h
        rw [List.filterMap_cons_none hp, List.length_cons]
        exact Nat.le_succ_of_le (ih (Prod.ext rfl hend))

theorem controlLoop_eq_iff (n : Nat) (ls : List TmuxLine) :
    controlLoop alive n (ls.map fun l => fromUtf8 l.bytes) =
      (ls.filterMap TmuxLine.pair, .endOfStream) ↔ ∀ l ∈ ls, l.Readable := by
  induction ls generalizing n with
  | nil => simp [controlLoop]
  | cons l ls ih =>
    rw [List.map_cons, List.forall_mem_cons]
    by_cases hr : l.Readable
    · obtain ⟨line, hf, hs⟩ := hr.read
      rw [hf, and_iff_right hr]
      cases hp : l.pair with
      | none => rw [controlLoop_skip (hs.trans hp), List.filterMap_cons_none hp, ih]
      | some pair =>
        rw [controlLoop_send (hs.trans hp) (ha n), List.filterMap_cons_some hp, ← ih (n + 1),
          Prod.ext_iff, Prod.ext_iff, List.cons_eq_cons, and_iff_right rfl]
    · refine iff_of_false (fun h => ?_) fun h => hr h.1
      rcases TmuxLine.not_readable hr with hf | ⟨hp, line, pair, hf, hs⟩
      · rw [hf, controlLoop] at h
        cases congrArg Prod.snd h
      · -- a pair that no pane wrote comes on top of the others
        rw [hf, controlLoop_send hs (ha n), List.filterMap_cons_none hp] at h
        obtain ⟨hsent, hend⟩ := Prod.mk.inj h
        have hle : _ ≤ (controlLoop alive (n + 1) _).1.length :=
          length_pairs_le ha (Prod.ext rfl hend)
        have hlen := congrArg List.length hsent
        rw [List.length_cons] at hlen
        omega

end

/-- **What is relayed byte for byte.** Every stream consists of lines. While its
receiver is there, `run_control_mode` sends what the panes wrote and reads to the
end exactly if the bytes of every output line are UTF-8, and every other line is
UTF-8 and does not look like output. -/
theorem controlBytes_eq_iff {alive : Nat → Bool} (ha : ∀ n, alive n = true) (stream : Bytes) :
    (∃ lines last, streamOf lines last = stream) ∧
      ∀ lines last, streamOf lines last = stream →
        (controlBytes alive stream =
          ((lines ++ [last]).filterMap TmuxLine.pair, .endOfStream) ↔
            ∀ l ∈ lines ++ [last], l.Readable) := by
  refine ⟨exists_streamOf stream, fun lines last hs => ?_⟩
  rw [← hs, controlBytes_streamOf]
  exact controlLoop_eq_iff ha 0 (lines ++ [last])

/-- A character, an escape and a notification. -/
theorem controlBytes_eq_iff_sample :
    controlBytes (fun _ => true) (streamOf [.output 0 [0xC3, 0xA9, 0x1B] 1,
      .other (encode "%exit".toList) (by decide)] (.other [] (by decide))) =
    ([("%0".toList, [0xC3, 0xA9, 0x1B])], .endOfStream) := by
  refine ((controlBytes_eq_iff (fun _ => rfl) _).2 _ _ rfl).mpr fun l hl => ?_
  simp only [List.cons_append, List.nil_append, List.mem_cons, List.not_mem_nil, or_false] at hl
  rcases hl with rfl | rfl | rfl
  · exact ⟨['é', Char.ofNat 0x1B], by decide⟩
  · exact ⟨"%exit".toList, rfl, by decide⟩
  · exact ⟨[], rfl, by decide⟩

/-- A character that tmux splits over two lines: neither half is sent. -/
theorem split_character_ends_loop : ¬ ∀ (alive : Nat → Bool) (lines : List TmuxLine)
    (last : TmuxLine), (∀ n, alive n = true) → controlBytes alive (streamOf lines last) =
      ((lines ++ [last]).filterMap TmuxLine.pair, .endOfStream) := by
  intro h
  have he := h (fun _ => true) [.output 0 [0xC3] 1, .output 0 [0xA9] 1] (.other [] (by decide))
    fun _ => rfl
  have hv := (controlLoop_eq_iff (fun _ => rfl) 0 _).mp
    ((controlBytes_streamOf _ _ _).symm.trans he)
  exact not_valid_unfinished 'é' (p := [0xC3]) (q := [0xA9]) (by decide) (by simp) (by simp)
    (hv (.output 0 [0xC3] 1) (by simp))

end Oxmux.Agent
