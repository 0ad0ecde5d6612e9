import Mathlib.Data.List.Basic
import Oxmux.Lib.Frames

/-! A stream of frames between two loops. The writer puts every message behind
its length; the network cuts the bytes where it likes; the reader puts what it
reads behind a buffer and takes the complete frames out of it. To both of them it
is a queue of messages. -/

namespace Oxmux.Lib
open Frames

/-- A stream, by the messages written to it, how many of its bytes were read, and
the reader's buffer. -/
structure Pipe (M : Type*) where
  written : List M
  readUp : Nat
  buf : Bytes

namespace Pipe

variable {M : Type*} (encode : M → Bytes)

def empty : Pipe M where
  written := []
  readUp := 0
  buf := []

def stream (p : Pipe M) : Bytes := frames (p.written.map encode)

def write (ms : List M) (p : Pipe M) : Pipe M := { p with written := p.written ++ ms }

/-- What a read of at most `n` bytes yields. -/
def chunk (n : Nat) (p : Pipe M) : Bytes := ((p.stream encode).drop p.readUp).take n

def completed (n : Nat) (p : Pipe M) : List Bytes := (splitFrames (p.buf ++ p.chunk encode n)).1

/-- The stream behind a read. -/
def read (n : Nat) (p : Pipe M) : Pipe M :=
  { p with
    readUp := p.readUp + (p.chunk encode n).length
    buf := (splitFrames (p.buf ++ p.chunk encode n)).2 }

/-- The frames that were completed so far. -/
def taken (p : Pipe M) : List Bytes := (splitFrames ((p.stream encode).take p.readUp)).1

/-- The messages whose frames are not complete yet. -/
def pending (p : Pipe M) : List M := p.written.drop (p.taken encode).length

/-- The buffer holds what was read behind the last complete frame. -/
structure Fits (p : Pipe M) : Prop where
  le : p.readUp ≤ (p.stream encode).length
  buf : p.buf = (splitFrames ((p.stream encode).take p.readUp)).2

/-- No message is too long for its prefix. -/
def AllSized (p : Pipe M) : Prop := ∀ m ∈ p.written, Sized (encode m)

variable {encode} {p : Pipe M}

theorem fits_empty : (empty : Pipe M).Fits encode where
  le := Nat.zero_le _
  buf := by
    rw [show (empty : Pipe M).readUp = 0 from rfl, List.take_zero,
      splitFrames_none (show takeFrame [] = none from rfl)]
    rfl

theorem mem_written {ms rest : List M} (h : p.pending encode = ms ++ rest) {m : M} (hm : m ∈ ms) :
    m ∈ p.written := by
  refine List.mem_of_mem_drop (i := (p.taken encode).length) ?_
  change m ∈ p.pending encode
  rw [h]
  exact List.mem_append_left rest hm

theorem pending_empty : (empty : Pipe M).pending encode = [] := List.drop_nil

/-! ## Writing -/

theorem write_nil (p : Pipe M) : p.write [] = p := by
  simp [write]

theorem stream_write (ms : List M) : (p.write ms).stream encode =
    p.stream encode ++ frames (ms.map encode) := by
  simp only [stream, write, List.map_append, frames, List.flatMap_append]

theorem take_write (h : p.Fits encode) (ms : List M) :
    ((p.write ms).stream encode).take (p.write ms).readUp =
      (p.stream encode).take p.readUp := by
  rw [stream_write]
  exact List.take_append_of_le_length h.le

theorem Fits.write (h : p.Fits encode) (ms : List M) : (p.write ms).Fits encode where
  le := by
    rw [stream_write, List.length_append]
    exact Nat.le_add_right_of_le h.le
  buf := by
    rw [take_write h]
    exact h.buf

/-- The frames that were completed are the first of the messages. -/
theorem taken_isPrefix (hs : p.AllSized encode) :
    p.taken encode <+: p.written.map encode := by
  have hsized : ∀ q ∈ p.written.map encode, Sized q := by
    intro q hq
    obtain ⟨m, hm, rfl⟩ := List.mem_map.mp hq
    exact hs m hm
  have hall := splitFrames_frames hsized []
  have hnil := splitFrames_none (show takeFrame [] = none from rfl)
  rw [List.append_nil, hnil, List.append_nil] at hall
  have hcut : frames (p.written.map encode) =
      (p.stream encode).take p.readUp ++ (p.stream encode).drop p.readUp :=
    (List.take_append_drop _ _).symm
  rw [hcut, splitFrames_append] at hall
  exact ⟨_, congrArg Prod.fst hall⟩

/-- **Writing** is behind all that is pending. -/
theorem pending_write (h : p.Fits encode) (hs : p.AllSized encode) (ms : List M) :
    (p.write ms).pending encode = p.pending encode ++ ms := by
  have hlen := (taken_isPrefix hs).length_le
  rw [List.length_map] at hlen
  rw [pending, taken, take_write h]
  exact List.drop_append_of_le_length hlen

/-! ## Reading -/

theorem take_read (n : Nat) : ((p.read encode n).stream encode).take (p.read encode n).readUp =
    (p.stream encode).take p.readUp ++ p.chunk encode n := by
  have hchunk : ((p.stream encode).drop p.readUp).take (p.chunk encode n).length =
      p.chunk encode n := by
    rw [chunk, List.length_take, List.take_eq_take_iff]
    omega
  change (p.stream encode).take (p.readUp + (p.chunk encode n).length) = _
  rw [List.take_add, hchunk]

theorem Fits.read (h : p.Fits encode) (n : Nat) : (p.read encode n).Fits encode where
  le := by
    change p.readUp + (p.chunk encode n).length ≤ (p.stream encode).length
    have := h.le
    rw [chunk, List.length_take, List.length_drop]
    omega
  buf := by
    rw [take_read, splitFrames_append, ← h.buf]
    rfl

theorem taken_read (h : p.Fits encode) (n : Nat) :
    (p.read encode n).taken encode = p.taken encode ++ p.completed encode n := by
  rw [taken, take_read, splitFrames_append, ← h.buf]
  rfl

/-- **Reading** takes the first of what is pending: the frames that a read
completes are theirs, in order. -/
theorem pending_read (h : p.Fits encode) (hs : p.AllSized encode) (n : Nat) :
    ∃ ms, p.pending encode = ms ++ (p.read encode n).pending encode ∧
      p.completed encode n = ms.map encode := by
  have hs' : (p.read encode n).AllSized encode := hs
  obtain ⟨rest, hrest⟩ := taken_isPrefix hs'
  rw [taken_read h, List.append_assoc] at hrest
  change p.taken encode ++ (p.completed encode n ++ rest) = p.written.map encode at hrest
  obtain ⟨done, later, hw, hd, hl⟩ := List.append_eq_map_iff.mp hrest
  obtain ⟨ms, after, rfl, hms, -⟩ := List.append_eq_map_iff.mp hl.symm
  refine ⟨ms, ?_, hms.symm⟩
  have hlen : (p.taken encode).length = done.length := by rw [← hd, List.length_map]
  have hlen' : ((p.read encode n).taken encode).length = done.length + ms.length := by
    rw [taken_read h, List.length_append, hlen, ← hms, List.length_map]
  have hw' : (p.read encode n).written = done ++ (ms ++ after) := hw
  rw [pending, pending, hlen, hlen', hw, hw', List.drop_left, ← List.drop_drop, List.drop_left,
    List.drop_left]

end Pipe

end Oxmux.Lib
