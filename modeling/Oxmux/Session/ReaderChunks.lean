import Oxmux.Session.SshReader

/-! What the reader task makes of a byte stream, by the way the control channel
cuts it. Lines are assembled over any number of chunks, but every chunk is
turned into text on its own, so a cut inside a character garbles it. -/

namespace Oxmux.Session
open Oxmux.Lib Oxmux.Lib.Utf8 Oxmux.Lib.Lines Oxmux.Lib.Runs Oxmux.Tmux

/-- The lines that are fed, and what is left in `line_buf`. -/
def readChunks : Text → List Bytes → List Text × Text
  | lineBuf, [] => ([], lineBuf)
  | lineBuf, data :: chunks =>
    let r := splitLines (lineBuf ++ lossy data)
    (r.1 ++ (readChunks r.2 chunks).1, (readChunks r.2 chunks).2)

/-- The lines that a fresh reader feeds to its parser. -/
def linesFed (chunks : List Bytes) : List Text := (readChunks [] chunks).1

def eventsOf (chunks : List Bytes) : List TmuxEvent :=
  (ControlModeParser.new.feedLines (linesFed chunks)).2

/-- Reading goes by the text of the chunks put together. -/
theorem readChunks_eq {lineBuf : Text} (h : '\n' ∉ lineBuf) (chunks : List Bytes) :
    readChunks lineBuf chunks = splitLines (lineBuf ++ lossyChunks chunks) := by
  induction chunks generalizing lineBuf with
  | nil => simp [readChunks, lossyChunks, splitLines_tail h]
  | cons data chunks ih =>
    have htail := (newline_not_mem (lineBuf ++ lossy data)).2
    rw [lossyChunks_cons, ← List.append_assoc, splitLines_append, readChunks, ih htail]

theorem linesFed_eq (chunks : List Bytes) :
    linesFed chunks = (splitLines (lossyChunks chunks)).1 := by
  rw [linesFed, readChunks_eq (by simp), List.nil_append]

theorem readChunks_append (lineBuf : Text) (cs ds : List Bytes) :
    readChunks lineBuf (cs ++ ds) =
      ((readChunks lineBuf cs).1 ++ (readChunks (readChunks lineBuf cs).2 ds).1,
        (readChunks (readChunks lineBuf cs).2 ds).2) := by
  induction cs generalizing lineBuf with
  | nil => simp [readChunks]
  | cons c cs ih => simp [readChunks, ih, List.append_assoc]

/-! ## The reader task reads this way -/

/-- The output a broadcast receives from an event. -/
def outputOf : TmuxEvent → Option (Text × Bytes)
  | .output paneId data => some (paneId, data)
  | _ => none

def Pick.chunk : Pick → List Bytes
  | .message (.data bytes) => [bytes]
  | _ => []

/-- A reader that has read `chunks`: it fed their lines, the queue took their
events, and what it sent and what is still queued is the output of these. -/
structure Reader.HasRead (r : Reader) (chunks : List Bytes) : Prop where
  parser : r.parser = (ControlModeParser.new.feedLines (linesFed chunks)).1
  lineBuf : r.lineBuf = (readChunks [] chunks).2
  fed : r.fed = linesFed chunks
  emitted : r.emitted = eventsOf chunks
  sent : r.sent ++ r.queue.filterMap outputOf = (eventsOf chunks).filterMap outputOf

theorem Reader.hasRead_new : Reader.new.HasRead [] :=
  ⟨rfl, rfl, rfl, rfl, rfl⟩

theorem Reader.HasRead.linesFed_snoc {r : Reader} {chunks : List Bytes} (h : r.HasRead chunks)
    (bytes : Bytes) : linesFed (chunks ++ [bytes]) =
      linesFed chunks ++ (splitLines (r.lineBuf ++ lossy bytes)).1 := by
  rw [linesFed, readChunks_append, ← h.lineBuf]
  simp [readChunks, linesFed]

/-- Reading a chunk adds its events, those that were there stay. -/
theorem Reader.HasRead.eventsOf_snoc {r : Reader} {chunks : List Bytes} (h : r.HasRead chunks)
    (bytes : Bytes) : eventsOf (chunks ++ [bytes]) = eventsOf chunks ++ r.chunkEvents bytes := by
  rw [eventsOf, h.linesFed_snoc, ControlModeParser.feedLines_append, ← h.parser]
  rfl

/-- A chunk is read in one go if its events fit. -/
theorem Reader.HasRead.data {r : Reader} {chunks : List Bytes} {bytes : Bytes}
    (h : r.HasRead chunks) (hc : r.control = .selecting)
    (hfit : r.Fits (.message (.data bytes))) :
    (r.step (.message (.data bytes))).HasRead (chunks ++ [bytes]) := by
  have hlines := h.linesFed_snoc bytes
  have hevents := h.eventsOf_snoc bytes
  rw [step_data hc hfit]
  constructor
  · rw [hlines, ControlModeParser.feedLines_append, ← h.parser]
  · rw [readChunks_append, ← h.lineBuf]
    simp [readChunks]
  · rw [hlines, h.fed]
  · rw [hevents, h.emitted]
  · simp only [List.filterMap_append, ← List.append_assoc, h.sent, hevents]

/-- Handling an event moves it from the queue to what was sent. -/
theorem Reader.HasRead.event {r : Reader} {chunks : List Bytes} (h : r.HasRead chunks)
    (hc : r.control = .selecting) : (r.step .event).HasRead chunks := by
  simp only [step, hc]
  split
  · exact h
  · next event queue hq =>
    have hs := h.sent
    rw [hq] at hs
    cases event with
    | _ =>
      exact ⟨h.parser, h.lineBuf, h.fed, h.emitted,
        by simpa [handleEvent, outputOf, List.filterMap_cons] using hs⟩

theorem Reader.HasRead.step {r : Reader} {chunks : List Bytes} (h : r.HasRead chunks)
    (hc : r.control = .selecting) {pick : Pick} (hfit : r.Fits pick) :
    (r.step pick).HasRead (chunks ++ pick.chunk) := by
  cases pick with
  | message msg =>
    cases msg with
    | data bytes => exact h.data hc hfit
    | _ =>
      simpa [Reader.step, hc, Pick.chunk] using
        ⟨h.parser, h.lineBuf, h.fed, h.emitted, h.sent⟩
  | event => simpa [Pick.chunk] using h.event hc
  | resume => simpa [Reader.step, hc, Pick.chunk] using h

/-- A chunk whose events do not fit suspends the reader at one of its lines. -/
theorem Reader.HasRead.suspended {r : Reader} {chunks : List Bytes} {pick : Pick}
    (h : r.HasRead chunks) (hb : r.Bounded) (hc : r.control = .selecting) (hfit : ¬ r.Fits pick) :
    ∃ event, (r.step pick).control = .sending event ∧
      (r.step pick).fed <+: linesFed (chunks ++ pick.chunk) ∧
      (ControlModeParser.new.feedLines (r.step pick).fed).2 = (r.step pick).emitted ++ [event] := by
  obtain ⟨bytes, rfl⟩ : ∃ bytes, pick = .message (.data bytes) := by
    unfold Fits at hfit
    split at hfit
    · exact ⟨_, rfl⟩
    · exact absurd trivial hfit
  have hover := not_le.mp fun hle => hfit fun _ => hle
  obtain ⟨pre, post, events, event, hsplit, hpre, -, he⟩ :=
    processLines_overflows hb.queue_le hover (splitLines (r.lineBuf ++ lossy bytes)).2
  have hstep : r.step (.message (.data bytes)) = { r with
      parser := (r.parser.feedLines pre).1
      lineBuf := joinLines post ++ (splitLines (r.lineBuf ++ lossy bytes)).2
      queue := r.queue ++ events
      control := .sending event
      fed := r.fed ++ pre
      emitted := r.emitted ++ events } := by
    simp only [Reader.step, hc, processBuffer]
    exact he
  rw [hstep]
  refine ⟨event, rfl, ?_, ?_⟩
  · rw [Pick.chunk, h.linesFed_snoc, hsplit, h.fed, ← List.append_assoc]
    exact List.prefix_append _ _
  · rw [ControlModeParser.feedLines_append, h.fed, ← h.parser, hpre, h.emitted, eventsOf,
      List.append_assoc]

/-! ## The chunks that it has read -/

/-- The reader task with the chunks that it has read. -/
structure Watched where
  reader : Reader
  received : List Bytes
  deriving DecidableEq

namespace Watched

def new : Watched := { reader := .new, received := [] }

def step (w : Watched) (pick : Pick) : Watched where
  reader := w.reader.step pick
  received := if w.reader.control = .selecting then w.received ++ pick.chunk else w.received

/-- Unless it waits for its own queue, the task has read its chunks. -/
structure Tracks (w : Watched) : Prop where
  bounded : w.reader.Bounded
  read : (∀ e, w.reader.control ≠ .sending e) → w.reader.HasRead w.received
  suspended : ∀ e, w.reader.control = .sending e → w.reader.fed <+: linesFed w.received ∧
    (ControlModeParser.new.feedLines w.reader.fed).2 = w.reader.emitted ++ [e]

theorem tracks_new : Tracks new :=
  ⟨Reader.bounded_new, fun _ => Reader.hasRead_new, fun _ he => by cases he⟩

theorem step_of_stopped {w : Watched} (h : w.reader.control = .stopped) (pick : Pick) :
    w.step pick = w := by
  have hr : w.reader.step pick = w.reader := by cases pick <;> simp [Reader.step, h]
  rw [step, hr, if_neg (by simp [h])]

theorem step_of_sending {w : Watched} (hb : w.reader.Bounded) {e : TmuxEvent}
    (h : w.reader.control = .sending e) (pick : Pick) : w.step pick = w := by
  have hr := Reader.step_deadlocked ⟨⟨e, h⟩, (hb.full e h).ge⟩ pick
  rw [step, hr, if_neg (by simp [h])]

/-- **The reader task reads the chunks it is given.** -/
theorem tracks_step {w : Watched} (h : Tracks w) (pick : Pick) : Tracks (w.step pick) := by
  cases hc : w.reader.control with
  | stopped => rw [step_of_stopped hc]; exact h
  | sending e => rw [step_of_sending h.bounded hc]; exact h
  | selecting =>
    have hsel : ∀ e, w.reader.control ≠ .sending e := by simp [hc]
    have hrec : (w.step pick).received = w.received ++ pick.chunk := if_pos hc
    have hfits := Reader.not_deadlocked_step_iff h.bounded
      (Reader.not_deadlocked_of_control hsel) pick
    have hb := Reader.bounded_step h.bounded pick
    refine ⟨hb, fun hs => ?_, fun e he => ?_⟩
    · rw [hrec]
      exact (h.read hsel).step hc (hfits.mp (Reader.not_deadlocked_of_control hs))
    · have hnot : ¬ w.reader.Fits pick := fun hfit =>
        hfits.mpr hfit ⟨⟨e, he⟩, (hb.full e he).ge⟩
      obtain ⟨event, hsend, hfed, hevents⟩ := (h.read hsel).suspended h.bounded hc hnot
      obtain rfl : event = e := Control.sending.inj (hsend.symm.trans he)
      rw [hrec]
      exact ⟨hfed, hevents⟩

end Watched

/-! ## Cuts -/

def newlineByte : Byte := 0x0A

/-- Every cut with a newline still to come falls between two characters. -/
def LinesAligned (chunks : List Bytes) : Prop :=
  ∀ pre post, chunks = pre ++ post → newlineByte ∈ post.flatten → Valid pre.flatten

theorem newlineByte_mem_encode {s : Text} (h : newlineByte ∈ encode s) : '\n' ∈ s := by
  obtain ⟨c, hc, hb⟩ := List.mem_flatMap.mp h
  by_cases hn : c = '\n'
  · exact hn ▸ hc
  · obtain ⟨p, q, hpq⟩ := List.append_of_mem hb
    by_cases hp : p = []
    · subst hp
      obtain ⟨s', hs', -⟩ := encode_eq_cons (by decide : newlineByte.toNat < 0x80)
        (by simpa using hpq : encode [c] = newlineByte :: q)
      exact absurd (List.cons.inj hs').1 hn
    · exact absurd (isContinuation_of_mem_tail c hpq hp newlineByte (by simp)) (by decide)

/-- A list of pieces cut at the first occurrence of a byte string. -/
theorem flatten_eq_append {chunks : List Bytes} {a b : Bytes} {x : Byte}
    (h : chunks.flatten = a ++ x :: b) :
    ∃ cs p q ds, chunks = cs ++ (p ++ x :: q) :: ds ∧ cs.flatten ++ p = a ∧
      q ++ ds.flatten = b := by
  induction chunks generalizing a with
  | nil => simp at h
  | cons c chunks ih =>
    rw [List.flatten_cons] at h
    rcases List.append_eq_append_iff.mp h with ⟨a', ha, hc⟩ | ⟨c', hc, hb⟩
    · obtain ⟨cs, p, q, ds, rfl, h₁, h₂⟩ := ih hc
      exact ⟨c :: cs, p, q, ds, rfl, by simp [ha, ← h₁], h₂⟩
    · cases c' with
      | nil =>
        obtain ⟨cs, p, q, ds, rfl, h₁, h₂⟩ := ih (a := []) (by simpa using hb.symm)
        exact ⟨c :: cs, p, q, ds, rfl, by simp [hc, h₁], h₂⟩
      | cons y c' =>
        obtain ⟨rfl, hb'⟩ := List.cons.inj hb
        exact ⟨[], a, c', chunks, by simp [hc], by simp, hb'.symm⟩

theorem encode_newline (a b : Text) :
    encode (a ++ '\n' :: b) = encode a ++ newlineByte :: encode b := by
  have hnl : String.utf8EncodeChar '\n' = [newlineByte] := by decide
  simp [hnl]

/-- A newline byte is a newline of the text, whatever the pieces. -/
theorem lossyChunks_newline (cs ds : List Bytes) (p q : Bytes) :
    lossyChunks (cs ++ (p ++ newlineByte :: q) :: ds) =
      lossyChunks (cs ++ [p]) ++ '\n' :: lossyChunks (q :: ds) := by
  have hl := lossy_ascii p (b := newlineByte) (by decide) q
  have hc : Char.ofNat newlineByte.toNat = '\n' := by decide
  simp [hl, hc, lossyChunks]

theorem newline_not_mem_lossyChunks {chunks : List Bytes} {q : Bytes} {s : Text}
    (hq : ∀ b ∈ q, isContinuation b = true) (h : chunks.flatten = q ++ encode s)
    (hn : '\n' ∉ s) : '\n' ∉ lossyChunks chunks := fun hc => by
  rcases (lossyChunks_bounds hq h).1 _ hc with hs | hs
  · exact hn hs
  · exact absurd hs (by decide)

/-- However a stream is cut, its pieces give as many newlines as it has. -/
theorem count_newline_lossyChunks {chunks : List Bytes} {s : Text} (h : chunks.flatten = encode s) :
    (lossyChunks chunks).count '\n' = s.count '\n' := by
  induction hlen : s.length using Nat.strong_induction_on generalizing chunks s with
  | _ n ih =>
    rcases last_newline s with hn | ⟨a, b, rfl, hn⟩
    · have hmem := newline_not_mem_lossyChunks (q := []) (by simp) h hn
      rw [List.count_eq_zero.mpr hmem, List.count_eq_zero.mpr hn]
    · obtain ⟨cs, p, q, ds, rfl, ha, hb⟩ := flatten_eq_append (h.trans (encode_newline a b))
      have hafter : (q :: ds).flatten = encode b := by simpa using hb
      have hmem := newline_not_mem_lossyChunks (q := []) (by simp) hafter hn
      have hcs : (cs ++ [p]).flatten = encode a := by simpa using ha
      have hbefore := ih a.length (by simp [← hlen]) hcs rfl
      rw [lossyChunks_newline, List.count_append, List.count_append, List.count_cons_self,
        List.count_cons_self, hbefore, List.count_eq_zero.mpr hmem, List.count_eq_zero.mpr hn]

/-- However a stream is cut, there are as many lines as in its text. -/
theorem length_linesFed {chunks : List Bytes} {s : Text} (h : chunks.flatten = encode s) :
    (linesFed chunks).length = (splitLines s).1.length := by
  rw [linesFed_eq, length_lines, length_lines, count_newline_lossyChunks h]

/-- The lines of a stream that holds a newline are those of its text up to the
last one, read as the pieces up to there give it. -/
theorem linesFed_cut {cs ds : List Bytes} {p q : Bytes} {b : Text}
    (hb : q ++ ds.flatten = encode b) (hn : '\n' ∉ b) :
    linesFed (cs ++ (p ++ newlineByte :: q) :: ds) =
      (splitLines (lossyChunks (cs ++ [p]) ++ ['\n'])).1 := by
  have htail : '\n' ∉ lossyChunks (q :: ds) :=
    newline_not_mem_lossyChunks (q := []) (by simp) (by simpa using hb) hn
  rw [linesFed_eq, lossyChunks_newline, splitLines_newline_tail _ htail]

/-- Up to the last newline, the two notions of alignment agree. -/
theorem linesAligned_cut {cs ds : List Bytes} {p q : Bytes} {a b : Text}
    (ha : cs.flatten ++ p = encode a) (hb : q ++ ds.flatten = encode b) (hn : '\n' ∉ b) :
    LinesAligned (cs ++ (p ++ newlineByte :: q) :: ds) ↔ CharAligned (cs ++ [p]) := by
  constructor
  · intro h pre post e
    rcases List.append_eq_append_iff.mp e with ⟨r, rfl, hr⟩ | ⟨r, rfl, -⟩
    · cases r with
      | nil => exact h _ ((p ++ newlineByte :: q) :: ds) (by simp) (by simp)
      | cons x r =>
        obtain ⟨rfl, hr'⟩ := List.cons.inj hr
        rw [(List.nil_eq_append_iff.mp hr').1]
        exact ⟨a, by simpa using ha⟩
    · exact h pre (r ++ (p ++ newlineByte :: q) :: ds) (by simp) (by simp)
  · intro h pre post e hnl
    rcases List.append_eq_append_iff.mp e with ⟨r, rfl, hr⟩ | ⟨r, rfl, -⟩
    · cases r with
      | nil => exact h _ [p] (by simp)
      | cons x r =>
        obtain ⟨-, rfl⟩ := List.cons.inj hr
        refine absurd (newlineByte_mem_encode (s := b) ?_) hn
        rw [← hb]
        simp [List.mem_flatten.mp hnl]
    · exact h pre (r ++ [p]) (by simp)

/-- **Which cuttings are read right**: those whose lines are the lines of the
stream's text are exactly those that cut no character with a newline to come. -/
theorem linesFed_eq_iff {chunks : List Bytes} {s : Text} (h : chunks.flatten = encode s) :
    linesFed chunks = (splitLines s).1 ↔ LinesAligned chunks := by
  rcases last_newline s with hn | ⟨a, b, rfl, hn⟩
  · have hmem : '\n' ∉ lossyChunks chunks :=
      newline_not_mem_lossyChunks (q := []) (by simp) (by simpa using h) hn
    refine iff_of_true ?_ fun pre post e hp => absurd (newlineByte_mem_encode (s := s) ?_) hn
    · rw [linesFed_eq, splitLines_tail hmem, splitLines_tail hn]
    · rw [← h, e, List.flatten_append]
      exact List.mem_append_right _ hp
  · obtain ⟨cs, p, q, ds, rfl, ha, hb⟩ := flatten_eq_append (h.trans (encode_newline a b))
    rw [linesFed_cut hb hn, splitLines_newline_tail a hn, linesAligned_cut ha hb hn,
      ← lossyChunks_eq_iff (s := a) (by simpa using ha)]
    exact ⟨eq_of_lines_eq, fun e => by rw [e]⟩

theorem linesAligned_singleton (s : Text) : LinesAligned [encode s] := by
  rw [← linesFed_eq_iff (s := s) (by simp), linesFed_eq]
  simp [lossyChunks]

/-- A character outside ASCII can be cut. -/
theorem exists_cut {ch : Char} (h : 0x80 ≤ ch.toNat) :
    ∃ p q, String.utf8EncodeChar ch = p ++ q ∧ p ≠ [] ∧ q ≠ [] := by
  rcases encodeChar_cases ch with ⟨hv, -⟩ | ⟨-, -, e⟩ | ⟨-, -, -, e⟩ | ⟨-, -, e⟩
  · omega
  all_goals exact ⟨_, _, e.trans List.singleton_append.symm, by simp, by simp⟩

theorem newlineByte_mem_encode_of_mem {s : Text} (h : '\n' ∈ s) : newlineByte ∈ encode s :=
  List.mem_flatMap.mpr ⟨'\n', h, by decide⟩

/-- Every cutting is harmless exactly if every character with a newline behind
it is a single byte. -/
theorem linesAligned_all_iff (s : Text) :
    (∀ c : List Bytes, c.flatten = encode s → LinesAligned c) ↔
      ∀ a ch b, s = a ++ ch :: b → '\n' ∈ b → ch.toNat < 0x80 := by
  constructor
  · rintro h a ch b rfl hn
    by_contra hge
    obtain ⟨p, q, hpq, hp, hq⟩ := exists_cut (not_lt.mp hge)
    have hv := h [encode a ++ p, q ++ encode b] (by simp [hpq]) [encode a ++ p]
      [q ++ encode b] rfl (by simp [newlineByte_mem_encode_of_mem hn])
    rw [List.flatten_singleton, valid_append_iff] at hv
    exact not_valid_unfinished ch hpq hp hq hv
  · intro h c hc pre post e hnl
    rw [e, List.flatten_append] at hc
    rcases encode_eq_append hc.symm with
      ⟨s₁, s₂, -, hpre, -⟩ | ⟨s₁, ch, s₂, p, q, rfl, hpq, hp, hq, -, hpost⟩
    · exact ⟨s₁, hpre⟩
    · rw [hpost, List.mem_append] at hnl
      have hn : '\n' ∈ s₂ := by
        rcases hnl with hnl | hnl
        · exact absurd (isContinuation_of_mem_tail ch hpq hp _ hnl) (by decide)
        · exact newlineByte_mem_encode hnl
      have hlt := h s₁ ch s₂ rfl hn
      have hge := le_toNat_of_encodeChar ch hpq hp hq
      omega

end Oxmux.Session
