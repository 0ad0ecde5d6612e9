import Oxmux.Session.ReaderChunks

/-! Whether it matters how the control channel cuts a stream. The reader takes
chunks and events in any order; it hangs when the queue is full, and it stops at
an exit that it receives, whatever the channel still has. -/

namespace Oxmux.Session
open Oxmux.Lib Oxmux.Lib.Lines Oxmux.Lib.Runs Oxmux.Tmux
open Oxmux.Lib.Utf8 hiding run run_append step

/-- The reader task, and the chunks that the channel still brings. -/
structure ReaderTask where
  reader : Reader
  rest : List Bytes

/-- The next chunk is read, or another branch is picked. -/
inductive Turn where
  | chunk
  | other (pick : Pick)

namespace ReaderTask

def new (chunks : List Bytes) : ReaderTask where
  reader := .new
  rest := chunks

/-- A chunk is read in `select!`. The channel ends behind the last one. -/
def step (w : ReaderTask) : Turn → ReaderTask
  | .chunk =>
    match w.reader.control, w.rest with
    | .selecting, bytes :: rest => { reader := w.reader.step (.message (.data bytes)), rest }
    | _, _ => w
  | .other pick =>
    if pick.chunk = [] ∧ (pick.ends = true → w.rest = []) then
      { w with reader := w.reader.step pick }
    else w

/-- Nothing more is read. -/
def Finished (w : ReaderTask) : Prop :=
  w.rest = [] ∨ w.reader.control = .stopped ∨ w.reader.Deadlocked

/-- The events that the parser makes of a text. -/
def events (s : Text) : List TmuxEvent := (ControlModeParser.new.feedLines (splitLines s).1).2

/-- The parser was fed the lines of the text, and the queue took their events. -/
def ReadsRight (s : Text) (w : ReaderTask) : Prop :=
  w.reader.fed = (splitLines s).1 ∧ w.reader.emitted = events s

/-- A chunk that is read finds room for its events, and no exit is received while
the channel still brings a newline. -/
def Smooth (w : ReaderTask) : Turn → Prop
  | .chunk => ∀ bytes, w.rest.head? = some bytes → w.reader.Fits (.message (.data bytes))
  | .other .event => w.reader.control = .selecting → ∀ reason,
      w.reader.queue.head? = some (.exit reason) → newlineByte ∉ w.rest.flatten
  | _ => True

/-! ## What a reading holds -/

/-- The reader neither hangs, nor did it stop before the last newline. -/
def Unhindered (w : ReaderTask) : Prop :=
  ¬ w.reader.Deadlocked ∧ (w.reader.control = .stopped → newlineByte ∉ w.rest.flatten)

/-- The reader has read what the channel has brought of these chunks, and stopped at
their end or at an exit. -/
structure Holds (chunks : List Bytes) (w : ReaderTask) : Prop where
  read : ∃ read, read ++ w.rest = chunks ∧ Watched.Tracks { reader := w.reader, received := read }
  stopped : w.reader.control = .stopped →
    w.rest = [] ∨ ∃ reason, .exit reason ∈ w.reader.emitted

theorem holds_new (chunks : List Bytes) : (new chunks).Holds chunks where
  read := ⟨[], rfl, Watched.tracks_new⟩
  stopped h := by cases h

variable {chunks : List Bytes} {w : ReaderTask}

theorem Holds.bounded (h : w.Holds chunks) : w.reader.Bounded := by
  obtain ⟨read, -, ht⟩ := h.read
  exact ht.bounded

theorem step_of_stopped (hc : w.reader.control = .stopped) (turn : Turn) : w.step turn = w := by
  cases turn with
  | chunk => simp only [step, hc]
  | other pick =>
    have hr : w.reader.step pick = w.reader := by cases pick <;> simp [Reader.step, hc]
    simp only [step, hr, ite_self]

theorem step_of_deadlocked (hd : w.reader.Deadlocked) (turn : Turn) : w.step turn = w := by
  cases turn with
  | chunk =>
    obtain ⟨⟨event, he⟩, -⟩ := hd
    simp only [step, he]
  | other pick => simp only [step, Reader.step_deadlocked hd, ite_self]

theorem emitted_step {pick : Pick} (hc : w.reader.control = .selecting) (hp : pick.chunk = []) :
    (w.reader.step pick).emitted = w.reader.emitted := by
  cases pick with
  | message msg =>
    cases msg with
    | data bytes => cases hp
    | _ => simp [Reader.step, hc]
  | resume => simp [Reader.step, hc]
  | event =>
    simp only [Reader.step, hc]
    split
    · rfl
    · exact Reader.handleEvent_emitted _ _

theorem holds_step (h : w.Holds chunks) (turn : Turn) : (w.step turn).Holds chunks := by
  obtain ⟨read, hread, ht⟩ := h.read
  cases hc : w.reader.control with
  | stopped => rw [step_of_stopped hc]; exact h
  | sending e => rw [step_of_deadlocked ⟨⟨e, hc⟩, (ht.bounded.full e hc).ge⟩]; exact h
  | selecting =>
    cases turn with
    | chunk =>
      cases hrest : w.rest with
      | nil =>
        simp only [step, hc, hrest]
        exact h
      | cons bytes rest =>
        have hstep := Watched.tracks_step ht (.message (.data bytes))
        rw [Watched.step, if_pos hc] at hstep
        simp only [step, hc, hrest]
        refine ⟨⟨read ++ [bytes], ?_, hstep⟩, fun hs => ?_⟩
        · rw [← hread, hrest, List.append_assoc, List.singleton_append]
        · rcases Reader.stopped_step hc hs with he | ⟨he, -⟩ <;> cases he
    | other pick =>
      simp only [step]
      split
      · next hpick =>
        have hstep := Watched.tracks_step ht pick
        rw [Watched.step, if_pos hc, hpick.1, List.append_nil] at hstep
        refine ⟨⟨read, hread, hstep⟩, fun hs => ?_⟩
        rcases Reader.stopped_step hc hs with he | ⟨rfl, reason, he⟩
        · exact .inl (hpick.2 he)
        · have hqueued := ht.bounded.queued.subset (List.mem_of_head? he)
          exact .inr ⟨reason, by rw [emitted_step hc hpick.1]; exact hqueued⟩
      · exact h

/-! ## Runs without hindrance -/

theorem unhindered_new (chunks : List Bytes) : (new chunks).Unhindered :=
  ⟨Reader.not_deadlocked_of_control (by simp [new, Reader.new]), fun h => by cases h⟩

theorem smooth_of_stopped (hc : w.reader.control = .stopped) (turn : Turn) : w.Smooth turn := by
  unfold Smooth
  split
  · intro bytes _
    simp [Reader.Fits, hc]
  · simp [hc]
  · trivial

theorem smooth_other_iff (pick : Pick) : w.Smooth (.other pick) ↔
    (pick = .event → w.reader.control = .selecting → ∀ reason,
      w.reader.queue.head? = some (.exit reason) → newlineByte ∉ w.rest.flatten) := by
  cases pick <;> simp [Smooth]

/-- Reading a chunk hinders nothing exactly if the events of its lines fit. -/
theorem unhindered_chunk_iff (hb : w.reader.Bounded) (hu : w.Unhindered)
    (hc : w.reader.control = .selecting) : (w.step .chunk).Unhindered ↔ w.Smooth .chunk := by
  cases hrest : w.rest with
  | nil =>
    simp only [step, hc, hrest]
    exact iff_of_true hu (by simp [Smooth, hrest])
  | cons bytes rest =>
    have hfits := Reader.not_deadlocked_step_iff hb hu.1 (.message (.data bytes))
    simp only [step, hc, hrest, Unhindered, Smooth, List.head?_cons, Option.some.injEq,
      forall_eq', ← hfits, and_iff_left_iff_imp]
    intro _ hs
    rcases Reader.stopped_step hc hs with he | ⟨he, -⟩ <;> cases he

/-- Another branch hinders something only where an exit is received too early. -/
theorem unhindered_other_iff (hb : w.reader.Bounded) (hu : w.Unhindered)
    (hc : w.reader.control = .selecting) (pick : Pick) :
    (w.step (.other pick)).Unhindered ↔ w.Smooth (.other pick) := by
  rw [smooth_other_iff]
  by_cases hpick : pick.chunk = [] ∧ (pick.ends = true → w.rest = [])
  · have hfits : w.reader.Fits pick := by
      unfold Reader.Fits
      split
      · cases hpick.1
      · trivial
    have hd := (Reader.not_deadlocked_step_iff hb hu.1 pick).mpr hfits
    simp only [step, if_pos hpick, Unhindered, and_iff_right hd]
    constructor
    · rintro hs rfl - reason he
      exact hs (Reader.stopped_of_exit hc he)
    · intro hsmooth hs
      rcases Reader.stopped_step hc hs with he | ⟨rfl, reason, he⟩
      · simp [hpick.2 he]
      · exact hsmooth rfl hc reason he
  · simp only [step, if_neg hpick]
    refine iff_of_true hu ?_
    rintro rfl
    exact absurd ⟨rfl, fun he => by cases he⟩ hpick

theorem unhindered_step_iff (h : w.Holds chunks) (hu : w.Unhindered) (turn : Turn) :
    (w.step turn).Unhindered ↔ w.Smooth turn := by
  cases hc : w.reader.control with
  | sending e => exact absurd ⟨⟨e, hc⟩, (h.bounded.full e hc).ge⟩ hu.1
  | stopped =>
    rw [step_of_stopped hc]
    exact iff_of_true hu (smooth_of_stopped hc turn)
  | selecting =>
    cases turn with
    | chunk => exact unhindered_chunk_iff h.bounded hu hc
    | other pick => exact unhindered_other_iff h.bounded hu hc pick

theorem unhindered_back (w : ReaderTask) (turn : Turn) (hu : (w.step turn).Unhindered) :
    w.Unhindered := by
  constructor
  · intro hd
    rw [step_of_deadlocked hd] at hu
    exact hu.1 hd
  · intro hs
    rw [step_of_stopped hs] at hu
    exact hu.2 hs

/-- **What a run must meet** to read to the last newline. -/
theorem unhindered_run_iff (chunks : List Bytes) (turns : List Turn) :
    (run step (new chunks) turns).Unhindered ↔ EachStep step Smooth (new chunks) turns := by
  have hiff : Always step Unhindered (new chunks) turns ↔
      EachStep step Smooth (new chunks) turns :=
    always_iff_eachStep (unhindered_new chunks) (holds_new chunks)
      (fun _ turn h hu => unhindered_step_iff h hu turn)
      (fun _ turn h _ _ => holds_step h turn) turns
  rw [← hiff]
  exact ⟨always_of_last unhindered_back, fun h => h.last⟩

theorem holds_run (chunks : List Bytes) (turns : List Turn) :
    (run step (new chunks) turns).Holds chunks :=
  (always_of_invariant (holds_new chunks) (fun _ turn h => holds_step h turn) turns).last

/-! ## What was read -/

theorem linesFed_append (read rest : List Bytes) :
    linesFed (read ++ rest) = linesFed read ++ (readChunks (readChunks [] read).2 rest).1 := by
  rw [linesFed, readChunks_append, ← linesFed]

/-- Behind the last newline no line is completed. -/
theorem linesFed_of_no_newline {read rest : List Bytes} {s : Text}
    (hs : (read ++ rest).flatten = encode s) (hn : newlineByte ∉ rest.flatten) :
    linesFed (read ++ rest) = linesFed read := by
  have hrest : '\n' ∉ lossyChunks rest := by
    rw [List.flatten_append] at hs
    rcases encode_eq_append hs.symm with
      ⟨s₁, s₂, -, -, h₂⟩ | ⟨s₁, ch, s₂, p, q, -, hpq, hp, -, -, h₂⟩
    · refine newline_not_mem_lossyChunks (q := []) (by simp) (by simpa using h₂) fun hmem => hn ?_
      rw [h₂]
      exact newlineByte_mem_encode_of_mem hmem
    · refine newline_not_mem_lossyChunks (isContinuation_of_mem_tail ch hpq hp) h₂ fun hmem => hn ?_
      rw [h₂]
      exact List.mem_append_right _ (newlineByte_mem_encode_of_mem hmem)
  have htail : '\n' ∉ (readChunks [] read).2 := by
    rw [readChunks_eq (by simp)]
    exact (newline_not_mem _).2
  rw [linesFed_append, readChunks_eq htail, splitLines_tail (by simp [htail, hrest]),
    List.append_nil]

/-- Where no line is completed, there is no newline. -/
theorem no_newline_of_linesFed {read rest : List Bytes}
    (h : (linesFed (read ++ rest)).length = (linesFed read).length) :
    newlineByte ∉ rest.flatten := by
  intro hmem
  obtain ⟨a, b, hab⟩ := List.append_of_mem hmem
  obtain ⟨cs, p, q, ds, rfl, -, -⟩ := flatten_eq_append hab
  have htail : '\n' ∉ (readChunks [] read).2 := by
    rw [readChunks_eq (by simp)]
    exact (newline_not_mem _).2
  rw [linesFed_append, List.length_append, Nat.add_eq_left, readChunks_eq htail, length_lines,
    lossyChunks_newline] at h
  simp at h

/-- Unless it hangs, the task has read its chunks. -/
theorem Holds.hasRead (h : w.Holds chunks) (hd : ¬ w.reader.Deadlocked) :
    ∃ read, read ++ w.rest = chunks ∧ w.reader.HasRead read := by
  obtain ⟨read, hread, ht⟩ := h.read
  exact ⟨read, hread, ht.read fun e he => hd ⟨⟨e, he⟩, (ht.bounded.full e he).ge⟩⟩

/-- A reader that hangs emitted all but one of the events of the lines that it fed. -/
theorem Holds.hung (h : w.Holds chunks) (hd : w.reader.Deadlocked) :
    ∃ e, (ControlModeParser.new.feedLines w.reader.fed).2 = w.reader.emitted ++ [e] := by
  obtain ⟨read, -, ht⟩ := h.read
  obtain ⟨⟨e, he⟩, -⟩ := hd
  exact ⟨e, (ht.suspended e he).2⟩

/-- What was fed is a beginning of the lines of all chunks. -/
theorem Holds.fed (h : w.Holds chunks) : w.reader.fed <+: linesFed chunks := by
  obtain ⟨read, rfl, ht⟩ := h.read
  have hprefix : linesFed read <+: linesFed (read ++ w.rest) := by
    rw [linesFed_append]
    exact List.prefix_append _ _
  by_cases hs : ∃ e, w.reader.control = .sending e
  · obtain ⟨e, he⟩ := hs
    exact (ht.suspended e he).1.trans hprefix
  · rw [(ht.read fun e he => hs ⟨e, he⟩).fed]
    exact hprefix

/-- A reader that fed as many lines as there are fed them all, and none is to come. -/
theorem Holds.all_fed {s : Text} (h : w.Holds chunks) (hs : chunks.flatten = encode s)
    (hlen : w.reader.fed.length = (splitLines s).1.length) (hd : ¬ w.reader.Deadlocked) :
    w.reader.fed = linesFed chunks ∧ newlineByte ∉ w.rest.flatten := by
  have hall := h.fed.eq_of_length (hlen.trans (length_linesFed hs).symm)
  obtain ⟨read, rfl, hread⟩ := h.hasRead hd
  exact ⟨hall, no_newline_of_linesFed (by rw [← hall, hread.fed])⟩

/-- **What a finished run has read**: what it should exactly if the cutting splits no
character with a newline behind it and nothing hindered the run. -/
theorem readsRight_iff {s : Text} (hs : chunks.flatten = encode s) (h : w.Holds chunks)
    (hf : w.Finished) : w.ReadsRight s ↔ LinesAligned chunks ∧ w.Unhindered := by
  constructor
  · rintro ⟨hfed, hemitted⟩
    have hd : ¬ w.reader.Deadlocked := fun hd => by
      obtain ⟨e, he⟩ := h.hung hd
      rw [hfed, hemitted, events, List.self_eq_append_right] at he
      cases he
    obtain ⟨hall, hn⟩ := h.all_fed hs (congrArg List.length hfed) hd
    exact ⟨(linesFed_eq_iff hs).mp (hall.symm.trans hfed), hd, fun _ => hn⟩
  · rintro ⟨haligned, hd, hstop⟩
    have hn : newlineByte ∉ w.rest.flatten := by
      rcases hf with hrest | hstopped | hdead
      · simp [hrest]
      · exact hstop hstopped
      · exact absurd hdead hd
    obtain ⟨read, rfl, hread⟩ := h.hasRead hd
    have hlines : linesFed read = (splitLines s).1 :=
      (linesFed_of_no_newline hs hn).symm.trans ((linesFed_eq_iff hs).mpr haligned)
    refine ⟨hread.fed.trans hlines, ?_⟩
    rw [hread.emitted, eventsOf, hlines, events]

/-! ## Runs that end -/

theorem exists_finished (rest : List Bytes) {r : Reader} (hb : r.Bounded) :
    ∃ turns, (run step { reader := r, rest } turns).Finished := by
  induction rest generalizing r with
  | nil => exact ⟨[], .inl rfl⟩
  | cons bytes rest ih =>
    cases hc : r.control with
    | stopped => exact ⟨[], .inr (.inl hc)⟩
    | sending e => exact ⟨[], .inr (.inr ⟨⟨e, hc⟩, (hb.full e hc).ge⟩)⟩
    | selecting =>
      obtain ⟨turns, hf⟩ := ih (Reader.bounded_step hb (.message (.data bytes)))
      refine ⟨.chunk :: turns, ?_⟩
      rw [run_cons]
      simp only [step, hc]
      exact hf

/-- What the queue holds is received, up to an exit. -/
theorem exists_received (rest : List Bytes) {r : Reader} (hc : r.control = .selecting) :
    ∃ turns r', run step { reader := r, rest } turns = { reader := r', rest } ∧
      r'.lineBuf = r.lineBuf ∧
      (r'.control = .selecting ∧ r'.queue = [] ∧ (∀ reason, .exit reason ∉ r.queue) ∨
        r'.control = .stopped) := by
  induction hq : r.queue generalizing r with
  | nil => exact ⟨[], r, rfl, rfl, .inl ⟨hc, hq, by simp⟩⟩
  | cons event queue ih =>
    have hstep : step { reader := r, rest } (.other .event) =
        { reader := { r with queue }.handleEvent event, rest } := by
      simp [step, Pick.chunk, Pick.ends, Reader.step, hc, hq]
    by_cases hexit : ∃ reason, event = .exit reason
    · obtain ⟨reason, rfl⟩ := hexit
      exact ⟨[.other .event], _, hstep, rfl, .inr rfl⟩
    · obtain ⟨hcontrol, hbuf⟩ : ({ r with queue }.handleEvent event).control = .selecting ∧
          ({ r with queue }.handleEvent event).lineBuf = r.lineBuf := by
        cases event with
        | exit reason => exact absurd ⟨reason, rfl⟩ hexit
        | _ => exact ⟨hc, rfl⟩
      obtain ⟨turns, r', hrun, hbuf', hend⟩ := ih hcontrol (Reader.handleEvent_queue _ _)
      refine ⟨.other .event :: turns, r', ?_, hbuf'.trans hbuf, hend.imp_left fun h => ?_⟩
      · rw [run_cons, hstep, hrun]
      · refine ⟨h.1, h.2.1, fun reason hm => ?_⟩
        rcases List.mem_cons.mp hm with he | hm
        · exact hexit ⟨reason, he.symm⟩
        · exact h.2.2 reason hm

theorem length_lossy_byte (b : Byte) : (lossy [b]).length = 1 := by
  simp only [lossy, Utf8.run, Utf8.step, List.nil_append]
  cases scan [b] with
  | done c => rfl
  | more => rfl
  | bad => rfl

/-- Byte after byte, and event after event, a reader does not hang. -/
theorem exists_unhung (bs : Bytes) {r : Reader} (hc : r.control = .selecting) (hq : r.queue = [])
    (hl : '\n' ∉ r.lineBuf) : ∃ turns,
      (run step { reader := r, rest := bs.map ([·]) } turns).Finished ∧
        ¬ (run step { reader := r, rest := bs.map ([·]) } turns).reader.Deadlocked := by
  induction bs generalizing r with
  | nil => exact ⟨[], .inl rfl, Reader.not_deadlocked_of_control (by simp [hc])⟩
  | cons b bs ih =>
    have hone : (splitLines (r.lineBuf ++ lossy [b])).1.length ≤ 1 := by
      rw [length_lines, List.count_append, List.count_eq_zero.mpr hl, Nat.zero_add,
        ← length_lossy_byte b]
      exact List.count_le_length
    have hfit : r.queue.length + (r.parser.feedLines
        (splitLines (r.lineBuf ++ lossy [b])).1).2.length ≤ eventCapacity := by
      have hle := (r.parser.length_feedLines_le (splitLines (r.lineBuf ++ lossy [b])).1).trans hone
      rw [hq, List.length_nil, Nat.zero_add]
      exact hle.trans (by decide)
    have hstep : step { reader := r, rest := (b :: bs).map ([·]) } .chunk =
        { reader := r.processBuffer (r.lineBuf ++ lossy [b]), rest := bs.map ([·]) } := by
      simp only [step, hc, List.map_cons, Reader.step]
    have hcontrol : (r.processBuffer (r.lineBuf ++ lossy [b])).control = .selecting := by
      rw [Reader.processBuffer, Reader.processLines_fits hfit]
    have hbuf : '\n' ∉ (r.processBuffer (r.lineBuf ++ lossy [b])).lineBuf := by
      rw [Reader.processBuffer, Reader.processLines_fits hfit]
      exact (newline_not_mem _).2
    obtain ⟨turns, r', hrun, hbuf', hend⟩ := exists_received (bs.map ([·])) hcontrol
    rcases hend with ⟨hc', hq', -⟩ | hstopped
    · obtain ⟨turns', hf, hd⟩ := ih hc' hq' (hbuf' ▸ hbuf)
      refine ⟨.chunk :: (turns ++ turns'), ?_⟩
      rw [run_cons, hstep, run_append, hrun]
      exact ⟨hf, hd⟩
    · refine ⟨.chunk :: turns, ?_⟩
      rw [run_cons, hstep, hrun]
      exact ⟨.inr (.inl hstopped), Reader.not_deadlocked_of_control (by simp [hstopped])⟩

/-! ## All cuttings of a stream -/

/-- Two cuttings are read alike: whatever the branches that are picked, the parser
is fed the same lines, and the queue takes the same events. -/
def ReadAlike (c c' : List Bytes) : Prop := ∀ turns turns',
  (run step (new c) turns).Finished → (run step (new c') turns').Finished →
    (run step (new c) turns).reader.fed = (run step (new c') turns').reader.fed ∧
      (run step (new c) turns).reader.emitted = (run step (new c') turns').reader.emitted

/-- A stream with single-byte characters before its last newline, no more events than
the queue holds, and no exit before its last line. -/
structure Harmless (s : Text) : Prop where
  ascii : ∀ a ch b, s = a ++ ch :: b → '\n' ∈ b → ch.toNat < 0x80
  fits : (events s).length ≤ eventCapacity
  noExit : ∀ reason,
    .exit reason ∉ (ControlModeParser.new.feedLines (splitLines s).1.dropLast).2

theorem feedLines_mono {a b : List Text} (h : a <+: b) :
    (ControlModeParser.new.feedLines a).2 <+: (ControlModeParser.new.feedLines b).2 := by
  obtain ⟨c, rfl⟩ := h
  rw [ControlModeParser.feedLines_append]
  exact List.prefix_append _ _

theorem prefix_dropLast {a b : List Text} (h : a <+: b) (hne : a ≠ b) : a <+: b.dropLast := by
  obtain ⟨c, rfl⟩ := h
  have hc : c ≠ [] := by
    rintro rfl
    exact hne (List.append_nil a).symm
  rw [List.dropLast_append_of_ne_nil hc]
  exact List.prefix_append _ _

/-- Nothing hinders the reading of a harmless stream. -/
theorem Harmless.unhindered {s : Text} (hs : Harmless s) (hc : chunks.flatten = encode s)
    (h : w.Holds chunks) : w.Unhindered := by
  have haligned := (linesAligned_all_iff s).mpr hs.ascii chunks hc
  have hfed : w.reader.fed <+: (splitLines s).1 := (linesFed_eq_iff hc).mpr haligned ▸ h.fed
  have hd : ¬ w.reader.Deadlocked := fun hd => by
    obtain ⟨e, he⟩ := h.hung hd
    have hle := ((feedLines_mono hfed).length_le.trans hs.fits)
    rw [he, List.length_append, List.length_singleton] at hle
    have hqueue := h.bounded.queued.length_le
    have hfull := hd.2
    omega
  refine ⟨hd, fun hstop => ?_⟩
  rcases h.stopped hstop with hrest | ⟨reason, hexit⟩
  · simp [hrest]
  · by_cases hall : w.reader.fed = (splitLines s).1
    · exact (h.all_fed hc (congrArg List.length hall) hd).2
    · obtain ⟨read, -, hread⟩ := h.hasRead hd
      have hevents : (ControlModeParser.new.feedLines w.reader.fed).2 = w.reader.emitted := by
        rw [hread.fed, hread.emitted, eventsOf]
      exact absurd ((feedLines_mono (prefix_dropLast hfed hall)).subset (hevents ▸ hexit))
        (hs.noExit reason)

theorem step_whole (s : Text) : step (new [encode s]) .chunk =
    { reader := Reader.new.step (.message (.data (encode s))), rest := [] } := rfl

theorem chunkEvents_whole (s : Text) : Reader.new.chunkEvents (encode s) = events s := by
  rw [Reader.chunkEvents, lossy_encode]
  rfl

/-- A stream whose cuttings are all read alike has no more events than fit, for a
reader that takes it byte after byte does not hang. -/
theorem fits_of_readAlike {s : Text}
    (h : ∀ c c', c.flatten = encode s → c'.flatten = encode s → ReadAlike c c') :
    (events s).length ≤ eventCapacity := by
  have hbytes : ((encode s).map ([·])).flatten = encode s := by
    rw [← List.flatMap_def, List.flatMap_singleton']
  obtain ⟨turns, hf, hd⟩ := exists_unhung (r := .new) (encode s) rfl rfl (by simp [Reader.new])
  obtain ⟨hfed, hemitted⟩ := h [encode s] ((encode s).map ([·])) (by simp) hbytes [.chunk] turns
    (.inl rfl) hf
  have hunhung : ¬ (run step (new [encode s]) [.chunk]).reader.Deadlocked := fun hdead => by
    obtain ⟨e, he⟩ := (holds_run [encode s] [.chunk]).hung hdead
    obtain ⟨read, -, hread⟩ := (holds_run ((encode s).map ([·])) turns).hasRead hd
    rw [hfed, hemitted, hread.fed, hread.emitted, eventsOf, List.self_eq_append_right] at he
    cases he
  have hfits := (Reader.not_deadlocked_step_iff Reader.bounded_new
    (Reader.not_deadlocked_of_control (by simp [Reader.new])) _).mp hunhung rfl
  rw [chunkEvents_whole] at hfits
  simpa [Reader.new] using hfits

theorem readsRight_whole {s : Text} (h : (events s).length ≤ eventCapacity) :
    (run step (new [encode s]) [.chunk]).ReadsRight s := by
  have hfits : Reader.new.Fits (.message (.data (encode s))) := fun _ => by
    rw [chunkEvents_whole]
    simpa [Reader.new] using h
  refine (readsRight_iff (by simp) (holds_run _ _) (.inl rfl)).mpr
    ⟨linesAligned_singleton s, ?_, fun _ => by simp [step_whole]⟩
  exact (Reader.not_deadlocked_step_iff Reader.bounded_new
    (Reader.not_deadlocked_of_control (by simp [Reader.new])) _).mpr hfits

/-- A reader that takes lines with an exit in one chunk can stop right behind it. -/
theorem exists_stopped {lines : List Text} (hnot : ∀ l ∈ lines, '\n' ∉ l)
    (hfits : (ControlModeParser.new.feedLines lines).2.length ≤ eventCapacity)
    {reason : Option Text} (hexit : .exit reason ∈ (ControlModeParser.new.feedLines lines).2)
    (rest : List Bytes) : ∃ turns r',
      run step (new (encode (joinLines lines) :: rest)) turns = { reader := r', rest } ∧
        r'.control = .stopped := by
  have hevents : Reader.new.chunkEvents (encode (joinLines lines)) =
      (ControlModeParser.new.feedLines lines).2 := by
    rw [chunkEvents_whole, events, lines_joinLines hnot]
  have hfit : Reader.new.Fits (.message (.data (encode (joinLines lines)))) := fun _ => by
    rw [hevents]
    simpa [Reader.new] using hfits
  have hchunk := Reader.step_data rfl hfit
  have hqueue : (Reader.new.step (.message (.data (encode (joinLines lines))))).queue =
      (ControlModeParser.new.feedLines lines).2 := by
    rw [hchunk, ← hevents]
    rfl
  obtain ⟨turns, r', hrun, -, hend⟩ := exists_received rest
    (show (Reader.new.step (.message (.data (encode (joinLines lines))))).control = .selecting by
      rw [hchunk])
  exact ⟨.chunk :: turns, r', hrun, hend.resolve_left fun hno => hno.2.2 reason (hqueue ▸ hexit)⟩

/-- A line that makes an exit is the last one, if every run reads right: it can be
received before the next line comes. -/
theorem noExit_of_readsRight {s : Text} (hfits : (events s).length ≤ eventCapacity)
    (h : ∀ c, c.flatten = encode s → ∀ turns, (run step (new c) turns).Finished →
      (run step (new c) turns).ReadsRight s) (reason : Option Text) :
    .exit reason ∉ (ControlModeParser.new.feedLines (splitLines s).1.dropLast).2 := by
  intro hexit
  obtain ⟨lines, last, hlines⟩ : ∃ lines last, (splitLines s).1 = lines ++ [last] := by
    rcases List.eq_nil_or_concat (splitLines s).1 with hnil | ⟨lines, last, hl⟩
    · rw [hnil] at hexit
      cases hexit
    · exact ⟨lines, last, by simpa using hl⟩
  rw [hlines, List.dropLast_concat] at hexit
  have hnot : ∀ l ∈ lines, '\n' ∉ l := fun l hl => (newline_not_mem s).1 l (by simp [hlines, hl])
  have hle := (feedLines_mono (List.prefix_append lines [last])).length_le
  rw [← hlines] at hle
  -- the last line comes in a chunk of its own
  let tail := encode (joinLines [last] ++ (splitLines s).2)
  have hc : [encode (joinLines lines), tail].flatten = encode s := by
    have htext := joinLines_splitLines s
    rw [hlines, joinLines_append, List.append_assoc] at htext
    rw [← htext]
    simp [tail]
  obtain ⟨turns, r', hrun, hstopped⟩ := exists_stopped hnot (hle.trans hfits) hexit [tail]
  have hf : (run step (new [encode (joinLines lines), tail]) turns).Finished := by
    rw [hrun]
    exact .inr (.inl hstopped)
  have hun := ((readsRight_iff hc (holds_run _ turns) hf).mp (h _ hc turns hf)).2.2
  rw [hrun] at hun
  refine hun hstopped ?_
  rw [List.flatten_singleton]
  exact newlineByte_mem_encode_of_mem (by simp)

/-- **When reading does not depend on the cuts.** All cuttings of a stream are read
alike exactly if it is harmless; and a finished run reads what it should exactly if
its cutting splits no character with a newline behind it, its chunks find room for
their events, and no exit is received before the last newline is read. -/
theorem readAlike_all_iff (s : Text) :
    ((∀ c c' : List Bytes, c.flatten = encode s → c'.flatten = encode s → ReadAlike c c') ↔
      Harmless s) ∧
    ∀ c : List Bytes, c.flatten = encode s → ∀ turns, (run step (new c) turns).Finished →
      ((run step (new c) turns).ReadsRight s ↔
        LinesAligned c ∧ EachStep step Smooth (new c) turns) := by
  refine ⟨⟨fun h => ?_, fun hs c c' hc hc' turns turns' hf hf' => ?_⟩, fun c hc turns hf => ?_⟩
  · have hfits := fits_of_readAlike h
    have hright : ∀ c, c.flatten = encode s → ∀ turns, (run step (new c) turns).Finished →
        (run step (new c) turns).ReadsRight s := by
      intro c hc turns hf
      obtain ⟨hfed, hemitted⟩ := h c [encode s] hc (by simp) turns [.chunk] hf (.inl rfl)
      obtain ⟨hfed', hemitted'⟩ := readsRight_whole hfits
      exact ⟨hfed.trans hfed', hemitted.trans hemitted'⟩
    refine ⟨(linesAligned_all_iff s).mp fun c hc => ?_, hfits, noExit_of_readsRight hfits hright⟩
    obtain ⟨turns, hf⟩ := exists_finished c Reader.bounded_new
    exact ((readsRight_iff hc (holds_run c turns) hf).mp (hright c hc turns hf)).1
  · have hright : ∀ c, c.flatten = encode s → ∀ turns, (run step (new c) turns).Finished →
        (run step (new c) turns).ReadsRight s := fun c hc turns hf =>
      (readsRight_iff hc (holds_run c turns) hf).mpr
        ⟨(linesAligned_all_iff s).mpr hs.ascii c hc, hs.unhindered hc (holds_run c turns)⟩
    obtain ⟨hfed, hemitted⟩ := hright c hc turns hf
    obtain ⟨hfed', hemitted'⟩ := hright c' hc' turns' hf'
    exact ⟨hfed.trans hfed'.symm, hemitted.trans hemitted'.symm⟩
  · rw [readsRight_iff hc (holds_run c turns) hf, unhindered_run_iff]

/-- A cut between a character and the newline, and the event received behind it. -/
theorem readAlike_all_iff_sample :
    (run step (new [encode "%output %0 é".toList, [0x0A]])
      [.chunk, .chunk, .other .event]).ReadsRight "%output %0 é\n".toList := by
  have hc : [encode "%output %0 é".toList, [0x0A]].flatten = encode "%output %0 é\n".toList := by
    decide
  refine ((readAlike_all_iff "%output %0 é\n".toList).2 _ hc _ (.inl rfl)).mpr ⟨?_, ?_⟩
  · rw [← linesFed_eq_iff hc]
    decide +kernel
  · refine ⟨fun bytes hb _ => ?_, fun bytes hb _ => ?_, fun _ reason _ => ?_, trivial⟩
    · cases hb
      decide +kernel
    · cases hb
      decide +kernel
    · decide +kernel

/-- `é` cut in two gives other bytes than `é` in one piece. -/
theorem cut_character_differs : ¬ ∀ (s : Text) (c c' : List Bytes),
    c.flatten = encode s → c'.flatten = encode s → ReadAlike c c' := by
  intro h
  have hfed := (h "%output %0 é\n".toList [encode "%output %0 ".toList ++ [0xC3], [0xA9, 0x0A]]
    [encode "%output %0 é\n".toList] (by decide) (by decide) [.chunk, .chunk] [.chunk] (.inl rfl)
    (.inl rfl)).1
  revert hfed
  decide +kernel

end ReaderTask

end Oxmux.Session
