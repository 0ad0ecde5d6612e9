import Oxmux.Lib.Lines
import Oxmux.Lib.Runs
import Oxmux.Tmux.ControlStream

/-! The reader task of `SshTransport::connect` in
`server/src/session/ssh_transport.rs`: a `tokio::select!` loop that reads the
control channel, cuts it into lines for the parser, and receives the parser's
events from a bounded queue. Both ends of that queue are in this one task. -/

namespace Oxmux.Session
open Oxmux.Lib Oxmux.Lib.Utf8 Oxmux.Lib.Lines Oxmux.Lib.Runs Oxmux.Tmux

/-- What `ctrl_channel.wait()` returns; `ended` is its `None`. -/
inductive ChannelMsg where
  | data (bytes : Bytes)
  | eof
  | close
  | ended
  | other
  deriving DecidableEq

/-- `mpsc::channel::<TmuxEvent>(512)`. -/
def eventCapacity : Nat := 512

/-- Where the task is: in `select!`, inside `feed_line` waiting for the queue to
take an event, or past its loop. -/
inductive Control where
  | selecting
  | sending (event : TmuxEvent)
  | stopped
  deriving DecidableEq

/-- The task, with the sends on `shared_pane_outputs`, the lines that `feed_line` was
given and the events that the queue took, each in order. -/
structure Reader where
  parser : ControlModeParser
  lineBuf : Text
  queue : List TmuxEvent
  control : Control
  sent : List (Text × Bytes)
  fed : List Text
  emitted : List TmuxEvent
  deriving DecidableEq

namespace Reader

def new : Reader where
  parser := .new
  lineBuf := []
  queue := []
  control := .selecting
  sent := []
  fed := []
  emitted := []

/-- The `while let` loop: one line after the other is taken out of `line_buf`
and fed; the loop stands still at an event that the queue has no room for. -/
def processLines (r : Reader) (tail : Text) : List Text → Reader
  | [] => { r with lineBuf := tail, control := .selecting }
  | line :: lines =>
    let fed := r.fed ++ [line]
    match r.parser.feedLine line with
    | (parser, none) => processLines { r with parser, fed } tail lines
    | (parser, some event) =>
      if r.queue.length < eventCapacity then
        processLines { r with
          parser, fed, queue := r.queue ++ [event], emitted := r.emitted ++ [event] } tail lines
      else { r with parser, fed, lineBuf := joinLines lines ++ tail, control := .sending event }

/-- The loop over whatever is in the buffer. -/
def processBuffer (r : Reader) (buf : Text) : Reader :=
  r.processLines (splitLines buf).2 (splitLines buf).1

def handleEvent (r : Reader) : TmuxEvent → Reader
  | .output paneId data => { r with sent := r.sent ++ [(paneId, data)] }
  | .exit _ => { r with control := .stopped }
  | _ => r

end Reader

/-- The scheduler's pick: a ready branch of `select!` with what it yields, or
the resumption of a suspended send. -/
inductive Pick where
  | message (msg : ChannelMsg)
  | event
  | resume
  deriving DecidableEq

/-- The messages behind which nothing is read any more. -/
def Pick.ends : Pick → Bool
  | .message .eof | .message .close | .message .ended => true
  | _ => false

/-- One pick. The event branch is not ready while the queue is empty, and a
suspended send while it is full. -/
def Reader.step (r : Reader) (pick : Pick) : Reader :=
  match r.control, pick with
  | .selecting, .message (.data bytes) => r.processBuffer (r.lineBuf ++ lossy bytes)
  | .selecting, .message .eof => { r with control := .stopped }
  | .selecting, .message .close => { r with control := .stopped }
  | .selecting, .message .ended => { r with control := .stopped }
  | .selecting, .event =>
    match r.queue with
    | [] => r
    | event :: queue => { r with queue }.handleEvent event
  | .sending event, .resume =>
    if r.queue.length < eventCapacity then
      { r with
        queue := r.queue ++ [event], emitted := r.emitted ++ [event] }.processBuffer r.lineBuf
    else r
  | _, _ => r

namespace Reader

/-! ## The loop over the lines of a chunk -/

/-- The events that a chunk adds to the queue if there is room. -/
def chunkEvents (r : Reader) (bytes : Bytes) : List TmuxEvent :=
  (r.parser.feedLines (splitLines (r.lineBuf ++ lossy bytes)).1).2

/-- With room for all events the loop runs through. -/
theorem processLines_fits {r : Reader} {lines : List Text}
    (h : r.queue.length + (r.parser.feedLines lines).2.length ≤ eventCapacity) (tail : Text) :
    r.processLines tail lines = { r with
      parser := (r.parser.feedLines lines).1
      lineBuf := tail
      queue := r.queue ++ (r.parser.feedLines lines).2
      control := .selecting
      fed := r.fed ++ lines
      emitted := r.emitted ++ (r.parser.feedLines lines).2 } := by
  induction lines generalizing r with
  | nil => simp [processLines]
  | cons line lines ih =>
    simp only [ControlModeParser.feedLines_cons, List.length_append] at h ⊢
    rw [processLines]
    rcases hline : r.parser.feedLine line with ⟨parser, _ | event⟩ <;>
      simp only [hline, Option.toList, List.length_nil, List.length_singleton, Nat.zero_add] at h ⊢
    · rw [ih h]
      simp
    · rw [if_pos (by omega), ih (by simp only [List.length_append, List.length_singleton]; omega)]
      simp

/-- Without it the loop ends suspended at the line whose event finds the queue
full. -/
theorem processLines_overflows {r : Reader} {lines : List Text}
    (hq : r.queue.length ≤ eventCapacity)
    (h : eventCapacity < r.queue.length + (r.parser.feedLines lines).2.length) (tail : Text) :
    ∃ pre post events event, lines = pre ++ post ∧
      (r.parser.feedLines pre).2 = events ++ [event] ∧
      r.queue.length + events.length = eventCapacity ∧
      r.processLines tail lines = { r with
        parser := (r.parser.feedLines pre).1
        lineBuf := joinLines post ++ tail
        queue := r.queue ++ events
        control := .sending event
        fed := r.fed ++ pre
        emitted := r.emitted ++ events } := by
  induction lines generalizing r with
  | nil =>
    simp only [ControlModeParser.feedLines_nil, List.length_nil] at h
    omega
  | cons line lines ih =>
    simp only [ControlModeParser.feedLines_cons, List.length_append] at h
    rw [processLines]
    rcases hline : r.parser.feedLine line with ⟨parser, _ | event⟩ <;>
      simp only [hline, Option.toList, List.length_nil, List.length_singleton, Nat.zero_add] at h ⊢
    · obtain ⟨pre, post, events, event, rfl, hpre, hfull, he⟩ :=
        @ih { r with parser, fed := r.fed ++ [line] } hq h
      refine ⟨line :: pre, post, events, event, rfl, ?_, hfull, ?_⟩
      · simpa [ControlModeParser.feedLines_cons, hline] using hpre
      · rw [he]
        simp [ControlModeParser.feedLines_cons, hline]
    · split
      · next hlt =>
        obtain ⟨pre, post, events, event', rfl, hpre, hfull, he⟩ :=
          @ih { r with
            parser, fed := r.fed ++ [line], queue := r.queue ++ [event],
            emitted := r.emitted ++ [event] } (by simpa using Nat.succ_le_of_lt hlt)
            (by simp only [List.length_append, List.length_singleton]; omega)
        refine ⟨line :: pre, post, event :: events, event', rfl, ?_, ?_, ?_⟩
        · simpa [ControlModeParser.feedLines_cons, hline] using hpre
        · simp only [List.length_append, List.length_cons, List.length_nil] at hfull ⊢
          omega
        · rw [he]
          simp [ControlModeParser.feedLines_cons, hline]
      · next hge =>
        refine ⟨[line], lines, [], event, rfl, ?_, by simpa using by omega, ?_⟩
        · simp [ControlModeParser.feedLines_cons, hline]
        · simp [ControlModeParser.feedLines_cons, hline]

theorem processLines_ne_stopped (r : Reader) (tail : Text) (lines : List Text) :
    (r.processLines tail lines).control ≠ .stopped := by
  induction lines generalizing r with
  | nil => simp [processLines]
  | cons line lines ih =>
    rw [processLines]
    split
    · exact ih _
    · split
      · exact ih _
      · simp

/-- What stops the task: the channel's end, or an exit that is received. -/
theorem stopped_step {r : Reader} (hc : r.control = .selecting) {pick : Pick}
    (h : (r.step pick).control = .stopped) :
    pick.ends = true ∨ pick = .event ∧ ∃ reason, r.queue.head? = some (.exit reason) := by
  cases pick with
  | message msg =>
    cases msg with
    | data bytes =>
      simp only [step, hc] at h
      exact absurd h (processLines_ne_stopped _ _ _)
    | other => simp [step, hc] at h
    | eof | close | ended => exact .inl rfl
  | resume => simp [step, hc] at h
  | event =>
    refine .inr ⟨rfl, ?_⟩
    simp only [step, hc] at h
    cases hq : r.queue with
    | nil => simp [hq, hc] at h
    | cons event queue =>
      rw [hq] at h
      cases event with
      | exit reason => exact ⟨reason, rfl⟩
      | _ => simp [handleEvent] at h

theorem stopped_of_exit {r : Reader} (hc : r.control = .selecting) {reason : Option Text}
    (h : r.queue.head? = some (.exit reason)) : (r.step .event).control = .stopped := by
  obtain ⟨queue, hq⟩ := List.head?_eq_some_iff.mp h
  simp only [step, hc, hq]
  rfl

/-! ## Deadlock -/

/-- `feed_line` waits for room in the queue, and the queue is full: the one task
that could make room is the one that waits. -/
def Deadlocked (r : Reader) : Prop :=
  (∃ event, r.control = .sending event) ∧ eventCapacity ≤ r.queue.length

/-- The queue has room for all events of the chunk that is read, if one is. -/
def Fits (r : Reader) : Pick → Prop
  | .message (.data bytes) =>
    r.control = .selecting → r.queue.length + (r.chunkEvents bytes).length ≤ eventCapacity
  | _ => True

/-- A chunk whose events fit is read in one go. -/
theorem step_data {r : Reader} {bytes : Bytes} (hc : r.control = .selecting)
    (hfit : r.Fits (.message (.data bytes))) : r.step (.message (.data bytes)) = { r with
      parser := (r.parser.feedLines (splitLines (r.lineBuf ++ lossy bytes)).1).1
      lineBuf := (splitLines (r.lineBuf ++ lossy bytes)).2
      queue := r.queue ++ r.chunkEvents bytes
      control := .selecting
      fed := r.fed ++ (splitLines (r.lineBuf ++ lossy bytes)).1
      emitted := r.emitted ++ r.chunkEvents bytes } := by
  simp only [step, hc, processBuffer]
  exact processLines_fits (hfit hc) _

/-- A deadlocked reader stays as it is. -/
theorem step_deadlocked {r : Reader} (h : r.Deadlocked) (pick : Pick) : r.step pick = r := by
  obtain ⟨⟨event, he⟩, hq⟩ := h
  unfold step
  rw [he]
  cases pick with
  | message msg => rfl
  | event => rfl
  | resume => exact if_neg (by omega)

/-- The bound of the queue, which holds the last events that it took; a send is
suspended only in front of a full queue. -/
structure Bounded (r : Reader) : Prop where
  queue_le : r.queue.length ≤ eventCapacity
  full : ∀ event, r.control = .sending event → r.queue.length = eventCapacity
  queued : r.queue <:+ r.emitted

theorem bounded_new : Bounded new := ⟨by decide, (fun _ h => by cases h), List.suffix_rfl⟩

theorem suffix_append {a b : List TmuxEvent} (h : a <:+ b) (c : List TmuxEvent) :
    a ++ c <:+ b ++ c := by
  obtain ⟨taken, rfl⟩ := h
  exact ⟨taken, (List.append_assoc ..).symm⟩

theorem bounded_processBuffer {r : Reader} (h : r.queue.length ≤ eventCapacity)
    (hq : r.queue <:+ r.emitted) (buf : Text) : Bounded (r.processBuffer buf) := by
  unfold processBuffer
  by_cases hle : r.queue.length + (r.parser.feedLines (splitLines buf).1).2.length ≤ eventCapacity
  · rw [processLines_fits hle]
    exact ⟨by simpa using hle, (fun _ he => by cases he), suffix_append hq _⟩
  · obtain ⟨pre, post, events, event, -, -, hfull, he⟩ :=
      processLines_overflows h (not_le.mp hle) (splitLines buf).2
    rw [he]
    have hlen : (r.queue ++ events).length = eventCapacity := by rw [List.length_append, hfull]
    exact ⟨hlen.le, fun _ _ => hlen, suffix_append hq _⟩

@[simp] theorem handleEvent_queue (r : Reader) (event : TmuxEvent) :
    (r.handleEvent event).queue = r.queue := by
  cases event <;> rfl

@[simp] theorem handleEvent_emitted (r : Reader) (event : TmuxEvent) :
    (r.handleEvent event).emitted = r.emitted := by
  cases event <;> rfl

theorem handleEvent_ne_sending {r : Reader} (h : ∀ e, r.control ≠ .sending e)
    (event e : TmuxEvent) : (r.handleEvent event).control ≠ .sending e := by
  cases event with
  | exit reason => simp [handleEvent]
  | _ => exact h e

theorem bounded_step {r : Reader} (h : Bounded r) (pick : Pick) : Bounded (r.step pick) := by
  unfold step
  split
  · exact bounded_processBuffer h.queue_le h.queued _
  · exact ⟨h.queue_le, (fun _ he => by cases he), h.queued⟩
  · exact ⟨h.queue_le, (fun _ he => by cases he), h.queued⟩
  · exact ⟨h.queue_le, (fun _ he => by cases he), h.queued⟩
  · next hc =>
    split
    · exact h
    · next event queue hq =>
      have hle := h.queue_le
      have hqueued := h.queued
      rw [hq, List.length_cons] at hle
      rw [hq] at hqueued
      refine ⟨by rw [handleEvent_queue]; exact Nat.le_of_succ_le hle, fun e he => ?_, ?_⟩
      · exact absurd he (handleEvent_ne_sending (by simp [hc]) event e)
      · rw [handleEvent_queue, handleEvent_emitted]
        exact (List.suffix_cons _ _).trans hqueued
  · next event hc =>
    split
    · next hlt =>
      exact bounded_processBuffer (by simpa using Nat.succ_le_of_lt hlt)
        (suffix_append h.queued _) _
    · exact h
  · exact h

theorem not_deadlocked_of_control {r : Reader} (h : ∀ event, r.control ≠ .sending event) :
    ¬ r.Deadlocked := fun ⟨⟨event, he⟩, _⟩ => h event he

/-- From a reader that is not deadlocked, a pick deadlocks it exactly when it
reads a chunk whose events do not fit. -/
theorem not_deadlocked_step_iff {r : Reader} (hb : Bounded r) (hd : ¬ r.Deadlocked)
    (pick : Pick) : ¬ (r.step pick).Deadlocked ↔ r.Fits pick := by
  have hsend : ∀ event, r.control ≠ .sending event := fun event he =>
    hd ⟨⟨event, he⟩, (hb.full event he).ge⟩
  cases hc : r.control with
  | sending event => exact absurd hc (hsend event)
  | stopped =>
    have hr : r.step pick = r := by cases pick <;> simp [step, hc]
    rw [hr]
    refine iff_of_true hd ?_
    unfold Fits
    split
    · simp [hc]
    · trivial
  | selecting =>
    cases pick with
    | message msg =>
      cases msg with
      | data bytes =>
        simp only [step, Fits, hc, forall_const, chunkEvents, processBuffer]
        constructor
        · intro h
          by_contra hle
          obtain ⟨pre, post, events, event, -, -, hfull, he⟩ := processLines_overflows hb.queue_le
            (not_le.mp hle) (splitLines (r.lineBuf ++ lossy bytes)).2
          rw [he] at h
          exact h ⟨⟨event, rfl⟩, by rw [List.length_append, hfull]⟩
        · intro hle
          rw [processLines_fits hle]
          exact not_deadlocked_of_control (by simp)
      | other => exact iff_of_true (by simpa [step, hc] using hd) trivial
      | eof | close | ended =>
        exact iff_of_true (not_deadlocked_of_control (by simp [step, hc])) trivial
    | resume => exact iff_of_true (by simpa [step, hc] using hd) trivial
    | event =>
      refine iff_of_true ?_ trivial
      simp only [step, hc]
      split
      · exact hd
      · next event queue _ =>
        exact not_deadlocked_of_control (handleEvent_ne_sending (by simp) event)

/-- **When the reader task deadlocks**: a run meets no deadlock exactly if every
chunk it reads finds room in the queue for the events of its complete lines. -/
theorem never_deadlocked_iff (picks : List Pick) :
    Always step (fun r => ¬ r.Deadlocked) new picks ↔ EachStep step Fits new picks :=
  always_iff_eachStep (I := Bounded) (not_deadlocked_of_control (by simp [new])) bounded_new
    (fun _ pick hb hd => not_deadlocked_step_iff hb hd pick)
    (fun _ pick hb _ _ => bounded_step hb pick) picks

/-- `n` lines of output in one chunk, as tmux writes them. -/
def burst (n : Nat) : Bytes := encode (joinLines (List.replicate n "%output %0 a".toList))

theorem length_chunkEvents_burst (n : Nat) : (new.chunkEvents (burst n)).length = n := by
  have hfeed : ControlModeParser.new.feedLines (List.replicate n "%output %0 a".toList) =
      (ControlModeParser.new, List.replicate n (.output "%0".toList [0x61])) := by
    induction n with
    | zero => rfl
    | succ n ih =>
      have hline : ControlModeParser.new.feedLine "%output %0 a".toList =
          (ControlModeParser.new, some (.output "%0".toList [0x61])) := by decide
      rw [List.replicate_succ, ControlModeParser.feedLines_cons, hline, ih]
      rfl
  have hline : ∀ l ∈ List.replicate n "%output %0 a".toList, '\n' ∉ l := by
    intro l hl
    rw [List.eq_of_mem_replicate hl]
    decide
  have hlines := splitLines_joinLines hline []
  rw [List.append_nil, splitLines_tail (s := []) (by simp), List.append_nil] at hlines
  simp only [chunkEvents, new, burst, List.nil_append, lossy_encode, hlines, hfeed,
    List.length_replicate]

/-- 513 lines of output in one chunk deadlock a fresh reader. -/
theorem burst_deadlocks : ¬ ∀ picks : List Pick,
    Always step (fun r => ¬ r.Deadlocked) new picks := by
  intro h
  have hstep := (h [.message (.data (burst 513))]).2
  have hfits := (not_deadlocked_step_iff bounded_new
    (not_deadlocked_of_control (by simp [new])) _).mp hstep rfl
  rw [length_chunkEvents_burst] at hfits
  exact absurd hfits (by decide)

end Reader

end Oxmux.Session
