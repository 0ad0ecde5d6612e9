import Oxmux.Session.ReaderChunks

/-! The end of the reader task. The channel's end stops the loop at once, and
what the parser queued for the loop's other branch is gone with it. -/

namespace Oxmux.Session
open Oxmux.Lib Oxmux.Lib.Runs Oxmux.Tmux

namespace Watched

/-- The output in the complete lines of the chunks. -/
def outputs (received : List Bytes) : List (Text × Bytes) := (eventsOf received).filterMap outputOf

/-- No complete line makes the parser emit an exit. -/
def NoExit (received : List Bytes) : Prop := ∀ reason, .exit reason ∉ eventsOf received

/-- A task that ended has sent all the output that it received. -/
def Delivered (w : Watched) : Prop :=
  w.reader.control = .stopped → NoExit w.received → w.reader.sent = outputs w.received

/-- The channel's end is not taken while output waits in the queue. -/
def EndsDrained (w : Watched) (pick : Pick) : Prop :=
  w.reader.control = .selecting → pick.ends = true → NoExit w.received →
    w.reader.queue.filterMap outputOf = []

/-- **All output is delivered exactly if none waits when the channel ends.** -/
theorem delivered_step {w : Watched} (h : Tracks w) (hd : w.Delivered) (pick : Pick) :
    (w.step pick).Delivered ↔ w.EndsDrained pick := by
  cases hc : w.reader.control with
  | stopped =>
    rw [step_of_stopped hc]
    exact iff_of_true hd fun hs => by simp [hc] at hs
  | sending e =>
    rw [step_of_sending h.bounded hc]
    exact iff_of_true hd fun hs => by simp [hc] at hs
  | selecting =>
    have hsel : ∀ e, w.reader.control ≠ .sending e := by simp [hc]
    have hread := h.read hsel
    cases he : pick.ends with
    | true =>
      obtain ⟨hstep, hchunk⟩ : w.reader.step pick = { w.reader with control := .stopped } ∧
          pick.chunk = [] := by
        unfold Pick.ends at he
        split at he
        · simp [Reader.step, hc, Pick.chunk]
        · simp [Reader.step, hc, Pick.chunk]
        · simp [Reader.step, hc, Pick.chunk]
        · cases he
      simp only [Delivered, step, hstep, hc, hchunk, if_true, List.append_nil, forall_const,
        EndsDrained, he, outputs, ← hread.sent]
      exact forall_congr' fun _ => List.self_eq_append_right
    | false =>
      refine iff_of_true (fun hstop hno => ?_) fun _ hends => by simp [he] at hends
      -- only a received exit stops the task here, and there is none
      obtain ⟨rfl, reason, hq⟩ := (Reader.stopped_step hc hstop).resolve_left (by simp [he])
      have hm : .exit reason ∈ eventsOf w.received :=
        hread.emitted ▸ h.bounded.queued.subset (List.mem_of_head? hq)
      refine absurd hm ?_
      simpa [step, hc, Pick.chunk] using hno reason

/-- **When the reader delivers everything before it ends**: in the runs that
never take the channel's end while output waits in the queue, and in no others. -/
theorem delivered_iff_endsDrained (picks : List Pick) :
    Always step Delivered new picks ↔ EachStep step EndsDrained new picks :=
  always_iff_eachStep (I := Tracks) (fun hs => by cases hs) tracks_new
    (fun _ pick ht hd => delivered_step ht hd pick) (fun _ pick ht _ _ => tracks_step ht pick) picks

/-! ## A program's last words -/

/-- One line of output, and the end of the channel before the queue is read. -/
def lastWords : List Pick :=
  [.message (.data (Utf8.encode "%output %0 a\n".toList)), .message .eof]

theorem lastWords_lost : ¬∀ picks : List Pick, Always step Delivered new picks := by
  intro h
  have hlast := (h lastWords).last
  have hstop : (run step new lastWords).reader.control = .stopped := by decide +kernel
  have hsent : (run step new lastWords).reader.sent = [] := by decide +kernel
  have hreceived : (run step new lastWords).received =
      [Utf8.encode "%output %0 a\n".toList] := by decide +kernel
  have hevents : eventsOf [Utf8.encode "%output %0 a\n".toList] =
      [.output "%0".toList [0x61]] := by decide +kernel
  have hd := hlast hstop (by rw [NoExit, hreceived, hevents]; simp)
  rw [hsent, outputs, hreceived, hevents] at hd
  cases hd

end Watched

end Oxmux.Session
