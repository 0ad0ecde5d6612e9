import Mathlib.Data.List.Induction
import Oxmux.Agent.Framing

/-! The read loop of `connectQuic` (`client/src/composables/useQuic.ts`): chunks
of the stream are put behind a buffer, and complete frames are taken out of it.
The agent writes each payload behind its length. -/

namespace Oxmux.Client
open Oxmux.Lib Frames

/-- What the loop has: its buffer, the slices that it took out, and the messages
that it passed to its handler. -/
structure ReadLoop (M : Type) where
  streamBuf : Bytes
  extracted : List Bytes
  handled : List M

namespace ReadLoop
variable {M : Type}

def start : ReadLoop M where
  streamBuf := []
  extracted := []
  handled := []

/-- `getUint32(0)` of a view on the first four bytes, big-endian by default. -/
def getUint32 (buf : Bytes) : Nat :=
  fromBe32 (buf.getD 0 0) (buf.getD 1 0) (buf.getD 2 0) (buf.getD 3 0)

/-- The inner loop. A slice that cannot be decoded is only warned about. -/
def takeMessages (decode : Bytes → Option M) (r : ReadLoop M) : ReadLoop M :=
  if _h : 4 ≤ r.streamBuf.length then
    let len := getUint32 r.streamBuf
    if r.streamBuf.length < 4 + len then r
    else
      let msgBytes := (r.streamBuf.take (4 + len)).drop 4
      takeMessages decode {
        streamBuf := r.streamBuf.drop (4 + len)
        extracted := r.extracted ++ [msgBytes]
        handled := r.handled ++ (decode msgBytes).toList }
  else r
termination_by r.streamBuf.length
decreasing_by
  simp only [List.length_drop]
  omega

def readChunk (decode : Bytes → Option M) (r : ReadLoop M) (value : Bytes) : ReadLoop M :=
  if value = [] then r
  else takeMessages decode { r with streamBuf := r.streamBuf ++ value }

def readChunks (decode : Bytes → Option M) (chunks : List Bytes) : ReadLoop M :=
  chunks.foldl (readChunk decode) start

/-! ## The inner loop -/

theorem getUint32_cons (b₀ b₁ b₂ b₃ : Byte) (s : Bytes) :
    getUint32 (b₀ :: b₁ :: b₂ :: b₃ :: s) = fromBe32 b₀ b₁ b₂ b₃ := by
  simp only [getUint32, List.getD_cons_zero, List.getD_cons_succ]

/-- A buffer that the inner loop leaves alone holds no complete frame. -/
theorem takeFrame_none {buf : Bytes}
    (h : ¬(4 ≤ buf.length ∧ 4 + getUint32 buf ≤ buf.length)) : takeFrame buf = none := by
  rcases buf with _ | ⟨b₀, _ | ⟨b₁, _ | ⟨b₂, _ | ⟨b₃, s⟩⟩⟩⟩
  · rfl
  · rfl
  · rfl
  · rfl
  · rw [getUint32_cons] at h
    rw [takeFrame_cons]
    generalize fromBe32 b₀ b₁ b₂ b₃ = n at h ⊢
    apply if_pos
    simp only [List.length_cons] at h
    omega

/-- The slices behind a length are those behind the first four bytes. -/
theorem slices_eq (b₀ b₁ b₂ b₃ : Byte) {s : Bytes} {n : Nat}
    (h : 4 + n ≤ (b₀ :: b₁ :: b₂ :: b₃ :: s).length) :
    (if s.length < n then none else some (s.take n, s.drop n)) =
      some (((b₀ :: b₁ :: b₂ :: b₃ :: s).take (4 + n)).drop 4,
        (b₀ :: b₁ :: b₂ :: b₃ :: s).drop (4 + n)) := by
  have hn : ¬s.length < n := by
    simp only [List.length_cons] at h
    omega
  rw [if_neg hn, Nat.add_comm 4 n]
  rfl

/-- The slices of the inner loop are those of the frame reader. -/
theorem takeFrame_some {buf : Bytes} (h : 4 ≤ buf.length)
    (hlen : 4 + getUint32 buf ≤ buf.length) :
    takeFrame buf =
      some ((buf.take (4 + getUint32 buf)).drop 4, buf.drop (4 + getUint32 buf)) := by
  rcases buf with _ | ⟨b₀, _ | ⟨b₁, _ | ⟨b₂, _ | ⟨b₃, s⟩⟩⟩⟩
  · simp at h
  · simp at h
  · simp at h
  · simp at h
  · rw [getUint32_cons] at hlen ⊢
    rw [takeFrame_cons]
    exact slices_eq b₀ b₁ b₂ b₃ hlen

theorem takeMessages_none (decode : Bytes → Option M) {r : ReadLoop M}
    (h : takeFrame r.streamBuf = none) : takeMessages decode r = r := by
  rw [takeMessages]
  by_cases h4 : 4 ≤ r.streamBuf.length
  · have hlt : r.streamBuf.length < 4 + getUint32 r.streamBuf := by
      by_contra hle
      rw [takeFrame_some h4 (not_lt.mp hle)] at h
      cases h
    rw [dif_pos h4]
    exact if_pos hlt
  · exact dif_neg h4

theorem takeMessages_some (decode : Bytes → Option M) {r : ReadLoop M} {p rest : Bytes}
    (h : takeFrame r.streamBuf = some (p, rest)) :
    takeMessages decode r = takeMessages decode
      { streamBuf := rest, extracted := r.extracted ++ [p]
        handled := r.handled ++ (decode p).toList } := by
  have hc : 4 ≤ r.streamBuf.length ∧ 4 + getUint32 r.streamBuf ≤ r.streamBuf.length := by
    by_contra hc
    rw [takeFrame_none hc] at h
    cases h
  rw [takeFrame_some hc.1 hc.2] at h
  obtain ⟨hp, hrest⟩ := Prod.mk.inj (Option.some.inj h)
  rw [takeMessages, dif_pos hc.1]
  simp only [if_neg (not_lt.mpr hc.2), hp, hrest]

/-- **The inner loop takes out all complete frames.** -/
theorem takeMessages_eq (decode : Bytes → Option M) (streamBuf : Bytes)
    (extracted : List Bytes) (handled : List M) :
    takeMessages decode { streamBuf, extracted, handled } =
      { streamBuf := (splitFrames streamBuf).2
        extracted := extracted ++ (splitFrames streamBuf).1
        handled := handled ++ (splitFrames streamBuf).1.filterMap decode } := by
  induction streamBuf using splitFrames.induct generalizing extracted handled with
  | case1 s h =>
    rw [takeMessages_none decode h, splitFrames_none h]
    simp
  | case2 s p rest h ih =>
    rw [takeMessages_some decode h, ih, splitFrames_some h]
    cases hd : decode p <;> simp [hd]

/-- A chunk is put behind the buffer, and what it completes is taken out. -/
theorem readChunk_eq (decode : Bytes → Option M) {r : ReadLoop M}
    (h : takeFrame r.streamBuf = none) (value : Bytes) :
    readChunk decode r value =
      { streamBuf := (splitFrames (r.streamBuf ++ value)).2
        extracted := r.extracted ++ (splitFrames (r.streamBuf ++ value)).1
        handled := r.handled ++ (splitFrames (r.streamBuf ++ value)).1.filterMap decode } := by
  unfold readChunk
  split
  · next hv => simp [hv, splitFrames_none h]
  · exact takeMessages_eq decode _ _ _

/-- **The loop reads the stream**, whatever its chunks are. -/
theorem readChunks_eq (decode : Bytes → Option M) (chunks : List Bytes) :
    readChunks decode chunks =
      { streamBuf := (splitFrames chunks.flatten).2
        extracted := (splitFrames chunks.flatten).1
        handled := (splitFrames chunks.flatten).1.filterMap decode } := by
  induction chunks using List.reverseRecOn with
  | nil => simp [readChunks, start, splitFrames_none (show takeFrame [] = none from rfl)]
  | append_singleton chunks value ih =>
    have hstep : readChunks decode (chunks ++ [value]) =
        readChunk decode (readChunks decode chunks) value := by
      simp [readChunks]
    have hnone := takeFrame_splitFrames chunks.flatten
    rw [hstep, ih, readChunk_eq decode hnone, List.flatten_append, List.flatten_singleton,
      splitFrames_append chunks.flatten value]
    simp

/-! ## The sender's frames -/

/-- What stays in the buffer when a stream of frames is cut: nothing at the end,
else a beginning of the next frame, without its end. -/
def UnfinishedTail (buf : Bytes) (later : List Bytes) : Prop :=
  match later with
  | [] => buf = []
  | p :: _ => buf <+: frame p ∧ buf ≠ frame p

theorem unfinishedTail_of_none {buf rest : Bytes} {later : List Bytes}
    (hnone : takeFrame buf = none) (hsized : ∀ p ∈ later, Sized p)
    (h : buf ++ rest = frames later) : UnfinishedTail buf later := by
  cases later with
  | nil => exact (List.append_eq_nil_iff.mp h).1
  | cons p later =>
    have hbuf : buf <+: frame p ++ frames later := ⟨rest, h⟩
    have hlt : buf.length < (frame p).length := by
      by_contra hle
      obtain ⟨t, ht⟩ := List.prefix_of_prefix_length_le (List.prefix_append _ _) hbuf
        (not_lt.mp hle)
      rw [← ht, takeFrame_frame (hsized p List.mem_cons_self)] at hnone
      cases hnone
    refine ⟨List.prefix_of_prefix_length_le hbuf (List.prefix_append _ _) hlt.le, ?_⟩
    rintro rfl
    exact lt_irrefl _ hlt

/-- **Reassembly undoes the agent's framing**, however the stream is cut: all
payloads are taken out in order, the handler gets those that can be decoded, and
after each chunk the buffer holds the unfinished frame and nothing else. -/
theorem readChunks_frames (decode : Bytes → Option M) (payloads chunks : List Bytes)
    (hsized : ∀ p ∈ payloads, Sized p)
    (hcut : chunks.flatten = payloads.flatMap Agent.sendRaw) :
    (readChunks decode chunks).extracted = payloads ∧
    (readChunks decode chunks).handled = payloads.filterMap decode ∧
    (readChunks decode chunks).streamBuf = [] ∧
    ∀ read rest, chunks = read ++ rest → ∃ done later, payloads = done ++ later ∧
      (readChunks decode read).extracted = done ∧
      (readChunks decode read).handled = done.filterMap decode ∧
      read.flatten = done.flatMap Agent.sendRaw ++ (readChunks decode read).streamBuf ∧
      UnfinishedTail (readChunks decode read).streamBuf later := by
  have hnil : splitFrames [] = ([], []) := splitFrames_none rfl
  have hall : splitFrames chunks.flatten = (payloads, []) := by
    have hframes := splitFrames_frames hsized []
    rw [hnil, List.append_nil, List.append_nil] at hframes
    rw [hcut]
    exact hframes
  refine ⟨?_, ?_, ?_, ?_⟩
  · rw [readChunks_eq, hall]
  · rw [readChunks_eq, hall]
  · rw [readChunks_eq, hall]
  · intro read rest hchunks
    rw [readChunks_eq]
    rw [hchunks, List.flatten_append, splitFrames_append] at hall
    obtain ⟨hpay, htail⟩ := Prod.mk.inj hall
    have hlater := frames_splitFrames ((splitFrames read.flatten).2 ++ rest.flatten)
    rw [htail, List.append_nil] at hlater
    refine ⟨_, _, hpay.symm, rfl, rfl, (frames_splitFrames read.flatten).symm, ?_⟩
    refine unfinishedTail_of_none (takeFrame_splitFrames read.flatten) ?_ hlater.symm
    intro p hp
    exact hsized p (hpay ▸ List.mem_append_right _ hp)

/-- A cut inside a length, one inside a payload, an empty chunk, and a payload
that is not decoded. -/
theorem readChunks_frames_cut :
    (readChunks (fun p => if p = [9] then none else some p)
      [[0, 0], [0, 2, 7], [], [8, 0, 0, 0, 1, 9, 0, 0, 0, 1, 5]]).handled = [[7, 8], [5]] := by
  have h := (readChunks_frames (fun p => if p = [9] then none else some p) [[7, 8], [9], [5]]
    [[0, 0], [0, 2, 7], [], [8, 0, 0, 0, 1, 9, 0, 0, 0, 1, 5]] (by decide) (by decide)).2.1
  rw [h]
  decide

end ReadLoop

end Oxmux.Client
