import Oxmux.Lib.Text

/-! Length-prefixed framing: a payload behind its length as four big-endian
bytes, and the reassembly that takes complete frames out of a buffer. -/

namespace Oxmux.Lib.Frames

/-- `(n as u32).to_be_bytes()`. -/
def be32 (n : Nat) : Bytes :=
  [UInt8.ofNat (n / 0x1000000), UInt8.ofNat (n / 0x10000), UInt8.ofNat (n / 0x100), UInt8.ofNat n]

/-- `u32::from_be_bytes`. -/
def fromBe32 (b₀ b₁ b₂ b₃ : Byte) : Nat :=
  b₀.toNat * 0x1000000 + b₁.toNat * 0x10000 + b₂.toNat * 0x100 + b₃.toNat

/-- A payload whose length fits the prefix. -/
def Sized (payload : Bytes) : Prop := payload.length < 2 ^ 32

instance (payload : Bytes) : Decidable (Sized payload) :=
  inferInstanceAs (Decidable (payload.length < 2 ^ 32))

def frame (payload : Bytes) : Bytes := be32 payload.length ++ payload

def frames (payloads : List Bytes) : Bytes := payloads.flatMap frame

/-- The payload of the first frame and the bytes behind it, once it is complete. -/
def takeFrame : Bytes → Option (Bytes × Bytes)
  | b₀ :: b₁ :: b₂ :: b₃ :: s =>
    let n := fromBe32 b₀ b₁ b₂ b₃
    if s.length < n then none else some (s.take n, s.drop n)
  | _ => none

theorem be32_eq (n : Nat) : ∃ b₀ b₁ b₂ b₃, be32 n = [b₀, b₁, b₂, b₃] ∧
    fromBe32 b₀ b₁ b₂ b₃ = n % 2 ^ 32 := by
  refine ⟨_, _, _, _, rfl, ?_⟩
  simp only [fromBe32, UInt8.toNat_ofNat']
  omega

theorem fromBe32_lt (b₀ b₁ b₂ b₃ : Byte) : fromBe32 b₀ b₁ b₂ b₃ < 2 ^ 32 := by
  have := b₀.toNat_lt
  have := b₁.toNat_lt
  have := b₂.toNat_lt
  have := b₃.toNat_lt
  unfold fromBe32
  omega

theorem fromBe32_digits (b₀ b₁ b₂ b₃ : Byte) :
    fromBe32 b₀ b₁ b₂ b₃ / 0x1000000 = b₀.toNat ∧
    fromBe32 b₀ b₁ b₂ b₃ / 0x10000 % 256 = b₁.toNat ∧
    fromBe32 b₀ b₁ b₂ b₃ / 0x100 % 256 = b₂.toNat ∧
    fromBe32 b₀ b₁ b₂ b₃ % 256 = b₃.toNat := by
  have h₁ := b₁.toNat_lt
  have h₂ := b₂.toNat_lt
  have h₃ := b₃.toNat_lt
  unfold fromBe32
  generalize b₀.toNat = a, b₁.toNat = b, b₂.toNat = c, b₃.toNat = d at *
  omega

theorem ofNat_eq_of_mod {n : Nat} {b : Byte} (h : n % 256 = b.toNat) : UInt8.ofNat n = b :=
  UInt8.toNat_inj.mp (by rw [UInt8.toNat_ofNat']; exact h)

theorem be32_fromBe32 (b₀ b₁ b₂ b₃ : Byte) :
    be32 (fromBe32 b₀ b₁ b₂ b₃) = [b₀, b₁, b₂, b₃] := by
  obtain ⟨h₀, h₁, h₂, h₃⟩ := fromBe32_digits b₀ b₁ b₂ b₃
  unfold be32
  rw [ofNat_eq_of_mod h₁, ofNat_eq_of_mod h₂, ofNat_eq_of_mod h₃, h₀, UInt8.ofNat_toNat]

theorem takeFrame_cons (b₀ b₁ b₂ b₃ : Byte) (s : Bytes) : takeFrame (b₀ :: b₁ :: b₂ :: b₃ :: s) =
    if s.length < fromBe32 b₀ b₁ b₂ b₃ then none
    else some (s.take (fromBe32 b₀ b₁ b₂ b₃), s.drop (fromBe32 b₀ b₁ b₂ b₃)) := rfl

/-- The bytes of a buffer whose first frame is complete. -/
theorem takeFrame_cases {s p r : Bytes} (h : takeFrame s = some (p, r)) :
    ∃ b₀ b₁ b₂ b₃ s', s = b₀ :: b₁ :: b₂ :: b₃ :: s' ∧ fromBe32 b₀ b₁ b₂ b₃ ≤ s'.length ∧
      p = s'.take (fromBe32 b₀ b₁ b₂ b₃) ∧ r = s'.drop (fromBe32 b₀ b₁ b₂ b₃) := by
  rcases s with _ | ⟨b₀, _ | ⟨b₁, _ | ⟨b₂, _ | ⟨b₃, s⟩⟩⟩⟩
  · cases h
  · cases h
  · cases h
  · cases h
  · rw [takeFrame_cons] at h
    by_cases hn : s.length < fromBe32 b₀ b₁ b₂ b₃
    · rw [if_pos hn] at h
      cases h
    · rw [if_neg hn] at h
      obtain ⟨h₁, h₂⟩ := Prod.mk.inj (Option.some.inj h)
      exact ⟨b₀, b₁, b₂, b₃, s, rfl, not_lt.mp hn, h₁.symm, h₂.symm⟩

/-- What is taken is a frame at the front of the buffer. -/
theorem takeFrame_eq_some {s p r : Bytes} (h : takeFrame s = some (p, r)) :
    Sized p ∧ s = frame p ++ r := by
  obtain ⟨b₀, b₁, b₂, b₃, s', rfl, hle, rfl, rfl⟩ := takeFrame_cases h
  have hl : (s'.take (fromBe32 b₀ b₁ b₂ b₃)).length = fromBe32 b₀ b₁ b₂ b₃ :=
    List.length_take_of_le hle
  constructor
  · rw [Sized, hl]
    exact fromBe32_lt b₀ b₁ b₂ b₃
  · rw [frame, hl, be32_fromBe32, List.append_assoc, List.take_append_drop]
    rfl

theorem takeFrame_frame {p : Bytes} (h : Sized p) (r : Bytes) :
    takeFrame (frame p ++ r) = some (p, r) := by
  obtain ⟨b₀, b₁, b₂, b₃, hb, hn⟩ := be32_eq p.length
  rw [Nat.mod_eq_of_lt h] at hn
  rw [frame, hb, List.append_assoc]
  simp [takeFrame_cons, hn]

/-- A complete frame stays what it is when more bytes arrive. -/
theorem takeFrame_append {s p r : Bytes} (h : takeFrame s = some (p, r)) (t : Bytes) :
    takeFrame (s ++ t) = some (p, r ++ t) := by
  obtain ⟨hp, rfl⟩ := takeFrame_eq_some h
  rw [List.append_assoc, takeFrame_frame hp]

theorem length_frame (p : Bytes) : (frame p).length = p.length + 4 := by
  simp only [frame, be32, List.length_append, List.length_cons, List.length_nil]
  omega

theorem length_lt_of_takeFrame {s p r : Bytes} (h : takeFrame s = some (p, r)) :
    r.length < s.length := by
  rw [(takeFrame_eq_some h).2, List.length_append, length_frame]
  omega

/-- The reassembly loop: all complete frames, and the bytes that stay. -/
def splitFrames (s : Bytes) : List Bytes × Bytes :=
  match _h : takeFrame s with
  | none => ([], s)
  | some (p, r) => (p :: (splitFrames r).1, (splitFrames r).2)
termination_by s.length
decreasing_by all_goals exact length_lt_of_takeFrame _h

theorem splitFrames_none {s : Bytes} (h : takeFrame s = none) : splitFrames s = ([], s) := by
  rw [splitFrames]
  split
  · rfl
  · next e => rw [h] at e; cases e

theorem splitFrames_some {s p r : Bytes} (h : takeFrame s = some (p, r)) :
    splitFrames s = (p :: (splitFrames r).1, (splitFrames r).2) := by
  rw [splitFrames]
  split
  · next e => rw [h] at e; cases e
  · next e =>
    rw [h] at e
    obtain ⟨rfl, rfl⟩ := Prod.mk.inj (Option.some.inj e)
    rfl

/-- What stays holds no complete frame. -/
theorem takeFrame_splitFrames (s : Bytes) : takeFrame (splitFrames s).2 = none := by
  induction s using splitFrames.induct with
  | case1 s h => rw [splitFrames_none h, h]
  | case2 s p r h ih => rw [splitFrames_some h]; exact ih

/-- **Reassembly undoes framing.** -/
theorem splitFrames_frames {ps : List Bytes} (h : ∀ p ∈ ps, Sized p) (s : Bytes) :
    splitFrames (frames ps ++ s) = (ps ++ (splitFrames s).1, (splitFrames s).2) := by
  induction ps with
  | nil => simp [frames]
  | cons p ps ih =>
    have hp := takeFrame_frame (h p (by simp)) (frames ps ++ s)
    have hs : frames (p :: ps) ++ s = frame p ++ (frames ps ++ s) := by simp [frames]
    rw [hs, splitFrames_some hp, ih fun q hq => h q (by simp [hq])]
    rfl

/-- The frames that were taken and the bytes that stay are the buffer. -/
theorem frames_splitFrames (s : Bytes) : frames (splitFrames s).1 ++ (splitFrames s).2 = s := by
  induction s using splitFrames.induct with
  | case1 s h => simp [splitFrames_none h, frames]
  | case2 s p r h ih =>
    rw [splitFrames_some h]
    conv => rhs; rw [(takeFrame_eq_some h).2, ← ih]
    simp [frames]

theorem sized_of_mem_splitFrames {s p : Bytes} (h : p ∈ (splitFrames s).1) : Sized p := by
  induction s using splitFrames.induct with
  | case1 s hs => simp [splitFrames_none hs] at h
  | case2 s q r hs ih =>
    rw [splitFrames_some hs] at h
    rcases List.mem_cons.mp h with rfl | h
    · exact (takeFrame_eq_some hs).1
    · exact ih h

/-- **Reading on.** The frames of a longer stream are those of its beginning,
then those of what stayed with the rest appended. -/
theorem splitFrames_append (s t : Bytes) :
    splitFrames (s ++ t) = ((splitFrames s).1 ++ (splitFrames ((splitFrames s).2 ++ t)).1,
      (splitFrames ((splitFrames s).2 ++ t)).2) := by
  conv => lhs; rw [← frames_splitFrames s, List.append_assoc]
  exact splitFrames_frames (fun p hp => sized_of_mem_splitFrames hp) _

/-- A reader that takes the complete frames after every chunk. -/
def readFrames : Bytes → List Bytes → List Bytes × Bytes
  | buf, [] => ([], buf)
  | buf, chunk :: chunks =>
    let r := splitFrames (buf ++ chunk)
    (r.1 ++ (readFrames r.2 chunks).1, (readFrames r.2 chunks).2)

/-- **Reading does not depend on the cuts.** -/
theorem readFrames_eq {buf : Bytes} (h : takeFrame buf = none) (chunks : List Bytes) :
    readFrames buf chunks = splitFrames (buf ++ chunks.flatten) := by
  induction chunks generalizing buf with
  | nil => simp [readFrames, splitFrames_none h]
  | cons c cs ih =>
    rw [List.flatten_cons, ← List.append_assoc, splitFrames_append, readFrames,
      ih (takeFrame_splitFrames (buf ++ c))]

end Oxmux.Lib.Frames
