import Oxmux.Lib.Text

/-! UTF-8 over lists of bytes: the encoder, a decoder that runs one byte at a
time, and the lossy decoding of `String::from_utf8_lossy`, which replaces every
maximal ill-formed piece by U+FFFD. The state of the decoder between two bytes
is the beginning of the character it has not finished. -/

namespace Oxmux.Lib.Utf8

def encode (s : Text) : Bytes := s.flatMap String.utf8EncodeChar

def replacement : Char := Char.ofNat 0xFFFD

def isContinuation (b : Byte) : Bool := 0x80 ≤ b.toNat && b.toNat < 0xC0

/-- The second bytes that may follow a first byte. -/
def secondOk (b₀ b₁ : Byte) : Bool :=
  if b₀.toNat = 0xE0 then 0xA0 ≤ b₁.toNat && b₁.toNat < 0xC0
  else if b₀.toNat = 0xED then 0x80 ≤ b₁.toNat && b₁.toNat < 0xA0
  else if b₀.toNat = 0xF0 then 0x90 ≤ b₁.toNat && b₁.toNat < 0xC0
  else if b₀.toNat = 0xF4 then 0x80 ≤ b₁.toNat && b₁.toNat < 0x90
  else isContinuation b₁

/-- What a nonempty piece is: a whole character, the beginning of one, or
neither. -/
inductive Scan where
  | done (c : Char)
  | more
  | bad
  deriving DecidableEq

def scan : Bytes → Scan
  | [b₀] =>
    if b₀.toNat < 0x80 then .done (Char.ofNat b₀.toNat)
    else if 0xC2 ≤ b₀.toNat ∧ b₀.toNat < 0xF5 then .more
    else .bad
  | [b₀, b₁] =>
    if ¬ secondOk b₀ b₁ then .bad
    else if b₀.toNat < 0xE0 then .done (Char.ofNat ((b₀.toNat - 0xC0) * 64 + (b₁.toNat - 0x80)))
    else .more
  | [b₀, b₁, b₂] =>
    if ¬ isContinuation b₂ then .bad
    else if b₀.toNat < 0xF0 then
      .done (Char.ofNat ((b₀.toNat - 0xE0) * 4096 + (b₁.toNat - 0x80) * 64 + (b₂.toNat - 0x80)))
    else .more
  | [b₀, b₁, b₂, b₃] =>
    if ¬ isContinuation b₃ then .bad
    else .done (Char.ofNat ((b₀.toNat - 0xF0) * 262144 + (b₁.toNat - 0x80) * 4096 +
      (b₂.toNat - 0x80) * 64 + (b₃.toNat - 0x80)))
  | _ => .bad

/-- One byte from an unfinished piece `p`: the characters it gives and the
unfinished piece after it. A byte that cannot continue `p` ends it as
ill-formed and is read again on its own. -/
def step (p : Bytes) (b : Byte) : Text × Bytes :=
  match scan (p ++ [b]) with
  | .done c => ([c], [])
  | .more => ([], p ++ [b])
  | .bad =>
    if p = [] then ([replacement], [])
    else match scan [b] with
      | .done c => ([replacement, c], [])
      | .more => ([replacement], [b])
      | .bad => ([replacement, replacement], [])

def run (p : Bytes) : Bytes → Text × Bytes
  | [] => ([], p)
  | b :: bs => ((step p b).1 ++ (run (step p b).2 bs).1, (run (step p b).2 bs).2)

/-- The end of the input inside a character. -/
def flush (p : Bytes) : Text := if p = [] then [] else [replacement]

/-- `String::from_utf8_lossy`. -/
def lossy (bs : Bytes) : Text := (run [] bs).1 ++ flush (run [] bs).2

/-! ## The decoder on encoded characters -/

theorem run_append (p a b : Bytes) :
    run p (a ++ b) = ((run p a).1 ++ (run (run p a).2 b).1, (run (run p a).2 b).2) := by
  induction a generalizing p with
  | nil => simp [run]
  | cons x a ih => simp [run, ih, List.append_assoc]

@[simp] theorem encode_nil : encode [] = [] := rfl

@[simp] theorem encode_cons (c : Char) (s : Text) :
    encode (c :: s) = String.utf8EncodeChar c ++ encode s := rfl

@[simp] theorem encode_append (s t : Text) : encode (s ++ t) = encode s ++ encode t := by
  simp [encode]

/-- The bytes of a character by the size of its code point. -/
theorem encodeChar_cases (c : Char) :
    (c.toNat < 0x80 ∧ String.utf8EncodeChar c = [UInt8.ofNat c.toNat]) ∨
    (0x80 ≤ c.toNat ∧ c.toNat < 0x800 ∧ String.utf8EncodeChar c =
      [UInt8.ofNat (c.toNat / 64 + 0xC0), UInt8.ofNat (c.toNat % 64 + 0x80)]) ∨
    (0x800 ≤ c.toNat ∧ c.toNat < 0x10000 ∧ (c.toNat < 0xD800 ∨ 0xE000 ≤ c.toNat) ∧
      String.utf8EncodeChar c = [UInt8.ofNat (c.toNat / 4096 + 0xE0),
        UInt8.ofNat (c.toNat / 64 % 64 + 0x80), UInt8.ofNat (c.toNat % 64 + 0x80)]) ∨
    (0x10000 ≤ c.toNat ∧ c.toNat < 0x110000 ∧
      String.utf8EncodeChar c = [UInt8.ofNat (c.toNat / 262144 + 0xF0),
        UInt8.ofNat (c.toNat / 4096 % 64 + 0x80), UInt8.ofNat (c.toNat / 64 % 64 + 0x80),
        UInt8.ofNat (c.toNat % 64 + 0x80)]) := by
  have hv : c.toNat < 0xD800 ∨ 0xDFFF < c.toNat ∧ c.toNat < 0x110000 := c.valid
  unfold String.utf8EncodeChar
  change _ ∨ _
  by_cases h1 : c.toNat ≤ 0x7f
  · exact Or.inl ⟨by omega, if_pos h1⟩
  · by_cases h2 : c.toNat ≤ 0x7ff
    · refine Or.inr (Or.inl ⟨by omega, by omega, ?_⟩)
      refine (if_neg h1).trans ((if_pos h2).trans ?_)
      change [UInt8.ofNat (c.toNat / 64 % 0x20 + 0xC0), UInt8.ofNat (c.toNat % 64 + 0x80)] = _
      rw [Nat.mod_eq_of_lt (show c.toNat / 64 < 0x20 by omega)]
    · by_cases h3 : c.toNat ≤ 0xffff
      · refine Or.inr (Or.inr (Or.inl ⟨by omega, by omega, by omega, ?_⟩))
        refine (if_neg h1).trans ((if_neg h2).trans ((if_pos h3).trans ?_))
        change [UInt8.ofNat (c.toNat / 4096 % 0x10 + 0xE0), UInt8.ofNat (c.toNat / 64 % 64 + 0x80),
          UInt8.ofNat (c.toNat % 64 + 0x80)] = _
        rw [Nat.mod_eq_of_lt (show c.toNat / 4096 < 0x10 by omega)]
      · refine Or.inr (Or.inr (Or.inr ⟨by omega, by omega, ?_⟩))
        refine (if_neg h1).trans ((if_neg h2).trans ((if_neg h3).trans ?_))
        change [UInt8.ofNat (c.toNat / 262144 % 0x08 + 0xF0),
          UInt8.ofNat (c.toNat / 4096 % 64 + 0x80), UInt8.ofNat (c.toNat / 64 % 64 + 0x80),
          UInt8.ofNat (c.toNat % 64 + 0x80)] = _
        rw [Nat.mod_eq_of_lt (show c.toNat / 262144 < 0x08 by omega)]

theorem toNat_ofNat_lt {n : Nat} (h : n < 256) : (UInt8.ofNat n).toNat = n := by
  simp [Nat.mod_eq_of_lt h]

theorem isContinuation_of {b : Byte} {n : Nat} (h : b.toNat = n % 64 + 0x80) :
    isContinuation b = true := by
  simp [isContinuation, h]
  omega

/-! A character in its four lengths: every nonempty proper beginning of it is
unfinished, and the whole of it is that character. -/

section
variable {c : Char} {a b : Bytes} (ha : a ≠ [])
include ha

theorem scan_one (hv : c.toNat < 0x80) (h : [UInt8.ofNat c.toNat] = a ++ b) :
    scan a = if b = [] then .done c else .more := by
  have hc : Char.ofNat c.toNat = c := Char.ofNat_toNat c
  have h₀ := toNat_ofNat_lt (show c.toNat < 256 by omega)
  generalize UInt8.ofNat c.toNat = x₀ at h h₀
  rcases a with _ | ⟨a₀, a⟩
  · exact absurd rfl ha
  · simp only [List.cons_append, List.cons.injEq, List.nil_eq, List.append_eq_nil_iff] at h
    obtain ⟨rfl, rfl, rfl⟩ := h
    rw [scan, h₀, if_pos hv, hc, if_pos rfl]

theorem scan_two (hv : 0x80 ≤ c.toNat) (hv' : c.toNat < 0x800)
    (h : [UInt8.ofNat (c.toNat / 64 + 0xC0), UInt8.ofNat (c.toNat % 64 + 0x80)] = a ++ b) :
    scan a = if b = [] then .done c else .more := by
  have hc : Char.ofNat c.toNat = c := Char.ofNat_toNat c
  have h₀ := toNat_ofNat_lt (show c.toNat / 64 + 0xC0 < 256 by omega)
  have h₁ := toNat_ofNat_lt (show c.toNat % 64 + 0x80 < 256 by omega)
  generalize UInt8.ofNat (c.toNat / 64 + 0xC0) = x₀ at h h₀
  generalize UInt8.ofNat (c.toNat % 64 + 0x80) = x₁ at h h₁
  have hok : secondOk x₀ x₁ = true := by
    rw [secondOk, if_neg (by omega), if_neg (by omega), if_neg (by omega), if_neg (by omega)]
    exact isContinuation_of h₁
  rcases a with _ | ⟨a₀, _ | ⟨a₁, a⟩⟩
  · exact absurd rfl ha
  · simp only [List.cons_append, List.nil_append, List.cons.injEq] at h
    obtain ⟨rfl, rfl⟩ := h
    rw [scan, if_neg (by omega), if_pos (by omega), if_neg (by simp)]
  · simp only [List.cons_append, List.cons.injEq, List.nil_eq, List.append_eq_nil_iff] at h
    obtain ⟨rfl, rfl, rfl, rfl⟩ := h
    have hn : (x₀.toNat - 0xC0) * 64 + (x₁.toNat - 0x80) = c.toNat := by omega
    rw [scan, if_neg (by simp [hok]), if_pos (by omega), hn, hc, if_pos rfl]

theorem scan_three (hv : 0x800 ≤ c.toNat) (hv' : c.toNat < 0x10000)
    (hs : c.toNat < 0xD800 ∨ 0xE000 ≤ c.toNat)
    (h : [UInt8.ofNat (c.toNat / 4096 + 0xE0), UInt8.ofNat (c.toNat / 64 % 64 + 0x80),
      UInt8.ofNat (c.toNat % 64 + 0x80)] = a ++ b) :
    scan a = if b = [] then .done c else .more := by
  have hc : Char.ofNat c.toNat = c := Char.ofNat_toNat c
  have h₀ := toNat_ofNat_lt (show c.toNat / 4096 + 0xE0 < 256 by omega)
  have h₁ := toNat_ofNat_lt (show c.toNat / 64 % 64 + 0x80 < 256 by omega)
  have h₂ := toNat_ofNat_lt (show c.toNat % 64 + 0x80 < 256 by omega)
  generalize UInt8.ofNat (c.toNat / 4096 + 0xE0) = x₀ at h h₀
  generalize UInt8.ofNat (c.toNat / 64 % 64 + 0x80) = x₁ at h h₁
  generalize UInt8.ofNat (c.toNat % 64 + 0x80) = x₂ at h h₂
  have hok : secondOk x₀ x₁ = true := by
    unfold secondOk
    split
    · simp; omega
    · split
      · simp; omega
      · rw [if_neg (by omega), if_neg (by omega)]
        exact isContinuation_of h₁
  have hok₂ := isContinuation_of h₂
  rcases a with _ | ⟨a₀, _ | ⟨a₁, _ | ⟨a₂, a⟩⟩⟩
  · exact absurd rfl ha
  · simp only [List.cons_append, List.nil_append, List.cons.injEq] at h
    obtain ⟨rfl, rfl⟩ := h
    rw [scan, if_neg (by omega), if_pos (by omega), if_neg (by simp)]
  · simp only [List.cons_append, List.nil_append, List.cons.injEq] at h
    obtain ⟨rfl, rfl, rfl⟩ := h
    rw [scan, if_neg (by simp [hok]), if_neg (by omega), if_neg (by simp)]
  · simp only [List.cons_append, List.cons.injEq, List.nil_eq, List.append_eq_nil_iff] at h
    obtain ⟨rfl, rfl, rfl, rfl, rfl⟩ := h
    have hn : (x₀.toNat - 0xE0) * 4096 + (x₁.toNat - 0x80) * 64 + (x₂.toNat - 0x80) =
        c.toNat := by omega
    rw [scan, if_neg (by simp [hok₂]), if_pos (by omega), hn, hc, if_pos rfl]

theorem scan_four (hv : 0x10000 ≤ c.toNat) (hv' : c.toNat < 0x110000)
    (h : [UInt8.ofNat (c.toNat / 262144 + 0xF0), UInt8.ofNat (c.toNat / 4096 % 64 + 0x80),
      UInt8.ofNat (c.toNat / 64 % 64 + 0x80), UInt8.ofNat (c.toNat % 64 + 0x80)] = a ++ b) :
    scan a = if b = [] then .done c else .more := by
  have hc : Char.ofNat c.toNat = c := Char.ofNat_toNat c
  have h₀ := toNat_ofNat_lt (show c.toNat / 262144 + 0xF0 < 256 by omega)
  have h₁ := toNat_ofNat_lt (show c.toNat / 4096 % 64 + 0x80 < 256 by omega)
  have h₂ := toNat_ofNat_lt (show c.toNat / 64 % 64 + 0x80 < 256 by omega)
  have h₃ := toNat_ofNat_lt (show c.toNat % 64 + 0x80 < 256 by omega)
  generalize UInt8.ofNat (c.toNat / 262144 + 0xF0) = x₀ at h h₀
  generalize UInt8.ofNat (c.toNat / 4096 % 64 + 0x80) = x₁ at h h₁
  generalize UInt8.ofNat (c.toNat / 64 % 64 + 0x80) = x₂ at h h₂
  generalize UInt8.ofNat (c.toNat % 64 + 0x80) = x₃ at h h₃
  have hok : secondOk x₀ x₁ = true := by
    unfold secondOk
    rw [if_neg (by omega), if_neg (by omega)]
    split
    · simp; omega
    · split
      · simp; omega
      · exact isContinuation_of h₁
  have hok₂ := isContinuation_of h₂
  have hok₃ := isContinuation_of h₃
  rcases a with _ | ⟨a₀, _ | ⟨a₁, _ | ⟨a₂, _ | ⟨a₃, a⟩⟩⟩⟩
  · exact absurd rfl ha
  · simp only [List.cons_append, List.nil_append, List.cons.injEq] at h
    obtain ⟨rfl, rfl⟩ := h
    rw [scan, if_neg (by omega), if_pos (by omega), if_neg (by simp)]
  · simp only [List.cons_append, List.nil_append, List.cons.injEq] at h
    obtain ⟨rfl, rfl, rfl⟩ := h
    rw [scan, if_neg (by simp [hok]), if_neg (by omega), if_neg (by simp)]
  · simp only [List.cons_append, List.nil_append, List.cons.injEq] at h
    obtain ⟨rfl, rfl, rfl, rfl⟩ := h
    rw [scan, if_neg (by simp [hok₂]), if_neg (by omega), if_neg (by simp)]
  · simp only [List.cons_append, List.cons.injEq, List.nil_eq, List.append_eq_nil_iff] at h
    obtain ⟨rfl, rfl, rfl, rfl, rfl, rfl⟩ := h
    have hn : (x₀.toNat - 0xF0) * 262144 + (x₁.toNat - 0x80) * 4096 +
        (x₂.toNat - 0x80) * 64 + (x₃.toNat - 0x80) = c.toNat := by omega
    rw [scan, if_neg (by simp [hok₃]), hn, hc, if_pos rfl]

end

/-- **What a beginning of a character is scanned as.** -/
theorem scan_encodeChar (c : Char) {a b : Bytes} (h : String.utf8EncodeChar c = a ++ b)
    (ha : a ≠ []) : scan a = if b = [] then .done c else .more := by
  obtain ⟨hv, e⟩ | ⟨hv, hv', e⟩ | ⟨hv, hv', hs, e⟩ | ⟨hv, hv', e⟩ := encodeChar_cases c <;>
    rw [e] at h
  · exact scan_one ha hv h
  · exact scan_two ha hv hv' h
  · exact scan_three ha hv hv' hs h
  · exact scan_four ha hv hv' h

/-! ## Running over whole texts -/

/-- Inside a character, bytes are kept and give nothing. -/
theorem run_unfinished (c : Char) {p a b : Bytes} (h : String.utf8EncodeChar c = p ++ a ++ b)
    (hb : b ≠ []) : run p a = ([], p ++ a) := by
  induction a generalizing p with
  | nil => simp [run]
  | cons x a ih =>
    have hs : scan (p ++ [x]) = .more := by
      rw [scan_encodeChar c (a := p ++ [x]) (b := a ++ b) (by simpa using h) (by simp)]
      simp [hb]
    have hr := ih (p := p ++ [x]) (by simpa using h)
    simp [run, step, hs, hr]

theorem run_encodeChar (c : Char) (bs : Bytes) :
    run [] (String.utf8EncodeChar c ++ bs) = (c :: (run [] bs).1, (run [] bs).2) := by
  rcases List.eq_nil_or_concat (String.utf8EncodeChar c) with h | ⟨a, x, h⟩
  · exact absurd h String.utf8EncodeChar_ne_nil
  · have ha := run_unfinished c (p := []) (a := a) (b := [x]) (by simpa using h) (by simp)
    have hs : scan (a ++ [x]) = .done c := by
      rw [scan_encodeChar c (a := a ++ [x]) (b := []) (by simpa using h) (by simp)]
      rfl
    rw [h, List.concat_eq_append, List.append_assoc, run_append, ha]
    simp [run, step, hs]

theorem run_encode (s : Text) (bs : Bytes) :
    run [] (encode s ++ bs) = (s ++ (run [] bs).1, (run [] bs).2) := by
  induction s with
  | nil => rfl
  | cons c s ih => simp [run_encodeChar, ih, List.append_assoc]

/-- Lossy decoding starts afresh behind whole characters. -/
theorem lossy_encode_append (s : Text) (bs : Bytes) : lossy (encode s ++ bs) = s ++ lossy bs := by
  simp [lossy, run_encode]

/-- Lossy decoding changes nothing in well-formed bytes. -/
@[simp] theorem lossy_encode (s : Text) : lossy (encode s) = s := by
  simpa [lossy, run, flush] using lossy_encode_append s []

theorem encode_injective {s t : Text} (h : encode s = encode t) : s = t := by
  rw [← lossy_encode s, h, lossy_encode]

/-- Bytes that are the UTF-8 of some text. -/
def Valid (bs : Bytes) : Prop := ∃ s, bs = encode s

theorem valid_encode (s : Text) : Valid (encode s) := ⟨s, rfl⟩

theorem Valid.append {a b : Bytes} (ha : Valid a) (hb : Valid b) : Valid (a ++ b) := by
  obtain ⟨s, rfl⟩ := ha
  obtain ⟨t, rfl⟩ := hb
  exact ⟨s ++ t, by simp⟩

/-- Well-formed bytes are cut off well-formed bytes. -/
theorem valid_append_iff (s : Text) (bs : Bytes) : Valid (encode s ++ bs) ↔ Valid bs := by
  refine ⟨fun ⟨t, ht⟩ => ?_, (valid_encode s).append⟩
  have hr : (s ++ (run [] bs).1, (run [] bs).2) = (t, []) := by
    rw [← run_encode, ht]
    simpa [run] using run_encode t []
  have hts : t = s ++ (run [] bs).1 := (congrArg Prod.fst hr).symm
  rw [hts, encode_append] at ht
  exact ⟨_, List.append_cancel_left ht⟩

/-- A beginning of well-formed bytes: whole characters, then perhaps a proper
beginning of the next one. -/
theorem encode_eq_append {s : Text} {a b : Bytes} (h : encode s = a ++ b) :
    (∃ s₁ s₂, s = s₁ ++ s₂ ∧ a = encode s₁ ∧ b = encode s₂) ∨
    (∃ s₁ c s₂ p q, s = s₁ ++ c :: s₂ ∧ String.utf8EncodeChar c = p ++ q ∧ p ≠ [] ∧ q ≠ [] ∧
      a = encode s₁ ++ p ∧ b = q ++ encode s₂) := by
  induction s generalizing a with
  | nil =>
    simp only [encode_nil, List.nil_eq, List.append_eq_nil_iff] at h
    exact Or.inl ⟨[], [], rfl, h.1, h.2⟩
  | cons c s ih =>
    rw [encode_cons, List.append_eq_append_iff] at h
    rcases h with ⟨a', rfl, hs⟩ | ⟨q, hc, rfl⟩
    · rcases ih hs with ⟨s₁, s₂, rfl, rfl, rfl⟩ | ⟨s₁, d, s₂, p, q, rfl, hd, hp, hq, rfl, rfl⟩
      · exact Or.inl ⟨c :: s₁, s₂, rfl, rfl, rfl⟩
      · exact Or.inr ⟨c :: s₁, d, s₂, p, q, rfl, hd, hp, hq, by simp, rfl⟩
    · by_cases ha : a = []
      · subst ha
        exact Or.inl ⟨[], c :: s, rfl, rfl, by simpa using hc.symm⟩
      · by_cases hq : q = []
        · subst hq
          exact Or.inl ⟨[c], s, rfl, by simpa using hc.symm, by simp⟩
        · exact Or.inr ⟨[], c, s, a, q, rfl, hc, ha, hq, by simp, rfl⟩

/-! ## Bytes read outside their character -/

theorem scan_continuation {b : Byte} (h : isContinuation b = true) : scan [b] = .bad := by
  simp only [isContinuation, Bool.and_eq_true, decide_eq_true_eq] at h
  rw [scan, if_neg (by omega), if_neg (by omega)]

/-- Continuation bytes at the start of the input are replaced one by one. -/
theorem lossy_continuation {q : Bytes} (hq : ∀ b ∈ q, isContinuation b = true) (bs : Bytes) :
    lossy (q ++ bs) = List.replicate q.length replacement ++ lossy bs := by
  induction q with
  | nil => rfl
  | cons b q ih =>
    have hs := scan_continuation (hq b (by simp))
    have hr := ih fun x hx => hq x (by simp [hx])
    simp only [lossy] at hr
    simp [lossy, run, step, hs, List.replicate_succ, hr]

/-- Behind its first byte a character has continuation bytes only. -/
theorem isContinuation_of_mem_tail (c : Char) {p q : Bytes}
    (h : String.utf8EncodeChar c = p ++ q) (hp : p ≠ []) : ∀ b ∈ q, isContinuation b = true := by
  rcases p with _ | ⟨x, p⟩
  · exact absurd rfl hp
  · have htail : ∀ b ∈ (String.utf8EncodeChar c).tail, isContinuation b = true := by
      have hn (n : Nat) : isContinuation (UInt8.ofNat (n % 64 + 0x80)) = true :=
        isContinuation_of (toNat_ofNat_lt (by omega))
      obtain ⟨-, e⟩ | ⟨-, -, e⟩ | ⟨-, -, -, e⟩ | ⟨-, -, e⟩ := encodeChar_cases c <;>
        rw [e] <;>
        simp only [List.tail_cons, List.mem_cons, forall_eq_or_imp, hn, List.not_mem_nil,
          false_implies, implies_true, and_self]
    intro b hb
    exact htail b (by rw [h]; simp [hb])

/-- A character that spans two bytes or more is not ASCII. -/
theorem le_toNat_of_encodeChar (c : Char) {p q : Bytes} (h : String.utf8EncodeChar c = p ++ q)
    (hp : p ≠ []) (hq : q ≠ []) : 0x80 ≤ c.toNat := by
  obtain ⟨-, e⟩ | ⟨hv, -, -⟩ | ⟨hv, -, -, -⟩ | ⟨hv, -, -⟩ := encodeChar_cases c
  · rw [e] at h
    have hl := congrArg List.length h
    have := List.length_pos_iff.mpr hp
    have := List.length_pos_iff.mpr hq
    simp only [List.length_append, List.length_singleton] at hl
    omega
  · exact hv
  · omega
  · omega

/-- A proper beginning of a character at the end of the input is replaced as
a whole. -/
theorem lossy_unfinished (c : Char) {p q : Bytes} (h : String.utf8EncodeChar c = p ++ q)
    (hp : p ≠ []) (hq : q ≠ []) : lossy p = [replacement] := by
  have hr := run_unfinished c (p := []) (a := p) (b := q) (by simpa using h) hq
  simp only [List.nil_append] at hr
  simp [lossy, hr, flush, hp]

/-- A proper beginning of a character is not well-formed. -/
theorem not_valid_unfinished (c : Char) {p q : Bytes} (h : String.utf8EncodeChar c = p ++ q)
    (hp : p ≠ []) (hq : q ≠ []) : ¬ Valid p := by
  rintro ⟨s, hs⟩
  have hr := run_unfinished c (p := []) (a := p) (b := q) (by simpa using h) hq
  have he := run_encode s []
  rw [List.append_nil, ← hs, hr] at he
  exact hp (congrArg Prod.snd he)

/-- An ASCII byte never continues a character. -/
theorem scan_append_ascii {p : Bytes} {b : Byte} (hp : p ≠ []) (hb : b.toNat < 0x80) :
    scan (p ++ [b]) = .bad := by
  have hc : isContinuation b = false := by simp [isContinuation]; omega
  rcases p with _ | ⟨x, _ | ⟨y, _ | ⟨z, _ | ⟨w, p⟩⟩⟩⟩
  · exact absurd rfl hp
  · have hok : secondOk x b = false := by
      unfold secondOk
      repeat' split
      all_goals first | exact hc | (simp; omega)
    simp [scan, hok]
  · simp [scan, hc]
  · simp [scan, hc]
  · cases p <;> rfl

theorem step_ascii (p : Bytes) {b : Byte} (hb : b.toNat < 0x80) :
    step p b = (flush p ++ [Char.ofNat b.toNat], []) := by
  have hs : scan [b] = .done (Char.ofNat b.toNat) := by rw [scan, if_pos hb]
  by_cases hp : p = []
  · subst hp
    simp [step, hs, flush]
  · simp [step, scan_append_ascii hp hb, hs, hp, flush]

/-- **An ASCII byte is a cut**: lossy decoding goes on afresh behind it. -/
theorem lossy_ascii (a : Bytes) {b : Byte} (hb : b.toNat < 0x80) (bs : Bytes) :
    lossy (a ++ b :: bs) = lossy a ++ Char.ofNat b.toNat :: lossy bs := by
  simp [lossy, run_append, run, step_ascii _ hb, List.append_assoc]

theorem encodeChar_ascii {b : Byte} (hb : b.toNat < 0x80) :
    String.utf8EncodeChar (Char.ofNat b.toNat) = [b] := by
  have hn : (Char.ofNat b.toNat).toNat = b.toNat := by
    have hv : b.toNat.isValidChar := Or.inl (by omega)
    rw [Char.ofNat, dif_pos hv]
    rfl
  rcases encodeChar_cases (Char.ofNat b.toNat) with ⟨-, e⟩ | ⟨hv, -⟩ | ⟨hv, -⟩ | ⟨hv, -⟩
  · rw [e, hn]
    simp
  all_goals omega

/-- An ASCII byte of an encoded text is a character of its own. -/
theorem encode_eq_cons {s : Text} {b : Byte} {bs : Bytes} (hb : b.toNat < 0x80)
    (h : encode s = b :: bs) : ∃ s', s = Char.ofNat b.toNat :: s' ∧ encode s' = bs := by
  have hs : s = Char.ofNat b.toNat :: lossy bs := by
    rw [← lossy_encode s, h]
    exact lossy_ascii [] hb bs
  refine ⟨lossy bs, hs, ?_⟩
  rw [hs, encode_cons, encodeChar_ascii hb] at h
  exact (List.cons.inj h).2

/-- Text behind it does not complete what was cut off. -/
theorem valid_append_encode_iff (bs : Bytes) (t : Text) : Valid (bs ++ encode t) ↔ Valid bs := by
  refine ⟨fun ⟨s, hs⟩ => ?_, fun h => h.append (valid_encode t)⟩
  rcases encode_eq_append hs.symm with
    ⟨s₁, -, -, rfl, -⟩ | ⟨s₁, c, s₂, p, q, -, hc, hp, hq, -, ht⟩
  · exact valid_encode s₁
  · -- every continuation byte would have been read as a character of three bytes
    have hr := lossy_continuation (isContinuation_of_mem_tail c hc hp) (encode s₂)
    rw [← ht, lossy_encode, lossy_encode] at hr
    rw [hr, encode_append] at ht
    have hlen := congrArg List.length (List.append_cancel_right ht)
    have hthree (n : Nat) : (encode (List.replicate n replacement)).length = 3 * n := by
      induction n with
      | zero => rfl
      | succ n ih =>
        rw [List.replicate_succ, encode_cons, List.length_append, ih,
          show (String.utf8EncodeChar replacement).length = 3 by decide]
        omega
    rw [hthree] at hlen
    exact absurd (List.eq_nil_of_length_eq_zero (by omega)) hq

/-- `String::from_utf8`. -/
def fromUtf8 (bs : Bytes) : Option Text :=
  if encode (lossy bs) = bs then some (lossy bs) else none

@[simp] theorem fromUtf8_encode (s : Text) : fromUtf8 (encode s) = some s := by
  simp [fromUtf8]

theorem fromUtf8_eq_none {bs : Bytes} (h : ¬ Valid bs) : fromUtf8 bs = none :=
  if_neg fun he => h ⟨_, he.symm⟩

/-! ## Decoding piece by piece -/

/-- Every piece is decoded on its own. -/
def lossyChunks (chunks : List Bytes) : Text := chunks.flatMap lossy

/-- Every cut falls between two characters. -/
def CharAligned (chunks : List Bytes) : Prop :=
  ∀ pre post, chunks = pre ++ post → Valid pre.flatten

@[simp] theorem lossyChunks_cons (d : Bytes) (ds : List Bytes) :
    lossyChunks (d :: ds) = lossy d ++ lossyChunks ds := rfl

@[simp] theorem lossyChunks_append (ds es : List Bytes) :
    lossyChunks (ds ++ es) = lossyChunks ds ++ lossyChunks es := by
  simp [lossyChunks]

theorem charAligned_cons_encode (s : Text) (ds : List Bytes) :
    CharAligned (encode s :: ds) ↔ CharAligned ds := by
  constructor
  · intro h pre post e
    have := h (encode s :: pre) post (by rw [e]; rfl)
    rwa [List.flatten_cons, valid_append_iff] at this
  · intro h pre post e
    cases pre with
    | nil => exact valid_encode []
    | cons d pre =>
      simp only [List.cons_append, List.cons.injEq] at e
      rw [List.flatten_cons, ← e.1, valid_append_iff]
      exact h pre post e.2

/-- One piece of a stream that starts with the rest `q` of a character: the
stream behind it is of the same kind, and no character of the stream is missing
from what the piece gives. -/
theorem lossy_chunk {d r q : Bytes} {s : Text} (hq : ∀ b ∈ q, isContinuation b = true)
    (h : d ++ r = q ++ encode s) :
    ∃ q' s', (∀ b ∈ q', isContinuation b = true) ∧ r = q' ++ encode s' ∧
      (∀ c ∈ lossy d, c ∈ s ∨ c = replacement) ∧ (∀ c ∈ s', c ∈ s) ∧
      q.length + s.length ≤ (lossy d).length + (q'.length + s'.length) := by
  rw [List.append_eq_append_iff] at h
  rcases h with ⟨q', rfl, rfl⟩ | ⟨d', rfl, h⟩
  · have hd : lossy d = List.replicate d.length replacement := by
      simpa [lossy, run, flush] using lossy_continuation (fun b hb => hq b (by simp [hb])) []
    refine ⟨q', s, fun b hb => hq b (by simp [hb]), rfl, ?_, fun c hc => hc, ?_⟩
    · intro c hc
      rw [hd] at hc
      exact Or.inr (List.eq_of_mem_replicate hc)
    · simp [hd]
      omega
  · have hd := lossy_continuation hq d'
    rcases encode_eq_append h with
      ⟨s₁, s₂, rfl, rfl, rfl⟩ | ⟨s₁, c, s₂, p, q', rfl, hc, hp, hq', rfl, rfl⟩
    · refine ⟨[], s₂, by simp, rfl, ?_, fun c hc => by simp [hc], ?_⟩
      · intro c hc
        rw [hd, lossy_encode, List.mem_append] at hc
        rcases hc with hc | hc
        · exact Or.inr (List.eq_of_mem_replicate hc)
        · exact Or.inl (by simp [hc])
      · simp [hd]
        omega
    · rw [lossy_encode_append, lossy_unfinished c hc hp hq'] at hd
      refine ⟨q', s₂, isContinuation_of_mem_tail c hc hp, rfl, ?_, fun c hc => by simp [hc], ?_⟩
      · intro x hx
        rw [hd] at hx
        simp only [List.mem_append, List.mem_singleton] at hx
        rcases hx with hx | hx | hx
        · exact Or.inr (List.eq_of_mem_replicate hx)
        · exact Or.inl (by simp [hx])
        · exact Or.inr hx
      · have := List.length_pos_iff.mpr hq'
        simp [hd]
        omega

/-- However a stream is cut, decoding it piece by piece invents no character
but the replacement, and loses none. -/
theorem lossyChunks_bounds {chunks : List Bytes} {q : Bytes} {s : Text}
    (hq : ∀ b ∈ q, isContinuation b = true) (h : chunks.flatten = q ++ encode s) :
    (∀ c ∈ lossyChunks chunks, c ∈ s ∨ c = replacement) ∧
      q.length + s.length ≤ (lossyChunks chunks).length := by
  induction chunks generalizing q s with
  | nil =>
    rw [List.flatten_nil, List.nil_eq, List.append_eq_nil_iff] at h
    have hs : s = [] := encode_injective h.2
    simp [lossyChunks, h.1, hs]
  | cons d ds ih =>
    obtain ⟨q', s', hq', hr, hd, hs', hl⟩ := lossy_chunk hq (by simpa using h)
    obtain ⟨hmem, hlen⟩ := ih hq' hr
    constructor
    · intro c hc
      rcases List.mem_append.mp hc with hc | hc
      · exact hd c hc
      · exact (hmem c hc).imp_left (hs' c)
    · rw [lossyChunks_cons, List.length_append]
      omega

/-- **Cuts between characters are harmless.** -/
theorem lossyChunks_of_aligned {chunks : List Bytes} {s : Text} (h : chunks.flatten = encode s)
    (ha : CharAligned chunks) : lossyChunks chunks = s := by
  induction chunks generalizing s with
  | nil => exact encode_injective h
  | cons d ds ih =>
    obtain ⟨s₁, hd⟩ := ha [d] ds rfl
    rw [List.flatten_singleton] at hd
    subst hd
    rw [List.flatten_cons] at h
    obtain ⟨s₂, hs₂⟩ := (valid_append_iff s₁ ds.flatten).mp ⟨s, h⟩
    rw [hs₂, ← encode_append] at h
    rw [lossyChunks_cons, lossy_encode, ih hs₂ ((charAligned_cons_encode s₁ ds).mp ha),
      encode_injective h]

/-- **A cut inside a character shows**: the text gets longer. -/
theorem lt_length_lossyChunks {chunks : List Bytes} {s : Text} (h : chunks.flatten = encode s)
    (ha : ¬ CharAligned chunks) : s.length < (lossyChunks chunks).length := by
  induction chunks generalizing s with
  | nil =>
    refine absurd (fun pre post e => ?_) ha
    rw [List.nil_eq, List.append_eq_nil_iff] at e
    rw [e.1]
    exact valid_encode []
  | cons d ds ih =>
    rw [List.flatten_cons] at h
    rcases encode_eq_append h.symm with
      ⟨s₁, s₂, rfl, rfl, hr⟩ | ⟨s₁, c, s₂, p, q, rfl, hc, hp, hq, rfl, hr⟩
    · have := ih hr (fun h' => ha ((charAligned_cons_encode s₁ ds).mpr h'))
      simp
      omega
    · have hlen := (lossyChunks_bounds (isContinuation_of_mem_tail c hc hp) hr).2
      have := List.length_pos_iff.mpr hq
      simp [lossy_encode_append, lossy_unfinished c hc hp hq]
      omega

/-- Decoding piece by piece gives the text exactly when every cut falls
between two characters. -/
theorem lossyChunks_eq_iff {chunks : List Bytes} {s : Text} (h : chunks.flatten = encode s) :
    lossyChunks chunks = s ↔ CharAligned chunks := by
  refine ⟨fun e => ?_, lossyChunks_of_aligned h⟩
  by_contra ha
  have := lt_length_lossyChunks h ha
  rw [e] at this
  omega

end Oxmux.Lib.Utf8
