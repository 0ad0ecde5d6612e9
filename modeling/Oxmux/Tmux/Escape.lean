import Oxmux.Lib.Utf8

/-! tmux's control-mode escaping of pane output and the two decoders of the
relay: the one of the server (`server/src/tmux/control.rs`) and the one of the
agent (`agent/src/quic/server.rs`). They treat malformed escapes differently
but agree on everything tmux writes. -/

namespace Oxmux.Tmux
open Oxmux.Lib Oxmux.Lib.Utf8

def backslash : Byte := 0x5C

/-- The bytes tmux does not copy. -/
def needsEscape (b : Byte) : Bool := b.toNat < 0x20 || b == backslash

/-- The octal digit of value `n % 8`, as a byte. -/
def octalDigit (n : Nat) : Byte := UInt8.ofNat (0x30 + n % 8)

/-- A backslash and exactly three octal digits, or the byte itself. -/
def escapeByte (b : Byte) : Bytes :=
  if needsEscape b then
    [backslash, octalDigit (b.toNat / 64), octalDigit (b.toNat / 8), octalDigit b.toNat]
  else [b]

def escape (bs : Bytes) : Bytes := bs.flatMap escapeByte

def isOctal (c : Char) : Bool := c.isDigit && c ≤ '7'

def octalValue (digits : List Char) : Nat := Nat.ofDigitChars 8 digits 0

/-- `u8::from_str_radix` of octal digits. -/
def fromOctal (digits : List Char) : Option Byte :=
  if octalValue digits < 256 then some (UInt8.ofNat (octalValue digits)) else none

/-- The loop of the server's `decode_tmux_output`; the number counts the
characters that `chars.next()` has already taken. An octal digit behind a
backslash takes the two characters that follow it, whatever they are. -/
def Server.decodeFrom : Nat → Text → Bytes
  | _, [] => []
  | k + 1, _ :: chars => Server.decodeFrom k chars
  | 0, ch :: chars =>
    if ch = '\\' then
      match chars.head?.filter isOctal with
      | some d₁ =>
        let d₂ := (chars.drop 1).head?.filter isOctal
        let d₃ := (chars.drop 2).head?.filter isOctal
        match d₂.bind fun d₂ => d₃.bind fun d₃ => fromOctal [d₁, d₂, d₃] with
        | some byte => byte :: Server.decodeFrom 3 chars
        | none => backslash :: Server.decodeFrom 3 chars
      | none => backslash :: Server.decodeFrom 0 chars
    else String.utf8EncodeChar ch ++ Server.decodeFrom 0 chars

def Server.decodeTmuxOutput (s : Text) : Bytes := Server.decodeFrom 0 s

/-- The loop of the agent's `decode_tmux_output`. It takes as many octal digits
as there are, three at most; a value over 255 gives no byte, and neither does a
backslash at the end of the text. -/
def Agent.decodeFrom : Nat → Text → Bytes
  | _, [] => []
  | k + 1, _ :: chars => Agent.decodeFrom k chars
  | 0, ch :: chars =>
    if ch = '\\' then
      let octal := (chars.take 3).takeWhile isOctal
      if octal ≠ [] then (fromOctal octal).toList ++ Agent.decodeFrom octal.length chars
      else match chars.head? with
        | some next =>
          if next = '\\' then backslash :: Agent.decodeFrom 1 chars
          else backslash :: Agent.decodeFrom 0 chars
        | none => Agent.decodeFrom 0 chars
    else String.utf8EncodeChar ch ++ Agent.decodeFrom 0 chars

def Agent.decodeTmuxOutput (s : Text) : Bytes := Agent.decodeFrom 0 s

/-! ## What tmux writes -/

theorem escape_cons (b : Byte) (bs : Bytes) : escape (b :: bs) = escapeByte b ++ escape bs := rfl

theorem escape_append (a b : Bytes) : escape (a ++ b) = escape a ++ escape b :=
  List.flatMap_append

/-- Behind a byte other than the backslash nothing was escaped. -/
theorem escape_eq_cons {bs r : Bytes} {x : Byte} (hx : x ≠ backslash)
    (h : escape bs = x :: r) : ∃ bs', bs = x :: bs' ∧ escape bs' = r := by
  cases bs with
  | nil => cases h
  | cons b bs =>
    rw [escape_cons, escapeByte] at h
    split at h
    · exact absurd (List.cons.inj h).1.symm hx
    · obtain ⟨rfl, hr⟩ := List.cons.inj h
      exact ⟨bs, rfl, hr⟩

theorem escape_eq_append {x bs r : Bytes} (hx : backslash ∉ x) (h : escape bs = x ++ r) :
    ∃ bs', bs = x ++ bs' ∧ escape bs' = r := by
  induction x generalizing bs with
  | nil => exact ⟨bs, rfl, h⟩
  | cons b x ih =>
    simp only [List.mem_cons, not_or] at hx
    obtain ⟨bs', rfl, h'⟩ := escape_eq_cons (Ne.symm hx.1) h
    obtain ⟨bs'', rfl, hr⟩ := ih hx.2 h'
    exact ⟨bs'', rfl, hr⟩

/-- A backslash starts an escaped byte. -/
theorem escape_eq_backslash {bs r : Bytes} (h : escape bs = backslash :: r) :
    ∃ b bs', needsEscape b = true ∧ bs = b :: bs' ∧ r = octalDigit (b.toNat / 64) ::
      octalDigit (b.toNat / 8) :: octalDigit b.toNat :: escape bs' := by
  cases bs with
  | nil => cases h
  | cons b bs =>
    rw [escape_cons, escapeByte] at h
    split at h
    · next hb => exact ⟨b, bs, hb, rfl, (List.cons.inj h).2.symm⟩
    · next hb =>
      have hb' : b = backslash := (List.cons.inj h).1
      simp [needsEscape, hb'] at hb

/-- Only the backslash has the backslash byte. -/
theorem backslash_not_mem_encodeChar {c : Char} (hc : c ≠ '\\') :
    backslash ∉ String.utf8EncodeChar c := by
  intro hm
  obtain ⟨a, b, h⟩ := List.append_of_mem hm
  by_cases ha : a = []
  · subst ha
    have hs := encode_eq_cons (by decide : backslash.toNat < 0x80)
      (by simpa using h : encode [c] = backslash :: b)
    obtain ⟨s', hs, -⟩ := hs
    exact hc (List.cons.inj hs).1
  · have := isContinuation_of_mem_tail c h ha backslash (by simp)
    exact absurd this (by decide)

/-- A text whose UTF-8 is escaped bytes, read from the left. -/
inductive EscapedText : Text → Bytes → Prop where
  | nil : EscapedText [] []
  | plain {c : Char} {s : Text} {bs : Bytes} : c ≠ '\\' → EscapedText s bs →
    EscapedText (c :: s) (String.utf8EncodeChar c ++ bs)
  | octal {b : Byte} {s : Text} {bs : Bytes} : needsEscape b = true → EscapedText s bs →
    EscapedText ('\\' :: Char.ofNat (octalDigit (b.toNat / 64)).toNat ::
      Char.ofNat (octalDigit (b.toNat / 8)).toNat :: Char.ofNat (octalDigit b.toNat).toNat :: s)
      (b :: bs)

theorem escapedText_of_eq : ∀ (s : Text) (bs : Bytes), encode s = escape bs → EscapedText s bs
  | [], bs, h => by
    cases bs with
    | nil => exact .nil
    | cons b bs =>
      rw [escape_cons, escapeByte] at h
      split at h <;> cases h
  | c :: s, bs, h => by
    by_cases hc : c = '\\'
    · subst hc
      obtain ⟨b, bs', hb, rfl, hr⟩ := escape_eq_backslash h.symm
      have hlt (n : Nat) : (octalDigit n).toNat < 0x80 := by
        rw [octalDigit, toNat_ofNat_lt (by omega)]
        omega
      obtain ⟨s₁, rfl, h₁⟩ := encode_eq_cons (hlt _) hr
      obtain ⟨s₂, rfl, h₂⟩ := encode_eq_cons (hlt _) h₁
      obtain ⟨s₃, rfl, h₃⟩ := encode_eq_cons (hlt _) h₂
      exact .octal hb (escapedText_of_eq s₃ bs' h₃)
    · obtain ⟨bs', rfl, h'⟩ := escape_eq_append (backslash_not_mem_encodeChar hc) h.symm
      exact .plain hc (escapedText_of_eq s bs' h'.symm)
termination_by s => s.length

/-! ## Decoding undoes escaping -/

/-- What a decoder of tmux's escaping must do on well-formed input: copy plain
characters and turn a backslash with three octal digits into their byte. -/
structure DecodesOctal (decode : Text → Bytes) : Prop where
  nil : decode [] = []
  plain : ∀ c s, c ≠ '\\' → decode (c :: s) = String.utf8EncodeChar c ++ decode s
  octal : ∀ (b : Byte) s, decode ('\\' :: Char.ofNat (octalDigit (b.toNat / 64)).toNat ::
    Char.ofNat (octalDigit (b.toNat / 8)).toNat :: Char.ofNat (octalDigit b.toNat).toNat :: s) =
      b :: decode s

/-- **Every decoder of this kind undoes tmux's escaping.** -/
theorem DecodesOctal.decode_escape {decode : Text → Bytes} (hd : DecodesOctal decode)
    (s : Text) (bs : Bytes) (h : encode s = escape bs) : decode s = bs := by
  have he := escapedText_of_eq s bs h
  clear h
  induction he with
  | nil => exact hd.nil
  | plain hc _ ih => rw [hd.plain _ _ hc, ih]
  | octal _ _ ih => rw [hd.octal, ih]

theorem octalDigit_char (n : Nat) : isOctal (Char.ofNat (octalDigit n).toNat) = true ∧
    (Char.ofNat (octalDigit n).toNat).toNat - '0'.toNat = n % 8 := by
  have h : ∀ k < 8, isOctal (Char.ofNat (UInt8.ofNat (0x30 + k)).toNat) = true ∧
      (Char.ofNat (UInt8.ofNat (0x30 + k)).toNat).toNat - '0'.toNat = k := by decide
  exact h (n % 8) (Nat.mod_lt n (by decide))

/-- The three digits of a byte read back as that byte. -/
theorem fromOctal_octalDigit (b : Byte) :
    fromOctal [Char.ofNat (octalDigit (b.toNat / 64)).toNat,
      Char.ofNat (octalDigit (b.toNat / 8)).toNat, Char.ofNat (octalDigit b.toNat).toNat] =
        some b := by
  have hb : b.toNat < 256 := b.toNat_lt
  have hv : octalValue [Char.ofNat (octalDigit (b.toNat / 64)).toNat,
      Char.ofNat (octalDigit (b.toNat / 8)).toNat, Char.ofNat (octalDigit b.toNat).toNat] =
        b.toNat := by
    simp only [octalValue, Nat.ofDigitChars_cons, Nat.ofDigitChars_nil, (octalDigit_char _).2]
    omega
  rw [fromOctal, hv, if_pos hb]
  simp

theorem Server.decodeFrom_octal {d₁ d₂ d₃ : Char} {b : Byte} (s : Text)
    (h₁ : isOctal d₁ = true) (h₂ : isOctal d₂ = true) (h₃ : isOctal d₃ = true)
    (hb : fromOctal [d₁, d₂, d₃] = some b) :
    Server.decodeFrom 0 ('\\' :: d₁ :: d₂ :: d₃ :: s) = b :: Server.decodeFrom 0 s := by
  rw [Server.decodeFrom, if_pos rfl, List.head?_cons, Option.filter_some, if_pos h₁]
  simp [Option.filter_some, h₂, h₃, hb, Server.decodeFrom]

theorem Agent.decodeFrom_octal {d₁ d₂ d₃ : Char} {b : Byte} (s : Text)
    (h₁ : isOctal d₁ = true) (h₂ : isOctal d₂ = true) (h₃ : isOctal d₃ = true)
    (hb : fromOctal [d₁, d₂, d₃] = some b) :
    Agent.decodeFrom 0 ('\\' :: d₁ :: d₂ :: d₃ :: s) = b :: Agent.decodeFrom 0 s := by
  have ht : (List.take 3 (d₁ :: d₂ :: d₃ :: s)).takeWhile isOctal = [d₁, d₂, d₃] := by
    simp [h₁, h₂, h₃]
  rw [Agent.decodeFrom, if_pos rfl, ht]
  simp [hb, Agent.decodeFrom]

theorem server_decodesOctal : DecodesOctal Server.decodeTmuxOutput where
  nil := rfl
  plain c s hc := by simp [Server.decodeTmuxOutput, Server.decodeFrom, hc]
  octal b s := Server.decodeFrom_octal s (octalDigit_char _).1 (octalDigit_char _).1
    (octalDigit_char _).1 (fromOctal_octalDigit b)

theorem agent_decodesOctal : DecodesOctal Agent.decodeTmuxOutput where
  nil := rfl
  plain c s hc := by simp [Agent.decodeTmuxOutput, Agent.decodeFrom, hc]
  octal b s := Agent.decodeFrom_octal s (octalDigit_char _).1 (octalDigit_char _).1
    (octalDigit_char _).1 (fromOctal_octalDigit b)

/-- **Both relay paths undo tmux's escaping**, on every byte sequence whose
escaped form is the UTF-8 of some text. -/
theorem decode_tmux_output_escape (bs : Bytes) (s : Text) (h : encode s = escape bs) :
    Server.decodeTmuxOutput s = bs ∧ Agent.decodeTmuxOutput s = bs :=
  ⟨server_decodesOctal.decode_escape s bs h, agent_decodesOctal.decode_escape s bs h⟩

/-- ESC before a digit, two backslashes and a two-byte character. -/
theorem decode_tmux_output_escape_sample :
    Server.decodeTmuxOutput "\\0337\\134\\134é".toList = [0x1B, 0x37, 0x5C, 0x5C, 0xC3, 0xA9] ∧
    Agent.decodeTmuxOutput "\\0337\\134\\134é".toList = [0x1B, 0x37, 0x5C, 0x5C, 0xC3, 0xA9] :=
  decode_tmux_output_escape [0x1B, 0x37, 0x5C, 0x5C, 0xC3, 0xA9] _ (by decide)

/-! ## Escaping keeps the text in the bytes -/

theorem toNat_lt_of_needsEscape {b : Byte} (h : needsEscape b = true) : b.toNat < 0x80 := by
  simp only [needsEscape, Bool.or_eq_true, decide_eq_true_eq, beq_iff_eq] at h
  rcases h with h | rfl
  · omega
  · decide

/-- Only ASCII is escaped. -/
theorem escape_encodeChar {c : Char} (hc : 0x80 ≤ c.toNat) :
    escape (String.utf8EncodeChar c) = String.utf8EncodeChar c := by
  have hself (b : Byte) (hb : 0x80 ≤ b.toNat) : escapeByte b = [b] :=
    if_neg fun he => by
      have := toNat_lt_of_needsEscape he
      omega
  have hge (n : Nat) (hn : n < 256) (hn' : 0x80 ≤ n) : escapeByte (UInt8.ofNat n) =
      [UInt8.ofNat n] := hself _ (by rw [toNat_ofNat_lt hn]; exact hn')
  obtain ⟨hv, -⟩ | ⟨hv, hv', e⟩ | ⟨hv, hv', -, e⟩ | ⟨hv, hv', e⟩ := encodeChar_cases c
  · omega
  all_goals
    rw [e]
    simp (disch := omega) only [escape, List.flatMap_cons, List.flatMap_nil, hge,
      List.singleton_append]

theorem valid_escapeByte {b : Byte} (h : b.toNat < 0x80) : Valid (escapeByte b) := by
  have hdigit (n : Nat) : (octalDigit n).toNat < 0x80 := by
    rw [octalDigit, toNat_ofNat_lt (by omega)]
    omega
  have hone (x : Byte) (hx : x.toNat < 0x80) : Valid [x] := ⟨[Char.ofNat x.toNat], by
    simp [encodeChar_ascii hx]⟩
  unfold escapeByte
  split
  · exact (hone backslash (by decide)).append ((hone _ (hdigit _)).append
      ((hone _ (hdigit _)).append (hone _ (hdigit _))))
  · exact hone b h

theorem valid_escape : (t : Text) → Valid (escape (encode t))
  | [] => ⟨[], rfl⟩
  | c :: t => by
    rw [encode_cons, escape_append]
    refine Valid.append ?_ (valid_escape t)
    by_cases hc : c.toNat < 0x80
    · obtain ⟨-, e⟩ | ⟨hv, -⟩ | ⟨hv, -⟩ | ⟨hv, -⟩ := encodeChar_cases c
      · rw [e, escape_cons]
        exact (valid_escapeByte (by rw [toNat_ofNat_lt (by omega)]; exact hc)).append ⟨[], rfl⟩
      all_goals omega
    · rw [escape_encodeChar (not_lt.mp hc)]
      exact ⟨[c], by simp⟩

theorem EscapedText.valid {s : Text} {bs : Bytes} (h : EscapedText s bs) : Valid bs := by
  induction h with
  | nil => exact ⟨[], rfl⟩
  | @plain c _ _ _ _ ih => exact Valid.append ⟨[c], by simp⟩ ih
  | @octal b _ _ hb _ ih =>
    have hv : Valid [b] := ⟨[Char.ofNat b.toNat], by
      simp [encodeChar_ascii (toNat_lt_of_needsEscape hb)]⟩
    exact hv.append ih

/-- **Escaped bytes are UTF-8 exactly if the bytes are.** -/
theorem valid_escape_iff (bs : Bytes) : Valid (escape bs) ↔ Valid bs := by
  constructor
  · rintro ⟨s, hs⟩
    exact (escapedText_of_eq s bs hs.symm).valid
  · rintro ⟨t, rfl⟩
    exact valid_escape t

end Oxmux.Tmux
