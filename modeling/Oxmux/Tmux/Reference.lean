import Oxmux.Tmux.Escape
import Oxmux.Lib.Split

/-! What an escaped text stands for, read from the left one backslash after the
other, and the texts for which `decode_tmux_output` of the server
(`server/src/tmux/control.rs`) gives that. -/

namespace Oxmux.Tmux
open Oxmux.Lib Oxmux.Lib.Utf8

/-! ## The reference -/

/-- The byte of a complete escape; the text begins behind the backslash. -/
def completeEscape : Text → Option Byte
  | d₁ :: d₂ :: d₃ :: _ =>
    if isOctal d₁ && isOctal d₂ && isOctal d₃ then fromOctal [d₁, d₂, d₃] else none
  | _ => none

/-- A complete escape is its byte, everything else is itself. The number counts
the digits of an escape that are still to be passed over. -/
def Reference.decodeFrom : Nat → Text → Bytes
  | _, [] => []
  | k + 1, _ :: chars => Reference.decodeFrom k chars
  | 0, ch :: chars =>
    if ch = '\\' then
      match completeEscape chars with
      | some byte => byte :: Reference.decodeFrom 3 chars
      | none => backslash :: Reference.decodeFrom 0 chars
    else String.utf8EncodeChar ch ++ Reference.decodeFrom 0 chars

def Reference.decodeTmuxOutput (s : Text) : Bytes := Reference.decodeFrom 0 s

/-! ## Texts that are decoded as meant -/

/-- The text begins with these characters and an octal digit. -/
def beginsWith (start chars : Text) : Bool := ((stripPrefix start chars).bind (·.head?)).any isOctal

/-- How much is passed over where the three characters that the decoder takes
behind a backslash, and the escape that begins in them, stand for what is left of
that escape: `\6\067` and `\06\067` are `\67` and `\067` either way. -/
def swallowedAlike (chars : Text) : Option Nat :=
  if beginsWith ['6', '\\', '0', '6'] chars then some 5
  else if beginsWith ['0', '6', '\\', '0', '6'] chars then some 6
  else none

/-- Every backslash before an octal digit begins a complete escape, or what the
decoder takes behind it is no loss. -/
def unharmedFrom : Nat → Text → Bool
  | _, [] => true
  | k + 1, _ :: chars => unharmedFrom k chars
  | 0, ch :: chars =>
    if ch = '\\' then
      if (completeEscape chars).isSome then unharmedFrom 3 chars
      else if (chars.head?.filter isOctal).isSome then
        match swallowedAlike chars with
        | some k => unharmedFrom k chars
        | none => false
      else unharmedFrom 0 chars
    else unharmedFrom 0 chars

def unharmed (s : Text) : Bool := unharmedFrom 0 s

/-! ## Digits -/

theorem isOctal_iff {c : Char} : isOctal c = true ↔ 48 ≤ c.toNat ∧ c.toNat ≤ 55 := by
  have h7 : c ≤ '7' ↔ c.toNat ≤ 55 := Iff.rfl
  have h0 : c.isDigit = true ↔ 48 ≤ c.toNat ∧ c.toNat ≤ 57 := by
    simp only [Char.isDigit, Bool.and_eq_true, decide_eq_true_eq]
    exact Iff.rfl
  simp only [isOctal, Bool.and_eq_true, decide_eq_true_eq, h7, h0]
  omega

theorem ne_backslash_of_isOctal {c : Char} (h : isOctal c = true) : c ≠ '\\' := by
  rintro rfl
  revert h
  decide

theorem encodeChar_octal {c : Char} (h : isOctal c = true) :
    String.utf8EncodeChar c = [UInt8.ofNat c.toNat] := by
  have hc := isOctal_iff.mp h
  rcases encodeChar_cases c with ⟨-, e⟩ | ⟨hv, -⟩ | ⟨hv, -⟩ | ⟨hv, -⟩
  · exact e
  all_goals omega

theorem encodeChar_injective {c d : Char} (h : String.utf8EncodeChar c = String.utf8EncodeChar d) :
    c = d := by
  have hs : encode [c] = encode [d] := by simpa using h
  exact (List.cons.inj (encode_injective hs)).1

theorem length_encodeChar_pos (c : Char) : 0 < (String.utf8EncodeChar c).length := by
  rcases encodeChar_cases c with ⟨-, e⟩ | ⟨-, -, e⟩ | ⟨-, -, -, e⟩ | ⟨-, -, e⟩ <;> simp [e]

theorem octalValue_three {d₁ d₂ d₃ : Char} (h₁ : isOctal d₁ = true) (h₂ : isOctal d₂ = true)
    (h₃ : isOctal d₃ = true) :
    octalValue [d₁, d₂, d₃] + 3504 = 64 * d₁.toNat + 8 * d₂.toNat + d₃.toNat := by
  have h₁ := isOctal_iff.mp h₁
  have h₂ := isOctal_iff.mp h₂
  have h₃ := isOctal_iff.mp h₃
  have h0 : '0'.toNat = 48 := rfl
  simp only [octalValue, Nat.ofDigitChars_cons, Nat.ofDigitChars_nil, h0]
  omega

/-- An escape spells its last digit if it begins with `06`. -/
theorem fromOctal_eq_last {d₁ d₂ d₃ : Char} {b : Byte} (h₁ : isOctal d₁ = true)
    (h₂ : isOctal d₂ = true) (h₃ : isOctal d₃ = true) (hb : fromOctal [d₁, d₂, d₃] = some b) :
    UInt8.ofNat d₃.toNat = b ↔ d₁ = '0' ∧ d₂ = '6' := by
  have hv := octalValue_three h₁ h₂ h₃
  have h₁ := isOctal_iff.mp h₁
  have h₂ := isOctal_iff.mp h₂
  have h₃ := isOctal_iff.mp h₃
  unfold fromOctal at hb
  split at hb
  · next hlt =>
    obtain rfl := Option.some.inj hb
    rw [← UInt8.toNat_inj, toNat_ofNat_lt (by omega), toNat_ofNat_lt hlt]
    have c₁ : d₁ = '0' ↔ d₁.toNat = 48 := ⟨fun h => by rw [h]; rfl, fun h => Char.toNat_inj.mp h⟩
    have c₂ : d₂ = '6' ↔ d₂.toNat = 54 := ⟨fun h => by rw [h]; rfl, fun h => Char.toNat_inj.mp h⟩
    rw [c₁, c₂]
    omega
  · cases hb

theorem completeEscape_eq_some {s : Text} {b : Byte} (h : completeEscape s = some b) :
    ∃ d₁ d₂ d₃ r, s = d₁ :: d₂ :: d₃ :: r ∧ isOctal d₁ = true ∧ isOctal d₂ = true ∧
      isOctal d₃ = true ∧ fromOctal [d₁, d₂, d₃] = some b := by
  rcases s with _ | ⟨d₁, _ | ⟨d₂, _ | ⟨d₃, r⟩⟩⟩
  · cases h
  · cases h
  · cases h
  · by_cases hd : (isOctal d₁ && isOctal d₂ && isOctal d₃) = true
    · rw [completeEscape, if_pos hd] at h
      simp only [Bool.and_eq_true] at hd
      exact ⟨d₁, d₂, d₃, r, rfl, hd.1.1, hd.1.2, hd.2, h⟩
    · rw [completeEscape, if_neg hd] at h
      cases h

/-! ## One step of each -/

theorem Reference.decodeFrom_drop (k : Nat) (s : Text) :
    Reference.decodeFrom k s = Reference.decodeTmuxOutput (s.drop k) :=
  skipping_eq_drop (fun k => by cases k <;> rfl) (fun _ _ _ => rfl) k s

theorem Server.decodeFrom_drop (k : Nat) (s : Text) :
    Server.decodeFrom k s = Server.decodeTmuxOutput (s.drop k) :=
  skipping_eq_drop (fun k => by cases k <;> rfl) (fun _ _ _ => rfl) k s

theorem unharmedFrom_drop (k : Nat) (s : Text) : unharmedFrom k s = unharmed (s.drop k) :=
  skipping_eq_drop (fun k => by cases k <;> rfl) (fun _ _ _ => rfl) k s

section Steps
variable {s : Text} {b : Byte}

theorem Reference.decode_escape (h : completeEscape s = some b) :
    Reference.decodeTmuxOutput ('\\' :: s) = b :: Reference.decodeTmuxOutput (s.drop 3) := by
  rw [Reference.decodeTmuxOutput, Reference.decodeFrom, if_pos rfl, h]
  exact congrArg (b :: ·) (Reference.decodeFrom_drop 3 s)

/-- Every other character is itself, a backslash too. -/
theorem Reference.decode_plain {c : Char} (h : c = '\\' → completeEscape s = none) :
    Reference.decodeTmuxOutput (c :: s) =
      String.utf8EncodeChar c ++ Reference.decodeTmuxOutput s := by
  by_cases hc : c = '\\'
  · subst hc
    rw [Reference.decodeTmuxOutput, Reference.decodeFrom, if_pos rfl, h rfl]
    rfl
  · rw [Reference.decodeTmuxOutput, Reference.decodeFrom, if_neg hc]
    rfl

theorem Server.decode_escape (h : completeEscape s = some b) :
    Server.decodeTmuxOutput ('\\' :: s) = b :: Server.decodeTmuxOutput (s.drop 3) := by
  obtain ⟨d₁, d₂, d₃, r, rfl, h₁, h₂, h₃, hb⟩ := completeEscape_eq_some h
  exact Server.decodeFrom_octal r h₁ h₂ h₃ hb

theorem Server.decode_plain {c : Char} (h : c = '\\' → s.head?.filter isOctal = none) :
    Server.decodeTmuxOutput (c :: s) = String.utf8EncodeChar c ++ Server.decodeTmuxOutput s := by
  by_cases hc : c = '\\'
  · subst hc
    rw [Server.decodeTmuxOutput, Server.decodeFrom, if_pos rfl, h rfl]
    rfl
  · rw [Server.decodeTmuxOutput, Server.decodeFrom, if_neg hc]
    rfl

/-- An escape that is not complete takes three characters with it. -/
theorem Server.decode_broken {d : Char} (hd : isOctal d = true)
    (h : completeEscape (d :: s) = none) :
    Server.decodeTmuxOutput ('\\' :: d :: s) =
      backslash :: Server.decodeTmuxOutput (s.drop 2) := by
  have hnone : (((d :: s).drop 1).head?.filter isOctal).bind (fun d₂ =>
      (((d :: s).drop 2).head?.filter isOctal).bind fun d₃ => fromOctal [d, d₂, d₃]) = none := by
    rcases s with _ | ⟨x, _ | ⟨y, r⟩⟩
    · rfl
    · cases hx : isOctal x <;> simp [Option.filter_some, hx]
    · cases hx : isOctal x <;> cases hy : isOctal y
      all_goals simp_all [completeEscape, Option.filter_some]
  have hhead : (d :: s).head?.filter isOctal = some d := by simp [Option.filter_some, hd]
  rw [Server.decodeTmuxOutput, Server.decodeFrom, if_pos rfl, hhead]
  simp only
  rw [hnone]
  exact congrArg (backslash :: ·) (Server.decodeFrom_drop 3 (d :: s))

theorem unharmed_escape (h : completeEscape s = some b) :
    unharmed ('\\' :: s) = unharmed (s.drop 3) := by
  rw [unharmed, unharmedFrom, if_pos rfl, h, if_pos Option.isSome_some]
  exact unharmedFrom_drop 3 s

theorem unharmed_plain {c : Char} (h : c = '\\' → s.head?.filter isOctal = none) :
    unharmed (c :: s) = unharmed s := by
  by_cases hc : c = '\\'
  · subst hc
    have hhead := h rfl
    have hnone : completeEscape s = none := by
      cases he : completeEscape s with
      | none => rfl
      | some b =>
        obtain ⟨d₁, d₂, d₃, r, rfl, h₁, -⟩ := completeEscape_eq_some he
        simp [Option.filter_some, h₁] at hhead
    rw [unharmed, unharmedFrom, if_pos rfl, hnone, if_neg (by simp), hhead, if_neg (by simp)]
    rfl
  · rw [unharmed, unharmedFrom, if_neg hc]
    rfl

theorem unharmed_broken {d : Char} (hd : isOctal d = true)
    (h : completeEscape (d :: s) = none) :
    unharmed ('\\' :: d :: s) =
      (swallowedAlike (d :: s)).elim false fun k => unharmed ((d :: s).drop k) := by
  have hhead : (d :: s).head?.filter isOctal = some d := by simp [Option.filter_some, hd]
  rw [unharmed, unharmedFrom, if_pos rfl, h, if_neg (by simp), hhead, if_pos Option.isSome_some]
  cases swallowedAlike (d :: s) with
  | none => rfl
  | some k => exact unharmedFrom_drop k (d :: s)

end Steps

/-! ## What a broken escape takes -/

/-- A text is plain up to its first complete escape. -/
theorem Reference.decode_octal {d : Char} (hd : isOctal d = true) (s : Text) :
    Reference.decodeTmuxOutput (d :: s) =
      UInt8.ofNat d.toNat :: Reference.decodeTmuxOutput s := by
  rw [Reference.decode_plain fun h => absurd h (ne_backslash_of_isOctal hd), encodeChar_octal hd]
  rfl

theorem Server.decode_octal {d : Char} (hd : isOctal d = true) (s : Text) :
    Server.decodeTmuxOutput (d :: s) = UInt8.ofNat d.toNat :: Server.decodeTmuxOutput s := by
  rw [Server.decode_plain fun h => absurd h (ne_backslash_of_isOctal hd), encodeChar_octal hd]
  rfl

/-- Where two characters are followed by a text, an escape may begin at the
first of them, at the second, or at neither. -/
inductive Straddles (x y : Char) (rest : Text) : Prop where
  | first (o₂ o₃ : Char) (r : Text) (b : Byte) (hx : x = '\\') (hr : rest = o₂ :: o₃ :: r)
      (h₁ : isOctal y = true) (h₂ : isOctal o₂ = true) (h₃ : isOctal o₃ = true)
      (hb : fromOctal [y, o₂, o₃] = some b)
  | second (o₁ o₂ o₃ : Char) (r : Text) (b : Byte) (hy : y = '\\')
      (hr : rest = o₁ :: o₂ :: o₃ :: r) (hx : x = '\\' → completeEscape (y :: rest) = none)
      (h₁ : isOctal o₁ = true) (h₂ : isOctal o₂ = true) (h₃ : isOctal o₃ = true)
      (hb : fromOctal [o₁, o₂, o₃] = some b)
  | neither (hx : x = '\\' → completeEscape (y :: rest) = none)
      (hy : y = '\\' → completeEscape rest = none)

theorem straddles (x y : Char) (rest : Text) : Straddles x y rest := by
  by_cases hx : x = '\\' ∧ completeEscape (y :: rest) ≠ none
  · obtain ⟨b, hb⟩ := Option.ne_none_iff_exists'.mp hx.2
    obtain ⟨d₁, d₂, d₃, r, hs, h₁, h₂, h₃, hv⟩ := completeEscape_eq_some hb
    obtain ⟨rfl, rfl⟩ := List.cons.inj hs
    exact .first d₂ d₃ r b hx.1 rfl h₁ h₂ h₃ hv
  · have hx' : x = '\\' → completeEscape (y :: rest) = none := by simpa using hx
    by_cases hy : y = '\\' ∧ completeEscape rest ≠ none
    · obtain ⟨b, hb⟩ := Option.ne_none_iff_exists'.mp hy.2
      obtain ⟨d₁, d₂, d₃, r, hs, h₁, h₂, h₃, hv⟩ := completeEscape_eq_some hb
      exact .second d₁ d₂ d₃ r b hy.1 hs hx' h₁ h₂ h₃ hv
    · exact .neither hx' (by simpa using hy)

section Straddling
variable {x y o₁ o₂ o₃ : Char} {r : Text} {b : Byte}

theorem completeEscape_octal (h₁ : isOctal o₁ = true) (h₂ : isOctal o₂ = true)
    (h₃ : isOctal o₃ = true) (hb : fromOctal [o₁, o₂, o₃] = some b) :
    completeEscape (o₁ :: o₂ :: o₃ :: r) = some b := by
  simp [completeEscape, h₁, h₂, h₃, hb]

theorem Reference.decode_second (h₁ : isOctal o₁ = true) (h₂ : isOctal o₂ = true)
    (h₃ : isOctal o₃ = true) (hb : fromOctal [o₁, o₂, o₃] = some b)
    (hx : x = '\\' → completeEscape ('\\' :: o₁ :: o₂ :: o₃ :: r) = none) :
    Reference.decodeTmuxOutput (x :: '\\' :: o₁ :: o₂ :: o₃ :: r) =
      String.utf8EncodeChar x ++ b :: Reference.decodeTmuxOutput r := by
  rw [Reference.decode_plain hx, Reference.decode_escape (completeEscape_octal h₁ h₂ h₃ hb)]
  rfl

end Straddling

/-- What stands behind the three characters is no longer than what stands behind
the backslash. -/
theorem Reference.length_rest_le (x y : Char) (rest : Text) :
    (Reference.decodeTmuxOutput rest).length ≤
      (Reference.decodeTmuxOutput (x :: y :: rest)).length + 1 := by
  have hxpos := length_encodeChar_pos x
  have hypos := length_encodeChar_pos y
  cases straddles x y rest with
  | first o₂ o₃ r b hx hr h₁ h₂ h₃ hb =>
    subst hx hr
    rw [Reference.decode_escape (completeEscape_octal h₁ h₂ h₃ hb), Reference.decode_octal h₂,
      Reference.decode_octal h₃]
    simp only [List.length_cons, List.drop_succ_cons, List.drop_zero]
    omega
  | second o₁ o₂ o₃ r b hy hr hx h₁ h₂ h₃ hb =>
    subst hy hr
    rw [Reference.decode_second h₁ h₂ h₃ hb hx, Reference.decode_octal h₁,
      Reference.decode_octal h₂, Reference.decode_octal h₃]
    simp only [List.length_append, List.length_cons]
    omega
  | neither hx hy =>
    rw [Reference.decode_plain hx, Reference.decode_plain hy]
    simp only [List.length_append]
    omega

/-! ## Both decoders -/

/-- A text is empty, or begins with a character that both decoders take alone,
with a complete escape, or with a broken one. -/
@[elab_as_elim]
theorem text_induction {P : Text → Prop} (nil : P [])
    (plain : ∀ c s, (c = '\\' → s.head?.filter isOctal = none) → P s → P (c :: s))
    (complete : ∀ s b, completeEscape s = some b → P (s.drop 3) → P ('\\' :: s))
    (broken : ∀ d s, isOctal d = true → completeEscape (d :: s) = none →
      (∀ t : Text, t.length ≤ s.length → P t) → P ('\\' :: d :: s)) (s : Text) : P s := by
  induction hn : s.length using Nat.strong_induction_on generalizing s with
  | _ n ih =>
    have hshort : ∀ t : Text, t.length < s.length → P t := fun t ht => ih _ (hn ▸ ht) t rfl
    rcases s with _ | ⟨c, s⟩
    · exact nil
    · by_cases hc : c = '\\' ∧ s.head?.filter isOctal ≠ none
      · obtain ⟨hc, hhead⟩ := hc
        subst hc
        cases he : completeEscape s with
        | some b =>
          refine complete s b he (hshort _ ?_)
          simp only [List.length_drop, List.length_cons]
          omega
        | none =>
          rcases s with _ | ⟨d, s⟩
          · simp at hhead
          · have hd : isOctal d = true := by
              by_contra hd
              simp [Option.filter_some, hd] at hhead
            refine broken d s hd he fun t ht => hshort t ?_
            simp only [List.length_cons]
            omega
      · refine plain c s (by simpa using hc) (hshort s ?_)
        simp

theorem completeEscape_of_head {s : Text} (h : s.head?.filter isOctal = none) :
    completeEscape s = none := by
  cases he : completeEscape s with
  | none => rfl
  | some b =>
    obtain ⟨d₁, d₂, d₃, r, rfl, h₁, -⟩ := completeEscape_eq_some he
    simp [Option.filter_some, h₁] at h

/-- **The server's bytes are never more.** -/
theorem length_server_le (s : Text) :
    (Server.decodeTmuxOutput s).length ≤ (Reference.decodeTmuxOutput s).length := by
  induction s using text_induction with
  | nil => rfl
  | plain c s h ih =>
    rw [Server.decode_plain h, Reference.decode_plain fun hc => completeEscape_of_head (h hc)]
    simp only [List.length_append]
    omega
  | complete s b h ih =>
    rw [Server.decode_escape h, Reference.decode_escape h]
    simp only [List.length_cons]
    omega
  | broken d s hd h ih =>
    have hrest := ih (s.drop 2) (by simp only [List.length_drop]; omega)
    rw [Server.decode_broken hd h, Reference.decode_plain fun _ => h, Reference.decode_octal hd]
    have hs : (Reference.decodeTmuxOutput (s.drop 2)).length ≤
        (Reference.decodeTmuxOutput s).length + 1 := by
      rcases s with _ | ⟨x, _ | ⟨y, rest⟩⟩
      · exact Nat.zero_le _
      · exact Nat.zero_le _
      · exact Reference.length_rest_le x y rest
    have hpos := length_encodeChar_pos '\\'
    simp only [List.length_append, List.length_cons]
    omega

/-! ## When they agree -/

theorem beginsWith_iff {start chars : Text} : beginsWith start chars = true ↔
    ∃ x r, isOctal x = true ∧ chars = start ++ x :: r := by
  constructor
  · intro h
    unfold beginsWith at h
    cases hs : stripPrefix start chars with
    | none => simp [hs] at h
    | some rest =>
      rw [hs] at h
      cases rest with
      | nil => simp at h
      | cons x r => exact ⟨x, r, by simpa using h, stripPrefix_eq_some hs⟩
  · rintro ⟨x, r, hx, rfl⟩
    simp [beginsWith, hx]

section Swallowed
variable {d x y o₁ o₂ o₃ : Char} {r rest : Text}

theorem swallowedAlike_first (h₃ : isOctal o₃ = true) :
    swallowedAlike (d :: '\\' :: y :: o₂ :: o₃ :: r) =
      if d = '6' ∧ y = '0' ∧ o₂ = '6' then some 5 else none := by
  have hfirst : beginsWith ['6', '\\', '0', '6'] (d :: '\\' :: y :: o₂ :: o₃ :: r) = true ↔
      d = '6' ∧ y = '0' ∧ o₂ = '6' := by
    rw [beginsWith_iff]
    constructor
    · rintro ⟨x, r', -, h⟩
      simp only [List.cons_append, List.nil_append, List.cons.injEq] at h
      exact ⟨h.1, h.2.2.1, h.2.2.2.1⟩
    · rintro ⟨rfl, rfl, rfl⟩
      exact ⟨o₃, r, h₃, rfl⟩
  have hsecond : beginsWith ['0', '6', '\\', '0', '6']
      (d :: '\\' :: y :: o₂ :: o₃ :: r) ≠ true := by
    rw [ne_eq, beginsWith_iff]
    rintro ⟨x, r', -, h⟩
    simp at h
  simp only [swallowedAlike, hfirst, if_neg hsecond]

theorem swallowedAlike_second (h₃ : isOctal o₃ = true) :
    swallowedAlike (d :: x :: '\\' :: o₁ :: o₂ :: o₃ :: r) =
      if d = '0' ∧ x = '6' ∧ o₁ = '0' ∧ o₂ = '6' then some 6 else none := by
  have hfirst : beginsWith ['6', '\\', '0', '6']
      (d :: x :: '\\' :: o₁ :: o₂ :: o₃ :: r) ≠ true := by
    rw [ne_eq, beginsWith_iff]
    rintro ⟨x, r', -, h⟩
    simp at h
  have hsecond : beginsWith ['0', '6', '\\', '0', '6']
      (d :: x :: '\\' :: o₁ :: o₂ :: o₃ :: r) = true ↔
      d = '0' ∧ x = '6' ∧ o₁ = '0' ∧ o₂ = '6' := by
    rw [beginsWith_iff]
    constructor
    · rintro ⟨x', r', -, h⟩
      simp only [List.cons_append, List.nil_append, List.cons.injEq] at h
      exact ⟨h.1, h.2.1, h.2.2.2.1, h.2.2.2.2.1⟩
    · rintro ⟨rfl, rfl, rfl, rfl⟩
      exact ⟨o₃, r, h₃, rfl⟩
  simp only [swallowedAlike, if_neg hfirst, hsecond]

theorem swallowedAlike_neither (hx : x = '\\' → completeEscape (y :: rest) = none)
    (hy : y = '\\' → completeEscape rest = none) : swallowedAlike (d :: x :: y :: rest) = none := by
  have h06 (o : Char) (r : Text) (ho : isOctal o = true) :
      completeEscape ('0' :: '6' :: o :: r) ≠ none := by
    have h0 : isOctal '0' = true := by decide
    have h6 : isOctal '6' = true := by decide
    have hv := octalValue_three h0 h6 ho
    have hlt : octalValue ['0', '6', o] < 256 := by
      have ho := isOctal_iff.mp ho
      have h0 : '0'.toNat = 48 := rfl
      have h6 : '6'.toNat = 54 := rfl
      omega
    rw [completeEscape_octal h0 h6 ho (if_pos hlt)]
    exact Option.some_ne_none _
  have hfirst : beginsWith ['6', '\\', '0', '6'] (d :: x :: y :: rest) ≠ true := by
    rw [ne_eq, beginsWith_iff]
    rintro ⟨o, r, ho, h⟩
    simp only [List.cons_append, List.nil_append, List.cons.injEq] at h
    obtain ⟨-, hx', rfl, rfl⟩ := h
    exact h06 o r ho (hx hx')
  have hsecond : beginsWith ['0', '6', '\\', '0', '6'] (d :: x :: y :: rest) ≠ true := by
    rw [ne_eq, beginsWith_iff]
    rintro ⟨o, r, ho, h⟩
    simp only [List.cons_append, List.nil_append, List.cons.injEq] at h
    obtain ⟨-, -, hy', rfl⟩ := h
    exact h06 o r ho (hy hy')
  simp only [swallowedAlike, if_neg hfirst, if_neg hsecond]

theorem swallowedAlike_short {s : Text} (hs : s.length < 2) : swallowedAlike (d :: s) = none := by
  have hnot (start : Text) (hstart : 4 ≤ start.length) : beginsWith start (d :: s) ≠ true := by
    rw [ne_eq, beginsWith_iff]
    rintro ⟨o, r, -, h⟩
    have hlen := congrArg List.length h
    simp only [List.length_cons, List.length_append] at hlen
    omega
  simp only [swallowedAlike, if_neg (hnot ['6', '\\', '0', '6'] (by decide)),
    if_neg (hnot ['0', '6', '\\', '0', '6'] (by decide))]

end Swallowed

theorem octal_inj {c d : Char} (hc : isOctal c = true) (hd : isOctal d = true) :
    UInt8.ofNat c.toNat = UInt8.ofNat d.toNat ↔ c = d := by
  constructor
  · intro h
    rw [← List.singleton_inj, ← encodeChar_octal hc, ← encodeChar_octal hd] at h
    exact encodeChar_injective h
  · rintro rfl
    rfl

/-- A broken escape before one that begins at the second character. -/
theorem agree_first {d y o₂ o₃ : Char} {r : Text} {b : Byte} (hd : isOctal d = true)
    (h₁ : isOctal y = true) (h₂ : isOctal o₂ = true) (h₃ : isOctal o₃ = true)
    (hb : fromOctal [y, o₂, o₃] = some b)
    (ih : Server.decodeTmuxOutput r = Reference.decodeTmuxOutput r ↔ unharmed r = true) :
    Server.decodeTmuxOutput (o₂ :: o₃ :: r) =
      Reference.decodeTmuxOutput (d :: '\\' :: y :: o₂ :: o₃ :: r) ↔
      (swallowedAlike (d :: '\\' :: y :: o₂ :: o₃ :: r)).elim false
        (fun k => unharmed ((d :: '\\' :: y :: o₂ :: o₃ :: r).drop k)) = true := by
  rw [Server.decode_octal h₂, Server.decode_octal h₃, Reference.decode_octal hd,
    Reference.decode_escape (completeEscape_octal h₁ h₂ h₃ hb), swallowedAlike_first h₃]
  simp only [List.cons.injEq, octal_inj h₂ hd, fromOctal_eq_last h₁ h₂ h₃ hb,
    List.drop_succ_cons, List.drop_zero, ih]
  by_cases hs : d = '6' ∧ y = '0' ∧ o₂ = '6'
  · obtain ⟨rfl, rfl, rfl⟩ := hs
    simp
  · rw [if_neg hs]
    simp only [Option.elim_none, Bool.false_eq_true, iff_false, not_and]
    rintro rfl ⟨hy, ho⟩
    exact absurd ⟨ho, hy, ho⟩ hs

/-- A broken escape before one that begins at the third character. -/
theorem agree_second {d x o₁ o₂ o₃ : Char} {r : Text} {b : Byte} (hd : isOctal d = true)
    (h₁ : isOctal o₁ = true) (h₂ : isOctal o₂ = true) (h₃ : isOctal o₃ = true)
    (hb : fromOctal [o₁, o₂, o₃] = some b)
    (hx : x = '\\' → completeEscape ('\\' :: o₁ :: o₂ :: o₃ :: r) = none)
    (ih : Server.decodeTmuxOutput r = Reference.decodeTmuxOutput r ↔ unharmed r = true) :
    Server.decodeTmuxOutput (o₁ :: o₂ :: o₃ :: r) =
      Reference.decodeTmuxOutput (d :: x :: '\\' :: o₁ :: o₂ :: o₃ :: r) ↔
      (swallowedAlike (d :: x :: '\\' :: o₁ :: o₂ :: o₃ :: r)).elim false
        (fun k => unharmed ((d :: x :: '\\' :: o₁ :: o₂ :: o₃ :: r).drop k)) = true := by
  rw [Server.decode_octal h₁, Server.decode_octal h₂, Server.decode_octal h₃,
    Reference.decode_octal hd, Reference.decode_second h₁ h₂ h₃ hb hx, swallowedAlike_second h₃]
  by_cases hs : d = '0' ∧ x = '6' ∧ o₁ = '0' ∧ o₂ = '6'
  · obtain ⟨rfl, rfl, rfl, rfl⟩ := hs
    have h6 : String.utf8EncodeChar '6' = [UInt8.ofNat '6'.toNat] := encodeChar_octal (by decide)
    have hlast := (fromOctal_eq_last h₁ h₂ h₃ hb).mpr ⟨rfl, rfl⟩
    rw [h6, hlast]
    simpa using ih
  · rw [if_neg hs]
    simp only [Option.elim_none, Bool.false_eq_true, iff_false]
    intro h
    obtain ⟨ho, h⟩ := List.cons.inj h
    -- the character between the two escapes can be one byte at most
    have hlen := congrArg List.length h
    have hle := length_server_le r
    have hpos := length_encodeChar_pos x
    simp only [List.length_append, List.length_cons] at hlen
    obtain ⟨w, hw⟩ := List.length_eq_one_iff.mp (show (String.utf8EncodeChar x).length = 1 by omega)
    rw [hw] at h
    obtain ⟨hw', h⟩ := List.cons.inj h
    obtain ⟨hlast, -⟩ := List.cons.inj h
    obtain ⟨ho₁, ho₂⟩ := (fromOctal_eq_last h₁ h₂ h₃ hb).mp hlast
    have hx6 : x = o₂ := by
      apply encodeChar_injective
      rw [hw, encodeChar_octal h₂, hw']
    exact hs ⟨ho₁ ▸ ((octal_inj h₁ hd).mp ho).symm, hx6.trans ho₂, ho₁, ho₂⟩

/-- **The server's decoder swallows nothing exactly in the texts that it does not
harm**: those in which every backslash before an octal digit begins a complete
escape, up to the two coincidences. -/
theorem server_eq_reference_iff (s : Text) :
    Server.decodeTmuxOutput s = Reference.decodeTmuxOutput s ↔ unharmed s = true := by
  induction s using text_induction with
  | nil => exact ⟨fun _ => rfl, fun _ => rfl⟩
  | plain c s h ih =>
    rw [Server.decode_plain h, Reference.decode_plain fun hc => completeEscape_of_head (h hc),
      unharmed_plain h, List.append_cancel_left_eq, ih]
  | complete s b h ih =>
    rw [Server.decode_escape h, Reference.decode_escape h, unharmed_escape h, List.cons.injEq,
      ih]
    exact and_iff_right rfl
  | broken d s hd h ih =>
    have hback : String.utf8EncodeChar '\\' = [backslash] := rfl
    rw [Server.decode_broken hd h, Reference.decode_plain fun _ => h, unharmed_broken hd h, hback,
      List.singleton_append, List.cons.injEq, and_iff_right rfl]
    -- bytes that are lost are missed at the end
    have hlost (hlt : (Server.decodeTmuxOutput (s.drop 2)).length <
        (Reference.decodeTmuxOutput (d :: s)).length) (hs : swallowedAlike (d :: s) = none) :
        Server.decodeTmuxOutput (s.drop 2) = Reference.decodeTmuxOutput (d :: s) ↔
          (swallowedAlike (d :: s)).elim false
            (fun k => unharmed ((d :: s).drop k)) = true := by
      rw [hs]
      simp only [Option.elim_none, Bool.false_eq_true, iff_false]
      intro he
      rw [he] at hlt
      exact lt_irrefl _ hlt
    rw [Reference.decode_octal hd, List.length_cons] at hlost
    rcases s with _ | ⟨x, _ | ⟨y, rest⟩⟩
    · rw [Reference.decode_octal hd]
      exact hlost (Nat.succ_pos _) (swallowedAlike_short (by decide))
    · rw [Reference.decode_octal hd]
      exact hlost (Nat.succ_pos _) (swallowedAlike_short (by simp))
    · cases straddles x y rest with
      | first o₂ o₃ r b hx hr h₁ h₂ h₃ hb =>
        subst hx hr
        exact agree_first hd h₁ h₂ h₃ hb (ih r (by simp only [List.length_cons]; omega))
      | second o₁ o₂ o₃ r b hy hr hx h₁ h₂ h₃ hb =>
        subst hy hr
        exact agree_second hd h₁ h₂ h₃ hb hx (ih r (by simp only [List.length_cons]; omega))
      | neither hx hy =>
        have hle := length_server_le rest
        have hxpos := length_encodeChar_pos x
        rw [Reference.decode_octal hd]
        refine hlost ?_ (swallowedAlike_neither hx hy)
        rw [Reference.decode_plain hx, Reference.decode_plain hy]
        simp only [List.drop_succ_cons, List.drop_zero, List.length_append]
        omega

/-- Three characters behind a backslash and a digit are gone. -/
theorem server_swallows :
    Server.decodeTmuxOutput "\\1ab".toList ≠ Reference.decodeTmuxOutput "\\1ab".toList := by
  decide

end Oxmux.Tmux
