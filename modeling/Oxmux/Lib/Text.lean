import Mathlib.Algebra.Group.Nat.Defs
import Mathlib.Data.List.DropRight

/-! Text as the standard library of the modelled programs handles it: a text
is the list of its Unicode scalar values, and the operations below are the
string methods (prefix stripping, splitting at a separator, trimming, decimal
parsing) that the sources call. Nothing here is specific to one program. -/

namespace Oxmux.Lib

abbrev Text := List Char
abbrev Byte := UInt8
abbrev Bytes := List Byte

instance : LawfulBEq Text := inferInstance

/-- `str::strip_prefix`, the prefix first. -/
def stripPrefix : Text → Text → Option Text
  | [], s => some s
  | _ :: _, [] => none
  | p :: ps, c :: cs => if p = c then stripPrefix ps cs else none

/-- `str::starts_with`, the prefix first. -/
def startsWith (p s : Text) : Bool := (stripPrefix p s).isSome

/-- `str::split_once` at one character. -/
def splitOnce (d : Char) : Text → Option (Text × Text)
  | [] => none
  | c :: cs => if c = d then some ([], cs) else (splitOnce d cs).map fun p => (c :: p.1, p.2)

/-- `str::splitn` at one character: at most `n` pieces, the last one whole. -/
def splitn (d : Char) : Nat → Text → List Text
  | 0, _ => []
  | 1, s => [s]
  | n + 2, s =>
    match splitOnce d s with
    | none => [s]
    | some (a, b) => a :: splitn d (n + 1) b

/-- `str::trim_end_matches` of one character. -/
def trimEndMatches (d : Char) (s : Text) : Text := s.rdropWhile (· == d)

/-- The characters with the Unicode property `White_Space`. -/
def isWhitespace (c : Char) : Bool :=
  let n := c.toNat
  (0x09 ≤ n && n ≤ 0x0D) || n = 0x20 || n = 0x85 || n = 0xA0 || n = 0x1680 ||
    (0x2000 ≤ n && n ≤ 0x200A) || n = 0x2028 || n = 0x2029 || n = 0x202F || n = 0x205F ||
    n = 0x3000

/-- `str::trim`. -/
def trim (s : Text) : Text := (s.dropWhile isWhitespace).rdropWhile isWhitespace

/-- `str::parse` into an unsigned integer of `bits` bits: an optional plus
sign, then one or more decimal digits whose value fits. -/
def parseUInt (bits : Nat) (s : Text) : Option Nat :=
  let digits := match s with
    | '+' :: r => r
    | r => r
  if digits ≠ [] ∧ digits.all Char.isDigit ∧ Nat.ofDigitChars 10 digits 0 < 2 ^ bits then
    some (Nat.ofDigitChars 10 digits 0)
  else none

/-- `to_string` of an unsigned integer. -/
def showNat (n : Nat) : Text := Nat.toDigits 10 n

/-! ## Prefixes -/

@[simp] theorem stripPrefix_append (p s : Text) : stripPrefix p (p ++ s) = some s := by
  induction p with
  | nil => cases s <;> rfl
  | cons c p ih => simp [stripPrefix, ih]

@[simp] theorem stripPrefix_self (p : Text) : stripPrefix p p = some [] := by
  simpa using stripPrefix_append p []

theorem stripPrefix_eq_some {p s r : Text} (h : stripPrefix p s = some r) : s = p ++ r := by
  induction p generalizing s with
  | nil => simpa [stripPrefix] using h
  | cons c p ih =>
    cases s with
    | nil => cases h
    | cons d s =>
      simp only [stripPrefix] at h
      split at h
      · next e => rw [e, ih h]; rfl
      · cases h

theorem stripPrefix_ne {c d : Char} (h : c ≠ d) (a p s : Text) :
    stripPrefix (a ++ c :: p) (a ++ d :: s) = none := by
  induction a with
  | nil => simp [stripPrefix, h]
  | cons b a ih => simpa [stripPrefix] using ih

theorem startsWith_append (p s : Text) : startsWith p (p ++ s) = true := by
  simp [startsWith]

/-! ## Splitting -/

theorem splitOnce_append {d : Char} {a : Text} (b : Text) (h : d ∉ a) :
    splitOnce d (a ++ d :: b) = some (a, b) := by
  induction a with
  | nil => simp [splitOnce]
  | cons c a ih =>
    simp only [List.mem_cons, not_or] at h
    simp [splitOnce, Ne.symm h.1, ih h.2]

theorem splitOnce_eq_none {d : Char} {s : Text} (h : d ∉ s) : splitOnce d s = none := by
  induction s with
  | nil => rfl
  | cons c s ih =>
    simp only [List.mem_cons, not_or] at h
    simp [splitOnce, Ne.symm h.1, ih h.2]

theorem splitn_two {d : Char} {a : Text} (b : Text) (h : d ∉ a) :
    splitn d 2 (a ++ d :: b) = [a, b] := by
  simp [splitn, splitOnce_append b h]

/-- Three pieces around the first two separators. -/
theorem splitn_three {d : Char} {a b : Text} (c : Text) (ha : d ∉ a) (hb : d ∉ b) :
    splitn d 3 (a ++ d :: (b ++ d :: c)) = [a, b, c] := by
  simp [splitn, splitOnce_append _ ha, splitOnce_append _ hb]

/-! ## Trimming -/

theorem trimEndMatches_eq_self {d : Char} {s : Text} (h : s.getLast? ≠ some d) :
    trimEndMatches d s = s := by
  unfold trimEndMatches
  rw [List.rdropWhile_eq_self_iff]
  intro hs hd
  rw [List.getLast?_eq_some_getLast hs] at h
  exact h (congrArg some (by simpa using hd))

theorem trim_eq_self {s : Text} (h : ∀ c ∈ s, isWhitespace c = false) : trim s = s := by
  have hd : s.dropWhile isWhitespace = s := by
    rw [List.dropWhile_eq_self_iff]
    intro hs
    simp [h _ (List.getElem_mem hs)]
  rw [trim, hd, List.rdropWhile_eq_self_iff]
  intro hs
  simp [h _ (List.getLast_mem hs)]

/-! ## Decimal numbers -/

theorem showNat_ne_nil (n : Nat) : showNat n ≠ [] := Nat.toDigits_ne_nil

theorem showNat_isDigit {n : Nat} {c : Char} (h : c ∈ showNat n) : c.isDigit = true :=
  Nat.isDigit_of_mem_toDigits (by decide) (by decide) h

/-- A character that is no digit is not in a decimal numeral. -/
theorem not_mem_showNat {c : Char} (n : Nat) (hc : c.isDigit = false) : c ∉ showNat n := by
  intro h
  rw [showNat_isDigit h] at hc
  cases hc

/-- **Parsing undoes printing** for a number that fits. -/
theorem parseUInt_showNat {bits n : Nat} (h : n < 2 ^ bits) :
    parseUInt bits (showNat n) = some n := by
  have hplus : '+' ∉ showNat n := not_mem_showNat n (by decide)
  have hval : Nat.ofDigitChars 10 (showNat n) 0 = n :=
    Nat.ofDigitChars_toDigits (by decide) (by decide)
  have hall : (showNat n).all Char.isDigit = true :=
    List.all_eq_true.mpr fun c hc => showNat_isDigit hc
  unfold parseUInt
  split
  · next r e => rw [e] at hplus; simp at hplus
  · next r _ => simp [showNat_ne_nil, hall, hval, h]

end Oxmux.Lib
