import Oxmux.Lib.Split

/-! Bytes as two hexadecimal digits, and lists of them behind spaces. Nothing
here is specific to one program. -/

namespace Oxmux.Lib

/-- `{:02x}` of a byte. -/
def showHex (b : Byte) : Text := [Nat.digitChar (b.toNat / 16), Nat.digitChar (b.toNat % 16)]

def hexValue (c : Char) : Option Nat :=
  if c.isDigit then some (c.toNat - '0'.toNat)
  else if 'a' ≤ c ∧ c ≤ 'f' then some (c.toNat - 'a'.toNat + 10)
  else none

/-- A byte of exactly two digits. -/
def readHex : Text → Option Byte
  | [h, l] => (hexValue h).bind fun x => (hexValue l).map fun y => UInt8.ofNat (16 * x + y)
  | _ => none

theorem hexValue_digitChar {n : Nat} (h : n < 16) : hexValue (Nat.digitChar n) = some n := by
  revert n
  decide

/-- **Reading undoes printing.** -/
theorem readHex_showHex (b : Byte) : readHex (showHex b) = some b := by
  have hb := b.toNat_lt
  have hhigh : b.toNat / 16 < 16 := by omega
  have hlow : b.toNat % 16 < 16 := by omega
  have hval : 16 * (b.toNat / 16) + b.toNat % 16 = b.toNat := by omega
  simp only [readHex, showHex, hexValue_digitChar hhigh, hexValue_digitChar hlow,
    Option.bind_some, Option.map_some, hval, UInt8.ofNat_toNat]

def hexDigits : Text := "0123456789abcdef".toList

theorem digitChar_mem {n : Nat} (h : n < 16) : Nat.digitChar n ∈ hexDigits := by
  revert n
  decide

/-- Both characters of a printed byte are digits. -/
theorem mem_hexDigits {b : Byte} {c : Char} (h : c ∈ showHex b) : c ∈ hexDigits := by
  have hb := b.toNat_lt
  simp only [showHex, List.mem_cons, List.not_mem_nil, or_false] at h
  rcases h with rfl | rfl
  · exact digitChar_mem (by omega)
  · exact digitChar_mem (by omega)

theorem not_mem_showHex {c : Char} (h : c ∉ hexDigits) (b : Byte) : c ∉ showHex b :=
  fun hc => h (mem_hexDigits hc)

/-! ## Arguments -/

def hexArgs (data : Bytes) : Text := data.flatMap fun b => ' ' :: showHex b

@[simp] theorem hexArgs_nil : hexArgs [] = [] := rfl

@[simp] theorem hexArgs_cons (b : Byte) (data : Bytes) :
    hexArgs (b :: data) = ' ' :: showHex b ++ hexArgs data := rfl

theorem not_mem_hexArgs {c : Char} (h : c ∉ hexDigits) (hc : c ≠ ' ') (data : Bytes) :
    c ∉ hexArgs data := by
  induction data with
  | nil => simp
  | cons b data ih => simp [hc, not_mem_showHex h b, ih]

/-- Spaces behind the bytes in place of before them. -/
theorem space_cons_flatMap (data : Bytes) :
    ' ' :: data.flatMap (fun b => showHex b ++ [' ']) = hexArgs data ++ [' '] := by
  induction data with
  | nil => rfl
  | cons b data ih =>
    rw [hexArgs_cons, List.flatMap_cons, List.append_assoc, List.append_assoc, ← ih]
    rfl

/-- Behind a first text, every byte is a piece of its own. -/
theorem splitStr_hexArgs {a : Text} (ha : ' ' ∉ a) (data : Bytes) :
    splitStr [' '] (a ++ hexArgs data) = a :: data.map showHex := by
  induction data generalizing a with
  | nil =>
    rw [hexArgs_nil, List.append_nil]
    apply splitStr_single
    intro x y hxy hy
    simpa using startsWith_of_not_mem [] ha hxy hy []
  | cons b data ih =>
    have hb : ' ' ∉ showHex b := not_mem_showHex (by decide) b
    have hrest := splitStr_append_of_not_mem [] ha (showHex b ++ hexArgs data)
    rw [List.singleton_append] at hrest
    rw [hexArgs_cons, List.cons_append, hrest, ih hb, List.map_cons]

theorem mapM_readHex (data : Bytes) : (data.map showHex).mapM readHex = some data := by
  induction data with
  | nil => rfl
  | cons b data ih => simp [readHex_showHex, ih]

end Oxmux.Lib
