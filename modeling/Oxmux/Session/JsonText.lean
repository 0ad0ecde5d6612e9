import Oxmux.Lib.Hex
import Oxmux.Session.Types

/-! JSON values as compact text, without blanks: the form in which they are
stored, and its reader. -/

namespace Oxmux.Session.Json
open Oxmux.Lib

/-! ## Writing -/

/-- The letter of a two-character escape. -/
def escapeLetter (c : Char) : Option Char :=
  if c = '"' then some '"'
  else if c = '\\' then some '\\'
  else if c.toNat = 8 then some 'b'
  else if c.toNat = 9 then some 't'
  else if c.toNat = 10 then some 'n'
  else if c.toNat = 12 then some 'f'
  else if c.toNat = 13 then some 'r'
  else none

def escapeChar (c : Char) : Text :=
  match escapeLetter c with
  | some letter => ['\\', letter]
  | none =>
    if c.toNat < 32 then "\\u00".toList ++ showHex (.ofNat c.toNat) else [c]

def showStr (s : Text) : Text := '"' :: s.flatMap escapeChar ++ ['"']

def showInt : Int → Text
  | .ofNat n => showNat n
  | .negSucc n => '-' :: showNat (n + 1)

mutual

def toText : Json → Text
  | null => "null".toList
  | bool true => "true".toList
  | bool false => "false".toList
  | num n => showInt n
  | str s => showStr s
  | arr [] => "[]".toList
  | arr (item :: items) => '[' :: toText item ++ itemsText items
  | obj [] => "{}".toList
  | obj ((key, value) :: fields) => '{' :: showStr key ++ ':' :: toText value ++ fieldsText fields

/-- The items behind the first one. -/
def itemsText : List Json → Text
  | [] => [']']
  | item :: items => ',' :: toText item ++ itemsText items

def fieldsText : List (Text × Json) → Text
  | [] => ['}']
  | (key, value) :: fields => ',' :: showStr key ++ ':' :: toText value ++ fieldsText fields

end

/-! ## Reading -/

/-- The character that an escape letter stands for. -/
def unescape (letter : Char) : Option Char :=
  if letter = '"' then some '"'
  else if letter = '\\' then some '\\'
  else if letter = '/' then some '/'
  else if letter = 'b' then some (.ofNat 8)
  else if letter = 't' then some '\t'
  else if letter = 'n' then some '\n'
  else if letter = 'f' then some (.ofNat 12)
  else if letter = 'r' then some '\r'
  else none

/-- A string behind its opening quote, and what comes behind it. -/
def readStr : Text → Option (Text × Text)
  | [] => none
  | '"' :: rest => some ([], rest)
  | '\\' :: 'u' :: '0' :: '0' :: high :: low :: rest =>
    match readHex [high, low], readStr rest with
    | some b, some (s, rest) => some (Char.ofNat b.toNat :: s, rest)
    | _, _ => none
  | '\\' :: letter :: rest =>
    match unescape letter, readStr rest with
    | some c, some (s, rest) => some (c :: s, rest)
    | _, _ => none
  | c :: rest =>
    if c.toNat < 32 then none else (readStr rest).map fun (s, rest) => (c :: s, rest)

def readNat (s : Text) : Option (Nat × Text) :=
  let digits := s.takeWhile Char.isDigit
  if digits = [] then none else some (Nat.ofDigitChars 10 digits 0, s.drop digits.length)

def readKey : Text → Option (Text × Text)
  | '"' :: rest =>
    match readStr rest with
    | some (key, ':' :: rest) => some (key, rest)
    | _ => none
  | _ => none

mutual

def readValue : Nat → Text → Option (Json × Text)
  | 0, _ => none
  | n + 1, c :: rest =>
    if c.isDigit then (readNat (c :: rest)).map fun (n, rest) => (num n, rest)
    else if c = '-' then (readNat rest).map fun (n, rest) => (num (-n), rest)
    else if c = '"' then (readStr rest).map fun (s, rest) => (str s, rest)
    else if c = '[' then
      if rest.head? = some ']' then some (arr [], rest.tail)
      else (readValue n rest).bind fun (item, rest) =>
        (readItems n rest).map fun (items, rest) => (arr (item :: items), rest)
    else if c = '{' then
      if rest.head? = some '}' then some (obj [], rest.tail)
      else (readKey rest).bind fun (key, rest) => (readValue n rest).bind fun (value, rest) =>
        (readFields n rest).map fun (fields, rest) => (obj ((key, value) :: fields), rest)
    else if c = 'n' then (stripPrefix "ull".toList rest).map fun rest => (null, rest)
    else if c = 't' then (stripPrefix "rue".toList rest).map fun rest => (bool true, rest)
    else if c = 'f' then (stripPrefix "alse".toList rest).map fun rest => (bool false, rest)
    else none
  | _ + 1, [] => none

def readItems : Nat → Text → Option (List Json × Text)
  | 0, _ => none
  | n + 1, c :: rest =>
    if c = ']' then some ([], rest)
    else if c = ',' then
      (readValue n rest).bind fun (item, rest) =>
        (readItems n rest).map fun (items, rest) => (item :: items, rest)
    else none
  | _ + 1, [] => none

def readFields : Nat → Text → Option (List (Text × Json) × Text)
  | 0, _ => none
  | n + 1, c :: rest =>
    if c = '}' then some ([], rest)
    else if c = ',' then
      (readKey rest).bind fun (key, rest) => (readValue n rest).bind fun (value, rest) =>
        (readFields n rest).map fun (fields, rest) => ((key, value) :: fields, rest)
    else none
  | _ + 1, [] => none

end

def ofText (s : Text) : Option Json :=
  match readValue s.length s with
  | some (j, []) => some j
  | _ => none

/-! ## Strings -/

theorem unescape_of_letter {c letter : Char} (h : escapeLetter c = some letter) :
    unescape letter = some c ∧ letter ≠ 'u' := by
  unfold escapeLetter at h
  split_ifs at h with h₁ h₂ h₃ h₄ h₅ h₆ h₇ <;> cases h
  · subst h₁
    exact ⟨rfl, by decide⟩
  · subst h₂
    exact ⟨rfl, by decide⟩
  · rw [← Char.ofNat_toNat c, h₃]
    exact ⟨rfl, by decide⟩
  · rw [← Char.ofNat_toNat c, h₄]
    exact ⟨rfl, by decide⟩
  · rw [← Char.ofNat_toNat c, h₅]
    exact ⟨rfl, by decide⟩
  · rw [← Char.ofNat_toNat c, h₆]
    exact ⟨rfl, by decide⟩
  · rw [← Char.ofNat_toNat c, h₇]
    exact ⟨rfl, by decide⟩

theorem readStr_letter {letter c : Char} (hc : unescape letter = some c) (hu : letter ≠ 'u')
    (rest : Text) :
    readStr ('\\' :: letter :: rest) = (readStr rest).map fun (s, rest) => (c :: s, rest) := by
  rw [readStr.eq_4, hc]
  · cases readStr rest <;> rfl
  · exact fun _ _ _ h _ => hu h

theorem readStr_hex (b : Byte) (rest : Text) :
    readStr ("\\u00".toList ++ showHex b ++ rest) =
      (readStr rest).map fun (s, rest) => (Char.ofNat b.toNat :: s, rest) := by
  change readStr ('\\' :: 'u' :: '0' :: '0' :: _ :: _ :: rest) = _
  rw [readStr]
  have h := readHex_showHex b
  unfold showHex at h
  rw [h]
  cases readStr rest <;> rfl

theorem readStr_plain {c : Char} (hl : escapeLetter c = none) (hc : ¬ c.toNat < 32) (rest : Text) :
    readStr (c :: rest) = (readStr rest).map fun (s, rest) => (c :: s, rest) := by
  have hquote : c ≠ '"' := fun h => by simp [escapeLetter, h] at hl
  have hslash : c ≠ '\\' := fun h => by simp [escapeLetter, h] at hl
  rw [readStr.eq_5, if_neg hc]
  · exact hquote
  · exact fun _ _ _ h _ => hslash h
  · exact fun _ _ h _ => hslash h

theorem readStr_escapeChar (c : Char) (rest : Text) :
    readStr (escapeChar c ++ rest) = (readStr rest).map fun (s, rest) => (c :: s, rest) := by
  unfold escapeChar
  cases hl : escapeLetter c with
  | some letter => exact readStr_letter (unescape_of_letter hl).1 (unescape_of_letter hl).2 rest
  | none =>
    by_cases hc : c.toNat < 32
    · have hbyte : Char.ofNat (UInt8.ofNat c.toNat).toNat = c := by
        rw [UInt8.toNat_ofNat', Nat.mod_eq_of_lt (by omega), Char.ofNat_toNat]
      simp only [if_pos hc, readStr_hex, hbyte]
    · simp only [if_neg hc]
      exact readStr_plain hl hc rest

theorem readStr_showStr (s rest : Text) :
    readStr (s.flatMap escapeChar ++ '"' :: rest) = some (s, rest) := by
  induction s with
  | nil => rw [List.flatMap_nil, List.nil_append, readStr]
  | cons c s ih =>
    rw [List.flatMap_cons, List.append_assoc, readStr_escapeChar, ih]
    rfl

theorem readKey_showStr (key rest : Text) :
    readKey (showStr key ++ ':' :: rest) = some (key, rest) := by
  have h : showStr key ++ ':' :: rest = '"' :: (key.flatMap escapeChar ++ '"' :: ':' :: rest) := by
    simp [showStr]
  rw [h]
  simp only [readKey, readStr_showStr]

/-! ## Numbers -/

/-- What comes behind a number starts with no digit. -/
def NoDigit (rest : Text) : Prop := ∀ c ∈ rest.head?, c.isDigit = false

theorem readNat_showNat (n : Nat) {rest : Text} (h : NoDigit rest) :
    readNat (showNat n ++ rest) = some (n, rest) := by
  have htake : (showNat n ++ rest).takeWhile Char.isDigit = showNat n := by
    rw [List.takeWhile_append_of_pos fun c hc => showNat_isDigit hc]
    cases rest with
    | nil => simp
    | cons c rest => rw [List.takeWhile_cons_of_neg (by simp [h c rfl]), List.append_nil]
  have hval : Nat.ofDigitChars 10 (showNat n) 0 = n :=
    Nat.ofDigitChars_toDigits (by decide) (by decide)
  simp only [readNat, htake, if_neg (showNat_ne_nil n), hval, List.drop_left]

theorem readValue_showInt (i : Int) (n : Nat) {rest : Text} (h : NoDigit rest) :
    readValue (n + 1) (showInt i ++ rest) = some (num i, rest) := by
  cases i with
  | ofNat m =>
    have hread := readNat_showNat m h
    cases hs : showNat m with
    | nil => exact absurd hs (showNat_ne_nil m)
    | cons c digits =>
      rw [hs, List.cons_append] at hread
      have hc : c.isDigit := showNat_isDigit (hs ▸ List.mem_cons_self)
      simp only [showInt, hs, List.cons_append, readValue, if_pos hc, hread]
      rfl
  | negSucc m =>
    have hc : ¬ '-'.isDigit := by decide
    simp only [showInt, List.cons_append, readValue, if_neg hc, if_true, readNat_showNat (m + 1) h]
    rfl

/-! ## Values -/

theorem noDigit_itemsText (items : List Json) (rest : Text) :
    NoDigit (itemsText items ++ rest) := by
  cases items <;> rintro c ⟨⟩ <;> rfl

theorem noDigit_fieldsText (fields : List (Text × Json)) (rest : Text) :
    NoDigit (fieldsText fields ++ rest) := by
  cases fields <;> rintro c ⟨⟩ <;> rfl

theorem readValue_showStr (s : Text) (n : Nat) (rest : Text) :
    readValue (n + 1) (showStr s ++ rest) = some (str s, rest) := by
  have h : showStr s ++ rest = '"' :: (s.flatMap escapeChar ++ '"' :: rest) := by
    simp [showStr]
  have hquote : ¬ '"'.isDigit := by decide
  have hminus : '"' ≠ '-' := by decide
  rw [h]
  simp only [readValue, if_neg hquote, if_neg hminus, if_true, readStr_showStr]
  rfl

theorem readValue_bracket (n : Nat) {rest : Text} (h : rest.head? ≠ some ']') :
    readValue (n + 1) ('[' :: rest) = (readValue n rest).bind fun (item, rest) =>
      (readItems n rest).map fun (items, rest) => (arr (item :: items), rest) := by
  rw [readValue, if_neg (by decide), if_neg (by decide), if_neg (by decide), if_pos rfl, if_neg h]

theorem readValue_brace (n : Nat) {rest : Text} (h : rest.head? ≠ some '}') :
    readValue (n + 1) ('{' :: rest) = (readKey rest).bind fun (key, rest) =>
      (readValue n rest).bind fun (value, rest) =>
        (readFields n rest).map fun (fields, rest) => (obj ((key, value) :: fields), rest) := by
  rw [readValue, if_neg (by decide), if_neg (by decide), if_neg (by decide), if_neg (by decide),
    if_pos rfl, if_neg h]

/-- A value starts with no closing bracket. -/
theorem head_toText (j : Json) (rest : Text) :
    (toText j ++ rest).head? ≠ some ']' ∧ toText j ≠ [] := by
  cases j with
  | null => simp [toText]
  | bool b => cases b <;> simp [toText]
  | num i =>
    cases i with
    | ofNat n =>
      cases hs : showNat n with
      | nil => exact absurd hs (showNat_ne_nil n)
      | cons c digits =>
        have hc : c.isDigit := showNat_isDigit (hs ▸ List.mem_cons_self)
        have hne : c ≠ ']' := fun h => by rw [h] at hc; exact absurd hc (by decide)
        simp [toText, showInt, hs, hne]
    | negSucc n => simp [toText, showInt]
  | str s => simp [toText, showStr]
  | arr items => cases items <;> simp [toText]
  | obj fields => cases fields <;> simp [toText]

mutual

/-- **Reading undoes writing.** -/
theorem readValue_toText (j : Json) (n : Nat) (rest : Text) (hn : (toText j).length ≤ n)
    (hrest : NoDigit rest) : readValue n (toText j ++ rest) = some (j, rest) := by
  obtain _ | n := n
  · exact absurd (List.eq_nil_of_length_eq_zero (Nat.le_zero.mp hn)) (head_toText j []).2
  · cases j with
    | null => rfl
    | bool b => cases b <;> rfl
    | num i => exact readValue_showInt i n hrest
    | str s => exact readValue_showStr s n rest
    | arr items =>
      cases items with
      | nil => rfl
      | cons item items =>
        simp only [toText, List.length_cons, List.length_append] at hn
        have hitem := readValue_toText item n (itemsText items ++ rest) (by omega)
          (noDigit_itemsText items rest)
        have hitems := readItems_itemsText items n rest (by omega)
        rw [toText, List.cons_append, List.cons_append, List.append_assoc,
          readValue_bracket n (head_toText item _).1]
        simp only [hitem, hitems, Option.bind_some, Option.map_some]
    | obj fields =>
      cases fields with
      | nil => rfl
      | cons field fields =>
        obtain ⟨key, value⟩ := field
        simp only [toText, List.length_cons, List.length_append] at hn
        have hvalue := readValue_toText value n (fieldsText fields ++ rest) (by omega)
          (noDigit_fieldsText fields rest)
        have hfields := readFields_fieldsText fields n rest (by omega)
        have hsplit : toText (obj ((key, value) :: fields)) ++ rest =
            '{' :: (showStr key ++ ':' :: (toText value ++ (fieldsText fields ++ rest))) := by
          simp [toText]
        rw [hsplit, readValue_brace n (by simp [showStr])]
        simp only [readKey_showStr, hvalue, hfields, Option.bind_some, Option.map_some]

theorem readItems_itemsText (items : List Json) (n : Nat) (rest : Text)
    (hn : (itemsText items).length ≤ n) :
    readItems n (itemsText items ++ rest) = some (items, rest) := by
  obtain _ | n := n
  · cases items <;> simp [itemsText] at hn
  · cases items with
    | nil => rfl
    | cons item items =>
      simp only [itemsText, List.length_cons, List.length_append] at hn
      have hitem := readValue_toText item n (itemsText items ++ rest) (by omega)
        (noDigit_itemsText items rest)
      have hitems := readItems_itemsText items n rest (by omega)
      rw [itemsText, List.cons_append, List.cons_append, List.append_assoc, readItems,
        if_neg (by decide), if_pos rfl]
      simp only [hitem, hitems, Option.bind_some, Option.map_some]

theorem readFields_fieldsText (fields : List (Text × Json)) (n : Nat) (rest : Text)
    (hn : (fieldsText fields).length ≤ n) :
    readFields n (fieldsText fields ++ rest) = some (fields, rest) := by
  obtain _ | n := n
  · cases fields <;> simp [fieldsText] at hn
  · cases fields with
    | nil => rfl
    | cons field fields =>
      obtain ⟨key, value⟩ := field
      simp only [fieldsText, List.length_cons, List.length_append] at hn
      have hvalue := readValue_toText value n (fieldsText fields ++ rest) (by omega)
        (noDigit_fieldsText fields rest)
      have hfields := readFields_fieldsText fields n rest (by omega)
      have hsplit : fieldsText ((key, value) :: fields) ++ rest =
          ',' :: (showStr key ++ ':' :: (toText value ++ (fieldsText fields ++ rest))) := by
        simp [fieldsText]
      rw [hsplit, readFields, if_neg (by decide), if_pos rfl]
      simp only [readKey_showStr, hvalue, hfields, Option.bind_some, Option.map_some]

end

theorem ofText_toText (j : Json) : ofText (toText j) = some j := by
  have h := readValue_toText j (toText j).length [] (le_refl _) (by rintro c ⟨⟩)
  rw [List.append_nil] at h
  rw [ofText, h]

end Oxmux.Session.Json
