import Mathlib.Data.List.Infix
import Oxmux.Lib.Checked
import Oxmux.Lib.Slices
import Oxmux.Tmux.Layout

/-! The layout parser with its slices, indices and calls as the source takes
them: a slice by bytes panics where no character begins, and every call and every
turn of the loop costs fuel. It is the parser of trees, which has neither. -/

namespace Oxmux.Tmux.Sliced
open Oxmux.Lib Checked

/-! ## The parser -/

/-- The loop of `split_header` over the characters in front of the bracket. -/
def headerEndLoop (commaCount headerEnd : Nat) : List (Nat × Char) → Nat
  | [] => headerEnd
  | (i, c) :: cs =>
    if c = ',' then
      if commaCount + 1 = 3 then i else headerEndLoop (commaCount + 1) headerEnd cs
    else headerEndLoop commaCount headerEnd cs

def splitHeader (s : Text) : Checked LayoutError (Text × Text) := do
  let bracket := (Slices.find isBracket s).getD (Slices.len s)
  let front ← orPanic (Slices.sliceTo bracket s)
  let headerEnd := headerEndLoop 0 bracket (Slices.charIndices 0 front)
  let header ← orPanic (Slices.sliceTo headerEnd s)
  let rest ← orPanic (Slices.sliceFrom headerEnd s)
  return (header, rest)

def parseDimensions (s : Text) : Checked LayoutError (UInt16 × UInt16 × UInt16 × UInt16) := do
  let parts := s.splitOn ','
  if parts.length < 3 then
    throw (.parts s)
  let size ← orPanic parts[0]?
  match splitOnce 'x' size with
  | none => throw (.size size)
  | some (colsS, rowsS) =>
    let cols ← returns (parseU16 colsS)
    let rows ← returns (parseU16 rowsS)
    let x ← returns (parseU16 (← orPanic parts[1]?))
    let y ← returns (parseU16 (← orPanic parts[2]?))
    return (cols, rows, x, y)

def parsePaneId (s : Text) : Checked LayoutError (UInt32 × Text) := do
  let s := skipComma s
  let digitsEnd := (Slices.find (fun c => !c.isDigit) s).getD (Slices.len s)
  if digitsEnd = 0 then
    return (0, s)
  let digits ← orPanic (Slices.sliceTo digitsEnd s)
  match parseUInt 32 digits with
  | none => throw (.int digits)
  | some id => return (.ofNat id, ← orPanic (Slices.sliceFrom digitsEnd s))

/-- The text behind a comma in front, in `parse_children`. -/
def passComma (rem : Text) : Checked LayoutError Text :=
  if startsWith [','] rem then orPanic (Slices.sliceFrom 1 rem) else return rem

mutual

def parseNode : Nat → Text → Checked LayoutError (PaneLayout × Text)
  | 0, _ => outOfFuel
  | fuel + 1, s => do
    let (header, rest) ← splitHeader s
    let (cols, rows, x, y) ← parseDimensions header
    match rest.head? with
    | some '[' =>
      let (children, rest) ← parseChildren fuel ']' [] (← orPanic (Slices.sliceFrom 1 rest))
      return (⟨cols, rows, x, y, .vSplit children⟩, rest)
    | some '{' =>
      let (children, rest) ← parseChildren fuel '}' [] (← orPanic (Slices.sliceFrom 1 rest))
      return (⟨cols, rows, x, y, .hSplit children⟩, rest)
    | _ =>
      let (paneId, rest) ← parsePaneId rest
      return (⟨cols, rows, x, y, .pane paneId⟩, rest)

/-- The loop of `parse_children`, with the children so far. -/
def parseChildren :
    Nat → Char → List PaneLayout → Text → Checked LayoutError (List PaneLayout × Text)
  | 0, _, _, _ => outOfFuel
  | fuel + 1, close, children, rem => do
    if startsWith [close] rem then
      return (children, ← orPanic (Slices.sliceFrom 1 rem))
    let rem ← passComma rem
    let (child, rest) ← parseNode fuel rem
    parseChildren fuel close (children ++ [child]) rest

end

def parseLayout (fuel : Nat) (s : Text) : Checked LayoutError PaneLayout := do
  let (layout, _) ← parseNode fuel (skipChecksum (trim s))
  return layout

/-! ## The slices exist -/

theorem headerEndLoop_charIndices {n : Nat} (hn : n ≤ 2) (e i : Nat) (s : Text) :
    headerEndLoop (2 - n) e (Slices.charIndices i s) =
      ((nthComma n s).map fun m => i + Slices.len (s.take m)).getD e := by
  induction s generalizing n i with
  | nil => rfl
  | cons c s ih =>
    have hmap (o : Option Nat) :
        ((o.map (· + 1)).map fun m => i + Slices.len ((c :: s).take m)) =
          o.map fun m => i + c.utf8Size + Slices.len (s.take m) := by
      cases o <;> simp [Nat.add_assoc]
    by_cases hc : c = ','
    · cases n with
      | zero => simp [Slices.charIndices, headerEndLoop, nthComma, hc]
      | succ n =>
        have hk : 2 - (n + 1) + 1 = 2 - n := by omega
        have hlt : 2 - n ≠ 3 := by omega
        rw [Slices.charIndices, headerEndLoop, if_pos hc, hk, if_neg hlt, ih (by omega)]
        simp only [nthComma, if_pos hc]
        rw [hmap]
    · rw [Slices.charIndices, headerEndLoop, if_neg hc, ih hn]
      simp only [nthComma, if_neg hc]
      rw [hmap]

theorem nthComma_lt {n m : Nat} {s : Text} (h : nthComma n s = some m) : m < s.length := by
  induction s generalizing n m with
  | nil => cases h
  | cons c s ih =>
    by_cases hc : c = ','
    · cases n with
      | zero =>
        obtain rfl : m = 0 := by simpa [nthComma, hc, eq_comm] using h
        exact Nat.zero_lt_succ _
      | succ n =>
        simp only [nthComma, if_pos hc, Option.map_eq_some_iff] at h
        obtain ⟨k, hk, rfl⟩ := h
        exact Nat.succ_lt_succ (ih hk)
    · simp only [nthComma, if_neg hc, Option.map_eq_some_iff] at h
      obtain ⟨k, hk, rfl⟩ := h
      exact Nat.succ_lt_succ (ih hk)

/-- The slices at the end of the first characters of a text. -/
theorem sliceTo_take (n : Nat) (s : Text) :
    Slices.sliceTo (Slices.len (s.take n)) s = some (s.take n) := by
  conv_lhs => arg 2; rw [← List.take_append_drop n s]
  exact Slices.sliceTo_append _ _

theorem sliceFrom_take (n : Nat) (s : Text) :
    Slices.sliceFrom (Slices.len (s.take n)) s = some (s.drop n) := by
  conv_lhs => arg 2; rw [← List.take_append_drop n s]
  exact Slices.sliceFrom_append _ _

theorem splitHeader_eq (s : Text) : splitHeader s = returns (.ok (Tmux.splitHeader s)) := by
  have hbracket : (Slices.find isBracket s).getD (Slices.len s) =
      Slices.len (s.take (s.findIdx isBracket)) := by
    rw [Slices.find_getD, List.takeWhile_eq_take_findIdx_not]
    simp only [Bool.not_not]
  have hend : headerEndLoop 0 (Slices.len (s.take (s.findIdx isBracket)))
        (Slices.charIndices 0 (s.take (s.findIdx isBracket))) =
      Slices.len (s.take ((nthComma 2 (s.take (s.findIdx isBracket))).getD
        (s.findIdx isBracket))) := by
    have h := headerEndLoop_charIndices (Nat.le_refl 2)
      (Slices.len (s.take (s.findIdx isBracket))) 0
      (s.take (s.findIdx isBracket))
    rw [Nat.sub_self] at h
    rw [h]
    cases hn : nthComma 2 (s.take (s.findIdx isBracket)) with
    | none => rfl
    | some m =>
      have hlt := nthComma_lt hn
      rw [List.length_take] at hlt
      simp [List.take_take, Nat.min_eq_left (by omega : m ≤ s.findIdx isBracket)]
  simp only [splitHeader, hbracket, sliceTo_take, orPanic_some, returns_ok_bind, hend,
    sliceFrom_take, pure_eq, Tmux.splitHeader]

theorem parseDimensions_eq (s : Text) :
    parseDimensions s = returns (Tmux.parseDimensions s) := by
  unfold parseDimensions Tmux.parseDimensions
  match s.splitOn ',' with
  | [] | [_] | [_, _] => rfl
  | size :: x :: y :: parts =>
    have hlen : ¬ (size :: x :: y :: parts).length < 3 := by simp
    simp only [if_neg hlen, List.getElem?_cons_zero, List.getElem?_cons_succ, orPanic_some,
      returns_ok_bind]
    cases splitOnce 'x' size with
    | none => rfl
    | some p =>
      simp only [returns_bind]
      rfl

theorem parsePaneId_eq (s : Text) : parsePaneId s = returns (Tmux.parsePaneId s) := by
  have hdigits : (Slices.find (fun c => !c.isDigit) (skipComma s)).getD
        (Slices.len (skipComma s)) =
      Slices.len ((skipComma s).takeWhile Char.isDigit) := by
    rw [Slices.find_getD]
    simp only [Bool.not_not]
  have hs := List.takeWhile_append_dropWhile (p := Char.isDigit) (l := skipComma s)
  have hto : Slices.sliceTo (Slices.len ((skipComma s).takeWhile Char.isDigit)) (skipComma s) =
      some ((skipComma s).takeWhile Char.isDigit) := by
    conv_lhs => arg 2; rw [← hs]
    exact Slices.sliceTo_append _ _
  have hfrom : Slices.sliceFrom (Slices.len ((skipComma s).takeWhile Char.isDigit))
        (skipComma s) =
      some ((skipComma s).dropWhile Char.isDigit) := by
    conv_lhs => arg 2; rw [← hs]
    exact Slices.sliceFrom_append _ _
  unfold parsePaneId Tmux.parsePaneId
  simp only [hdigits, Slices.len_eq_zero, hto, hfrom, orPanic_some, returns_ok_bind]
  split
  · rfl
  · split <;> simp [*]

/-- A first character of one byte and the slice behind it. -/
theorem sliceFrom_stripPrefix {c : Char} (hc : c.utf8Size = 1) {s rest : Text}
    (h : stripPrefix [c] s = some rest) : Slices.sliceFrom 1 s = some rest := by
  rw [stripPrefix_eq_some h]
  exact Slices.sliceFrom_one hc rest

theorem passComma_eq (rem : Text) : passComma rem = returns (.ok (skipComma rem)) := by
  unfold passComma skipComma startsWith
  cases h : stripPrefix [','] rem with
  | none => rfl
  | some rest =>
    rw [sliceFrom_stripPrefix (by decide) h]
    rfl

/-! ## One call -/

section
variable {s : Text} {cols rows x y : UInt16}
  (hd : Tmux.parseDimensions (Tmux.splitHeader s).1 = .ok (cols, rows, x, y))
include hd

/-- A call of `parse_node` behind a header that is read. -/
theorem parseNode_header (fuel : Nat) :
    parseNode (fuel + 1) s =
      match (Tmux.splitHeader s).2 with
      | '[' :: rest => parseChildren fuel ']' [] rest >>= fun p =>
          returns (.ok (⟨cols, rows, x, y, .vSplit p.1⟩, p.2))
      | '{' :: rest => parseChildren fuel '}' [] rest >>= fun p =>
          returns (.ok (⟨cols, rows, x, y, .hSplit p.1⟩, p.2))
      | rest => returns (Tmux.parsePaneId rest) >>= fun p =>
          returns (.ok (⟨cols, rows, x, y, .pane p.1⟩, p.2)) := by
  have hv : ('[').utf8Size = 1 := by decide
  have hh : ('{').utf8Size = 1 := by decide
  rw [parseNode, splitHeader_eq, returns_ok_bind]
  revert hd
  obtain ⟨header, rest⟩ := Tmux.splitHeader s
  intro hd
  simp only [parseDimensions_eq, hd, returns_ok_bind]
  match rest with
  | [] => simp [parsePaneId_eq]
  | c :: rest =>
    by_cases h₁ : c = '['
    · simp [h₁, Slices.sliceFrom_one hv]
    · by_cases h₂ : c = '{'
      · simp [h₂, Slices.sliceFrom_one hh]
      · simp [h₁, h₂, parsePaneId_eq]

end

theorem parseNode_noHeader {s : Text} {e : LayoutError}
    (hd : Tmux.parseDimensions (Tmux.splitHeader s).1 = .error e) (fuel : Nat) :
    parseNode (fuel + 1) s = returns (.error e) := by
  rw [parseNode, splitHeader_eq, returns_ok_bind]
  revert hd
  obtain ⟨header, rest⟩ := Tmux.splitHeader s
  intro hd
  simp only [parseDimensions_eq, hd, returns_error_bind]

theorem parseChildren_turn {close : Char} (hclose : close.utf8Size = 1) (fuel : Nat)
    (children : List PaneLayout) (rem : Text) :
    parseChildren (fuel + 1) close children rem =
      match stripPrefix [close] rem with
      | some rest => returns (.ok (children, rest))
      | none => parseNode fuel (skipComma rem) >>= fun p =>
          parseChildren fuel close (children ++ [p.1]) p.2 := by
  rw [parseChildren]
  unfold startsWith
  cases h : stripPrefix [close] rem with
  | none => simp [passComma_eq]
  | some rest => simp [sliceFrom_stripPrefix hclose h]

/-! ## What is left is shorter -/

/-- The end of a text that has characters in front. -/
def Shorter (rest s : Text) : Prop := rest <:+ s ∧ rest.length < s.length

theorem Shorter.of_suffix {a b c : Text} (h : Shorter a b) (hbc : b <:+ c) : Shorter a c :=
  ⟨h.1.trans hbc, h.2.trans_le hbc.length_le⟩

theorem Shorter.cons (c : Char) (s : Text) : Shorter s (c :: s) :=
  ⟨List.suffix_cons c s, Nat.lt_succ_self _⟩

theorem skipComma_suffix (s : Text) : skipComma s <:+ s := by
  unfold skipComma
  cases h : stripPrefix [','] s with
  | none => exact List.suffix_rfl
  | some rest => exact stripPrefix_eq_some h ▸ List.suffix_cons ',' rest

theorem parsePaneId_suffix {s rest : Text} {paneId : UInt32}
    (h : Tmux.parsePaneId s = .ok (paneId, rest)) : rest <:+ s := by
  unfold Tmux.parsePaneId at h
  simp only at h
  split at h
  · cases h
    exact skipComma_suffix s
  · split at h
    · cases h
      exact (List.dropWhile_suffix _).trans (skipComma_suffix s)
    · cases h

theorem splitHeader_suffix {s : Text} {d : UInt16 × UInt16 × UInt16 × UInt16}
    (h : Tmux.parseDimensions (Tmux.splitHeader s).1 = .ok d) :
    Shorter (Tmux.splitHeader s).2 s :=
  ⟨⟨(Tmux.splitHeader s).1, splitHeader_append s⟩, length_splitHeader h⟩

/-- **What `parse_node` and `parse_children` leave is shorter**, with any fuel. -/
theorem shorter (fuel : Nat) :
    (∀ s layout rest, parseNode fuel s = returns (.ok (layout, rest)) → Shorter rest s) ∧
    ∀ close, close.utf8Size = 1 → ∀ children rem children' rest,
      parseChildren fuel close children rem = returns (.ok (children', rest)) →
        Shorter rest rem := by
  induction fuel with
  | zero => exact ⟨fun _ _ _ h => absurd h (by simp [parseNode]),
      fun _ _ _ _ _ _ h => absurd h (by simp [parseChildren])⟩
  | succ fuel ih =>
    obtain ⟨ihNode, ihChildren⟩ := ih
    constructor
    · intro s layout rest h
      cases hd : Tmux.parseDimensions (Tmux.splitHeader s).1 with
      | error e =>
        rw [parseNode_noHeader hd] at h
        simp at h
      | ok d =>
        obtain ⟨cols, rows, x, y⟩ := d
        have hsuf := splitHeader_suffix hd
        rw [parseNode_header hd] at h
        split at h
        · next r hr =>
          obtain ⟨p, hp, ⟨⟩⟩ := bind_eq_returns_ok_iff.mp h
          have hrest := ihChildren ']' (by decide) _ _ _ _ hp
          exact hrest.of_suffix ((List.suffix_cons '[' r).trans (hr ▸ hsuf.1))
        · next r hr =>
          obtain ⟨p, hp, ⟨⟩⟩ := bind_eq_returns_ok_iff.mp h
          have hrest := ihChildren '}' (by decide) _ _ _ _ hp
          exact hrest.of_suffix ((List.suffix_cons '{' r).trans (hr ▸ hsuf.1))
        · obtain ⟨p, hp, ⟨⟩⟩ := bind_eq_returns_ok_iff.mp h
          have hle := parsePaneId_suffix (returns_inj.mp hp)
          exact ⟨hle.trans hsuf.1, hle.length_le.trans_lt hsuf.2⟩
    · intro close hclose children rem children' rest h
      rw [parseChildren_turn hclose] at h
      split at h
      · next r hr =>
        obtain ⟨⟩ := returns_inj.mp h
        exact stripPrefix_eq_some hr ▸ Shorter.cons close _
      · obtain ⟨p, hp, h⟩ := bind_eq_returns_ok_iff.mp h
        have hnode := ihNode _ _ _ hp
        have hturns := ihChildren close hclose _ _ _ _ h
        exact hturns.of_suffix (hnode.1.trans (skipComma_suffix rem))

/-! ## The parser of trees -/

/-- The value and what is left, without the proof that it is shorter. -/
def value {α : Type} {s : Text} (r : Except LayoutError (Parsed α s)) :
    Except LayoutError (α × Text) :=
  r.map Subtype.val

theorem value_map_lift {α β : Type} {s t : Text} (f : α → β) (h : s.length ≤ t.length)
    (r : Except LayoutError (Parsed α s)) :
    value (r.map (Parsed.lift f h)) = (value r).map fun p => (f p.1, p.2) := by
  cases r <;> rfl

theorem tree_header {s : Text} {cols rows x y : UInt16}
    (hd : Tmux.parseDimensions (Tmux.splitHeader s).1 = .ok (cols, rows, x, y)) :
    value (Tmux.parseNode s) =
      match (Tmux.splitHeader s).2 with
      | '[' :: rest => (value (Tmux.parseChildren ']' [] rest)).map fun p =>
          (⟨cols, rows, x, y, .vSplit p.1⟩, p.2)
      | '{' :: rest => (value (Tmux.parseChildren '}' [] rest)).map fun p =>
          (⟨cols, rows, x, y, .hSplit p.1⟩, p.2)
      | rest => (Tmux.parsePaneId rest).map fun p => (⟨cols, rows, x, y, .pane p.1⟩, p.2) := by
  rw [Tmux.parseNode]
  split
  · next e he => rw [hd] at he; cases he
  · next _ _ _ _ hd' =>
    obtain ⟨⟩ := hd.symm.trans hd'
    split
    · next rest hr => simp only [hr, value_map_lift]
    · next rest hr => simp only [hr, value_map_lift]
    · next hv hh =>
      symm
      split
      · next rest hr => exact absurd hr (hv rest)
      · next rest hr => exact absurd hr (hh rest)
      · split
        · next e hp => exact congrArg (Except.map _) hp
        · next id rest hp => exact congrArg (Except.map _) hp

theorem tree_turn (close : Char) (children : List PaneLayout) (rem : Text) :
    value (Tmux.parseChildren close children rem) =
      match stripPrefix [close] rem with
      | some rest => .ok (children, rest)
      | none => value (Tmux.parseNode (skipComma rem)) >>= fun p =>
          value (Tmux.parseChildren close (children ++ [p.1]) p.2) := by
  rw [Tmux.parseChildren]
  split
  · next rest hc => simp only [hc]; rfl
  · next hc =>
    simp only [hc]
    split
    · next e he => rw [he]; rfl
    · next child rest hlt hn =>
      rw [hn, value_map_lift]
      change _ = value (Tmux.parseChildren close (children ++ [child]) rest)
      cases value (Tmux.parseChildren close (children ++ [child]) rest) <;> rfl

theorem tree_noHeader {s : Text} {e : LayoutError}
    (hd : Tmux.parseDimensions (Tmux.splitHeader s).1 = .error e) :
    value (Tmux.parseNode s) = .error e := by
  rw [parseNode_error hd]
  rfl

theorem length_value {α : Type} {s : Text} {r : Except LayoutError (Parsed α s)} {p : α × Text}
    (h : value r = .ok p) : p.2.length < s.length := by
  cases r with
  | error e => cases h
  | ok q =>
    cases h
    exact q.property

/-- **With fuel for twice the text the parser returns**, and what the parser of
trees does. -/
theorem returns_tree (fuel : Nat) :
    (∀ s : Text, 2 * s.length < fuel → parseNode fuel s = returns (value (Tmux.parseNode s))) ∧
    ∀ close, close.utf8Size = 1 → ∀ children (rem : Text), 2 * rem.length + 1 < fuel →
      parseChildren fuel close children rem =
        returns (value (Tmux.parseChildren close children rem)) := by
  induction fuel with
  | zero => exact ⟨fun _ h => absurd h (Nat.not_lt_zero _),
      fun _ _ _ _ h => absurd h (Nat.not_lt_zero _)⟩
  | succ fuel ih =>
    obtain ⟨ihNode, ihChildren⟩ := ih
    constructor
    · intro s hfuel
      cases hd : Tmux.parseDimensions (Tmux.splitHeader s).1 with
      | error e => rw [parseNode_noHeader hd, tree_noHeader hd]
      | ok d =>
        obtain ⟨cols, rows, x, y⟩ := d
        have hlt := length_splitHeader hd
        rw [parseNode_header hd, tree_header hd]
        split
        · next rest hr =>
          rw [hr, List.length_cons] at hlt
          rw [ihChildren ']' (by decide) _ _ (by omega), returns_map]
        · next rest hr =>
          rw [hr, List.length_cons] at hlt
          rw [ihChildren '}' (by decide) _ _ (by omega), returns_map]
        · rw [returns_map]
    · intro close hclose children rem hfuel
      rw [parseChildren_turn hclose, tree_turn]
      split
      · rfl
      · have hle := length_skipComma rem
        rw [ihNode _ (by omega), returns_bind]
        cases hn : value (Tmux.parseNode (skipComma rem)) with
        | error e => rfl
        | ok p =>
          have hlt := length_value hn
          exact ihChildren close hclose _ _ (by omega)

/-! ## Layout texts -/

theorem length_splitOnce {d : Char} {s a b : Text} (h : splitOnce d s = some (a, b)) :
    b.length < s.length := by
  induction s generalizing a with
  | nil => cases h
  | cons c s ih =>
    rw [splitOnce] at h
    split_ifs at h
    · cases h
      exact Nat.lt_succ_self _
    · obtain ⟨⟨a', b'⟩, hs, ⟨⟩⟩ := Option.map_eq_some_iff.mp h
      exact (ih hs).trans (Nat.lt_succ_self _)

theorem length_skipChecksum (s : Text) : (skipChecksum s).length ≤ s.length := by
  unfold skipChecksum
  split
  · next p rest h =>
    split
    · exact (length_splitOnce h).le
    · rfl
  · rfl

theorem length_trim (s : Text) : (trim s).length ≤ s.length :=
  (List.rdropWhile_prefix _ _).length_le.trans (List.dropWhile_suffix _).length_le

/-- **The layout parser ends without a panic.** What `parse_node` leaves is a
shorter end of the text. With fuel for the text, `parse_layout` returns a layout or
an error. -/
theorem parseLayout_returns (s : Text) :
    (∀ fuel layout rest, parseNode fuel s = returns (.ok (layout, rest)) →
      rest <:+ s ∧ rest.length < s.length) ∧
    ∀ fuel, 2 * s.length < fuel →
      (∃ r, parseNode fuel s = returns r) ∧
      parseLayout fuel s = returns (Tmux.parseLayout s) := by
  refine ⟨fun fuel layout rest h => (shorter fuel).1 s layout rest h, fun fuel hfuel => ?_⟩
  refine ⟨⟨_, (returns_tree fuel).1 s hfuel⟩, ?_⟩
  have hle := (length_skipChecksum (trim s)).trans (length_trim s)
  have hnode := (returns_tree fuel).1 (skipChecksum (trim s)) (by omega)
  rw [parseLayout, hnode, Tmux.parseLayout]
  cases Tmux.parseNode (skipChecksum (trim s)) <;> rfl

end Oxmux.Tmux.Sliced
