import Oxmux.Lib.Text

/-! The pane layouts of tmux, `server/src/tmux/layout.rs`: a tree of splits with
the sizes and places of its parts, printed by tmux as `WxH,X,Y` and behind it a
pane's id or the children in brackets. -/

namespace Oxmux.Tmux
open Oxmux.Lib

/-! ## Layout trees -/

mutual

inductive PaneLayout where
  | mk (cols rows x y : UInt16) (node : LayoutNode)

/-- A pane, or children from top to bottom (in square brackets) or side by side (in
braces). -/
inductive LayoutNode where
  | pane (paneId : UInt32)
  | vSplit (children : List PaneLayout)
  | hSplit (children : List PaneLayout)

end

/-- Why a text is no layout. -/
inductive LayoutError where
  | parts (header : Text)
  | size (part : Text)
  | int (part : Text)
  deriving DecidableEq

/-! ## The parser -/

/-- The place of the comma that has `n` commas in front of it. -/
def nthComma : Nat → Text → Option Nat
  | _, [] => none
  | n, c :: s =>
    if c = ',' then
      match n with
      | 0 => some 0
      | n + 1 => (nthComma n s).map (· + 1)
    else (nthComma n s).map (· + 1)

def isBracket (c : Char) : Bool := c = '[' || c = '{'

/-- `split_header`: the header ends at the third comma or at the first bracket. -/
def splitHeader (s : Text) : Text × Text :=
  let bracket := s.findIdx isBracket
  let headerEnd := (nthComma 2 (s.take bracket)).getD bracket
  (s.take headerEnd, s.drop headerEnd)

/-- `str::parse::<u16>`. -/
def parseU16 (s : Text) : Except LayoutError UInt16 :=
  match parseUInt 16 s with
  | some n => .ok (.ofNat n)
  | none => .error (.int s)

def parseDimensions (s : Text) : Except LayoutError (UInt16 × UInt16 × UInt16 × UInt16) :=
  match s.splitOn ',' with
  | size :: x :: y :: _ =>
    match splitOnce 'x' size with
    | some (cols, rows) => do
      return (← parseU16 cols, ← parseU16 rows, ← parseU16 x, ← parseU16 y)
    | none => .error (.size size)
  | _ => .error (.parts s)

def skipComma (s : Text) : Text := (stripPrefix [','] s).getD s

/-- `parse_pane_id`: without digits the id is 0. -/
def parsePaneId (s : Text) : Except LayoutError (UInt32 × Text) :=
  let s := skipComma s
  let digits := s.takeWhile Char.isDigit
  let rest := s.dropWhile Char.isDigit
  if digits = [] then .ok (0, s)
  else match parseUInt 32 digits with
    | some id => .ok (.ofNat id, rest)
    | none => .error (.int digits)

/-- A parsed value and the text behind it, shorter than the parsed one. -/
abbrev Parsed (α : Type) (s : Text) := { p : α × Text // p.2.length < s.length }

/-- The value, for a longer text. -/
def Parsed.lift {α β : Type} {s t : Text} (f : α → β) (h : s.length ≤ t.length) (p : Parsed α s) :
    Parsed β t :=
  ⟨(f p.val.1, p.val.2), Nat.lt_of_lt_of_le p.property h⟩

theorem splitHeader_append (s : Text) : (splitHeader s).1 ++ (splitHeader s).2 = s := by
  simp [splitHeader]

theorem length_skipComma (s : Text) : (skipComma s).length ≤ s.length := by
  unfold skipComma
  cases h : stripPrefix [','] s with
  | none => rfl
  | some r => simp [stripPrefix_eq_some h]

theorem length_parsePaneId {s : Text} {p : UInt32 × Text} (h : parsePaneId s = .ok p) :
    p.2.length ≤ s.length := by
  have hle := length_skipComma s
  unfold parsePaneId at h
  simp only at h
  split at h
  · cases h
    exact hle
  · split at h
    · cases h
      exact (List.dropWhile_sublist _).length_le.trans hle
    · cases h

theorem length_splitHeader {s : Text} {d : UInt16 × UInt16 × UInt16 × UInt16}
    (h : parseDimensions (splitHeader s).1 = .ok d) : (splitHeader s).2.length < s.length := by
  have hl := congrArg List.length (splitHeader_append s)
  rw [List.length_append] at hl
  have hne : (splitHeader s).1 ≠ [] := by
    intro hnil
    rw [hnil] at h
    cases h
  have hpos := List.length_pos_iff.mpr hne
  omega

mutual

def parseNode (s : Text) : Except LayoutError (Parsed PaneLayout s) :=
  match hd : parseDimensions (splitHeader s).1 with
  | .error e => .error e
  | .ok (cols, rows, x, y) =>
    have hlt := length_splitHeader hd
    match hr : (splitHeader s).2 with
    | '[' :: rest =>
      have hle : rest.length < s.length := by rw [hr, List.length_cons] at hlt; omega
      (parseChildren ']' [] rest).map (.lift (fun c => ⟨cols, rows, x, y, .vSplit c⟩) hle.le)
    | '{' :: rest =>
      have hle : rest.length < s.length := by rw [hr, List.length_cons] at hlt; omega
      (parseChildren '}' [] rest).map (.lift (fun c => ⟨cols, rows, x, y, .hSplit c⟩) hle.le)
    | rest =>
      match hp : parsePaneId rest with
      | .error e => .error e
      | .ok (paneId, rest') =>
        .ok ⟨(⟨cols, rows, x, y, .pane paneId⟩, rest'),
          Nat.lt_of_le_of_lt (length_parsePaneId hp) (hr ▸ hlt)⟩
termination_by (s.length, 0)

/-- The loop of `parse_children`, with the children so far. -/
def parseChildren (close : Char) (children : List PaneLayout) (rem : Text) :
    Except LayoutError (Parsed (List PaneLayout) rem) :=
  match hc : stripPrefix [close] rem with
  | some rest => .ok ⟨(children, rest), by simp [stripPrefix_eq_some hc]⟩
  | none =>
    have hle := length_skipComma rem
    match parseNode (skipComma rem) with
    | .error e => .error e
    | .ok ⟨(child, rest), hlt⟩ =>
      (parseChildren close (children ++ [child]) rest).map (.lift id (hlt.le.trans hle))
termination_by (rem.length, 1)
decreasing_by
  · exact Prod.Lex.right' _ hle (by decide)
  · exact Prod.Lex.left _ _ (Nat.lt_of_lt_of_le hlt hle)

end

/-! ## What the parser reads -/

/-- The value is read and the text is left. -/
def Reads {α : Type} {s : Text} (r : Except LayoutError (Parsed α s)) (a : α) (rest : Text) :
    Prop :=
  ∃ h, r = .ok ⟨(a, rest), h⟩

theorem Reads.map {α β : Type} {s t : Text} {r : Except LayoutError (Parsed α s)} {a : α}
    {rest : Text} (hr : Reads r a rest) (f : α → β) (h : s.length ≤ t.length) :
    Reads (r.map (Parsed.lift f h)) (f a) rest := by
  obtain ⟨hlt, rfl⟩ := hr
  exact ⟨Nat.lt_of_lt_of_le hlt h, rfl⟩

section
variable {s rest rest' : Text} {cols rows x y : UInt16}
  (hd : parseDimensions (splitHeader s).1 = .ok (cols, rows, x, y))
include hd

theorem parseNode_pane {paneId : UInt32} (hr : (splitHeader s).2 = rest)
    (hb : ∀ c ∈ rest.head?, isBracket c = false) (hp : parsePaneId rest = .ok (paneId, rest')) :
    Reads (parseNode s) ⟨cols, rows, x, y, .pane paneId⟩ rest' := by
  subst hr
  rw [parseNode]
  split
  · next e he => rw [hd] at he; cases he
  · next _ _ _ _ hd' =>
    obtain ⟨⟩ := hd.symm.trans hd'
    split
    · next r hr => simp [hr, isBracket] at hb
    · next r hr => simp [hr, isBracket] at hb
    · split
      · next e he => rw [hp] at he; cases he
      · next id rest₂ hp' =>
        obtain ⟨⟩ := hp.symm.trans hp'
        exact ⟨_, rfl⟩

theorem parseNode_vSplit {children : List PaneLayout} (hr : (splitHeader s).2 = '[' :: rest)
    (hc : Reads (parseChildren ']' [] rest) children rest') :
    Reads (parseNode s) ⟨cols, rows, x, y, .vSplit children⟩ rest' := by
  rw [parseNode]
  split
  · next e he => rw [hd] at he; cases he
  · next _ _ _ _ hd' =>
    obtain ⟨⟩ := hd.symm.trans hd'
    split
    · next r hr' =>
      cases hr.symm.trans hr'
      exact hc.map _ _
    · next r hr' => cases hr.symm.trans hr'
    · next hv _ => cases hv rest hr

theorem parseNode_hSplit {children : List PaneLayout} (hr : (splitHeader s).2 = '{' :: rest)
    (hc : Reads (parseChildren '}' [] rest) children rest') :
    Reads (parseNode s) ⟨cols, rows, x, y, .hSplit children⟩ rest' := by
  rw [parseNode]
  split
  · next e he => rw [hd] at he; cases he
  · next _ _ _ _ hd' =>
    obtain ⟨⟩ := hd.symm.trans hd'
    split
    · next r hr' => cases hr.symm.trans hr'
    · next r hr' =>
      cases hr.symm.trans hr'
      exact hc.map _ _
    · next _ hh => cases hh rest hr

end

theorem parseNode_error {s : Text} {e : LayoutError}
    (hd : parseDimensions (splitHeader s).1 = .error e) : parseNode s = .error e := by
  rw [parseNode]
  split
  · next e' he =>
    obtain ⟨⟩ := hd.symm.trans he
    rfl
  · next _ _ _ _ hd' => rw [hd] at hd'; cases hd'

theorem parseChildren_close (close : Char) (children : List PaneLayout) (rest : Text) :
    Reads (parseChildren close children (close :: rest)) children rest := by
  rw [parseChildren]
  split
  · next r hr =>
    obtain rfl : rest = r := by simpa using stripPrefix_eq_some hr
    exact ⟨_, rfl⟩
  · next hn => simp [stripPrefix] at hn

theorem parseChildren_child {close : Char} {children cs : List PaneLayout} {rem rest rest' : Text}
    {child : PaneLayout} (hn : stripPrefix [close] rem = none)
    (hc : Reads (parseNode (skipComma rem)) child rest)
    (hr : Reads (parseChildren close (children ++ [child]) rest) cs rest') :
    Reads (parseChildren close children rem) cs rest' := by
  obtain ⟨hlt, hc⟩ := hc
  rw [parseChildren]
  split
  · next r hr' => rw [hn] at hr'; cases hr'
  · split
    · next e he => rw [hc] at he; cases he
    · next child' rest₂ hlt' hc' =>
      obtain ⟨⟩ := hc.symm.trans hc'
      exact hr.map id _

/-! ## Layout texts -/

/-- The text behind a checksum and its comma. A checksum is a first part of four
letters or digits. -/
def skipChecksum (s : Text) : Text :=
  match splitOnce ',' s with
  | some (p, rest) => if p.all Char.isAlphanum && p.length = 4 then rest else s
  | none => s

def parseLayout (s : Text) : Except LayoutError PaneLayout :=
  (parseNode (skipChecksum (trim s))).map fun p => p.val.1

end Oxmux.Tmux
