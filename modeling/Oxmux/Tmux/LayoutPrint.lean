import Oxmux.Tmux.Layout
import Mathlib.Data.List.Infix

/-! tmux's printing of a layout tree, and that the parser undoes it. -/

namespace Oxmux.Tmux
open Oxmux.Lib

/-! ## Printing -/

def printSize (cols rows : UInt16) : Text := showNat cols.toNat ++ 'x' :: showNat rows.toNat

def printHeader (cols rows x y : UInt16) : Text :=
  printSize cols rows ++ ',' :: (showNat x.toNat ++ ',' :: showNat y.toNat)

mutual

def PaneLayout.print : PaneLayout → Text
  | .mk cols rows x y node => printHeader cols rows x y ++ node.print

def LayoutNode.print : LayoutNode → Text
  | .pane paneId => ',' :: showNat paneId.toNat
  | .vSplit children => '[' :: (printChildren children ++ [']'])
  | .hSplit children => '{' :: (printChildren children ++ ['}'])

def printChildren : List PaneLayout → Text
  | [] => []
  | t :: ts => t.print ++ printSiblings ts

/-- The children behind the first. -/
def printSiblings : List PaneLayout → Text
  | [] => []
  | t :: ts => ',' :: (t.print ++ printSiblings ts)

end

/-- Four hexadecimal digits. -/
abbrev Checksum := { c : Text // c.length = 4 ∧ c.all Char.isHexDigit = true }

/-! ## The parts of a header -/

theorem not_mem_printSize {c : Char} (hc : c.isDigit = false) (hx : c ≠ 'x')
    (cols rows : UInt16) : c ∉ printSize cols rows := by
  simp [printSize, hx, not_mem_showNat _ hc]

/-- What digits, `x` and the comma are not is nothing in a printed header. -/
theorem forall_mem_printHeader {p : Char → Bool} (hd : ∀ c, c.isDigit = true → p c = false)
    (hx : p 'x' = false) (hcomma : p ',' = false) (cols rows x y : UInt16) :
    ∀ c ∈ printHeader cols rows x y, p c = false := by
  have hnat (n : Nat) : ∀ c ∈ showNat n, p c = false := fun c hc => hd c (showNat_isDigit hc)
  simp only [printHeader, printSize, List.forall_mem_append, List.forall_mem_cons]
  exact ⟨⟨hnat _, hx, hnat _⟩, hcomma, hnat _, hcomma, hnat _⟩

theorem parseU16_showNat (n : UInt16) : parseU16 (showNat n.toNat) = .ok n := by
  simp [parseU16, parseUInt_showNat n.toNat_lt]

theorem parseDimensions_printHeader (cols rows x y : UInt16) :
    parseDimensions (printHeader cols rows x y) = .ok (cols, rows, x, y) := by
  have hsplit : (printHeader cols rows x y).splitOn ',' =
      [printSize cols rows, showNat x.toNat, showNat y.toNat] := by
    rw [printHeader,
      List.splitOn_append_cons_self_of_not_mem (not_mem_printSize (by decide) (by decide) _ _),
      List.splitOn_append_cons_self_of_not_mem (not_mem_showNat _ (by decide)),
      List.splitOn_eq_singleton (not_mem_showNat _ (by decide))]
  have hsize : splitOnce 'x' (printSize cols rows) =
      some (showNat cols.toNat, showNat rows.toNat) :=
    splitOnce_append _ (not_mem_showNat _ (by decide))
  simp only [parseDimensions, hsplit, hsize, parseU16_showNat]
  rfl

theorem nthComma_append (n : Nat) {a : Text} (ha : ',' ∉ a) (s : Text) :
    nthComma n (a ++ s) = (nthComma n s).map (· + a.length) := by
  induction a with
  | nil => simp
  | cons c a ih =>
    simp only [List.mem_cons, not_or] at ha
    simp only [List.cons_append, nthComma, if_neg (Ne.symm ha.1), ih ha.2, Option.map_map,
      List.length_cons]
    rfl

theorem nthComma_succ (n : Nat) (s : Text) :
    nthComma (n + 1) (',' :: s) = (nthComma n s).map (· + 1) := by
  simp [nthComma]

/-- Behind a printed header the next comma is the third. -/
theorem nthComma_printHeader (cols rows x y : UInt16) (s : Text) :
    nthComma 2 (printHeader cols rows x y ++ s) =
      (nthComma 0 s).map (· + (printHeader cols rows x y).length) := by
  have hsize := not_mem_printSize (c := ',') (by decide) (by decide) cols rows
  have hx := not_mem_showNat (c := ',') x.toNat (by decide)
  have hy := not_mem_showNat (c := ',') y.toNat (by decide)
  simp only [printHeader, List.append_assoc, List.cons_append, nthComma_append _ hsize,
    nthComma_succ, nthComma_append _ hx, nthComma_append _ hy, Option.map_map, List.length_append,
    List.length_cons]
  congr 1
  funext k
  simp only [Function.comp_apply]
  omega

theorem isBracket_of_isDigit {c : Char} (h : c.isDigit = true) : isBracket c = false := by
  have hl : c ≠ '[' := by rintro rfl; cases h
  have hr : c ≠ '{' := by rintro rfl; cases h
  simp [isBracket, hl, hr]

/-- No character of the text is an opening bracket. -/
def Flat (s : Text) : Prop := ∀ c ∈ s, isBracket c = false

theorem flat_append {s t : Text} : Flat (s ++ t) ↔ Flat s ∧ Flat t := List.forall_mem_append

theorem flat_cons {c : Char} {s : Text} : Flat (c :: s) ↔ isBracket c = false ∧ Flat s :=
  List.forall_mem_cons

theorem flat_showNat (n : Nat) : Flat (showNat n) :=
  fun _ hc => isBracket_of_isDigit (showNat_isDigit hc)

theorem flat_printHeader (cols rows x y : UInt16) : Flat (printHeader cols rows x y) :=
  forall_mem_printHeader (fun _ => isBracket_of_isDigit) (by decide) (by decide) cols rows x y

theorem findIdx_append_bracket {a : Text} (hb : Flat a) (s : Text) :
    (a ++ s).findIdx isBracket = a.length + s.findIdx isBracket := by
  rw [List.findIdx_append, List.findIdx_eq_length_of_false hb, if_neg (Nat.lt_irrefl _),
    Nat.add_comm]

/-- Without a third comma the header ends at the first bracket. -/
theorem splitHeader_bracket {a : Text} (hb : Flat a)
    (hn : nthComma 2 a = none) {s : Text} (hs : ∀ c ∈ s.head?, isBracket c = true) :
    splitHeader (a ++ s) = (a, s) := by
  have hend : (a ++ s).findIdx isBracket = a.length := by
    rw [findIdx_append_bracket hb]
    cases s with
    | nil => rfl
    | cons c s => simp [List.findIdx_cons, hs c rfl]
  simp [splitHeader, hend, hn]

/-- **The header** is what is in front of a bracket or a third comma. -/
theorem splitHeader_printHeader (cols rows x y : UInt16) {c : Char}
    (hc : c = ',' ∨ isBracket c = true) (s : Text) :
    splitHeader (printHeader cols rows x y ++ c :: s) = (printHeader cols rows x y, c :: s) := by
  have hb := flat_printHeader cols rows x y
  rcases hc with rfl | hc
  · have hk : (',' :: s).findIdx isBracket = s.findIdx isBracket + 1 := by
      rw [List.findIdx_cons, show isBracket ',' = false by decide]
      rfl
    simp only [splitHeader, findIdx_append_bracket hb, hk, List.take_length_add_append,
      List.take_succ_cons, nthComma_printHeader]
    simp [nthComma]
  · have hn := nthComma_printHeader cols rows x y []
    rw [List.append_nil] at hn
    refine splitHeader_bracket hb hn ?_
    rintro _ ⟨⟩
    exact hc

/-- What the parser reads of a printed header, and what it leaves. -/
theorem parseDimensions_splitHeader (cols rows x y : UInt16) {c : Char}
    (hc : c = ',' ∨ isBracket c = true) (s : Text) :
    parseDimensions (splitHeader (printHeader cols rows x y ++ c :: s)).1 =
        .ok (cols, rows, x, y) ∧
      (splitHeader (printHeader cols rows x y ++ c :: s)).2 = c :: s := by
  rw [splitHeader_printHeader cols rows x y hc]
  exact ⟨parseDimensions_printHeader cols rows x y, rfl⟩

/-! ## The parser undoes the printing -/

/-- The text does not begin with a digit. -/
def NoDigit (r : Text) : Prop := ∀ c ∈ r.head?, c.isDigit = false

theorem noDigit_nil : NoDigit [] := fun _ h => by cases h

theorem noDigit_cons {c : Char} (hc : c.isDigit = false) (r : Text) : NoDigit (c :: r) := by
  rintro _ ⟨⟩
  exact hc

theorem parsePaneId_print (paneId : UInt32) {r : Text} (hr : NoDigit r) :
    parsePaneId (',' :: (showNat paneId.toNat ++ r)) = .ok (paneId, r) := by
  have hall : ∀ c ∈ showNat paneId.toNat, c.isDigit = true := fun c hc => showNat_isDigit hc
  have htake : (showNat paneId.toNat ++ r).takeWhile Char.isDigit = showNat paneId.toNat := by
    rw [List.takeWhile_append_of_pos hall]
    cases r with
    | nil => simp
    | cons c r => simp [hr c rfl]
  have hdrop : (showNat paneId.toNat ++ r).dropWhile Char.isDigit = r := by
    rw [List.dropWhile_append_of_pos hall]
    cases r with
    | nil => rfl
    | cons c r => simp [hr c rfl]
  have hskip : skipComma (',' :: (showNat paneId.toNat ++ r)) = showNat paneId.toNat ++ r := by
    simp [skipComma, stripPrefix]
  simp only [parsePaneId, hskip, htake, hdrop, if_neg (showNat_ne_nil _),
    parseUInt_showNat paneId.toNat_lt, UInt32.ofNat_toNat]

theorem noDigit_siblings (ts : List PaneLayout) {close : Char} (hc : close.isDigit = false)
    (r : Text) : NoDigit (printSiblings ts ++ close :: r) := by
  cases ts with
  | nil => exact noDigit_cons hc r
  | cons t ts => exact noDigit_cons (by decide) _

theorem print_cons (t : PaneLayout) : ∃ c s, c.isDigit = true ∧ t.print = c :: s := by
  obtain ⟨cols, rows, x, y, node⟩ := t
  obtain ⟨c, s, hs⟩ := List.exists_cons_of_ne_nil (showNat_ne_nil cols.toNat)
  have hc : c ∈ showNat cols.toNat := hs ▸ List.mem_cons_self
  simp only [PaneLayout.print, printHeader, printSize, hs, List.cons_append]
  exact ⟨c, _, showNat_isDigit hc, rfl⟩

theorem parseChildren_print {close : Char} (hc : close.isDigit = false) {t : PaneLayout}
    {acc cs : List PaneLayout} {rest rest' : Text} (ht : Reads (parseNode (t.print ++ rest)) t rest)
    (hr : Reads (parseChildren close (acc ++ [t]) rest) cs rest') :
    Reads (parseChildren close acc (t.print ++ rest)) cs rest' ∧
      (close ≠ ',' → Reads (parseChildren close acc (',' :: (t.print ++ rest))) cs rest') := by
  obtain ⟨c, s, hd, hs⟩ := print_cons t
  have hne : close ≠ c := by rintro rfl; rw [hc] at hd; cases hd
  have hcomma : ',' ≠ c := by rintro rfl; cases hd
  constructor
  · refine parseChildren_child ?_ ?_ hr
    · simp [hs, stripPrefix, hne]
    · have hskip : skipComma (t.print ++ rest) = t.print ++ rest := by
        simp [hs, skipComma, stripPrefix, hcomma]
      rw [hskip]
      exact ht
  · intro hcl
    refine parseChildren_child ?_ ?_ hr
    · simp [stripPrefix, hcl]
    · have hskip : skipComma (',' :: (t.print ++ rest)) = t.print ++ rest := by
        simp [skipComma, stripPrefix]
      rw [hskip]
      exact ht

mutual

/-- **Reading a printed layout** leaves what is behind it. -/
theorem parseNode_print : ∀ (t : PaneLayout) {r : Text}, NoDigit r →
    Reads (parseNode (t.print ++ r)) t r
  | .mk cols rows x y (.pane paneId), r, hr => by
    have ⟨hd, hs⟩ := parseDimensions_splitHeader cols rows x y (.inl rfl)
      (showNat paneId.toNat ++ r)
    rw [PaneLayout.print, LayoutNode.print, List.append_assoc, List.cons_append]
    refine parseNode_pane hd hs ?_ (parsePaneId_print paneId hr)
    rintro _ ⟨⟩
    decide
  | .mk cols rows x y (.vSplit children), r, hr => by
    have ⟨hd, hs⟩ := parseDimensions_splitHeader cols rows x y (c := '[') (.inr (by decide))
      (printChildren children ++ ']' :: r)
    rw [PaneLayout.print, LayoutNode.print, List.append_assoc, List.cons_append, List.append_assoc,
      List.singleton_append]
    exact parseNode_vSplit hd hs (parseChildren_printChildren children (by decide) (by decide) [] r)
  | .mk cols rows x y (.hSplit children), r, hr => by
    have ⟨hd, hs⟩ := parseDimensions_splitHeader cols rows x y (c := '{') (.inr (by decide))
      (printChildren children ++ '}' :: r)
    rw [PaneLayout.print, LayoutNode.print, List.append_assoc, List.cons_append, List.append_assoc,
      List.singleton_append]
    exact parseNode_hSplit hd hs (parseChildren_printChildren children (by decide) (by decide) [] r)

theorem parseChildren_printChildren : ∀ (ts : List PaneLayout) {close : Char},
    close.isDigit = false → close ≠ ',' → ∀ (acc : List PaneLayout) (r : Text),
    Reads (parseChildren close acc (printChildren ts ++ close :: r)) (acc ++ ts) r
  | [], close, _, _, acc, r => by
    rw [List.append_nil]
    exact parseChildren_close close acc r
  | t :: ts, close, hd, hc, acc, r => by
    have ht := parseNode_print t (noDigit_siblings ts hd r)
    have hr := parseChildren_printSiblings ts hd hc (acc ++ [t]) r
    rw [List.append_assoc, List.singleton_append] at hr
    rw [printChildren, List.append_assoc]
    exact (parseChildren_print hd ht hr).1

theorem parseChildren_printSiblings : ∀ (ts : List PaneLayout) {close : Char},
    close.isDigit = false → close ≠ ',' → ∀ (acc : List PaneLayout) (r : Text),
    Reads (parseChildren close acc (printSiblings ts ++ close :: r)) (acc ++ ts) r
  | [], close, _, _, acc, r => by
    rw [List.append_nil]
    exact parseChildren_close close acc r
  | t :: ts, close, hd, hc, acc, r => by
    have ht := parseNode_print t (noDigit_siblings ts hd r)
    have hr := parseChildren_printSiblings ts hd hc (acc ++ [t]) r
    rw [List.append_assoc, List.singleton_append] at hr
    rw [printSiblings, List.cons_append, List.append_assoc]
    exact (parseChildren_print hd ht hr).2 hc

end

/-! ## No blanks -/

theorem isWhitespace_of_isAlphanum {c : Char} (h : c.isAlphanum = true) :
    isWhitespace c = false := by
  delta Char.isAlphanum Char.isAlpha Char.isUpper Char.isLower Char.isDigit at h
  simp only [Bool.or_eq_true, Bool.and_eq_true, decide_eq_true_eq, UInt32.le_iff_toNat_le,
    ge_iff_le, Char.reduceVal, UInt32.reduceToNat] at h
  simp only [isWhitespace, Char.toNat, Bool.or_eq_false_iff, Bool.and_eq_false_iff,
    decide_eq_false_iff_not]
  omega

theorem isAlphanum_of_isDigit {c : Char} (h : c.isDigit = true) : c.isAlphanum = true := by
  simp [Char.isAlphanum, h]

/-- No character of the text is a blank. -/
def Solid (s : Text) : Prop := ∀ c ∈ s, isWhitespace c = false

theorem solid_append {s t : Text} : Solid (s ++ t) ↔ Solid s ∧ Solid t := List.forall_mem_append

theorem solid_cons {c : Char} {s : Text} :
    Solid (c :: s) ↔ isWhitespace c = false ∧ Solid s := List.forall_mem_cons

theorem solid_showNat (n : Nat) : Solid (showNat n) :=
  fun _ hc => isWhitespace_of_isAlphanum (isAlphanum_of_isDigit (showNat_isDigit hc))

theorem solid_printHeader (cols rows x y : UInt16) : Solid (printHeader cols rows x y) :=
  forall_mem_printHeader (fun _ h => isWhitespace_of_isAlphanum (isAlphanum_of_isDigit h))
    (by decide) (by decide) cols rows x y

mutual

theorem solid_print : ∀ t : PaneLayout, Solid t.print
  | .mk cols rows x y (.pane paneId) => by
    rw [PaneLayout.print, LayoutNode.print, solid_append, solid_cons]
    exact ⟨solid_printHeader _ _ _ _, by decide, solid_showNat _⟩
  | .mk cols rows x y (.vSplit children) => by
    rw [PaneLayout.print, LayoutNode.print, solid_append, solid_cons, solid_append, solid_cons]
    exact ⟨solid_printHeader _ _ _ _, by decide, solid_printChildren children, by decide,
      fun _ h => by cases h⟩
  | .mk cols rows x y (.hSplit children) => by
    rw [PaneLayout.print, LayoutNode.print, solid_append, solid_cons, solid_append, solid_cons]
    exact ⟨solid_printHeader _ _ _ _, by decide, solid_printChildren children, by decide,
      fun _ h => by cases h⟩

theorem solid_printChildren : ∀ ts : List PaneLayout, Solid (printChildren ts)
  | [] => fun _ h => by cases h
  | t :: ts => by
    rw [printChildren, solid_append]
    exact ⟨solid_print t, solid_printSiblings ts⟩

theorem solid_printSiblings : ∀ ts : List PaneLayout, Solid (printSiblings ts)
  | [] => fun _ h => by cases h
  | t :: ts => by
    rw [printSiblings, solid_cons, solid_append]
    exact ⟨by decide, solid_print t, solid_printSiblings ts⟩

end

/-! ## Layouts with a checksum -/

theorem isAlphanum_of_isHexDigit {c : Char} (h : c.isHexDigit = true) : c.isAlphanum = true := by
  delta Char.isHexDigit Char.isDigit at h
  delta Char.isAlphanum Char.isAlpha Char.isUpper Char.isLower Char.isDigit
  simp only [Bool.or_eq_true, Bool.and_eq_true, decide_eq_true_eq, UInt32.le_iff_toNat_le,
    ge_iff_le, Char.reduceVal, UInt32.reduceToNat] at h ⊢
  omega

theorem skipChecksum_checksum (c : Checksum) (s : Text) : skipChecksum (c.val ++ ',' :: s) = s := by
  have hno : ',' ∉ c.val := fun h => by
    have hx := List.all_eq_true.mp c.property.2 ',' h
    cases hx
  have hall : c.val.all Char.isAlphanum = true :=
    List.all_eq_true.mpr fun d hd =>
      isAlphanum_of_isHexDigit (List.all_eq_true.mp c.property.2 d hd)
  rw [skipChecksum, splitOnce_append _ hno]
  simp [hall, c.property.1]

theorem trim_checksum_print (c : Checksum) (t : PaneLayout) :
    trim (c.val ++ ',' :: t.print) = c.val ++ ',' :: t.print := by
  have hc : Solid c.val := fun d hd =>
    isWhitespace_of_isAlphanum (isAlphanum_of_isHexDigit (List.all_eq_true.mp c.property.2 d hd))
  exact trim_eq_self (solid_append.mpr ⟨hc, solid_cons.mpr ⟨by decide, solid_print t⟩⟩)

theorem parse_print (t : PaneLayout) : (parseNode t.print).map (fun p => p.val.1) = .ok t := by
  have hp := parseNode_print t noDigit_nil
  rw [List.append_nil] at hp
  obtain ⟨h, hp⟩ := hp
  rw [hp]
  rfl

theorem parseLayout_checksum (c : Checksum) (t : PaneLayout) :
    parseLayout (c.val ++ ',' :: t.print) = (parseNode t.print).map fun p => p.val.1 := by
  rw [parseLayout, trim_checksum_print, skipChecksum_checksum]

/-- **Parsing undoes tmux's printing** of a layout with its checksum. -/
theorem parseLayout_print (c : Checksum) (t : PaneLayout) :
    parseLayout (c.val ++ ',' :: t.print) = .ok t := by
  rw [parseLayout_checksum]
  exact parse_print t

/-! ## Layouts without a checksum -/

/-- The size is printed with four characters, as a checksum is. -/
def PaneLayout.SizeLikeChecksum : PaneLayout → Prop
  | .mk cols rows _ _ _ =>
    cols.toNat < 10 ∧ 10 ≤ rows.toNat ∧ rows.toNat < 100 ∨
      10 ≤ cols.toNat ∧ cols.toNat < 100 ∧ rows.toNat < 10

theorem length_showNat_pos (n : Nat) : 0 < (showNat n).length := Nat.length_toDigits_pos

theorem length_printSize {cols rows : UInt16} :
    (printSize cols rows).length = 4 ↔
      cols.toNat < 10 ∧ 10 ≤ rows.toNat ∧ rows.toNat < 100 ∨
        10 ≤ cols.toNat ∧ cols.toNat < 100 ∧ rows.toNat < 10 := by
  have hle : ∀ n k : Nat, 0 < k → ((showNat n).length ≤ k ↔ n < 10 ^ k) :=
    fun n k hk => Nat.length_toDigits_le_iff (by decide) hk
  have hc₁ := hle cols.toNat 1 (by decide)
  have hc₂ := hle cols.toNat 2 (by decide)
  have hr₁ := hle rows.toNat 1 (by decide)
  have hr₂ := hle rows.toNat 2 (by decide)
  have hc := length_showNat_pos cols.toNat
  have hr := length_showNat_pos rows.toNat
  simp only [printSize, List.length_append, List.length_cons]
  omega

theorem all_printSize (cols rows : UInt16) : (printSize cols rows).all Char.isAlphanum = true := by
  have hn : ∀ n, ∀ c ∈ showNat n, c.isAlphanum = true := fun n c hc =>
    isAlphanum_of_isDigit (showNat_isDigit hc)
  rw [List.all_eq_true]
  simp only [printSize, List.forall_mem_append, List.forall_mem_cons]
  exact ⟨hn _, by decide, hn _⟩

/-- The text behind the size of a printed layout. -/
def LayoutNode.behindSize (x y : UInt16) (node : LayoutNode) : Text :=
  showNat x.toNat ++ ',' :: (showNat y.toNat ++ node.print)

theorem skipChecksum_print (cols rows x y : UInt16) (node : LayoutNode) :
    skipChecksum (PaneLayout.mk cols rows x y node).print =
      if (printSize cols rows).length = 4 then node.behindSize x y
      else (PaneLayout.mk cols rows x y node).print := by
  have hs : (PaneLayout.mk cols rows x y node).print =
      printSize cols rows ++ ',' :: node.behindSize x y := by
    simp [PaneLayout.print, printHeader, LayoutNode.behindSize]
  rw [hs, skipChecksum, splitOnce_append _ (not_mem_printSize (by decide) (by decide) cols rows)]
  simp [all_printSize]

theorem nthComma_eq_none (n : Nat) {a : Text} (ha : ',' ∉ a) : nthComma n a = none := by
  have h := nthComma_append n ha []
  rwa [List.append_nil] at h

theorem nthComma_place (x y : UInt16) (s : Text) (h : nthComma 1 s = none) :
    nthComma 2 (showNat x.toNat ++ ',' :: (showNat y.toNat ++ s)) = none := by
  rw [nthComma_append _ (not_mem_showNat _ (by decide)), nthComma_succ,
    nthComma_append _ (not_mem_showNat _ (by decide)), h]
  rfl

/-- Without its size a printed layout is none: a pane's lacks the `x`, a split's
a part. -/
theorem parseNode_behindSize (x y : UInt16) (node : LayoutNode) :
    ∃ e, parseNode (node.behindSize x y) = .error e := by
  have hx : ',' ∉ showNat x.toNat := not_mem_showNat _ (by decide)
  have hy : ',' ∉ showNat y.toNat := not_mem_showNat _ (by decide)
  have hsplit : ∀ (children : List PaneLayout) (opening closing : Char), isBracket opening = true →
      ∃ e, parseNode (showNat x.toNat ++ ',' :: (showNat y.toNat ++
        opening :: (printChildren children ++ [closing]))) = .error e := by
    intro children opening closing ho
    have hn := nthComma_place x y [] rfl
    have hflat : Flat (showNat x.toNat ++ ',' :: (showNat y.toNat ++ [])) := by
      simp only [flat_append, flat_cons]
      exact ⟨flat_showNat _, by decide, flat_showNat _, fun _ h => by cases h⟩
    have hs := splitHeader_bracket hflat hn (s := opening :: (printChildren children ++ [closing]))
      (by rintro _ ⟨⟩; exact ho)
    simp only [List.append_nil, List.append_assoc, List.cons_append] at hs
    refine ⟨_, parseNode_error (e := .parts (showNat x.toNat ++ ',' :: showNat y.toNat)) ?_⟩
    simp only [hs, parseDimensions, List.splitOn_append_cons_self_of_not_mem hx,
      List.splitOn_eq_singleton hy]
  cases node with
  | pane paneId =>
    have hid : ',' ∉ showNat paneId.toNat := not_mem_showNat _ (by decide)
    have hn := nthComma_place x y (',' :: showNat paneId.toNat)
      (by rw [nthComma_succ, nthComma_eq_none 0 hid]; rfl)
    have hflat : Flat (showNat x.toNat ++ ',' :: (showNat y.toNat ++ ',' ::
        showNat paneId.toNat)) := by
      simp only [flat_append, flat_cons]
      exact ⟨flat_showNat _, by decide, flat_showNat _, by decide, flat_showNat _⟩
    have hs := splitHeader_bracket hflat hn (s := []) (fun _ h => by cases h)
    rw [List.append_nil] at hs
    have hsize : splitOnce 'x' (showNat x.toNat) = none :=
      splitOnce_eq_none (not_mem_showNat _ (by decide))
    refine ⟨_, parseNode_error (e := .size (showNat x.toNat)) ?_⟩
    simp only [LayoutNode.behindSize, LayoutNode.print, hs, parseDimensions,
      List.splitOn_append_cons_self_of_not_mem hx, List.splitOn_append_cons_self_of_not_mem hy,
      List.splitOn_eq_singleton hid, hsize]
  | vSplit children =>
    simpa only [LayoutNode.behindSize, LayoutNode.print] using hsplit children '[' ']' (by decide)
  | hSplit children =>
    simpa only [LayoutNode.behindSize, LayoutNode.print] using hsplit children '{' '}' (by decide)

theorem trim_print (t : PaneLayout) : trim t.print = t.print := trim_eq_self (solid_print t)

theorem parseLayout_print_ok {t : PaneLayout} (h : ¬ t.SizeLikeChecksum) :
    parseLayout t.print = .ok t := by
  obtain ⟨cols, rows, x, y, node⟩ := t
  have hl : (printSize cols rows).length ≠ 4 := fun hl => h (length_printSize.mp hl)
  rw [parseLayout, trim_print, skipChecksum_print, if_neg hl]
  exact parse_print _

theorem parseLayout_print_error {t : PaneLayout} (h : t.SizeLikeChecksum) :
    ∃ e, parseLayout t.print = .error e := by
  obtain ⟨cols, rows, x, y, node⟩ := t
  obtain ⟨e, he⟩ := parseNode_behindSize x y node
  rw [parseLayout, trim_print, skipChecksum_print, if_pos (length_printSize.mpr h), he]
  exact ⟨e, rfl⟩

/-- **The checksum is optional** unless the size is printed like one. -/
theorem checksum_optional_iff (c : Checksum) (t : PaneLayout) :
    ((∃ u, parseLayout t.print = .ok u) ∧
        parseLayout t.print = parseLayout (c.val ++ ',' :: t.print)) ↔
      ¬ t.SizeLikeChecksum := by
  constructor
  · rintro ⟨⟨u, hu⟩, -⟩ hs
    obtain ⟨e, he⟩ := parseLayout_print_error hs
    rw [hu] at he
    cases he
  · intro hs
    have hp := parseLayout_print_ok hs
    rw [parseLayout_checksum, parse_print]
    exact ⟨⟨t, hp⟩, hp⟩

def shallowPane : PaneLayout := .mk 80 5 0 0 (.pane 1)

def sampleChecksum : Checksum := ⟨"b25d".toList, by decide⟩

theorem shallowPane_needs_checksum :
    ¬ ((∃ u, parseLayout shallowPane.print = .ok u) ∧
      parseLayout shallowPane.print =
        parseLayout (sampleChecksum.val ++ ',' :: shallowPane.print)) := by
  rintro ⟨⟨u, hu⟩, -⟩
  have hs : shallowPane.SizeLikeChecksum := .inr ⟨by decide, by decide, by decide⟩
  obtain ⟨e, he⟩ := parseLayout_print_error hs
  rw [hu] at he
  cases he

end Oxmux.Tmux
