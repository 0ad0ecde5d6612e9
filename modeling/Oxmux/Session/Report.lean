import Oxmux.Session.Listing

/-! The panes of tmux, and what the SSH transport's parser makes of their
listing (`server/src/session/ssh_transport.rs`). tmux prints names as they are;
a name that contains the separator moves every field behind it. -/

namespace Oxmux.Session
open Oxmux.Lib Lines

/-- A name that tmux gives or is given. -/
abbrev Name := { t : Text // '\n' ∉ t }

def paneText (n : Nat) : Text := '%' :: showNat n

/-- A pane with its window and its session, as `list-panes` knows them. -/
structure TmuxPane where
  session : Nat
  sessionName : Name
  window : Nat
  windowName : Name
  windowIndex : Nat
  layout : { t : Text // '|' ∉ t ∧ '\n' ∉ t }
  id : Nat
  index : Nat
  width : Nat
  height : Nat
  command : Name
  active : Bool

namespace TmuxPane

def fields (p : TmuxPane) : List Text :=
  ['$' :: showNat p.session, p.sessionName.val, '@' :: showNat p.window, p.windowName.val,
    showNat p.windowIndex, p.layout.val, paneText p.id, showNat p.index, showNat p.width,
    showNat p.height, p.command.val, if p.active then ['1'] else ['0']]

/-- Neither of the names that stand before the pane id contains the separator. -/
def Unseparated (p : TmuxPane) : Prop :=
  ¬ SshTransport.separator <:+: p.sessionName.val ∧ ¬ SshTransport.separator <:+: p.windowName.val

instance (p : TmuxPane) : Decidable p.Unseparated := inferInstanceAs (Decidable (_ ∧ _))

end TmuxPane

def listing (panes : List TmuxPane) : Text :=
  printLines SshTransport.separator (panes.map TmuxPane.fields)

theorem separator_eq : SshTransport.separator = List.replicate 3 '|' := by decide

section Pieces
open SshTransport (separator)

theorem splitStr_plain {a : Text} (h : '|' ∉ a) (b : Text) :
    splitStr separator (a ++ (separator ++ b)) = a :: splitStr separator b :=
  splitStr_append_of_not_mem _ h b

/-- A name, the number behind it, and the rest: the name may leave some bars to
the number. -/
theorem splitStr_named {name number : Text} (hname : ¬ separator <:+: name) (hn : '|' ∉ number)
    (hne : number ≠ []) (b : Text) :
    ∃ first second, splitStr separator (name ++ (separator ++ (number ++ (separator ++ b)))) =
      first :: second :: splitStr separator b := by
  rw [separator_eq] at hname ⊢
  obtain ⟨first, j, hj, hfirst⟩ := splitStr_field (by omega) hname
    (number ++ (List.replicate 3 '|' ++ b))
  exact ⟨first, List.replicate j '|' ++ number, by rw [hfirst, splitStr_run_field hj hn hne]⟩

theorem bar_not_mem_showNat (n : Nat) : '|' ∉ showNat n := not_mem_showNat n (by decide)

theorem intercalate_fields (p : TmuxPane) : List.intercalate separator p.fields =
    ('$' :: showNat p.session) ++ (separator ++ (p.sessionName.val ++ (separator ++
      (('@' :: showNat p.window) ++ (separator ++ (p.windowName.val ++ (separator ++
      (showNat p.windowIndex ++ (separator ++ (p.layout.val ++ (separator ++
      (paneText p.id ++ (separator ++ (showNat p.index ++ (separator ++
      (showNat p.width ++ (separator ++ (showNat p.height ++ (separator ++
      (p.command.val ++ (separator ++
        (if p.active then ['1'] else ['0'])))))))))))))))))))))) := by
  simp only [TmuxPane.fields, List.intercalate_cons_cons, List.intercalate_singleton,
    List.append_assoc]

/-- **The pane id is the seventh piece**, whatever the command is called. -/
theorem splitStr_fields {p : TmuxPane} (h : p.Unseparated) :
    12 ≤ (splitStr separator (List.intercalate separator p.fields)).length ∧
      (ListedPane.ofParts (splitStr separator (List.intercalate separator p.fields))).pane.id =
        paneText p.id := by
  have hd : '|' ∉ '$' :: showNat p.session := by simp [bar_not_mem_showNat]
  have hw : '|' ∉ '@' :: showNat p.window := by simp [bar_not_mem_showNat]
  have hp : '|' ∉ paneText p.id := by simp [paneText, bar_not_mem_showNat]
  rw [intercalate_fields, splitStr_plain hd]
  obtain ⟨s₁, s₂, hs⟩ := splitStr_named h.1 hw (by simp) _
  rw [hs]
  obtain ⟨w₁, w₂, hw⟩ := splitStr_named h.2 (bar_not_mem_showNat p.windowIndex)
    (showNat_ne_nil _) _
  rw [hw, splitStr_plain p.layout.property.1, splitStr_plain hp,
    splitStr_plain (bar_not_mem_showNat _), splitStr_plain (bar_not_mem_showNat _),
    splitStr_plain (bar_not_mem_showNat _)]
  have hrest := @two_le_length_splitStr separator (by decide) p.command.val
    (if p.active then ['1'] else ['0'])
  refine ⟨?_, rfl⟩
  simp only [List.length_cons]
  omega

end Pieces

/-! ## The lines -/

theorem newline_not_mem_showNat (n : Nat) : '\n' ∉ showNat n := not_mem_showNat n (by decide)

theorem newline_not_mem_fields (p : TmuxPane) : ∀ f ∈ p.fields, '\n' ∉ f := by
  intro f hf
  simp only [TmuxPane.fields, List.mem_cons, List.not_mem_nil, or_false] at hf
  rcases hf with rfl | rfl | rfl | rfl | rfl | rfl | rfl | rfl | rfl | rfl | rfl | rfl
  · simp [newline_not_mem_showNat]
  · exact p.sessionName.property
  · simp [newline_not_mem_showNat]
  · exact p.windowName.property
  · exact newline_not_mem_showNat _
  · exact p.layout.property.2
  · simp [paneText, newline_not_mem_showNat]
  · exact newline_not_mem_showNat _
  · exact newline_not_mem_showNat _
  · exact newline_not_mem_showNat _
  · exact p.command.property
  · cases p.active <;> decide

theorem getLast?_line (p : TmuxPane) :
    (List.intercalate SshTransport.separator p.fields).getLast? ≠ some '\r' := by
  rw [intercalate_fields]
  simp only [← List.append_assoc]
  rw [List.getLast?_append]
  cases p.active <;> simp

theorem strLines_listing (panes : List TmuxPane) :
    strLines (listing panes) =
      panes.map fun p => List.intercalate SshTransport.separator p.fields := by
  have hlines : (panes.map TmuxPane.fields).map (List.intercalate SshTransport.separator) =
      panes.map fun p => List.intercalate SshTransport.separator p.fields := by
    rw [List.map_map]
    rfl
  rw [listing, printLines, hlines]
  apply strLines_joinLines
  · intro l hl
    obtain ⟨p, -, rfl⟩ := List.mem_map.mp hl
    exact not_mem_intercalate (by decide) (newline_not_mem_fields p)
  · intro l hl
    obtain ⟨p, -, rfl⟩ := List.mem_map.mp hl
    exact if_neg (getLast?_line p)

/-- **The parser finds exactly the panes that are listed**, if no session and no
window has the separator in its name. -/
theorem mem_paneIds_listing {panes : List TmuxPane} (h : ∀ p ∈ panes, p.Unseparated)
    {pane : Text} :
    pane ∈ paneIds (SshTransport.parsePaneListing (listing panes)) ↔
      pane ∈ panes.map fun p => paneText p.id := by
  have hall : (panes.map fun p =>
      splitStr SshTransport.separator (List.intercalate SshTransport.separator p.fields)).filter
        (12 ≤ ·.length) = panes.map fun p =>
      splitStr SshTransport.separator (List.intercalate SshTransport.separator p.fields) := by
    rw [List.filter_eq_self]
    intro parts hparts
    obtain ⟨p, hp, rfl⟩ := List.mem_map.mp hparts
    exact decide_eq_true (splitStr_fields (h p hp)).1
  rw [SshTransport.parsePaneListing, listPanes, strLines_listing, List.map_map, Function.comp_def,
    hall, foldl_addToSessions, mem_paneIds_rows, List.map_map]
  rw [List.mem_map]
  constructor
  · rintro ⟨l, hl, rfl⟩
    obtain ⟨p, hp, rfl⟩ := List.mem_map.mp hl
    exact ⟨p, hp, (splitStr_fields (h p hp)).2.symm⟩
  · rintro ⟨p, hp, rfl⟩
    exact ⟨_, List.mem_map_of_mem hp, (splitStr_fields (h p hp)).2⟩

end Oxmux.Session
