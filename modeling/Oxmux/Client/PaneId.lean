import Oxmux.Lib.Text

/-! Qualified pane ids, `client/src/utils/paneId.ts`: the session's id, two
colons, tmux's pane id. -/

namespace Oxmux.Client
open Oxmux.Lib

def separator : Text := "::".toList

def qualifyPaneId (sessionId paneId : Text) : Text := sessionId ++ separator ++ paneId

/-- The text in front of the first separator and the text behind it. -/
def splitAtSeparator : Text → Option (Text × Text)
  | [] => none
  | c :: s =>
    match stripPrefix separator (c :: s) with
    | some rest => some ([], rest)
    | none => (splitAtSeparator s).map fun p => (c :: p.1, p.2)

structure PaneRef where
  sessionId : Text
  paneId : Text
  deriving DecidableEq

/-- `parseQualifiedPaneId`: an id without separator has no session. -/
def parseQualifiedPaneId (qid : Text) : PaneRef :=
  match splitAtSeparator qid with
  | some (sessionId, paneId) => { sessionId, paneId }
  | none => { sessionId := [], paneId := qid }

theorem splitAtSeparator_append {s : Text} (h : ':' ∉ s) (p : Text) :
    splitAtSeparator (s ++ separator ++ p) = some (s, p) := by
  induction s with
  | nil => rfl
  | cons c s ih =>
    simp only [List.mem_cons, not_or] at h
    have hne : stripPrefix separator (c :: (s ++ separator ++ p)) = none := by
      simp [stripPrefix, separator, h.1]
    rw [List.cons_append, List.cons_append, splitAtSeparator, hne, ih h.2]
    rfl

/-- **Parsing undoes qualifying** for a session id without colon. -/
@[simp] theorem parse_qualifyPaneId {s : Text} (h : ':' ∉ s) (p : Text) :
    parseQualifiedPaneId (qualifyPaneId s p) = { sessionId := s, paneId := p } := by
  rw [parseQualifiedPaneId, qualifyPaneId, splitAtSeparator_append h]

theorem splitAtSeparator_eq_some {q s p : Text} (h : splitAtSeparator q = some (s, p)) :
    q = s ++ separator ++ p := by
  induction q generalizing s with
  | nil => cases h
  | cons c q ih =>
    rw [splitAtSeparator] at h
    split at h
    · next rest hr =>
      cases h
      exact stripPrefix_eq_some hr
    · obtain ⟨⟨s', p'⟩, hs, he⟩ := Option.map_eq_some_iff.mp h
      cases he
      rw [ih hs]
      rfl

/-- **Qualifying undoes parsing** where there is a session. -/
theorem qualify_parse {qid : Text} (h : (parseQualifiedPaneId qid).sessionId ≠ []) :
    qualifyPaneId (parseQualifiedPaneId qid).sessionId (parseQualifiedPaneId qid).paneId = qid := by
  unfold parseQualifiedPaneId at h ⊢
  cases hs : splitAtSeparator qid with
  | none => simp [hs] at h
  | some p => exact (splitAtSeparator_eq_some hs).symm

/-- Sessions without colons do not share a qualified id. -/
theorem qualifyPaneId_inj {s p s' p' : Text} (hs : ':' ∉ s) (hs' : ':' ∉ s')
    (h : qualifyPaneId s p = qualifyPaneId s' p') : s = s' ∧ p = p' := by
  have hparse := congrArg parseQualifiedPaneId h
  rw [parse_qualifyPaneId hs, parse_qualifyPaneId hs'] at hparse
  injection hparse with h₁ h₂
  exact ⟨h₁, h₂⟩

theorem qualifyPaneId_left_inj {s s' p : Text} :
    qualifyPaneId s p = qualifyPaneId s' p ↔ s = s' := by
  simp [qualifyPaneId]

end Oxmux.Client
