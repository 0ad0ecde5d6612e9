import Oxmux.Tmux.ControlStream

/-! Command blocks whose output looks like a guard line
(`server/src/tmux/control.rs`): the parser compares the guard's keyword and not
its arguments. -/

namespace Oxmux.Tmux
open Oxmux.Lib

/-- A fed line without the carriage returns that end it. -/
def content (line : Text) : Text := trimEndMatches '\r' line

/-- The lines of a block that tmux writes for a command. -/
def blockLines (t n f : Nat) (body : List Text) : List Text :=
  guardLine "%begin".toList t n f :: body ++ [guardLine "%end".toList t n f]

/-- The block is read as one response with the lines of the body, and nothing
else is read. -/
def ReadAsOne (t n f : Nat) (body : List Text) : Prop :=
  ∃ timestamp flags, (ControlModeParser.new.feedLines (blockLines t n f body)).2 =
    [.commandResponse timestamp flags (body.map content)]

/-- A line that closes a block, whatever its arguments are. -/
def ClosesBlock (line : Text) : Prop :=
  startsWith "%end ".toList line = true ∨ startsWith "%error ".toList line = true

instance (line : Text) : Decidable (ClosesBlock line) :=
  inferInstanceAs (Decidable (_ ∨ _))

namespace ControlModeParser

/-! ## Lines inside a block -/

theorem startsWith_iff {p s : Text} : startsWith p s = true ↔ p <+: s := by
  constructor
  · intro h
    obtain ⟨r, hr⟩ := Option.isSome_iff_exists.mp h
    exact ⟨r, (stripPrefix_eq_some hr).symm⟩
  · rintro ⟨r, rfl⟩
    exact startsWith_append p r

/-- A keyword that ends in a space is not met by carriage returns. -/
theorem startsWith_content {p line : Text} (hp : p.getLast? = some ' ') :
    startsWith p (content line) = startsWith p line := by
  have hline : content line ++ line.rtakeWhile (· == '\r') = line :=
    List.rdropWhile_append_rtakeWhile
  rw [Bool.eq_iff_iff, startsWith_iff, startsWith_iff]
  constructor
  · intro h
    rw [← hline]
    exact h.trans (List.prefix_append _ _)
  · intro h
    rw [← hline] at h
    rcases le_total p.length (content line).length with hle | hle
    · exact List.prefix_of_prefix_length_le h (List.prefix_append _ _) hle
    · obtain ⟨x, hx⟩ := List.prefix_of_prefix_length_le (List.prefix_append _ _) h hle
      rw [← hx] at h hp ⊢
      rcases List.eq_nil_or_concat x with rfl | ⟨init, c, rfl⟩
      · simp only [List.append_nil]
        exact ⟨[], List.append_nil _⟩
      · have hc : c = ' ' := by simpa using hp
        have hmem : c ∈ line.rtakeWhile (· == '\r') :=
          ((List.prefix_append_right_inj _).mp h).subset (by simp)
        have hcr := List.mem_rtakeWhile_imp hmem
        rw [hc] at hcr
        exact absurd hcr (by decide)

theorem closesBlock_content {line : Text} : ClosesBlock (content line) ↔ ClosesBlock line := by
  unfold ClosesBlock
  rw [startsWith_content (by simp), startsWith_content (by simp)]

/-- A line that does not close the block is kept. -/
theorem feedLine_open (block : BlockAccumulator) {line : Text} (h : ¬ClosesBlock line) :
    feedLine { inBlock := some block } line =
      ({ inBlock := some { block with lines := block.lines ++ [content line] } }, none) := by
  obtain ⟨hend, herr⟩ := not_or.mp (mt closesBlock_content.mp h)
  have hblock : feedBlock block (content line) =
      (some { block with lines := block.lines ++ [content line] }, none) := by
    rw [feedBlock, if_neg hend, if_neg herr]
  exact congrArg (fun r => (({ inBlock := r.1 } : ControlModeParser), r.2)) hblock

theorem feedLines_open (block : BlockAccumulator) {body : List Text}
    (h : ∀ l ∈ body, ¬ClosesBlock l) :
    feedLines { inBlock := some block } body =
      ({ inBlock := some { block with lines := block.lines ++ body.map content } }, []) := by
  induction body generalizing block with
  | nil => simp
  | cons l body ih =>
    rw [feedLines_cons, feedLine_open block (h l List.mem_cons_self),
      ih _ fun x hx => h x (List.mem_cons_of_mem _ hx)]
    simp

/-- The block ends at the first line that closes it. -/
theorem feedLine_close (block : BlockAccumulator) {line : Text} (h : ClosesBlock line) :
    feedLine { inBlock := some block } line =
      (new, if startsWith "%end ".toList line = true then
        some (.commandResponse block.timestamp block.flags block.lines) else none) := by
  have hend : startsWith "%end ".toList (content line) = startsWith "%end ".toList line :=
    startsWith_content (by simp)
  have hblock : feedBlock block (content line) =
      (none, if startsWith "%end ".toList line = true then
        some (.commandResponse block.timestamp block.flags block.lines) else none) := by
    by_cases he : startsWith "%end ".toList line = true
    · rw [feedBlock, hend, if_pos he, if_pos he]
    · have herr : startsWith "%error ".toList (content line) = true := by
        rw [startsWith_content (by simp)]
        exact h.resolve_left he
      rw [feedBlock, hend, if_neg he, if_pos herr, if_neg he]
  exact congrArg (fun r => (({ inBlock := r.1 } : ControlModeParser), r.2)) hblock

/-! ## Responses are not longer than what was fed -/

/-- The lines that the parser holds. -/
def pending (p : ControlModeParser) : Nat := p.inBlock.elim 0 (·.lines.length)

theorem notification_ne_commandResponse (line : Text) (t f : Nat) (lines : List Text) :
    notification line ≠ some (.commandResponse t f lines) := by
  intro h
  unfold notification at h
  split at h
  · obtain ⟨p, -, hp⟩ := Option.map_eq_some_iff.mp h
    cases hp
  split at h
  · obtain ⟨p, -, hp⟩ := Option.map_eq_some_iff.mp h
    cases hp
  split at h
  · cases h
  split at h
  · cases h
  split at h
  · cases h
  split at h
  · cases h
  split at h
  · obtain ⟨p, -, hp⟩ := Option.map_eq_some_iff.mp h
    cases hp
  split at h
  · obtain ⟨p, -, hp⟩ := Option.map_eq_some_iff.mp h
    cases hp
  split at h
  · cases h
  split at h
  · cases h
  split at h
  · cases h
  · cases h

/-- A line is kept, or closes the block, or stands outside; a response has the
lines that were held. -/
theorem feedLine_pending (p : ControlModeParser) (line : Text) :
    (p.feedLine line).1.pending ≤ p.pending + 1 ∧
    ∀ t f lines, (p.feedLine line).2 = some (.commandResponse t f lines) →
      lines.length = p.pending := by
  obtain ⟨inBlock⟩ := p
  cases inBlock with
  | some block =>
    by_cases hc : ClosesBlock line
    · rw [feedLine_close block hc]
      refine ⟨Nat.zero_le _, ?_⟩
      intro t f lines h
      by_cases he : startsWith "%end ".toList line = true
      · simp only [if_pos he, Option.some.injEq, TmuxEvent.commandResponse.injEq] at h
        rw [← h.2.2]
        rfl
      · simp only [if_neg he] at h
        cases h
    · rw [feedLine_open block hc]
      constructor
      · simp [pending]
      · intro t f lines h
        cases h
  | none =>
    cases hb : stripPrefix "%begin ".toList (content line) with
    | some rest =>
      have hstep : feedLine { inBlock := none } line =
          ({ inBlock := some (beginBlock rest) }, none) := by
        simp only [feedLine, content] at hb ⊢
        rw [hb]
      rw [hstep]
      refine ⟨Nat.zero_le _, ?_⟩
      intro t f lines h
      cases h
    | none =>
      have hstep : feedLine { inBlock := none } line =
          ({ inBlock := none }, notification (content line)) := by
        simp only [feedLine, content] at hb ⊢
        rw [hb]
      rw [hstep]
      refine ⟨Nat.zero_le _, ?_⟩
      intro t f lines h
      exact absurd h (notification_ne_commandResponse _ t f lines)

theorem length_response_lt (p : ControlModeParser) (fed : List Text) {t f : Nat}
    {lines : List Text} (h : .commandResponse t f lines ∈ (p.feedLines fed).2) :
    lines.length < p.pending + fed.length := by
  induction fed generalizing p with
  | nil => cases h
  | cons line fed ih =>
    obtain ⟨hle, hresp⟩ := feedLine_pending p line
    rw [feedLines_cons] at h
    rcases List.mem_append.mp h with h | h
    · have hlen := hresp t f lines (Option.mem_toList.mp h)
      rw [hlen, List.length_cons]
      omega
    · have hlt := ih (p.feedLine line).1 h
      rw [List.length_cons]
      omega

/-! ## Blocks -/

theorem feedLine_guard (t n f : Nat) : ∃ timestamp flags,
    new.feedLine (guardLine "%begin".toList t n f) =
      ({ inBlock := some { timestamp, flags, lines := [] } }, none) := by
  have hguard : guardLine "%begin".toList t n f =
      "%begin ".toList ++ (showNat t ++ ' ' :: (showNat n ++ ' ' :: showNat f)) := by
    simp [guardLine, words]
  have hcr := getLast?_guardLine_ne "%begin".toList t n f
  rw [hguard] at hcr ⊢
  exact ⟨_, _, feedLine_begin hcr⟩

theorem closesBlock_guard (t n f : Nat) : startsWith "%end ".toList
    (guardLine "%end".toList t n f) = true := by
  have hguard : guardLine "%end".toList t n f =
      "%end ".toList ++ words [showNat t, showNat n, showNat f] := by
    simp [guardLine, words]
  rw [hguard]
  exact startsWith_append _ _

/-- The events of a block, from its first line that closes it. -/
theorem feedLines_block (block : BlockAccumulator) {body : List Text} {last : Text}
    {rest : List Text} (hbody : ∀ l ∈ body, ¬ClosesBlock l) (hlast : ClosesBlock last) :
    (feedLines { inBlock := some block } (body ++ last :: rest)).2 =
      (if startsWith "%end ".toList last = true then
        [.commandResponse block.timestamp block.flags (block.lines ++ body.map content)] else []) ++
        (new.feedLines rest).2 := by
  rw [feedLines_append, feedLines_open block hbody, feedLines_cons,
    feedLine_close _ hlast]
  by_cases he : startsWith "%end ".toList last = true
  · simp only [if_pos he]
    rfl
  · simp only [if_neg he]
    rfl

/-- A body is free of lines that close the block, or has a first one. -/
theorem first_closing (body : List Text) : (∀ l ∈ body, ¬ClosesBlock l) ∨
    ∃ pre l post, body = pre ++ l :: post ∧ (∀ x ∈ pre, ¬ClosesBlock x) ∧ ClosesBlock l := by
  induction body with
  | nil => exact Or.inl (by simp)
  | cons l body ih =>
    by_cases hl : ClosesBlock l
    · exact Or.inr ⟨[], l, body, rfl, by simp, hl⟩
    · rcases ih with h | ⟨pre, l', post, rfl, hpre, hl'⟩
      · exact Or.inl (List.forall_mem_cons.mpr ⟨hl, h⟩)
      · exact Or.inr ⟨l :: pre, l', post, rfl, List.forall_mem_cons.mpr ⟨hl, hpre⟩, hl'⟩

end ControlModeParser

open ControlModeParser

/-- **A block is read as one response exactly if no line of its body looks like
the end of a block**, whatever arguments that line has. -/
theorem readAsOne_iff (t n f : Nat) (body : List Text) :
    ReadAsOne t n f body ↔ ∀ l ∈ body, ¬ClosesBlock l := by
  obtain ⟨ts, fl, hopen⟩ := feedLine_guard t n f
  have hlast := closesBlock_guard t n f
  have hevents : (new.feedLines (blockLines t n f body)).2 =
      (feedLines { inBlock := some { timestamp := ts, flags := fl, lines := [] } }
        (body ++ [guardLine "%end".toList t n f])).2 := by
    rw [blockLines, List.cons_append, feedLines_cons, hopen]
    rfl
  unfold ReadAsOne
  rw [hevents]
  constructor
  · rintro ⟨timestamp, flags, h⟩
    rcases first_closing body with hbody | ⟨pre, l, post, rfl, hpre, hl⟩
    · exact hbody
    · exfalso
      rw [List.append_assoc, List.cons_append, feedLines_block _ hpre hl] at h
      by_cases he : startsWith "%end ".toList l = true
      · -- closed early: the response has fewer lines than the body
        rw [if_pos he] at h
        obtain ⟨hresp, -⟩ := List.cons.inj h
        have hlen := congrArg List.length (TmuxEvent.commandResponse.inj hresp).2.2
        simp only [List.nil_append, List.length_map, List.length_append, List.length_cons] at hlen
        omega
      · -- dropped: what is left of the body is too short for a response
        rw [if_neg he, List.nil_append] at h
        have hmem : .commandResponse timestamp flags ((pre ++ l :: post).map content) ∈
            (new.feedLines (post ++ [guardLine "%end".toList t n f])).2 := by
          rw [h]
          exact List.mem_singleton_self _
        have hlt := length_response_lt _ _ hmem
        have hnew : new.pending = 0 := rfl
        simp only [hnew, List.length_map, List.length_append, List.length_cons,
          List.length_nil] at hlt
        omega
  · intro hbody
    refine ⟨ts, fl, ?_⟩
    rw [feedLines_block _ hbody (Or.inl hlast), if_pos hlast]
    rfl

/-- Output that shows the end of another block, and what follows it. -/
theorem readAsOne_premature :
    ¬ReadAsOne 7 3 0 ["%end 6 2 0".toList, "%window-add @5".toList] := by
  rintro ⟨timestamp, flags, h⟩
  have hlen : (new.feedLines
      (blockLines 7 3 0 ["%end 6 2 0".toList, "%window-add @5".toList])).2.length = 2 := by
    decide +kernel
  rw [h] at hlen
  cases hlen

end Oxmux.Tmux
