import Oxmux.Lib.Text

/-! How a POSIX shell takes a command line apart into words and operators. The
result is there where the line alone determines it: no parameter or command is
expanded, no home directory, and no pattern that file names could match. -/

namespace Oxmux.Lib.Shell

/-! ## Words -/

/-- A character of a word, and whether it was quoted. -/
abbrev Mark := Char × Bool

def unquoted (s : Text) : List Mark := s.map fun c => (c, false)

def isBlank (c : Char) : Bool := c = ' ' || c = '\t'

def isOpChar (c : Char) : Bool := ['&', ';', '|', '<', '>', '(', ')'].contains c

def isBreak (c : Char) : Bool := isBlank c || c = '\n' || isOpChar c

/-- A character that stands for itself inside a word. -/
def isOrdinary (c : Char) : Bool :=
  !isBreak c && !(['\'', '"', '\\', '$', '\x60', '\x00'].contains c)

/-- Whether a bracket expression opens before these characters. -/
def closesBracket (rest : List Mark) : Bool :=
  match if rest.head? = some ('!', false) then rest.tail else rest with
  | [] => false
  | m :: rest => m.1 ≠ '/' && (rest.takeWhile fun m => m.1 ≠ '/').contains (']', false)

def hasBracket : List Mark → Bool
  | [] => false
  | m :: rest => m = ('[', false) && closesBracket rest || hasBracket rest

/-- Neither a home directory nor file names come in the place of the word. -/
def isFixed (w : List Mark) : Bool :=
  w.head? ≠ some ('~', false) && !w.contains ('*', false) && !w.contains ('?', false) &&
    !hasBracket w

/-! ## Tokens -/

inductive Token where
  | word (w : Text)
  | io (digits : Text)
  | op (o : Text)
  deriving DecidableEq

def operators : List Text :=
  [['&'], [';'], ['|'], ['<'], ['>'], ['('], [')'], ['&', '&'], ['|', '|'], [';', ';'], ['<', '<'],
    ['>', '>'], ['<', '&'], ['>', '&'], ['<', '>'], ['<', '<', '-'], ['>', '|']]

/-- What is being read. -/
inductive Reading where
  | between
  | bare (w : List Mark)
  | single (w : List Mark)
  | double (w : List Mark)
  | doubleEscaped (w : List Mark)
  | escaped (w : Option (List Mark))
  | op (o : Text)
  | comment
  deriving DecidableEq

/-- The tokens that are read, the newest first. -/
structure State where
  tokens : List Token
  reading : Reading
  deriving DecidableEq

/-- A word that ends before the character. -/
def close (tokens : List Token) (w : List Mark) (next : Option Char) : Option (List Token) :=
  if (next = some '<' ∨ next = some '>') ∧ w ≠ [] ∧ w.all (fun m => !m.2 && m.1.isDigit) then
    some (.io (w.map Prod.fst) :: tokens)
  else if isFixed w then some (.word (w.map Prod.fst) :: tokens)
  else none

/-- A character of a word, which may be its first. -/
def extend (tokens : List Token) (w : Option (List Mark)) (c : Char) : Option State :=
  if c = '\'' then some { tokens, reading := .single (w.getD []) }
  else if c = '"' then some { tokens, reading := .double (w.getD []) }
  else if c = '\\' then some { tokens, reading := .escaped w }
  else if isOrdinary c then some { tokens, reading := .bare (w.getD [] ++ [(c, false)]) }
  else none

/-- A character outside of words. -/
def between (tokens : List Token) (c : Char) : Option State :=
  if isBlank c then some { tokens, reading := .between }
  else if c = '\n' then some { tokens := .op ['\n'] :: tokens, reading := .between }
  else if isOpChar c then some { tokens, reading := .op [c] }
  else if c = '#' then some { tokens, reading := .comment }
  else extend tokens none c

def step (s : State) (c : Char) : Option State :=
  if c = '\x00' then none
  else
    match s.reading with
    | .between => between s.tokens c
    | .bare w =>
      if isBreak c then (close s.tokens w (some c)).bind fun tokens => between tokens c
      else extend s.tokens (some w) c
    | .single w =>
      some { s with reading := if c = '\'' then .bare w else .single (w ++ [(c, true)]) }
    | .double w =>
      if c = '"' then some { s with reading := .bare w }
      else if c = '\\' then some { s with reading := .doubleEscaped w }
      else if c = '$' ∨ c = '\x60' then none
      else some { s with reading := .double (w ++ [(c, true)]) }
    | .doubleEscaped w =>
      if c = '\n' then some { s with reading := .double w }
      else if c = '$' ∨ c = '\x60' ∨ c = '"' ∨ c = '\\' then
        some { s with reading := .double (w ++ [(c, true)]) }
      else some { s with reading := .double (w ++ [('\\', true), (c, true)]) }
    | .escaped w =>
      if c = '\n' then
        some { s with reading := match w with | some w => .bare w | none => .between }
      else some { s with reading := .bare (w.getD [] ++ [(c, true)]) }
    | .op o =>
      if operators.contains (o ++ [c]) then some { s with reading := .op (o ++ [c]) }
      else between (.op o :: s.tokens) c
    | .comment =>
      if c = '\n' then some { tokens := .op ['\n'] :: s.tokens, reading := .between } else some s

def run (s : State) (line : Text) : Option State := line.foldlM step s

def finish (s : State) : Option (List Token) :=
  match s.reading with
  | .between => some s.tokens
  | .comment => some s.tokens
  | .bare w => close s.tokens w none
  | .op o => some (.op o :: s.tokens)
  | _ => none

def start : State where
  tokens := []
  reading := .between

def split (line : Text) : Option (List Token) := ((run start line).bind finish).map List.reverse

/-! ## Commands -/

def isRedirection (o : Text) : Bool :=
  [['<'], ['>'], ['<', '<'], ['>', '>'], ['<', '&'], ['>', '&'], ['<', '>'], ['<', '<', '-'],
    ['>', '|']].contains o

/-- The rest of a line behind the arguments of a command, and behind the operator
of a redirection if `redirected` is set. -/
def commandsFrom (redirected : Bool) (args : List Text) : List Token → List (List Text)
  | [] => [args]
  | .word w :: tokens =>
    if redirected then commandsFrom false args tokens
    else commandsFrom false (args ++ [w]) tokens
  | .io _ :: tokens => commandsFrom redirected args tokens
  | .op o :: tokens =>
    if isRedirection o then commandsFrom true args tokens
    else args :: commandsFrom false [] tokens

/-- The arguments of the commands of a line, without the redirections. -/
def commands (tokens : List Token) : List (List Text) := commandsFrom false [] tokens

/-! ## Plain words -/

/-- A text that the shell reads as one word, which is that text. -/
structure Plain (w : Text) : Prop where
  ne_nil : w ≠ []
  ordinary : w.all isOrdinary
  no_comment : w.head? ≠ some '#'
  fixed : isFixed (unquoted w)

theorem plain_iff {w : Text} :
    Plain w ↔ w ≠ [] ∧ w.all isOrdinary ∧ w.head? ≠ some '#' ∧ isFixed (unquoted w) :=
  ⟨fun h => ⟨h.ne_nil, h.ordinary, h.no_comment, h.fixed⟩, fun h => ⟨h.1, h.2.1, h.2.2.1, h.2.2.2⟩⟩

instance : DecidablePred Plain := fun _ => decidable_of_iff _ plain_iff.symm

example : split "a 'b c'\"d\"\\ e 2>f; g #h".toList = some [.word "a".toList,
    .word "b cd e".toList, .io "2".toList, .op ">".toList, .word "f".toList, .op ";".toList,
    .word "g".toList] := by
  decide +kernel

/-! ## Reading on from a state -/

theorem run_append (s : State) (a b : Text) : run s (a ++ b) = (run s a).bind fun s => run s b := by
  simp [run, List.foldlM_append]

theorem run_cons (s : State) (c : Char) (line : Text) :
    run s (c :: line) = (step s c).bind fun s => run s line := by
  simp [run]

/-- The state behind the same text where tokens were read before. -/
def State.after (before : List Token) (s : State) : State :=
  { s with tokens := s.tokens ++ before }

section
variable {before tokens : List Token} {w : List Mark} {c : Char} {next : Option Char}

theorem close_after : close (tokens ++ before) w next =
    (close tokens w next).map (· ++ before) := by
  unfold close
  split_ifs <;> rfl

theorem extend_after (w : Option (List Mark)) : extend (tokens ++ before) w c =
    (extend tokens w c).map (State.after before) := by
  unfold extend
  split_ifs <;> rfl

theorem between_after (tokens before : List Token) (c : Char) : between (tokens ++ before) c =
    (between tokens c).map (State.after before) := by
  unfold between
  split_ifs
  · rfl
  · rfl
  · rfl
  · rfl
  · exact extend_after none

theorem step_after (before : List Token) (s : State) (c : Char) :
    step (s.after before) c = (step s c).map (State.after before) := by
  obtain ⟨tokens, reading⟩ := s
  by_cases hnul : c = '\x00'
  · rw [step, step, if_pos hnul, if_pos hnul]
    rfl
  · simp only [step, State.after, if_neg hnul]
    cases reading with
    | between => exact between_after tokens before c
    | bare w =>
      simp only [close_after]
      split_ifs
      · cases close tokens w (some c) with
        | none => rfl
        | some tokens => exact between_after tokens before c
      · exact extend_after _
    | single w => rfl
    | double w | doubleEscaped w | escaped w =>
      simp only
      split_ifs <;> rfl
    | op o =>
      simp only
      split_ifs
      · rfl
      · exact between_after (.op o :: tokens) before c
    | comment =>
      simp only
      split_ifs <;> rfl

theorem run_after (s : State) (line : Text) :
    run (s.after before) line = (run s line).map (State.after before) := by
  induction line generalizing s with
  | nil => rfl
  | cons c line ih =>
    rw [run_cons, run_cons, step_after]
    cases step s c with
    | none => rfl
    | some s => exact ih s

theorem finish_after (before : List Token) (s : State) :
    finish (s.after before) = (finish s).map (· ++ before) := by
  obtain ⟨tokens, reading⟩ := s
  cases reading with
  | bare w => exact close_after
  | _ => rfl

end

/-- Behind a text that ends between two words, a line is read as it is alone. -/
theorem split_append {before : List Token} {text : Text}
    (h : run start text = some { tokens := before, reading := .between }) (line : Text) :
    split (text ++ line) = (split line).map (before.reverse ++ ·) := by
  have hstart : ({ tokens := before, reading := .between } : State) = start.after before := rfl
  rw [split, run_append, h, Option.bind_some, hstart, run_after, split]
  cases run start line with
  | none => rfl
  | some s =>
    simp only [Option.map_some, Option.bind_some, finish_after]
    cases finish s <;> simp

/-! ## Plain words are read as they are -/

section
variable {tokens : List Token} {w : Text} {m : List Mark} {c : Char}

/-- What an ordinary character is not. -/
structure Ordinary (c : Char) : Prop where
  blank : isBlank c = false
  newline : c ≠ '\n'
  opChar : isOpChar c = false
  single : c ≠ '\''
  double : c ≠ '"'
  backslash : c ≠ '\\'
  nul : c ≠ '\x00'

theorem ordinary_of (h : isOrdinary c) : Ordinary c := by
  simp only [isOrdinary, isBreak, Bool.and_eq_true, Bool.not_eq_true', Bool.or_eq_false_iff,
    decide_eq_false_iff_not] at h
  obtain ⟨⟨⟨hblank, hnewline⟩, hop⟩, hspecial⟩ := h
  have hne : ∀ d, ['\'', '"', '\\', '$', '\x60', '\x00'].contains d → c ≠ d := by
    rintro d hd rfl
    rw [hd] at hspecial
    cases hspecial
  exact ⟨hblank, hnewline, hop, hne _ (by decide), hne _ (by decide), hne _ (by decide),
    hne _ (by decide)⟩

theorem extend_ordinary (h : isOrdinary c) (w : Option (List Mark)) :
    extend tokens w c = some { tokens, reading := .bare (w.getD [] ++ [(c, false)]) } := by
  have hc := ordinary_of h
  rw [extend, if_neg hc.single, if_neg hc.double, if_neg hc.backslash, if_pos h]

theorem step_first (h : isOrdinary c) (hcomment : c ≠ '#') :
    step { tokens, reading := .between } c = some { tokens, reading := .bare [(c, false)] } := by
  have hc := ordinary_of h
  rw [step, if_neg hc.nul]
  simp only [between, hc.blank, hc.opChar, if_neg hc.newline, if_neg hcomment]
  exact extend_ordinary h none

theorem step_next (h : isOrdinary c) :
    step { tokens, reading := .bare m } c =
      some { tokens, reading := .bare (m ++ [(c, false)]) } := by
  have hc := ordinary_of h
  rw [step, if_neg hc.nul]
  simp only [isBreak, hc.blank, hc.opChar, decide_eq_false hc.newline]
  exact extend_ordinary h (some m)

theorem run_bare (h : w.all isOrdinary) :
    run { tokens, reading := .bare m } w = some { tokens, reading := .bare (m ++ unquoted w) } := by
  induction w generalizing m with
  | nil => simp [run, unquoted]
  | cons c w ih =>
    rw [List.all_cons, Bool.and_eq_true] at h
    rw [run_cons, step_next h.1, Option.bind_some, ih h.2]
    simp [unquoted]

theorem run_plain (h : Plain w) :
    run { tokens, reading := .between } w = some { tokens, reading := .bare (unquoted w) } := by
  cases w with
  | nil => exact absurd rfl h.ne_nil
  | cons c w =>
    have hordinary := h.ordinary
    rw [List.all_cons, Bool.and_eq_true] at hordinary
    have hcomment : c ≠ '#' := fun he => h.no_comment (congrArg some he)
    rw [run_cons, step_first hordinary.1 hcomment, Option.bind_some, run_bare hordinary.2]
    rfl

theorem map_fst_unquoted (w : Text) : (unquoted w).map Prod.fst = w := by
  simp [unquoted, Function.comp_def]

theorem close_plain {next : Option Char} (h : Plain w)
    (hnext : next ≠ some '<' ∧ next ≠ some '>') :
    close tokens (unquoted w) next = some (.word w :: tokens) := by
  rw [close, if_neg (by tauto), if_pos h.fixed, map_fst_unquoted]

theorem run_word (h : Plain w) (line : Text) :
    run { tokens, reading := .between } (w ++ ' ' :: line) =
      run { tokens := .word w :: tokens, reading := .between } line := by
  rw [run_append, run_plain h, Option.bind_some, run_cons]
  simp [step, isBreak, isBlank, between, close_plain h]

theorem split_word (h : Plain w) (line : Text) :
    split (w ++ ' ' :: line) = (split line).map (.word w :: ·) := by
  have hword : run start (w ++ [' ']) = some { tokens := [.word w], reading := .between } := by
    rw [start, run_word h]
    rfl
  have hline : w ++ ' ' :: line = (w ++ [' ']) ++ line := by simp
  rw [hline, split_append hword]
  rfl

theorem finish_plain (h : Plain w) :
    (run { tokens, reading := .between } w).bind finish = some (.word w :: tokens) := by
  rw [run_plain h, Option.bind_some]
  exact close_plain h (by simp)

end

/-! ## Single quotes -/

def quoted (s : Text) : List Mark := s.map fun c => (c, true)

/-- A text that single quotes can hold. -/
def isQuotable (s : Text) : Bool := s.all fun c => c ≠ '\'' && c ≠ '\x00'

theorem run_single {text : Text} (h : isQuotable text) (tokens : List Token) (m : List Mark) :
    run { tokens, reading := .single m } text =
      some { tokens, reading := .single (m ++ quoted text) } := by
  induction text generalizing m with
  | nil => simp [run, quoted]
  | cons c text ih =>
    simp only [isQuotable, List.all_cons, Bool.and_eq_true, decide_eq_true_eq] at h
    rw [run_cons, step, if_neg h.1.2]
    simp only [if_neg h.1.1, Option.bind_some]
    rw [ih h.2]
    simp [quoted]

theorem isFixed_quoted (text : Text) : isFixed (quoted text) := by
  have hnot (c : Char) : (quoted text).contains (c, false) = false := by
    simp [quoted]
  have hbracket : hasBracket (quoted text) = false := by
    induction text with
    | nil => rfl
    | cons c text ih => simpa [quoted, hasBracket] using ih (by simp [quoted])
  have hhead : (quoted text).head? ≠ some ('~', false) := by
    cases text <;> simp [quoted]
  simp only [isFixed, hnot, hbracket, decide_eq_true hhead]
  rfl

/-- What stands in single quotes is one word. -/
theorem split_quoted {text : Text} (h : isQuotable text) :
    split ('\'' :: (text ++ ['\''])) = some [.word text] := by
  have hopen : step start '\'' = some { tokens := [], reading := .single [] } := rfl
  have hword : (quoted text).map Prod.fst = text := by
    simp [quoted, Function.comp_def]
  have hclose : close [] (quoted text) none = some [.word text] := by
    rw [close, if_neg (by simp), if_pos (isFixed_quoted text), hword]
  rw [split, run_cons, hopen, Option.bind_some, run_append, run_single h, Option.bind_some,
    run_cons]
  simp [step, run, finish, hclose]

/-! ## Lines of words -/

/-- Words one blank apart. -/
def unwords : List Text → Text
  | [] => []
  | [w] => w
  | w :: ws => w ++ ' ' :: unwords ws

theorem unwords_cons (w : Text) {ws : List Text} (h : ws ≠ []) :
    unwords (w :: ws) = w ++ ' ' :: unwords ws := by
  cases ws with
  | nil => exact absurd rfl h
  | cons => rfl

theorem run_unwords {ws : List Text} (hne : ws ≠ []) (h : ∀ w ∈ ws, Plain w)
    (tokens : List Token) :
    (run { tokens, reading := .between } (unwords ws)).bind finish =
      some ((ws.map Token.word).reverse ++ tokens) := by
  induction ws generalizing tokens with
  | nil => exact absurd rfl hne
  | cons w ws ih =>
    have hw := h w List.mem_cons_self
    by_cases hws : ws = []
    · subst hws
      exact finish_plain hw
    · rw [unwords_cons w hws, run_word hw,
        ih hws fun w' hw' => h w' (List.mem_cons_of_mem w hw')]
      simp

/-! ## What a token takes of the line -/

namespace Token

def text : Token → Text
  | word w => w
  | io digits => digits
  | op o => o

def isWord : Token → Bool
  | word _ => true
  | _ => false

end Token

/-- The blank that parts a word from the word before it. -/
def gap : List Token → Nat
  | .word _ :: _ => 1
  | _ => 0

@[simp] theorem gap_op (o : Text) (tokens : List Token) : gap (.op o :: tokens) = 0 := rfl

/-- The fewest characters that make up the tokens. -/
def cost : List Token → Nat
  | [] => 0
  | t :: ts => t.text.length + (if t.isWord then gap ts else 0) + cost ts

def Reading.cost (tokens : List Token) : Reading → Nat
  | between => gap tokens
  | bare w | single w | double w => w.length + gap tokens
  | doubleEscaped w => w.length + 1 + gap tokens
  | escaped w => (w.getD []).length + gap tokens
  | op o => o.length
  | comment => 0

def State.cost (s : State) : Nat := Shell.cost s.tokens + s.reading.cost s.tokens

theorem cost_close {tokens tokens' : List Token} {w : List Mark} {next : Option Char}
    (h : close tokens w next = some tokens') :
    cost tokens' ≤ w.length + gap tokens + cost tokens := by
  unfold close at h
  split_ifs at h <;> cases h <;> simp [cost, Token.text, Token.isWord]

theorem gap_le (tokens : List Token) : gap tokens ≤ 1 := by
  unfold gap
  split <;> simp

theorem cost_extend {tokens : List Token} {w : Option (List Mark)} {c : Char} {s : State}
    (h : extend tokens w c = some s) :
    s.cost ≤ cost tokens + (w.getD []).length + gap tokens + 1 := by
  unfold extend at h
  split_ifs at h <;> cases h <;> simp [State.cost, Reading.cost] <;> omega

theorem cost_between {tokens : List Token} {c : Char} {s : State}
    (h : between tokens c = some s) : s.cost ≤ cost tokens + gap tokens + 1 := by
  unfold between at h
  split_ifs at h
  · cases h
    simp [State.cost, Reading.cost]
  · cases h
    simp [State.cost, Reading.cost, cost, Token.text, Token.isWord]
    omega
  · cases h
    simp [State.cost, Reading.cost]
  · cases h
    simp [State.cost, Reading.cost]
    omega
  · simpa using cost_extend h

theorem between_break {tokens : List Token} {c : Char} {s : State} (hc : isBreak c)
    (h : between tokens c = some s) :
    s = { tokens, reading := .between } ∨
      s = { tokens := .op ['\n'] :: tokens, reading := .between } ∨
        s = { tokens, reading := .op [c] } := by
  unfold between at h
  simp only [isBreak, Bool.or_eq_true, decide_eq_true_eq] at hc
  split_ifs at h with hblank hnewline hop
  · exact .inl (Option.some.inj h).symm
  · exact .inr (.inl (Option.some.inj h).symm)
  · exact .inr (.inr (Option.some.inj h).symm)
  · exact absurd hc (by simp [hblank, hnewline, hop])
  · exact absurd hc (by simp [hblank, hnewline, hop])

/-- A character adds to no token more than itself. -/
theorem cost_step {s s' : State} {c : Char} (h : step s c = some s') : s'.cost ≤ s.cost + 1 := by
  obtain ⟨tokens, reading⟩ := s
  unfold step at h
  by_cases hnul : c = '\x00'
  · rw [if_pos hnul] at h
    cases h
  · simp only [if_neg hnul] at h
    cases reading with
    | between => exact cost_between h
    | bare w =>
      simp only at h
      split_ifs at h
      · obtain ⟨tokens', hclose, hbetween⟩ := Option.bind_eq_some_iff.mp h
        have hcost := cost_close hclose
        have hgap := gap_le tokens'
        obtain rfl | rfl | rfl := between_break ‹_› hbetween <;>
          simp [State.cost, Reading.cost, cost, Token.text, Token.isWord] at hcost ⊢ <;> omega
      · have hcost := cost_extend h
        simpa [State.cost, Reading.cost, Nat.add_assoc] using hcost
    | single w =>
      cases h
      simp only [State.cost]
      split_ifs
      · simp [Reading.cost]
      · simp [Reading.cost]
        omega
    | double w | doubleEscaped w =>
      simp only at h
      split_ifs at h <;> cases h <;> simp only [State.cost, Reading.cost, List.length_append,
        List.length_cons, List.length_nil] <;> omega
    | escaped w =>
      simp only at h
      split_ifs at h <;> cases h
      · cases w with
        | none => simp [State.cost, Reading.cost]
        | some w => simp [State.cost, Reading.cost]
      · simp [State.cost, Reading.cost]
        omega
    | op o =>
      simp only at h
      split_ifs at h
      · cases h
        simp [State.cost, Reading.cost]
        omega
      · have hcost := cost_between h
        simp [State.cost, Reading.cost, cost, Token.text, Token.isWord] at hcost ⊢
        omega
    | comment =>
      simp only at h
      split_ifs at h <;> cases h <;>
        simp [State.cost, Reading.cost, cost, Token.text, Token.isWord, Nat.add_comm]

theorem cost_finish {s : State} {tokens : List Token} (h : finish s = some tokens) :
    cost tokens ≤ s.cost := by
  obtain ⟨before, reading⟩ := s
  cases reading with
  | between | comment =>
    cases h
    simp [State.cost]
  | bare w =>
    have hcost : cost tokens ≤ w.length + gap before + cost before := cost_close h
    simp only [State.cost, Reading.cost]
    omega
  | op o =>
    cases h
    simp [State.cost, Reading.cost, cost, Token.text, Token.isWord, Nat.add_comm]
  | _ => cases h

/-- A line makes no more tokens than it has characters for. -/
theorem cost_run {s : State} {line : Text} {tokens : List Token}
    (h : (run s line).bind finish = some tokens) : cost tokens ≤ s.cost + line.length := by
  induction line generalizing s with
  | nil => exact cost_finish h
  | cons c line ih =>
    rw [run_cons] at h
    cases hs : step s c with
    | none =>
      rw [hs] at h
      cases h
    | some s' =>
      rw [hs, Option.bind_some] at h
      have hstep := cost_step hs
      have hrest := ih h
      rw [List.length_cons]
      omega

/-! ## Tokens that are words alone -/

/-- No operator is read, or is being read. -/
def State.Words (s : State) : Prop :=
  (∀ t ∈ s.tokens, t.isWord) ∧ ∀ o, s.reading ≠ .op o

theorem words_of_step {s s' : State} {c : Char} (h : step s c = some s') (hw : s'.Words) :
    s.Words := by
  obtain ⟨tokens, reading⟩ := s
  have hafter := step_after tokens { tokens := [], reading } c
  rw [State.after, List.nil_append, h] at hafter
  obtain ⟨new, hnew, rfl⟩ := Option.map_eq_some_iff.mp hafter.symm
  refine ⟨fun t ht => hw.1 t (List.mem_append_right _ ht), ?_⟩
  rintro o rfl
  simp only [step] at hnew
  split_ifs at hnew
  · cases hnew
    exact hw.2 _ rfl
  · have hop := between_after [] [.op o] c
    rw [List.nil_append, hnew] at hop
    obtain ⟨last, -, rfl⟩ := Option.map_eq_some_iff.mp hop.symm
    exact absurd (hw.1 (.op o) (by simp [State.after])) (by simp [Token.isWord])

theorem words_of_run {s : State} {line : Text} {tokens : List Token}
    (h : (run s line).bind finish = some tokens) (hw : ∀ t ∈ tokens, t.isWord) : s.Words := by
  induction line generalizing s with
  | nil =>
    obtain ⟨before, reading⟩ := s
    have hafter := finish_after before { tokens := [], reading }
    have hfinish : finish { tokens := before, reading } = some tokens := h
    rw [State.after, List.nil_append, hfinish] at hafter
    obtain ⟨new, hnew, rfl⟩ := Option.map_eq_some_iff.mp hafter.symm
    refine ⟨fun t ht => hw t (List.mem_append_right _ ht), ?_⟩
    rintro o rfl
    cases hnew
    exact absurd (hw (.op o) (by simp)) (by simp [Token.isWord])
  | cons c line ih =>
    rw [run_cons] at h
    cases hs : step s c with
    | none =>
      rw [hs] at h
      cases h
    | some s' =>
      rw [hs, Option.bind_some] at h
      exact words_of_step hs (ih h)

/-! ## A line without waste -/

/-- So far there are plain words only, read as they stand in the line. -/
def State.Bare (s : State) : Prop :=
  (∀ t ∈ s.tokens, ∃ w, t = .word w ∧ Plain w) ∧
    match s.reading with
    | .between => True
    | .bare m => ∃ w, m = unquoted w ∧ w ≠ [] ∧ w.all isOrdinary ∧ w.head? ≠ some '#'
    | _ => False

theorem Plain.of_close {tokens tokens' : List Token} {w : Text} {next : Option Char}
    (hne : w ≠ []) (hordinary : w.all isOrdinary) (hcomment : w.head? ≠ some '#')
    (h : close tokens (unquoted w) next = some tokens') (hw : ∀ t ∈ tokens', t.isWord) :
    tokens' = .word w :: tokens ∧ Plain w := by
  unfold close at h
  split_ifs at h with hio hfixed
  · cases h
    exact absurd (hw _ List.mem_cons_self) (by simp [Token.isWord])
  · rw [map_fst_unquoted, Option.some.injEq] at h
    exact ⟨h.symm, hne, hordinary, hcomment, hfixed⟩

/-- A character of a word that is not lost stands for itself. -/
theorem extend_tight {tokens : List Token} {m : Option (List Mark)} {c : Char} {s : State}
    (h : extend tokens m c = some s)
    (hcost : s.cost = cost tokens + (m.getD []).length + gap tokens + 1) :
    isOrdinary c ∧ s = { tokens, reading := .bare (m.getD [] ++ [(c, false)]) } := by
  unfold extend at h
  split_ifs at h with h₁ h₂ h₃ h₄ <;> cases h
  · simp only [State.cost, Reading.cost] at hcost
    omega
  · simp only [State.cost, Reading.cost] at hcost
    omega
  · simp only [State.cost, Reading.cost] at hcost
    omega
  · exact ⟨h₄, rfl⟩

theorem between_tight {tokens : List Token} {c : Char} {s : State} (h : between tokens c = some s)
    (hcost : s.cost = cost tokens + gap tokens + 1) (hw : s.Words) :
    isOrdinary c ∧ c ≠ '#' ∧ s = { tokens, reading := .bare [(c, false)] } := by
  unfold between at h
  split_ifs at h with hblank hnewline hop hcomment
  · cases h
    simp only [State.cost, Reading.cost] at hcost
    omega
  · cases h
    exact absurd (hw.1 _ List.mem_cons_self) (by simp [Token.isWord])
  · cases h
    exact absurd rfl (hw.2 [c])
  · cases h
    simp only [State.cost, Reading.cost] at hcost
    omega
  · obtain ⟨hordinary, rfl⟩ := extend_tight h (by simpa using hcost)
    exact ⟨hordinary, hcomment, rfl⟩

theorem State.Bare.step {s s' : State} {c : Char} (hs : s.Bare) (h : step s c = some s')
    (hcost : s'.cost = s.cost + 1) (hw : s'.Words) : s'.Bare := by
  obtain ⟨tokens, reading⟩ := s
  obtain ⟨htokens, hreading⟩ := hs
  unfold Shell.step at h
  by_cases hnul : c = '\x00'
  · rw [if_pos hnul] at h
    cases h
  · simp only [if_neg hnul] at h
    cases reading with
    | between =>
      obtain ⟨hordinary, hcomment, rfl⟩ := between_tight h hcost hw
      exact ⟨htokens, [c], rfl, by simp, by simp [hordinary], by simpa using hcomment⟩
    | bare m =>
      obtain ⟨w, rfl, hne, hordinary, hcomment⟩ := hreading
      simp only at h
      split_ifs at h with hbreak
      · obtain ⟨tokens', hclose, hbetween⟩ := Option.bind_eq_some_iff.mp h
        obtain rfl | rfl | rfl := between_break hbreak hbetween
        · obtain ⟨rfl, hplain⟩ := Plain.of_close hne hordinary hcomment hclose hw.1
          refine ⟨fun t ht => ?_, trivial⟩
          obtain rfl | ht := List.mem_cons.mp ht
          · exact ⟨w, rfl, hplain⟩
          · exact htokens t ht
        · exact absurd (hw.1 _ List.mem_cons_self) (by simp [Token.isWord])
        · exact absurd rfl (hw.2 [c])
      · obtain ⟨hc, rfl⟩ := extend_tight h (by
          simpa [State.cost, Reading.cost, Nat.add_assoc] using hcost)
        refine ⟨htokens, w ++ [c], by simp [unquoted], by simp, ?_, ?_⟩
        · simpa [hordinary] using hc
        · cases w with
          | nil => exact absurd rfl hne
          | cons d w => simpa using hcomment
    | _ => exact hreading.elim

theorem State.Bare.run {s : State} {line : Text} {tokens : List Token} (hs : s.Bare)
    (h : (Shell.run s line).bind finish = some tokens)
    (hcost : Shell.cost tokens = s.cost + line.length)
    (hw : ∀ t ∈ tokens, t.isWord) : ∀ t ∈ tokens, ∃ w, t = .word w ∧ Plain w := by
  induction line generalizing s with
  | nil =>
    obtain ⟨before, reading⟩ := s
    obtain ⟨htokens, hreading⟩ := hs
    have hfinish : finish { tokens := before, reading } = some tokens := h
    cases reading with
    | between =>
      cases hfinish
      exact htokens
    | bare m =>
      obtain ⟨w, rfl, hne, hordinary, hcomment⟩ := hreading
      obtain ⟨rfl, hplain⟩ := Plain.of_close hne hordinary hcomment hfinish hw
      intro t ht
      obtain rfl | ht := List.mem_cons.mp ht
      · exact ⟨w, rfl, hplain⟩
      · exact htokens t ht
    | _ => exact hreading.elim
  | cons c line ih =>
    rw [run_cons] at h
    cases hstep : Shell.step s c with
    | none =>
      rw [hstep] at h
      cases h
    | some s' =>
      rw [hstep, Option.bind_some] at h
      have hle := cost_step hstep
      have hrest := cost_run h
      rw [List.length_cons] at hcost
      exact ih (hs.step hstep (by omega) (words_of_run h hw)) h (by omega)

theorem length_unwords_append {ws : List Text} (hne : ws ≠ []) (w : Text) :
    (unwords (ws ++ [w])).length = (unwords ws).length + 1 + w.length := by
  induction ws with
  | nil => exact absurd rfl hne
  | cons v ws ih =>
    rw [List.cons_append, unwords_cons v (by simp)]
    by_cases hws : ws = []
    · subst hws
      simp [unwords]
      omega
    · rw [unwords_cons v hws, List.length_append, List.length_cons, ih hws]
      simp
      omega

theorem cost_words (ws : List Text) :
    cost (ws.map Token.word).reverse = (unwords ws).length := by
  induction ws using List.reverseRecOn with
  | nil => rfl
  | append_singleton ws w ih =>
    by_cases hws : ws = []
    · subst hws
      simp [cost, unwords, Token.text, Token.isWord, gap]
    · have hgap : gap (ws.map Token.word).reverse = 1 := by
        obtain ⟨v, vs, hv⟩ := List.exists_cons_of_ne_nil (List.reverse_ne_nil_iff.mpr hws)
        rw [← List.map_reverse, hv]
        rfl
      rw [length_unwords_append hws, List.map_append, List.reverse_append, ← ih]
      simp only [List.map_cons, List.map_nil, List.reverse_cons, List.reverse_nil, List.nil_append,
        List.cons_append, cost, Token.text, Token.isWord, hgap, if_true]
      omega

/-- **Words one blank apart** are read as those words exactly if all are plain. -/
theorem split_unwords_iff {ws : List Text} (hne : ws ≠ []) :
    split (unwords ws) = some (ws.map .word) ↔ ∀ w ∈ ws, Plain w := by
  constructor
  · intro h w hw
    obtain ⟨tokens, htokens, hrev⟩ := Option.map_eq_some_iff.mp h
    have hall : tokens = (ws.map Token.word).reverse := by
      rw [← hrev, List.reverse_reverse]
    have hplain := State.Bare.run (s := start) ⟨by simp [start], trivial⟩ htokens
      (by rw [hall, cost_words]; simp [State.cost, start, cost, Reading.cost, gap])
      (by rw [hall]; simp [Token.isWord])
    obtain ⟨w', he, hw'⟩ := hplain (.word w) (by rw [hall]; simpa using hw)
    cases he
    exact hw'
  · intro h
    rw [split, start, run_unwords hne h]
    simp

end Oxmux.Lib.Shell
