import Oxmux.Tmux.Control

/-! What tmux writes in control mode, as a list of items, and the proof that the
parser reads every such list back: one event for each notification and each
successful command block, in order. -/

namespace Oxmux.Tmux
open Oxmux.Lib Oxmux.Lib.Utf8

/-- A notification, or a command's output between its two guard lines. The
payload of an output notification is the escaped form of `data`. -/
inductive Item where
  | output (paneId payload : Text) (data : Bytes)
  | sessionChanged (id name : Text)
  | sessionCreated (id name : Text)
  | sessionClosed (id : Text)
  | windowAdd (id : Text)
  | windowClose (id : Text)
  | windowRenamed (id name : Text)
  | layoutChange (windowId layout : Text)
  | paneModeChanged (paneId : Text)
  | exit (reason : Option Text)
  | block (timestamp number flags : Nat) (body : List Text)
  | errorBlock (timestamp number flags : Nat) (body : List Text)

/-- Words with one space between two of them. -/
def words : List Text → Text
  | [] => []
  | [w] => w
  | w :: ws => w ++ ' ' :: words ws

def guardLine (keyword : Text) (timestamp number flags : Nat) : Text :=
  words [keyword, showNat timestamp, showNat number, showNat flags]

namespace Item

def lines : Item → List Text
  | output paneId payload _ => [words ["%output".toList, paneId, payload]]
  | sessionChanged id name => [words ["%session-changed".toList, id, name]]
  | sessionCreated id name => [words ["%session-created".toList, id, name]]
  | sessionClosed id => [words ["%session-closed".toList, id]]
  | windowAdd id => [words ["%window-add".toList, id]]
  | windowClose id => [words ["%window-close".toList, id]]
  | windowRenamed id name => [words ["%window-renamed".toList, id, name]]
  | layoutChange windowId layout => [words ["%layout-change".toList, windowId, layout]]
  | paneModeChanged paneId => [words ["%pane-mode-changed".toList, paneId]]
  | exit none => ["%exit".toList]
  | exit (some reason) => [words ["%exit".toList, reason]]
  | block t n f body => guardLine "%begin".toList t n f :: body ++ [guardLine "%end".toList t n f]
  | errorBlock t n f body =>
    guardLine "%begin".toList t n f :: body ++ [guardLine "%error".toList t n f]

def events : Item → List TmuxEvent
  | output paneId _ data => [.output paneId data]
  | sessionChanged id name => [.sessionChanged id name]
  | sessionCreated id name => [.sessionCreated id name]
  | sessionClosed id => [.sessionClosed id]
  | windowAdd id => [.windowAdd id]
  | windowClose id => [.windowClose id]
  | windowRenamed id name => [.windowRenamed id name]
  | layoutChange windowId layout => [.layoutChange windowId layout]
  | paneModeChanged paneId => [.paneModeChanged paneId]
  | exit reason => [.exit reason]
  | block t _ f body => [.commandResponse t f body]
  | errorBlock _ _ _ _ => []

end Item

def IsId (id : Text) : Prop := ' ' ∉ id

/-- Free text: no newline and no carriage return at its end. -/
structure IsText (t : Text) : Prop where
  no_newline : '\n' ∉ t
  no_cr : t.getLast? ≠ some '\r'

/-- A line of command output that does not close the block. -/
structure IsBody (l : Text) : Prop extends IsText l where
  no_end : startsWith "%end ".toList l = false
  no_error : startsWith "%error ".toList l = false

def Item.WellFormed : Item → Prop
  | .output paneId payload data => IsId paneId ∧ encode payload = escape data
  | .sessionChanged id name | .sessionCreated id name | .windowRenamed id name
  | .layoutChange id name => IsId id ∧ IsText name
  | .sessionClosed id | .windowAdd id | .windowClose id | .paneModeChanged id =>
    IsId id ∧ IsText id
  | .exit none => True
  | .exit (some reason) => IsText reason
  | .block t _ f body | .errorBlock t _ f body =>
    t < 2 ^ 64 ∧ f < 2 ^ 32 ∧ ∀ l ∈ body, IsBody l

/-! ## Line ends -/

/-- A line of words ends as its last word does, or in a space. -/
theorem getLast?_words_ne {ws : List Text}
    (h : ∀ w, ws.getLast? = some w → w.getLast? ≠ some '\r') :
    (words ws).getLast? ≠ some '\r' := by
  induction ws with
  | nil => simp [words]
  | cons w ws ih =>
    cases ws with
    | nil => exact h w rfl
    | cons v vs =>
      have hv := ih fun x hx => h x (by rw [List.getLast?_cons_cons, hx])
      have hw : words (w :: v :: vs) = (w ++ [' ']) ++ words (v :: vs) := by simp [words]
      rw [hw, List.getLast?_append]
      cases hl : (words (v :: vs)).getLast? with
      | none => simp
      | some c => simpa [hl] using hv

theorem getLast?_showNat_ne (n : Nat) : (showNat n).getLast? ≠ some '\r' := fun h =>
  not_mem_showNat n (by decide) (List.mem_of_getLast? h)

theorem getLast?_guardLine_ne (keyword : Text) (t n f : Nat) :
    (guardLine keyword t n f).getLast? ≠ some '\r' :=
  getLast?_words_ne (by simp [getLast?_showNat_ne])

/-- No byte of an escaped text is a control character. -/
theorem le_toNat_of_mem_escape {data : Bytes} {b : Byte} (h : b ∈ escape data) :
    0x20 ≤ b.toNat := by
  obtain ⟨x, -, hx⟩ := List.mem_flatMap.mp h
  have hdigit (n : Nat) : 0x20 ≤ (octalDigit n).toNat := by
    rw [octalDigit, toNat_ofNat_lt (by omega)]
    omega
  unfold escapeByte at hx
  split at hx
  · simp only [List.mem_cons, List.not_mem_nil, or_false] at hx
    rcases hx with rfl | rfl | rfl | rfl
    · decide
    all_goals exact hdigit _
  · next hn =>
    rw [List.mem_singleton.mp hx]
    simp only [needsEscape, Bool.or_eq_true, decide_eq_true_eq, not_or] at hn
    omega

/-- Escaped output holds no control character: no line end either. -/
theorem control_not_mem_payload {payload : Text} {data : Bytes} {c : Char}
    (h : encode payload = escape data) (hc : c.toNat < 0x20) : c ∉ payload := by
  intro hm
  obtain ⟨s, t, rfl⟩ := List.append_of_mem hm
  have hbyte : String.utf8EncodeChar c = [UInt8.ofNat c.toNat] := by
    rcases encodeChar_cases c with ⟨-, e⟩ | ⟨hv, -⟩ | ⟨hv, -⟩ | ⟨hv, -⟩
    · exact e
    all_goals omega
  have hb : UInt8.ofNat c.toNat ∈ escape data := by
    rw [← h]
    simp [hbyte]
  have hle := le_toNat_of_mem_escape hb
  rw [toNat_ofNat_lt (by omega)] at hle
  omega

/-! ## One item -/

open ControlModeParser

theorem feedLines_words {ws : List Text} {e : TmuxEvent}
    (hcr : ∀ w, ws.getLast? = some w → w.getLast? ≠ some '\r')
    (hb : stripPrefix "%begin ".toList (words ws) = none)
    (he : notification (words ws) = some e) : new.feedLines [words ws] = (new, [e]) := by
  rw [feedLines_cons, feedLine_notification (getLast?_words_ne hcr) hb, he]
  rfl

/-- A command block: its guard lines and what stands between them. -/
theorem feedLines_guarded {t n f : Nat} {body : List Text} {last : Text} {e : Option TmuxEvent}
    (ht : t < 2 ^ 64) (hf : f < 2 ^ 32) (hbody : ∀ l ∈ body, IsBody l)
    (hlast : last.getLast? ≠ some '\r')
    (he : feedBlock { timestamp := t, flags := f, lines := body } last = (none, e)) :
    new.feedLines (guardLine "%begin".toList t n f :: body ++ [last]) = (new, e.toList) := by
  have hguard : guardLine "%begin".toList t n f =
      "%begin ".toList ++ (showNat t ++ ' ' :: (showNat n ++ ' ' :: showNat f)) := by
    simp [guardLine, words]
  have hcr := getLast?_guardLine_ne "%begin".toList t n f
  have hopen : beginBlock (showNat t ++ ' ' :: (showNat n ++ ' ' :: showNat f)) =
      { timestamp := t, flags := f, lines := [] } := by
    have hsplit := splitn_three (showNat f) (not_mem_showNat t (by decide : ' '.isDigit = false))
      (not_mem_showNat n (by decide))
    simp [beginBlock, hsplit, parseUInt_showNat ht, parseUInt_showNat hf]
  have hin := feedLines_body { timestamp := t, flags := f, lines := [] }
    (fun l hl => (hbody l hl).no_cr) (fun l hl => (hbody l hl).no_end)
    (fun l hl => (hbody l hl).no_error)
  rw [hguard] at hcr ⊢
  rw [List.cons_append, feedLines_cons, feedLine_begin hcr, hopen, feedLines_append, hin]
  simp only [feedLines_cons, feedLines_nil, feedLine_block hlast, List.nil_append, he]
  cases e <;> rfl

/-- Every item is read back and leaves the parser outside a block. -/
theorem feedLines_item {i : Item} (h : i.WellFormed) :
    new.feedLines i.lines = (new, i.events) := by
  cases i with
  | output paneId payload data =>
    obtain ⟨hid, hp⟩ := h
    have hcr : payload.getLast? ≠ some '\r' := fun hl =>
      control_not_mem_payload hp (by decide) (List.mem_of_getLast? hl)
    refine feedLines_words (by simp [hcr]) (by simp [words, stripPrefix]) ?_
    simp [words, notification, stripPrefix, splitOnce_append _ hid,
      (decode_tmux_output_escape data payload hp).1]
  | sessionChanged id name | windowRenamed id name | layoutChange id name =>
    obtain ⟨hid, hn⟩ := h
    refine feedLines_words (by simp [hn.no_cr]) (by simp [words, stripPrefix]) ?_
    simp [words, notification, stripPrefix, splitOnce_append _ hid]
  | sessionCreated id name =>
    obtain ⟨hid, hn⟩ := h
    refine feedLines_words (by simp [hn.no_cr]) (by simp [words, stripPrefix]) ?_
    simp [words, notification, stripPrefix, splitn_two _ hid]
  | sessionClosed id | windowAdd id | windowClose id | paneModeChanged id =>
    refine feedLines_words (by simp [h.2.no_cr]) (by simp [words, stripPrefix]) ?_
    simp [words, notification, stripPrefix]
  | exit reason =>
    cases reason with
    | none => decide
    | some reason =>
      refine feedLines_words (by simp [h.no_cr]) (by simp [words, stripPrefix]) ?_
      simp [words, notification, stripPrefix]
  | block t n f body =>
    obtain ⟨ht, hf, hbody⟩ := h
    have hend : guardLine "%end".toList t n f =
        "%end ".toList ++ words [showNat t, showNat n, showNat f] := by
      simp [guardLine, words]
    have hcr := getLast?_guardLine_ne "%end".toList t n f
    refine feedLines_guarded (e := some (.commandResponse t f body)) ht hf hbody hcr ?_
    rw [hend]
    simp only [feedBlock, startsWith_append, if_true]
  | errorBlock t n f body =>
    obtain ⟨ht, hf, hbody⟩ := h
    have herr : guardLine "%error".toList t n f =
        "%error ".toList ++ words [showNat t, showNat n, showNat f] := by
      simp [guardLine, words]
    have hcr := getLast?_guardLine_ne "%error".toList t n f
    refine feedLines_guarded (e := none) ht hf hbody hcr ?_
    rw [herr]
    have hne : startsWith "%end ".toList
        ("%error ".toList ++ words [showNat t, showNat n, showNat f]) = false := by
      simp [startsWith, stripPrefix]
    simp only [feedBlock, hne, startsWith_append, if_true, Bool.false_eq_true, if_false]

/-- **Control-mode parsing is faithful**: whatever items tmux writes, a fresh
parser emits what they report, in order, and ends outside a block. -/
theorem feedLines_items (items : List Item) (h : ∀ i ∈ items, i.WellFormed) :
    new.feedLines (items.flatMap Item.lines) = (new, items.flatMap Item.events) := by
  induction items with
  | nil => rfl
  | cons i items ih =>
    simp only [List.flatMap_cons, feedLines_append, feedLines_item (h i (by simp))]
    rw [ih fun x hx => h x (by simp [hx])]

/-- A failed block whose output looks like a notification, a notification with
spaces in it, and a block. -/
theorem feedLines_items_sample :
    new.feedLines ["%begin 7 3 0".toList, "%window-add @9".toList, "%error 7 3 0".toList,
      "%window-renamed @1 my shell".toList,
      "%begin 8 4 1".toList, "%exit".toList, "%end 8 4 1".toList] =
    (new, [.windowRenamed "@1".toList "my shell".toList,
      .commandResponse 8 1 ["%exit".toList]]) :=
  feedLines_items [.errorBlock 7 3 0 ["%window-add @9".toList],
    .windowRenamed "@1".toList "my shell".toList, .block 8 4 1 ["%exit".toList]]
    (by
      intro i hi
      simp only [List.mem_cons, List.not_mem_nil, or_false] at hi
      rcases hi with rfl | rfl | rfl
      · exact ⟨by decide, by decide, by
          simp only [List.mem_singleton, forall_eq]
          exact ⟨⟨by decide, by decide⟩, by decide, by decide⟩⟩
      · exact ⟨by simp [IsId], by decide, by decide⟩
      · exact ⟨by decide, by decide, by
          simp only [List.mem_singleton, forall_eq]
          exact ⟨⟨by decide, by decide⟩, by decide, by decide⟩⟩)

end Oxmux.Tmux
