import Mathlib.Data.List.Sort
import Oxmux.Lib.Shell

/-! The command lines that name a tmux session: those of `SshTransport`
(`server/src/session/ssh_transport.rs`) and of the agent's `run_control_mode`
(`agent/src/quic/server.rs`) go through a shell, while the two `ensure_session`
(`server/src/session/local.rs`, `agent/src/tmux_manager.rs`) pass arguments. -/

namespace Oxmux.Session
open Oxmux.Lib Shell

/-! ## Arguments -/

def hasSessionArgs (name : Text) : List Text := ["has-session".toList, "-t".toList, name]

def newSessionArgs (name : Text) : List Text :=
  ["new-session".toList, "-d".toList, "-s".toList, name, "-x".toList, "80".toList, "-y".toList,
    "24".toList]

/-- `ensure_session` of the local transport: the two calls of tmux, the second
one where the first one fails. -/
def LocalTransport.ensureSession (name : Text) : List (List Text) :=
  [hasSessionArgs name, newSessionArgs name]

/-- `tmux_cmd` of the agent, with the socket that it has found. -/
def TmuxManager.tmuxArgs (sock : Option Text) (args : List Text) : List Text :=
  match sock with
  | some sock => "-S".toList :: sock :: args
  | none => args

def TmuxManager.ensureSession (sock : Option Text) (name : Text) : List (List Text) :=
  [tmuxArgs sock (hasSessionArgs name), tmuxArgs sock (newSessionArgs name)]

/-- Over its socket, the agent makes the same two calls. -/
theorem TmuxManager.ensureSession_eq (sock : Option Text) (name : Text) :
    TmuxManager.ensureSession sock name =
      (LocalTransport.ensureSession name).map (TmuxManager.tmuxArgs sock) := rfl

/-! ## Command lines -/

namespace SshTransport

def listFormat : Text :=
  List.intercalate "|||".toList ["#{session_id}".toList, "#{session_name}".toList,
    "#{window_id}".toList, "#{window_name}".toList, "#{window_index}".toList,
    "#{window_layout}".toList, "#{pane_id}".toList, "#{pane_index}".toList,
    "#{pane_width}".toList, "#{pane_height}".toList, "#{pane_current_command}".toList,
    "#{pane_active}".toList]

def createCmd (name : Text) : Text :=
  "tmux has-session -t ".toList ++ name ++
    ' ' :: "2>/dev/null || tmux new-session -d -s ".toList ++ name ++
    ' ' :: "-x 80 -y 24; ".toList ++ "tmux set-option -g window-size manual ".toList ++
    "2>/dev/null; ".toList ++ "tmux set-option -g aggressive-resize on ".toList ++
    "2>/dev/null".toList

/-- Of `connect`, and of `list_tmux_sessions`. -/
def listCmd (name : Text) : Text :=
  "tmux list-panes -t ".toList ++ name ++ ' ' :: "-s -F ".toList ++ '\'' :: listFormat ++ ['\'']

def attachCmd (name : Text) : Text := "tmux -CC attach -t ".toList ++ name

end SshTransport

namespace Agent

/-- `find_tmux_socket`, from the names in `/tmp` and whether each has a file
`default`: the socket of the least user id, with root last. -/
def findTmuxSocket (entries : List (Text × Bool)) : Option Text :=
  let sockets := entries.filterMap fun e =>
    if startsWith "tmux-".toList e.1 ∧ e.2 then
      some (((stripPrefix "tmux-".toList e.1).bind (parseUInt 32)).getD 0,
        "/tmp/".toList ++ e.1 ++ "/default".toList)
    else none
  let key (uid : Nat) : Nat := if uid = 0 then 2 ^ 32 - 1 else uid
  ((sockets.insertionSort fun a b => key a.1 ≤ key b.1).head?).map Prod.snd

def tmuxCmd (sock : Option Text) (name : Text) : Text :=
  match sock with
  | some sock => "tmux -S ".toList ++ sock ++ ' ' :: "-CC attach -t ".toList ++ name
  | none => "tmux -CC attach -t ".toList ++ name

/-- The line that `script` hands to the shell. -/
def wrapper (sock : Option Text) (name : Text) : Text :=
  "trap '' WINCH; ".toList ++ tmuxCmd sock name

end Agent

/-! ## What the lines are to mean -/

def words (args : List Text) : List Token := args.map .word

def tmux (args : List Text) : List Token := words ("tmux".toList :: args)

def attachArgs (name : Text) : List Text :=
  ["-CC".toList, "attach".toList, "-t".toList, name]

/-- `2>/dev/null`. -/
def quiet : List Token := [.io "2".toList, .op ">".toList, .word "/dev/null".toList]

def setOption (option value : Text) : List Token :=
  tmux ["set-option".toList, "-g".toList, option, value] ++ quiet

def createTokens (name : Text) : List Token :=
  tmux (hasSessionArgs name) ++ quiet ++ [.op ['|', '|']] ++ tmux (newSessionArgs name) ++
    [.op [';']] ++ setOption "window-size".toList "manual".toList ++ [.op [';']] ++
    setOption "aggressive-resize".toList "on".toList

/-- The lines are the commands that they are to be, with the name as one argument,
and the first two are those of `ensure_session`. -/
structure OneArgument (sock : Option Text) (name : Text) : Prop where
  create : split (SshTransport.createCmd name) = some (createTokens name)
  ensure : (split (SshTransport.createCmd name)).map (fun tokens => (commands tokens).take 2) =
    some ((LocalTransport.ensureSession name).map fun args => "tmux".toList :: args)
  list : split (SshTransport.listCmd name) =
    some (tmux ["list-panes".toList, "-t".toList, name, "-s".toList, "-F".toList,
      SshTransport.listFormat])
  attach : split (SshTransport.attachCmd name) = some (tmux (attachArgs name))
  agent : split (Agent.wrapper sock name) =
    some (words ["trap".toList, [], "WINCH".toList] ++ [.op [';']] ++
      tmux (TmuxManager.tmuxArgs sock (attachArgs name)))

/-! ## Plain names -/

section
variable {name : Text}

theorem split_createCmd (h : Plain name) :
    split (SshTransport.createCmd name) = some (createTokens name) := by
  have hline : SshTransport.createCmd name = "tmux has-session -t ".toList ++ (name ++ ' ' ::
      ("2>/dev/null || tmux new-session -d -s ".toList ++ (name ++ ' ' ::
        ("-x 80 -y 24; ".toList ++ ("tmux set-option -g window-size manual ".toList ++
          ("2>/dev/null; ".toList ++ ("tmux set-option -g aggressive-resize on ".toList ++
            "2>/dev/null".toList))))))) := by
    unfold SshTransport.createCmd
    simp only [List.append_assoc, List.cons_append]
  have hhas : run start "tmux has-session -t ".toList = some
      { tokens := (words ["tmux".toList, "has-session".toList, "-t".toList]).reverse
        reading := .between } := by
    decide +kernel
  have hnew : run start "2>/dev/null || tmux new-session -d -s ".toList = some
      { tokens := (quiet ++ .op ['|', '|'] ::
          words ["tmux".toList, "new-session".toList, "-d".toList, "-s".toList]).reverse
        reading := .between } := by
    decide +kernel
  have hset : split ("-x 80 -y 24; ".toList ++ ("tmux set-option -g window-size manual ".toList ++
      ("2>/dev/null; ".toList ++ ("tmux set-option -g aggressive-resize on ".toList ++
        "2>/dev/null".toList)))) = some
      (words ["-x".toList, "80".toList, "-y".toList, "24".toList] ++ [.op [';']] ++
        setOption "window-size".toList "manual".toList ++ [.op [';']] ++
        setOption "aggressive-resize".toList "on".toList) := by
    decide +kernel
  rw [hline, split_append hhas, split_word h, split_append hnew, split_word h, hset]
  rfl

theorem commands_createTokens (name : Text) : (commands (createTokens name)).take 2 =
    (LocalTransport.ensureSession name).map fun args => "tmux".toList :: args := rfl

theorem split_listCmd (h : Plain name) : split (SshTransport.listCmd name) =
    some (tmux ["list-panes".toList, "-t".toList, name, "-s".toList, "-F".toList,
      SshTransport.listFormat]) := by
  have hline : SshTransport.listCmd name = "tmux list-panes -t ".toList ++ (name ++ ' ' ::
      ("-s -F ".toList ++ ('\'' :: (SshTransport.listFormat ++ ['\''])))) := by
    unfold SshTransport.listCmd
    simp only [List.append_assoc, List.cons_append]
  have hlist : run start "tmux list-panes -t ".toList = some
      { tokens := (words ["tmux".toList, "list-panes".toList, "-t".toList]).reverse
        reading := .between } := by
    decide +kernel
  have hflags : run start "-s -F ".toList = some
      { tokens := (words ["-s".toList, "-F".toList]).reverse, reading := .between } := by
    decide +kernel
  have hformat : isQuotable SshTransport.listFormat := by
    decide +kernel
  rw [hline, split_append hlist, split_word h, split_append hflags, split_quoted hformat]
  rfl

theorem plain_words : Plain "tmux".toList ∧ Plain "-S".toList ∧ Plain "-CC".toList ∧
    Plain "attach".toList ∧ Plain "-t".toList := by
  decide +kernel

theorem plain_attachArgs_iff : (∀ w ∈ attachArgs name, Plain w) ↔ Plain name := by
  obtain ⟨-, -, hcc, hattach, ht⟩ := plain_words
  unfold attachArgs
  simp only [List.forall_mem_cons, hcc, hattach, ht, true_and, List.not_mem_nil, false_imp_iff,
    implies_true, and_true]

theorem split_attachCmd_iff :
    split (SshTransport.attachCmd name) = some (tmux (attachArgs name)) ↔ Plain name := by
  have hline : SshTransport.attachCmd name = unwords ("tmux".toList :: attachArgs name) := rfl
  rw [hline, tmux, words, split_unwords_iff (List.cons_ne_nil _ _), List.forall_mem_cons,
    plain_attachArgs_iff]
  exact and_iff_right plain_words.1

theorem split_tmuxCmd_iff (sock : Option Text) :
    split (Agent.tmuxCmd sock name) = some (tmux (TmuxManager.tmuxArgs sock (attachArgs name))) ↔
      Plain name ∧ ∀ s ∈ sock, Plain s := by
  cases sock with
  | none =>
    have hline : Agent.tmuxCmd none name = SshTransport.attachCmd name := rfl
    rw [hline, TmuxManager.tmuxArgs, split_attachCmd_iff]
    simp
  | some sock =>
    have hline : Agent.tmuxCmd (some sock) name =
        unwords ("tmux".toList :: "-S".toList :: sock :: attachArgs name) := by
      unfold Agent.tmuxCmd
      simp only [List.append_assoc, List.cons_append]
      rfl
    rw [hline, TmuxManager.tmuxArgs, tmux, words, split_unwords_iff (List.cons_ne_nil _ _)]
    obtain ⟨htmux, hs, -⟩ := plain_words
    simp only [List.forall_mem_cons, htmux, hs, true_and, plain_attachArgs_iff, Option.mem_some_iff,
      forall_eq', and_comm]

/-- Behind the trap, the shell is where it was. -/
theorem split_wrapper_iff (sock : Option Text) :
    split (Agent.wrapper sock name) = some (words ["trap".toList, [], "WINCH".toList] ++
        [.op [';']] ++ tmux (TmuxManager.tmuxArgs sock (attachArgs name))) ↔
      Plain name ∧ ∀ s ∈ sock, Plain s := by
  have htrap : run start "trap '' WINCH; ".toList = some
      { tokens := (words ["trap".toList, [], "WINCH".toList] ++ [Token.op [';']]).reverse
        reading := .between } := by
    decide +kernel
  unfold Agent.wrapper
  rw [split_append htrap, List.reverse_reverse, ← split_tmuxCmd_iff]
  cases split (Agent.tmuxCmd sock name) with
  | none => simp
  | some tokens =>
    rw [Option.map_some, Option.some.injEq, Option.some.injEq, List.append_cancel_left_eq]

/-- The lines mean what they are to mean, with the name as one argument, exactly
for a name that is plain, over a socket whose path is plain. -/
theorem one_argument_iff (entries : List (Text × Bool)) (name : Text) :
    OneArgument (Agent.findTmuxSocket entries) name ↔
      Plain name ∧ ∀ sock ∈ Agent.findTmuxSocket entries, Plain sock := by
  constructor
  · intro h
    exact (split_wrapper_iff _).mp h.agent
  · intro h
    have hcreate := split_createCmd h.1
    refine ⟨hcreate, ?_, split_listCmd h.1, split_attachCmd_iff.mpr h.1,
      (split_wrapper_iff _).mpr h⟩
    rw [hcreate, Option.map_some, commands_createTokens]

/-- A name with a blank in it falls apart. -/
theorem blank_name_is_two_arguments : ¬ ∀ entries name, trim name ≠ [] →
    OneArgument (Agent.findTmuxSocket entries) name := by
  intro h
  have hattach := (h [] "a b".toList (by decide)).attach
  have hsplit : split (SshTransport.attachCmd "a b".toList) =
      some (tmux ["-CC".toList, "attach".toList, "-t".toList, "a".toList, "b".toList]) := by
    decide +kernel
  rw [hsplit] at hattach
  exact absurd hattach (by decide +kernel)

end

end Oxmux.Session
