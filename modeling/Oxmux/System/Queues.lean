import Oxmux.System.Link

/-! The QUIC session of `Link` against two queues of messages: the loops around
the sockets do what they would do if each message arrived as a whole. -/

namespace Oxmux.System
open Oxmux.Lib Oxmux.Lib.Runs Oxmux.Lib.Frames Oxmux.Session Oxmux.Ws Oxmux.Client

/-! ## Two queues -/

/-- The same session with messages on the way, each as a whole. -/
structure Queues where
  agent : Agent.State
  running : Bool
  attached : Bool
  outputRx : List Output
  up : List Msg
  down : List AgentMsg
  store : Store

inductive QueuePick where
  | emit (o : Output)
  | forward (sent : Bool)
  | take (answers : Answers)
  | hangUp
  | hand
  | browser (e : Event)

namespace Queues

variable (conn : Nat) (sessionId : SessionId)

def greet (name : Text) (q : Queues) : Option (Text × List TmuxSessionInfo) → Queues
  | some (id, trees) => { q with attached := true, down := q.down ++ [.connected id name trees] }
  | none => { q with running := false }

def take (answers : Answers) (m : Msg) (q : Queues) : Queues :=
  if q.attached then
    { q with
      agent := act answers.env q.agent m
      down := q.down ++ repliesSince q.agent (act answers.env q.agent m) }
  else
    let name := Agent.sessionName (value (encodeMsg m))
    q.greet name (answers.hello name)

def forward (o : Output) (sent : Bool) (q : Queues) : Queues :=
  if o.pane ∈ q.agent.subscribedPanes then
    if sent then { q with down := q.down ++ [.output o] } else { q with running := false }
  else q

def step (q : Queues) : QueuePick → Queues
  | .emit o => if q.outputRx.length < 512 then { q with outputRx := q.outputRx ++ [o] } else q
  | .forward sent =>
    match q.running && q.attached, q.outputRx with
    | true, o :: outputs => forward o sent { q with outputRx := outputs }
    | _, _ => q
  | .take answers =>
    match q.running, q.up with
    | true, m :: up => take answers m { q with up }
    | _, _ => q
  | .hangUp => { q with running := false }
  | .hand =>
    match decide (conn ∈ q.store.p2pClosed), q.down with
    | false, m :: down => { q with down, store := m.handle sessionId q.store }
    | _, _ => q
  | .browser e =>
    if q.store.gives e = [] then
      { q with
        up := q.up ++ sentTo conn q.store (q.store.step e)
        store := q.store.step e }
    else q

def start (ctrlStdin : Agent.Stdin) (store : Store) : Queues where
  agent := .new ctrlStdin
  running := true
  attached := false
  outputRx := []
  up := []
  down := []
  store

end Queues

/-! ## Refinement -/

namespace Link

/-- Every message that was written so far is carried. -/
structure Carried (codec : Codec) (l : Link) : Prop where
  up : ∀ m ∈ l.up.written, codec.Carries m
  down : ∀ m ∈ l.down.written, codec.CarriesAgent m

/-- The buffers hold what was read behind the last complete frame. -/
structure Buffered (codec : Codec) (l : Link) : Prop where
  up : l.up.Fits codec.encode
  down : l.down.Fits codec.encodeAgent

variable (codec : Codec) (conn : Nat) (sessionId : SessionId)

/-- The link as two queues: what is not handled yet is in them. -/
def queues (l : Link) : Queues where
  agent := l.agent
  running := l.running
  attached := l.attached
  outputRx := l.outputRx
  up := l.up.pending codec.encode
  down := l.down.pending codec.encodeAgent
  store := l.store

/-- The read that completes the first message ends with it. -/
def EndsWithFirst (l : Link) : LinkPick → Prop
  | .agentRead n _ => l.running = true → l.attached = false →
    l.up.completed codec.encode n ≠ [] →
      (l.up.completed codec.encode n).length = 1 ∧ (l.up.read codec.encode n).buf = []
  | _ => True

instance decidableEndsWithFirst (l : Link) :
    (p : LinkPick) → Decidable (l.EndsWithFirst codec p)
  | .agentRead _ _ => inferInstanceAs (Decidable (_ → _ → _ → _ ∧ _))
  | .emit _ | .forward _ | .hangUp | .browserRead _ | .browser _ =>
    inferInstanceAs (Decidable True)

end Link

/-- What neither loop decides. -/
def LinkPick.outside : LinkPick → Option QueuePick
  | .emit o => some (.emit o)
  | .forward sent => some (.forward sent)
  | .agentRead .. => none
  | .hangUp => some .hangUp
  | .browserRead _ => none
  | .browser e => some (.browser e)

def QueuePick.outside : QueuePick → Option QueuePick
  | .take _ | .hand => none
  | p => some p

/-! ### The agent -/

theorem replies_write (a : Agent.State) (cmd : Text) : (a.write cmd).replies = a.replies := by
  unfold Agent.State.write
  split <;> rfl

theorem replies_send (a : Agent.State) (env : Agent.Env) (reply : Agent.Reply) :
    a.replies <+: (a.send env reply).replies := by
  unfold Agent.State.send
  split
  · exact List.prefix_append _ _
  · exact List.prefix_rfl

theorem replies_resizeTo (a : Agent.State) (pane : Text) (size : Nat × Nat) :
    (Agent.Agents.resizeTo a pane size).replies = a.replies := by
  unfold Agent.Agents.resizeTo
  split
  · exact replies_write _ _
  · rfl

theorem replies_handleOffer (env : Agent.Env) (a : Agent.State) :
    a.replies <+: (Agent.handleOffer env a).replies := by
  unfold Agent.handleOffer
  simp only
  split
  · refine List.IsPrefix.trans ?_ (replies_send _ env _)
    exact List.prefix_rfl
  · refine List.IsPrefix.trans ?_ (replies_send _ env _)
    exact List.prefix_rfl

theorem replies_takeCandidate (a : Agent.State) (candidate : Agent.Candidate) :
    (Agent.takeCandidate a candidate).replies = a.replies := by
  unfold Agent.takeCandidate
  split
  · rfl
  · split
    · split <;> rfl
    · rfl

/-- Replies are put behind those that were sent. -/
theorem replies_act (env : Agent.Env) (a : Agent.State) (m : Msg) :
    a.replies <+: (act env a m).replies := by
  cases m with
  | sub pane | unsub pane =>
    rw [act]
    split <;> exact List.prefix_rfl
  | i pane data =>
    rw [act, Agent.sendTmuxInput]
    split
    · exact List.prefix_rfl
    · rw [replies_write]
  | r pane cols rows => rw [act, replies_resizeTo]
  | ping ts => exact replies_send a env _
  | sessList => exact replies_send a env _
  | webrtcOffer sdp => exact replies_handleOffer env a
  | webrtcIce init => rw [act, replies_takeCandidate]
  | _ => exact List.prefix_rfl

theorem repliesSince_self (a : Agent.State) : repliesSince a a = [] := by
  simp [repliesSince]

theorem repliesSince_trans {a a' a'' : Agent.State} (h : a.replies <+: a'.replies)
    (h' : a'.replies <+: a''.replies) :
    repliesSince a a' ++ repliesSince a' a'' = repliesSince a a'' := by
  obtain ⟨rs, h⟩ := h
  obtain ⟨rs', h'⟩ := h'
  simp only [repliesSince, ← h', ← h, List.append_assoc, List.drop_left, List.map_append]
  rw [← List.append_assoc, List.drop_left]

namespace Queues

/-- One take after the other, with the answers from `i` on. -/
def takes (answers : Nat → Answers) : Nat → Nat → List QueuePick
  | _, 0 => []
  | i, k + 1 => .take (answers i) :: takes answers (i + 1) k

theorem outside_takes (answers : Nat → Answers) (i k : Nat) :
    (takes answers i k).filterMap QueuePick.outside = [] := by
  induction k generalizing i with
  | zero => rfl
  | succ k ih => exact ih (i + 1)

end Queues

namespace Link

variable {codec : Codec} {conn : Nat} {sessionId : SessionId}

/-- A payload that is carried acts as its message does. -/
theorem handleMessage_encode {m : Msg} (h : codec.Carries m) (env : Agent.Env) (a : Agent.State) :
    Agent.handleMessage codec.readValue env a (codec.encode m) = act env a m := by
  rw [Agent.handleMessage, h.2]
  exact handleValue_encodeMsg env a m

theorem replies_handleFrames {ms : List Msg} (h : ∀ m ∈ ms, codec.Carries m)
    (answers : Nat → Answers) (i : Nat) (a : Agent.State) :
    a.replies <+: (handleFrames codec answers i (ms.map codec.encode) a).replies := by
  induction ms generalizing i a with
  | nil => exact List.prefix_rfl
  | cons m ms ih =>
    rw [List.map_cons, handleFrames, handleMessage_encode (h m List.mem_cons_self)]
    exact (replies_act _ a m).trans (ih (fun m' hm => h m' (List.mem_cons_of_mem m hm)) _ _)

/-- The message loop on the frames of `ms` is as many takes. -/
theorem run_takes {ms rest : List Msg} (h : ∀ m ∈ ms, codec.Carries m) (answers : Nat → Answers)
    (i : Nat) {q : Queues} (hr : q.running = true) (ha : q.attached = true)
    (hup : q.up = ms ++ rest) :
    run (Queues.step conn sessionId) q (Queues.takes answers i ms.length) =
      { q with
        agent := handleFrames codec answers i (ms.map codec.encode) q.agent
        up := rest
        down := q.down ++ repliesSince q.agent
          (handleFrames codec answers i (ms.map codec.encode) q.agent) } := by
  induction ms generalizing i q with
  | nil =>
    rw [List.nil_append] at hup
    subst hup
    simp only [List.length_nil, Queues.takes, run_nil, List.map_nil, handleFrames,
      repliesSince_self, List.append_nil]
  | cons m ms ih =>
    have hm := h m List.mem_cons_self
    have hms : ∀ m' ∈ ms, codec.Carries m' := fun m' hm' => h m' (List.mem_cons_of_mem m hm')
    have hstep : q.step conn sessionId (.take (answers i)) =
        { q with
          agent := act (answers i).env q.agent m
          up := ms ++ rest
          down := q.down ++ repliesSince q.agent (act (answers i).env q.agent m) } := by
      simp only [Queues.step, hr, hup, List.cons_append, Queues.take, ha, if_true]
    rw [List.length_cons, Queues.takes, run_cons, hstep, ih hms (i + 1) ?_ ?_ rfl, List.map_cons,
      handleFrames, handleMessage_encode hm, List.append_assoc,
      repliesSince_trans (replies_act _ _ _) (replies_handleFrames hms _ _ _)]
    · exact hr
    · exact ha

/-! ### The browser -/

theorem p2pClosed_handle (m : AgentMsg) (s : Store) :
    (m.handle sessionId s).p2pClosed = s.p2pClosed := by
  cases m with
  | connected => rfl
  | output o =>
    simp only [AgentMsg.handle, Output.msg, Store.handleServerMsg]
    split <;> rfl
  | reply r => cases r <;> rfl

/-- The messages of one read are as many that are handed over. -/
theorem run_hands {ms rest : List AgentMsg} {q : Queues} (hc : conn ∉ q.store.p2pClosed)
    (hdown : q.down = ms ++ rest) :
    run (Queues.step conn sessionId) q (List.replicate ms.length .hand) =
      { q with
        down := rest, store := ms.foldl (fun s m => m.handle sessionId s) q.store } := by
  induction ms generalizing q with
  | nil =>
    rw [List.nil_append] at hdown
    subst hdown
    rfl
  | cons m ms ih =>
    have hstep : q.step conn sessionId .hand =
        { q with down := ms ++ rest, store := m.handle sessionId q.store } := by
      simp only [Queues.step, decide_eq_false hc, hdown, List.cons_append]
    rw [List.length_cons, List.replicate_succ, run_cons, hstep, ih ?_ rfl, List.foldl_cons]
    rw [p2pClosed_handle]
    exact hc

theorem filterMap_decode {ms : List AgentMsg} (h : ∀ m ∈ ms, codec.CarriesAgent m) :
    (ms.map codec.encodeAgent).filterMap codec.decode = ms := by
  rw [List.filterMap_map]
  calc ms.filterMap (codec.decode ∘ codec.encodeAgent) = ms.filterMap some :=
        List.filterMap_congr fun m hm => (h m hm).2
    _ = ms := List.filterMap_some

/-- The read loop handles what the read completes. -/
theorem browserRead_eq {l : Link} (h : l.down.Fits codec.encodeAgent) (n : Nat) :
    l.browserRead codec sessionId n =
      { l with
        down := l.down.read codec.encodeAgent n
        store := ((l.down.completed codec.encodeAgent n).filterMap codec.decode).foldl
          (fun s m => m.handle sessionId s) l.store } := by
  have hnone : takeFrame l.down.buf = none := by
    rw [h.buf]
    exact takeFrame_splitFrames _
  rw [browserRead, ReadLoop.readChunk_eq codec.decode hnone]
  simp only [List.nil_append]
  rfl

/-! ### One step -/

theorem emptied_buf {p : Pipe Msg} (h : p.buf = []) : { p with buf := [] } = p := by
  rw [← h]

theorem agentRead_attached {l : Link} (ha : l.attached = true) (n : Nat)
    (answers : Nat → Answers) :
    l.agentRead codec n answers =
      { l with
        agent := handleFrames codec answers 0 (l.up.completed codec.encode n) l.agent
        up := l.up.read codec.encode n
        down := l.down.write (repliesSince l.agent
          (handleFrames codec answers 0 (l.up.completed codec.encode n) l.agent)) } := by
  unfold agentRead
  exact if_pos ha

/-- Before the first message is complete a read only adds to the buffer; the
read that completes it goes on behind it. -/
theorem agentRead_first {l : Link} (ha : l.attached = false) {n : Nat} {answers : Nat → Answers}
    (hr : l.running = true) (hp : l.EndsWithFirst codec (.agentRead n answers)) :
    (l.up.completed codec.encode n = [] ∧
      l.agentRead codec n answers = { l with up := l.up.read codec.encode n }) ∨
    ∃ data, l.up.completed codec.encode n = [data] ∧
      l.agentRead codec n answers =
        attach codec (answers 0) data { l with up := l.up.read codec.encode n } := by
  have hif : ¬ l.attached = true := by simp [ha]
  cases hc : l.up.completed codec.encode n with
  | nil =>
    refine .inl ⟨rfl, ?_⟩
    unfold agentRead
    rw [hc]
    exact if_neg hif
  | cons data frames =>
    obtain ⟨hlen, hbuf⟩ := hp hr ha (by rw [hc]; exact List.cons_ne_nil _ _)
    rw [hc, List.length_cons, Nat.succ_inj, List.length_eq_zero_iff] at hlen
    subst hlen
    refine .inr ⟨data, rfl, ?_⟩
    unfold agentRead
    rw [hc]
    rw [← emptied_buf hbuf]
    exact if_neg hif

variable (codec) in
theorem down_attach (answers : Answers) (data : Bytes) (l : Link) :
    (l.attach codec answers data).up = l.up ∧
      ∃ ms, (l.attach codec answers data).down = l.down.write ms := by
  rw [attach]
  split
  · next msg _ =>
    cases answers.hello (Agent.sessionName msg) with
    | none => exact ⟨rfl, [], (Pipe.write_nil _).symm⟩
    | some hello => exact ⟨rfl, [.connected hello.1 (Agent.sessionName msg) hello.2], rfl⟩
  · exact ⟨rfl, [], (Pipe.write_nil _).symm⟩

variable (codec conn sessionId) in
/-- Only the browser's reads take from the stream of the agent. -/
theorem down_step (l : Link) {p : LinkPick} (hp : ∀ n, p ≠ .browserRead n) :
    ∃ ms, (l.step codec conn sessionId p).down = l.down.write ms := by
  cases p with
  | emit o =>
    rw [step]
    split <;> exact ⟨[], (Pipe.write_nil _).symm⟩
  | forward sent =>
    rw [step]
    split
    · rw [forward]
      split
      · split
        · exact ⟨_, rfl⟩
        · exact ⟨[], (Pipe.write_nil _).symm⟩
      · exact ⟨[], (Pipe.write_nil _).symm⟩
    · exact ⟨[], (Pipe.write_nil _).symm⟩
  | agentRead n answers =>
    rw [step]
    split
    · unfold agentRead
      dsimp only
      split
      · exact ⟨_, rfl⟩
      · split
        · exact ⟨[], (Pipe.write_nil _).symm⟩
        · exact (down_attach codec _ _ _).2
    · exact ⟨[], (Pipe.write_nil _).symm⟩
  | hangUp => exact ⟨[], (Pipe.write_nil _).symm⟩
  | browserRead n => exact absurd rfl (hp n)
  | browser e =>
    rw [step]
    split <;> exact ⟨[], (Pipe.write_nil _).symm⟩

variable (codec conn sessionId) in
/-- Only the agent's reads take from the stream of the browser. -/
theorem up_step (l : Link) {p : LinkPick} (hp : ∀ n answers, p ≠ .agentRead n answers) :
    ∃ ms, (l.step codec conn sessionId p).up = l.up.write ms := by
  cases p with
  | emit o =>
    rw [step]
    split <;> exact ⟨[], (Pipe.write_nil _).symm⟩
  | forward sent =>
    rw [step]
    split
    · rw [forward]
      split
      · split <;> exact ⟨[], (Pipe.write_nil _).symm⟩
      · exact ⟨[], (Pipe.write_nil _).symm⟩
    · exact ⟨[], (Pipe.write_nil _).symm⟩
  | agentRead n answers => exact absurd rfl (hp n answers)
  | hangUp => exact ⟨[], (Pipe.write_nil _).symm⟩
  | browserRead n =>
    rw [step]
    split <;> exact ⟨[], (Pipe.write_nil _).symm⟩
  | browser e =>
    rw [step]
    split
    · exact ⟨_, rfl⟩
    · exact ⟨[], (Pipe.write_nil _).symm⟩

/-- The browser's buffer is what its reads left over. -/
theorem fits_down_step {l : Link} (h : l.down.Fits codec.encodeAgent) (p : LinkPick) :
    (l.step codec conn sessionId p).down.Fits codec.encodeAgent := by
  by_cases hp : ∃ n, p = .browserRead n
  · obtain ⟨n, rfl⟩ := hp
    rw [step]
    split
    · exact h
    · rw [browserRead_eq h]
      exact h.read n
  · obtain ⟨ms, he⟩ := down_step codec conn sessionId l fun n hn => hp ⟨n, hn⟩
    rw [he]
    exact h.write ms

theorem fits_up_step {l : Link} (h : l.up.Fits codec.encode) {p : LinkPick}
    (hp : l.EndsWithFirst codec p) : (l.step codec conn sessionId p).up.Fits codec.encode := by
  by_cases ha : ∃ n answers, p = .agentRead n answers
  · obtain ⟨n, answers, rfl⟩ := ha
    rw [step]
    split
    · next hr =>
      cases hat : l.attached with
      | true =>
        rw [agentRead_attached hat]
        exact h.read n
      | false =>
        rcases agentRead_first hat hr hp with ⟨-, he⟩ | ⟨data, -, he⟩
        · rw [he]
          exact h.read n
        · rw [he, (down_attach codec (answers 0) data _).1]
          exact h.read n
    · exact h
  · obtain ⟨ms, he⟩ := up_step codec conn sessionId l fun n answers hn => ha ⟨n, answers, hn⟩
    rw [he]
    exact h.write ms

theorem Buffered.step {l : Link} (h : Buffered codec l) {p : LinkPick}
    (hp : l.EndsWithFirst codec p) : Buffered codec (l.step codec conn sessionId p) :=
  ⟨fits_up_step h.up hp, fits_down_step h.down p⟩

theorem queues_greet {l : Link} (h : l.down.Fits codec.encodeAgent)
    (hs : l.down.AllSized codec.encodeAgent) (name : Text)
    (hello : Option (Text × List TmuxSessionInfo)) :
    (l.greet name hello).queues codec = (l.queues codec).greet name hello := by
  cases hello with
  | none => rfl
  | some hello => simp only [greet, queues, Queues.greet, Pipe.pending_write h hs]

theorem queues_forward {l : Link} (h : l.down.Fits codec.encodeAgent)
    (hs : l.down.AllSized codec.encodeAgent) (o : Output) (sent : Bool) :
    (l.forward o sent).queues codec = (l.queues codec).forward o sent := by
  by_cases ho : o.pane ∈ l.agent.subscribedPanes
  · cases sent with
    | true => simp only [forward, Queues.forward, queues, ho, if_true, Pipe.pending_write h hs]
    | false =>
      simp only [forward, Queues.forward, queues, ho, if_true, Bool.false_eq_true, if_false]
  · simp only [forward, Queues.forward, queues, ho, if_false]

variable (conn sessionId) in
/-- **One step of the link** is a few steps of the queues. -/
theorem queues_step {l : Link} (h : Buffered codec l) (hc : Carried codec l) {p : LinkPick}
    (hp : l.EndsWithFirst codec p) : ∃ ps : List QueuePick,
      (l.step codec conn sessionId p).queues codec =
        run (Queues.step conn sessionId) (l.queues codec) ps ∧
      ps.filterMap QueuePick.outside = p.outside.toList := by
  have hup : l.up.AllSized codec.encode := fun m hm => (hc.up m hm).1
  have hdown : l.down.AllSized codec.encodeAgent := fun m hm => (hc.down m hm).1
  cases p with
  | emit o =>
    refine ⟨[.emit o], ?_, rfl⟩
    simp only [Link.step, run_cons, run_nil, Queues.step, queues]
    split <;> rfl
  | forward sent =>
    refine ⟨[.forward sent], ?_, rfl⟩
    rw [run_cons, run_nil]
    cases hra : l.running && l.attached with
    | false => simp only [Link.step, Queues.step, queues, hra]
    | true =>
      cases hrx : l.outputRx with
      | nil => simp only [Link.step, Queues.step, queues, hra, hrx]
      | cons o outputs =>
        simp only [Link.step, Queues.step, queues, hra, hrx]
        exact queues_forward (l := { l with outputRx := outputs }) h.down hdown o sent
  | agentRead n answers =>
    obtain ⟨ms, hpending, hcompleted⟩ := Pipe.pending_read h.up hup n
    have hms : ∀ m ∈ ms, codec.Carries m := fun m hm => hc.up m (Pipe.mem_written hpending hm)
    cases hr : l.running with
    | false => exact ⟨[], by simp [Link.step, hr], rfl⟩
    | true =>
      cases ha : l.attached with
      | true =>
        refine ⟨Queues.takes answers 0 ms.length, ?_, Queues.outside_takes answers 0 ms.length⟩
        rw [run_takes (q := l.queues codec) hms answers 0 hr ha hpending]
        rw [Link.step, if_pos hr, agentRead_attached ha, hcompleted]
        simp only [queues, Pipe.pending_write h.down hdown]
      | false =>
        rcases agentRead_first ha hr hp with ⟨hnone, he⟩ | ⟨data, hone, he⟩
        · refine ⟨[], ?_, rfl⟩
          have hnil : ms = [] := List.map_eq_nil_iff.mp (hcompleted.symm.trans hnone)
          rw [hnil, List.nil_append] at hpending
          rw [Link.step, if_pos hr, he, run_nil]
          simp only [queues, hpending]
        · refine ⟨[.take (answers 0)], ?_, rfl⟩
          obtain ⟨m, rfl, rfl⟩ := List.map_eq_singleton_iff.mp (hcompleted.symm.trans hone)
          rw [Link.step, if_pos hr, he, run_cons, run_nil, attach, (hms m List.mem_cons_self).2]
          have htake : (l.queues codec).step conn sessionId (.take (answers 0)) =
              Queues.greet (Agent.sessionName (value (encodeMsg m)))
                { l.queues codec with up := (l.up.read codec.encode n).pending codec.encode }
                ((answers 0).hello (Agent.sessionName (value (encodeMsg m)))) := by
            simp only [Queues.step, queues, hr, hpending, List.singleton_append, Queues.take, ha,
              Bool.false_eq_true, if_false]
          rw [htake]
          exact queues_greet (l := { l with up := l.up.read codec.encode n }) h.down hdown _ _
  | hangUp => exact ⟨[.hangUp], rfl, rfl⟩
  | browserRead n =>
    obtain ⟨ms, hpending, hcompleted⟩ := Pipe.pending_read h.down hdown n
    have hms : ∀ m ∈ ms, codec.CarriesAgent m :=
      fun m hm => hc.down m (Pipe.mem_written hpending hm)
    by_cases hclosed : conn ∈ l.store.p2pClosed
    · refine ⟨[], ?_, rfl⟩
      simp only [Link.step, hclosed, if_true, run_nil]
    · refine ⟨List.replicate ms.length .hand, ?_, ?_⟩
      · rw [run_hands (q := l.queues codec) hclosed hpending, Link.step, if_neg hclosed,
          browserRead_eq h.down, hcompleted, filterMap_decode hms]
        rfl
      · rw [List.filterMap_replicate]
        rfl
  | browser e =>
    refine ⟨[.browser e], ?_, rfl⟩
    simp only [Link.step, run_cons, run_nil, Queues.step, queues]
    split
    · simp only [Pipe.pending_write h.up hup]
    · rfl

/-! ### Runs -/

variable (codec conn sessionId) in
theorem written_step (l : Link) (p : LinkPick) :
    l.up.written <+: (l.step codec conn sessionId p).up.written ∧
      l.down.written <+: (l.step codec conn sessionId p).down.written := by
  constructor
  · by_cases ha : ∃ n answers, p = .agentRead n answers
    · obtain ⟨n, answers, rfl⟩ := ha
      rw [step]
      split
      · unfold agentRead
        dsimp only
        split
        · exact List.prefix_rfl
        · split
          · exact List.prefix_rfl
          · rw [(down_attach codec _ _ _).1]
            exact List.prefix_rfl
      · exact List.prefix_rfl
    · obtain ⟨ms, he⟩ := up_step codec conn sessionId l fun n answers hn => ha ⟨n, answers, hn⟩
      rw [he]
      exact List.prefix_append _ _
  · by_cases hb : ∃ n, p = .browserRead n
    · obtain ⟨n, rfl⟩ := hb
      rw [step]
      split <;> exact List.prefix_rfl
    · obtain ⟨ms, he⟩ := down_step codec conn sessionId l fun n hn => hb ⟨n, hn⟩
      rw [he]
      exact List.prefix_append _ _

theorem Carried.of_step {l : Link} {p : LinkPick}
    (h : Carried codec (l.step codec conn sessionId p)) : Carried codec l := by
  obtain ⟨hup, hdown⟩ := written_step codec conn sessionId l p
  exact ⟨fun m hm => h.up m (hup.subset hm), fun m hm => h.down m (hdown.subset hm)⟩

theorem Carried.of_run {l : Link} {ps : List LinkPick}
    (h : Carried codec (run (step codec conn sessionId) l ps)) : Carried codec l :=
  (always_of_last (fun _ _ => Carried.of_step) h).head

theorem queues_run {l : Link} (h : Buffered codec l) {ps : List LinkPick}
    (hc : Carried codec (run (step codec conn sessionId) l ps))
    (hp : EachStep (step codec conn sessionId) (EndsWithFirst codec) l ps) :
    ∃ qs : List QueuePick,
      (run (step codec conn sessionId) l ps).queues codec =
        run (Queues.step conn sessionId) (l.queues codec) qs ∧
      qs.filterMap QueuePick.outside = ps.filterMap LinkPick.outside := by
  induction ps generalizing l with
  | nil => exact ⟨[], rfl, rfl⟩
  | cons p ps ih =>
    obtain ⟨qs, hq, ho⟩ := queues_step conn sessionId h hc.of_run hp.1
    obtain ⟨qs', hq', ho'⟩ := ih (h.step hp.1) hc hp.2
    refine ⟨qs ++ qs', ?_, ?_⟩
    · rw [run_append, ← hq, ← hq', run_cons]
    · rw [List.filterMap_append, ho, ho', List.filterMap_cons]
      cases p.outside <;> rfl

variable (codec) in
theorem queues_start (ctrlStdin : Agent.Stdin) (store : Store) :
    (start ctrlStdin store).queues codec = Queues.start ctrlStdin store := by
  simp only [queues, start, Queues.start, Pipe.pending_empty]

/-- **The link is two queues.** However the network cuts the bytes of both
directions and whatever the two ends do meanwhile, the loops around the sockets
do what they would do if each message arrived as a whole: if every message is
carried, and the read that completes the first one ends with it. -/
theorem refines_queues (ctrlStdin : Agent.Stdin) (store : Store) (ps : List LinkPick)
    (hcarried : Carried codec (run (step codec conn sessionId) (start ctrlStdin store) ps))
    (hfirst : EachStep (step codec conn sessionId) (EndsWithFirst codec) (start ctrlStdin store)
      ps) :
    ∃ qs : List QueuePick,
      (run (step codec conn sessionId) (start ctrlStdin store) ps).queues codec =
        run (Queues.step conn sessionId) (Queues.start ctrlStdin store) qs ∧
      qs.filterMap QueuePick.outside = ps.filterMap LinkPick.outside := by
  rw [← queues_start codec]
  exact queues_run ⟨Pipe.fits_empty, Pipe.fits_empty⟩ hcarried hfirst

def fixstr (t : Text) : Bytes := UInt8.ofNat (160 + (Utf8.encode t).length) :: Utf8.encode t

def sampleTree : TmuxSessionInfo where
  id := []
  name := "w".toList
  windows := []

/-- `{"session": {"id": "u", "name": "w", "status": "connected", "tmux_sessions":
[{"id": "", "name": "w", "windows": []}]}, "t": "sess_connected"}`. -/
def sampleConnected : Bytes :=
  0x82 :: fixstr "session".toList ++ 0x84 :: fixstr "id".toList ++ fixstr "u".toList ++
    fixstr "name".toList ++ fixstr "w".toList ++ fixstr "status".toList ++
    fixstr "connected".toList ++ fixstr "tmux_sessions".toList ++ 0x91 :: 0x83 ::
    fixstr "id".toList ++ fixstr [] ++ fixstr "name".toList ++ fixstr "w".toList ++
    fixstr "windows".toList ++ 0x90 :: fixstr "t".toList ++ fixstr "sess_connected".toList

/-- `{"t": "o", "pane": "%0", "data": [65]}`. -/
def sampleOutput : Bytes :=
  0x83 :: fixstr "t".toList ++ fixstr "o".toList ++ fixstr "pane".toList ++ fixstr "%0".toList ++
    fixstr "data".toList ++ [0xC4, 1, 65]

/-- The encoders and decoders on the messages of the run below. -/
def sampleCodec : Codec where
  encode m := if m = .attach "w".toList then Agent.sessConnect else Agent.sub
  readValue bytes :=
    if bytes = Agent.sessConnect then some (value (encodeMsg (.attach "w".toList)))
    else if bytes = Agent.sub then some (value (encodeMsg (.sub "%0".toList)))
    else none
  encodeAgent
    | .connected .. => sampleConnected
    | _ => sampleOutput
  decode bytes :=
    if bytes = sampleConnected then some (.connected "u".toList "w".toList [sampleTree])
    else if bytes = sampleOutput then some (.output { pane := "%0".toList, data := [65] })
    else none

def sampleStore : Store :=
  { Store.new with
    managedSessions :=
      [{ id := "s1".toList, name := "w".toList
         transport := { browser := .websocket, backend := .local }
         status := .created, error := none, tmuxSessions := [] }] }

def sampleAnswers : Answers where
  hello _ := some ("u".toList, [sampleTree])
  env := { answer := .error [], replied := true }

theorem sample_ne_nil : "s1".toList ≠ [] := by decide

def sampleSession : SessionId := ⟨"s1".toList, sample_ne_nil⟩

/-- The browser connects and opens a pane. The agent's first read ends with the
first message; the others cut the frames. -/
def samplePicks : List LinkPick :=
  [.browser (.quicConnected 0 (fun _ => none) "s1".toList),
    .browser (.subscribePane "s1::%0".toList 7),
    .agentRead (Agent.sessConnect.length + 4) fun _ => sampleAnswers,
    .agentRead 5 fun _ => sampleAnswers, .agentRead 50 fun _ => sampleAnswers,
    .emit { pane := "%0".toList, data := [65] }, .forward true, .browserRead 9, .browserRead 200]

def sampleEnd : Link :=
  run (step sampleCodec 0 sampleSession) (start .alive sampleStore) samplePicks

theorem carried_sampleEnd : Carried sampleCodec sampleEnd := by
  have hup : sampleEnd.up.written = [.attach "w".toList, .sub "%0".toList] := by decide +kernel
  have hdown : sampleEnd.down.written = [.connected "u".toList "w".toList [sampleTree],
      .output { pane := "%0".toList, data := [65] }] := by decide +kernel
  constructor
  · rw [hup, List.forall_mem_cons, List.forall_mem_singleton]
    exact ⟨⟨by decide +kernel, rfl⟩, ⟨by decide +kernel, rfl⟩⟩
  · rw [hdown, List.forall_mem_cons, List.forall_mem_singleton]
    exact ⟨⟨by decide +kernel, rfl⟩, ⟨by decide +kernel, rfl⟩⟩

theorem refines_queues_sample : ∃ qs : List QueuePick,
    sampleEnd.queues sampleCodec =
      run (Queues.step 0 sampleSession) (Queues.start .alive sampleStore) qs ∧
    qs.filterMap QueuePick.outside = samplePicks.filterMap LinkPick.outside :=
  refines_queues .alive sampleStore samplePicks carried_sampleEnd (by decide +kernel)

end Link
end Oxmux.System
