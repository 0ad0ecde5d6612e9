import Oxmux.System.Queues

/-! The outputs of a QUIC session: what the agent writes to the stream against
what the browser hands to the panes' handlers. -/

namespace Oxmux.System
open Oxmux.Lib Oxmux.Lib.Runs Oxmux.Lib.Frames Oxmux.Session Oxmux.Ws Oxmux.Client

def outputsOf (ms : List AgentMsg) : List Output := ms.filterMap AgentMsg.output?

theorem outputsOf_append (ms ms' : List AgentMsg) :
    outputsOf (ms ++ ms') = outputsOf ms ++ outputsOf ms' :=
  List.filterMap_append

/-- The pane of an output has a handler. -/
def findsHandler (sessionId : SessionId) (s : Store) (o : Output) : Bool :=
  (s.paneHandlers.get (qualifyPaneId sessionId o.pane)).isSome

namespace Link

variable (codec : Codec) (conn : Nat) (sessionId : SessionId)

/-- The outputs that a read of the browser completes find their handlers. -/
def FindHandlers (l : Link) : LinkPick → Prop
  | .browserRead n => conn ∉ l.store.p2pClosed →
    ∀ o ∈ outputsOf ((l.down.completed codec.encodeAgent n).filterMap codec.decode),
      findsHandler sessionId l.store o = true
  | _ => True

instance decidableFindHandlers (l : Link) :
    (p : LinkPick) → Decidable (l.FindHandlers codec conn sessionId p)
  | .browserRead _ => inferInstanceAs (Decidable (_ → ∀ o ∈ _, _ = true))
  | .emit _ | .forward _ | .agentRead _ _ | .hangUp | .browser _ =>
    inferInstanceAs (Decidable True)

variable {codec conn sessionId}

/-! ## The handlers -/

theorem paneHandlers_handle (m : AgentMsg) (s : Store) :
    (m.handle sessionId s).paneHandlers = s.paneHandlers := by
  cases m with
  | connected => rfl
  | output o =>
    simp only [AgentMsg.handle, Output.msg, Store.handleServerMsg]
    split <;> rfl
  | reply r => cases r <;> rfl

/-- An output goes to the handler of its pane, if there is one. -/
theorem handed_handle (m : AgentMsg) (s : Store) :
    (m.handle sessionId s).handed = s.handed ++
      ((outputsOf [m]).filter (findsHandler sessionId s)).map (Fallback.given sessionId) := by
  cases m with
  | connected => exact (List.append_nil _).symm
  | output o =>
    have hs : s.sourceSession (some sessionId.val) none = sessionId.val := by
      simp [Store.sourceSession, Option.filter_some, sessionId.property]
    simp only [AgentMsg.handle, Output.msg, Store.handleServerMsg, hs, outputsOf,
      List.filterMap_cons, AgentMsg.output?, List.filterMap_nil]
    cases hh : s.paneHandlers.get (qualifyPaneId sessionId.val o.pane) with
    | none => simp [findsHandler, hh]
    | some handler => simp [findsHandler, hh, Fallback.given]
  | reply r => cases r <;> exact (List.append_nil _).symm

theorem handed_foldl (ms : List AgentMsg) (s : Store) :
    (ms.foldl (fun s m => m.handle sessionId s) s).handed = s.handed ++
      ((outputsOf ms).filter (findsHandler sessionId s)).map (Fallback.given sessionId) := by
  induction ms generalizing s with
  | nil => exact (List.append_nil _).symm
  | cons m ms ih =>
    have hf : findsHandler sessionId (m.handle sessionId s) = findsHandler sessionId s := by
      funext o
      rw [findsHandler, paneHandlers_handle, findsHandler]
    rw [List.foldl_cons, ih, handed_handle, hf, List.append_assoc, ← List.map_append,
      ← List.filter_append, ← outputsOf_append, List.singleton_append]

/-! ## One step -/

/-- In one step the outputs `ws` were written and the outputs `rs` were read. -/
structure Moved (codec : Codec) (sessionId : SessionId) (l l' : Link) (ws rs : List Output) :
    Prop where
  written : outputsOf l'.down.written = outputsOf l.down.written ++ ws
  pending : outputsOf (l.down.pending codec.encodeAgent) ++ ws =
    rs ++ outputsOf (l'.down.pending codec.encodeAgent)
  handed : l'.store.handed =
    l.store.handed ++ (rs.filter (findsHandler sessionId l.store)).map (Fallback.given sessionId)

theorem store_attach (answers : Answers) (data : Bytes) (l : Link) :
    (l.attach codec answers data).store = l.store := by
  rw [attach]
  split
  · next msg _ => cases answers.hello (Agent.sessionName msg) <;> rfl
  · rfl

/-- A step that does not read from the agent's stream hands nothing over. -/
theorem handed_step {l : Link} {p : LinkPick} (hp : ∀ n, p ≠ .browserRead n) :
    (l.step codec conn sessionId p).store.handed = l.store.handed := by
  cases p with
  | emit o =>
    rw [step]
    split <;> rfl
  | forward sent =>
    rw [step]
    split
    · rw [forward]
      split
      · split <;> rfl
      · rfl
    · rfl
  | agentRead n answers =>
    rw [step]
    split
    · unfold agentRead
      dsimp only
      split
      · rfl
      · split
        · rfl
        · rw [store_attach]
    · rfl
  | hangUp => rfl
  | browserRead n => exact absurd rfl (hp n)
  | browser e =>
    rw [step]
    split
    · next hg =>
      rw [Store.handed_step, hg, List.append_nil]
    · rfl

variable (conn sessionId) in
/-- **What one step does to the outputs**, and when those that it reads find
their handlers. -/
theorem moved_step {l : Link} (h : l.down.Fits codec.encodeAgent)
    (hc : ∀ m ∈ l.down.written, codec.CarriesAgent m) (p : LinkPick) :
    ∃ ws rs, Moved codec sessionId l (l.step codec conn sessionId p) ws rs ∧
      (l.FindHandlers codec conn sessionId p ↔
        ∀ o ∈ rs, findsHandler sessionId l.store o = true) := by
  have hs : l.down.AllSized codec.encodeAgent := fun m hm => (hc m hm).1
  by_cases hp : ∃ n, p = .browserRead n
  · obtain ⟨n, rfl⟩ := hp
    by_cases hclosed : conn ∈ l.store.p2pClosed
    · refine ⟨[], [], ?_, ?_⟩
      · rw [step, if_pos hclosed]
        exact ⟨(List.append_nil _).symm, List.append_nil _, (List.append_nil _).symm⟩
      · simp [FindHandlers, hclosed]
    · obtain ⟨ms, hpending, hcompleted⟩ := Pipe.pending_read h hs n
      have hms : ∀ m ∈ ms, codec.CarriesAgent m := fun m hm => hc m (Pipe.mem_written hpending hm)
      refine ⟨[], outputsOf ms, ?_, ?_⟩
      · rw [step, if_neg hclosed, browserRead_eq h, hcompleted, filterMap_decode hms]
        refine ⟨(List.append_nil _).symm, ?_, handed_foldl ms l.store⟩
        rw [List.append_nil, hpending, outputsOf_append]
      · simp only [FindHandlers, hclosed, not_false_eq_true, forall_const, hcompleted,
          filterMap_decode hms]
  · have hp' : ∀ n, p ≠ .browserRead n := fun n hn => hp ⟨n, hn⟩
    obtain ⟨ms, he⟩ := down_step codec conn sessionId l hp'
    refine ⟨outputsOf ms, [], ⟨?_, ?_, ?_⟩, ?_⟩
    · rw [he]
      exact outputsOf_append _ _
    · rw [he, Pipe.pending_write h hs, outputsOf_append, List.nil_append]
    · rw [handed_step hp']
      exact (List.append_nil _).symm
    · cases p with
      | browserRead n => exact absurd rfl (hp' n)
      | _ => simp [FindHandlers]

/-! ## Runs -/

/-- What was written was handed over or is still on the stream. -/
def Accounted (codec : Codec) (sessionId : SessionId) (store : Store) (l : Link) : Prop :=
  l.store.handed ++ (outputsOf (l.down.pending codec.encodeAgent)).map (Fallback.given sessionId) =
    store.handed ++ (outputsOf l.down.written).map (Fallback.given sessionId)

theorem Moved.accounted {store : Store} {l l' : Link} {ws rs : List Output}
    (h : Moved codec sessionId l l' ws rs) (hl : Accounted codec sessionId store l)
    (hrs : ∀ o ∈ rs, findsHandler sessionId l.store o = true) :
    Accounted codec sessionId store l' := by
  unfold Accounted at hl ⊢
  rw [h.handed, List.filter_eq_self.mpr hrs, h.written, List.map_append, ← List.append_assoc,
    ← hl, List.append_assoc, List.append_assoc, ← List.map_append, ← List.map_append, h.pending]

/-- How many outputs were written that were not handed over and are not on the
stream. -/
def missing (codec : Codec) (l : Link) : Int :=
  (outputsOf l.down.written).length -
    (l.store.handed.length + (outputsOf (l.down.pending codec.encodeAgent)).length)

theorem Moved.missing {l l' : Link} {ws rs : List Output}
    (h : Moved codec sessionId l l' ws rs) :
    l'.missing codec =
      l.missing codec + (rs.length - (rs.filter (findsHandler sessionId l.store)).length) := by
  have hp := congrArg List.length h.pending
  rw [List.length_append, List.length_append] at hp
  unfold Link.missing
  rw [h.written, h.handed, List.length_append, List.length_append, List.length_map]
  omega

/-- The two ends rely on the agent's stream: the buffer is what was left over,
and every message is carried. -/
def Sound (codec : Codec) (l : Link) : Prop :=
  l.down.Fits codec.encodeAgent ∧ ∀ m ∈ l.down.written, codec.CarriesAgent m

variable (conn sessionId) in
theorem sound_always {l : Link} (h : l.down.Fits codec.encodeAgent) {ps : List LinkPick}
    (hc : ∀ m ∈ (run (step codec conn sessionId) l ps).down.written, codec.CarriesAgent m) :
    Always (step codec conn sessionId) (Sound codec) l ps := by
  refine Always.and ?_ ?_
  · exact always_of_invariant (P := fun l : Link => l.down.Fits codec.encodeAgent) h
      (fun l p hl => fits_down_step hl p) ps
  · exact always_of_last (P := fun l : Link => ∀ m ∈ l.down.written, codec.CarriesAgent m)
      (fun l p hl m hm => hl m ((written_step codec conn sessionId l p).2.subset hm)) hc

/-- **When the stream loses no output.** In a run that ends when the browser has
read all that the agent wrote, every output was handed once to the handler of
its pane, in the order in which the agent wrote them and whatever the pieces
were, if and only if each that was read found its handler. -/
theorem outputs_arrive_iff (ctrlStdin : Agent.Stdin) (store : Store) (ps : List LinkPick)
    (hcarried : ∀ m ∈ (run (step codec conn sessionId) (start ctrlStdin store) ps).down.written,
      codec.CarriesAgent m)
    (hread : (run (step codec conn sessionId) (start ctrlStdin store) ps).down.pending
      codec.encodeAgent = []) :
    (run (step codec conn sessionId) (start ctrlStdin store) ps).store.handed = store.handed ++
        (outputsOf (run (step codec conn sessionId) (start ctrlStdin store) ps).down.written).map
          (Fallback.given sessionId) ↔
      EachStep (step codec conn sessionId) (FindHandlers codec conn sessionId)
        (start ctrlStdin store) ps := by
  have hsound := sound_always conn sessionId (l := start ctrlStdin store) Pipe.fits_empty hcarried
  have hstart : (outputsOf ((start ctrlStdin store).down.pending codec.encodeAgent)) = [] := by
    rw [start, Pipe.pending_empty]
    rfl
  constructor
  · intro h
    refine eachStep_of_le_under (m := missing codec) hsound ?_ ?_ ?_
    · intro l p hl
      obtain ⟨ws, rs, hm, -⟩ := moved_step conn sessionId hl.1 hl.2 p
      have hle := List.length_filter_le (findsHandler sessionId l.store) rs
      rw [hm.missing]
      omega
    · intro l p hl hf
      obtain ⟨ws, rs, hm, hiff⟩ := moved_step conn sessionId hl.1 hl.2 p
      have hlt : (rs.filter (findsHandler sessionId l.store)).length < rs.length := by
        rw [List.length_filter_lt_length_iff_exists]
        simpa [hiff] using hf
      rw [hm.missing]
      omega
    · have hlen := congrArg List.length h
      rw [List.length_append, List.length_map] at hlen
      unfold missing
      rw [hread, hlen, hstart]
      simp only [outputsOf, List.filterMap_nil, List.length_nil, start, Pipe.empty]
      omega
  · intro h
    have hacc := always_of_eachStep_under (P := Accounted codec sessionId store) hsound ?_ ?_ h
    · have hlast := hacc.last
      rw [Accounted, hread] at hlast
      simpa [outputsOf] using hlast
    · rw [Accounted, hstart]
      rfl
    · intro l p hl ha hf
      obtain ⟨ws, rs, hm, hiff⟩ := moved_step conn sessionId hl.1 hl.2 p
      exact hm.accounted ha (hiff.mp hf)

theorem outputs_arrive_sample : sampleEnd.store.handed = sampleStore.handed ++
    (outputsOf sampleEnd.down.written).map (Fallback.given sampleSession) :=
  (outputs_arrive_iff .alive sampleStore samplePicks carried_sampleEnd.down
    (by decide +kernel)).mpr (by decide +kernel)

end Link

end Oxmux.System
