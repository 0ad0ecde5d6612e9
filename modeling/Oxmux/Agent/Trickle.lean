import Oxmux.Agent.Message
import Oxmux.Lib.Runs

/-! Trickled ICE candidates. The flag that lets the agent hand a candidate to
its peer connection is never set, and the queue that it fills instead is emptied
only by the next offer; so no candidate ever reaches a connection. -/

namespace Oxmux.Agent
open Oxmux.Lib Oxmux.Lib.Utf8 Oxmux.Lib.Runs

/-- The candidates handed to a connection, in order. -/
def State.addedTo (a : State) (pc : PeerConnection) : List Candidate :=
  (a.added.filter (·.1 = pc)).map Prod.snd

/-- An agent with the account of what its peer connection is owed: the candidates that
waited when the last offer was answered, and those since. -/
structure Trickle where
  agent : State
  answered : Bool
  due : List Candidate

def Trickle.new (ctrlStdin : Stdin) : Trickle :=
  { agent := .new ctrlStdin, answered := false, due := [] }

def Env.answers (env : Env) : Bool := env.answer.toBool && env.replied

/-- The account of one message. -/
def Trickle.account (env : Env) (tr : Trickle) (msg : Value) : Bool × List Candidate :=
  if getStr msg "t".toList = "webrtc_offer".toList then
    (env.answers, tr.agent.webrtcPendingCandidates)
  else if getStr msg "t".toList = "webrtc_ice".toList then
    (tr.answered,
      if (iceCandidate msg).candidate = [] then tr.due else tr.due ++ [iceCandidate msg])
  else (tr.answered, tr.due)

/-- `handle_message` with the account kept beside it. -/
def Trickle.step (readValue : Bytes → Option Value) (tr : Trickle) (input : Bytes × Env) :
    Trickle :=
  match readValue input.1 with
  | some msg =>
    { agent := handleMessage readValue input.2 tr.agent input.1
      answered := (tr.account input.2 msg).1
      due := (tr.account input.2 msg).2 }
  | none => tr

/-- Every candidate that the stored, answered connection is owed was handed to
it exactly once, and none is waiting. -/
def Trickle.Delivered (tr : Trickle) : Prop :=
  tr.answered = true → ∀ pc, tr.agent.webrtcPc = some pc →
    (tr.agent.addedTo pc).Perm tr.due ∧ tr.agent.webrtcPendingCandidates = []

/-- No candidate waits when an offer is answered, and none comes while an
answered connection is stored. -/
def Trickle.NoTrickle (readValue : Bytes → Option Value) (tr : Trickle) (input : Bytes × Env) :
    Prop :=
  ∀ msg, readValue input.1 = some msg →
    (getStr msg "t".toList = "webrtc_offer".toList → input.2.answers = true →
      tr.agent.webrtcPendingCandidates = []) ∧
    (getStr msg "t".toList = "webrtc_ice".toList → (iceCandidate msg).candidate ≠ [] →
      ¬ (tr.answered = true ∧ tr.agent.webrtcPc.isSome = true))

/-! ## What a message does to the peer connection -/

/-- The fields that WebRTC messages are about. -/
def State.SameWebrtc (a b : State) : Prop :=
  a.webrtcPc = b.webrtcPc ∧ a.webrtcRemoteSet = b.webrtcRemoteSet ∧
    a.webrtcPendingCandidates = b.webrtcPendingCandidates ∧ a.added = b.added

theorem State.SameWebrtc.refl (a : State) : a.SameWebrtc a := ⟨rfl, rfl, rfl, rfl⟩

theorem sameWebrtc_write (a : State) (cmd : Text) : (a.write cmd).SameWebrtc a := by
  unfold State.write
  split <;> exact ⟨rfl, rfl, rfl, rfl⟩

theorem sameWebrtc_send (a : State) (env : Env) (reply : Reply) :
    (a.send env reply).SameWebrtc a := by
  unfold State.send
  split <;> exact ⟨rfl, rfl, rfl, rfl⟩

theorem sameWebrtc_handleResize (a : State) (msg : Value) : (handleResize a msg).SameWebrtc a := by
  unfold handleResize
  simp only
  split
  · exact sameWebrtc_write _ _
  · exact .refl a

/-- Messages of other kinds leave the peer connection alone. -/
theorem sameWebrtc_handleValue {env : Env} {a : State} {msg : Value}
    (ho : getStr msg "t".toList ≠ "webrtc_offer".toList)
    (hi : getStr msg "t".toList ≠ "webrtc_ice".toList) : (handleValue env a msg).SameWebrtc a := by
  unfold handleValue
  simp only [if_neg ho, if_neg hi]
  split
  · unfold handleSub
    simp only
    split <;> exact ⟨rfl, rfl, rfl, rfl⟩
  split
  · unfold handleUnsub
    simp only
    split <;> exact ⟨rfl, rfl, rfl, rfl⟩
  split
  · unfold handleInput sendTmuxInput
    split
    · exact .refl a
    · exact sameWebrtc_write a _
  split
  · exact sameWebrtc_handleResize a msg
  split
  · exact sameWebrtc_send a env _
  split
  · exact sameWebrtc_send a env _
  split <;> exact .refl a

theorem handleValue_offer {env : Env} {a : State} {msg : Value}
    (h : getStr msg "t".toList = "webrtc_offer".toList) :
    handleValue env a msg = handleOffer env a := by
  simp only [handleValue, h]
  rfl

theorem handleValue_ice {env : Env} {a : State} {msg : Value}
    (h : getStr msg "t".toList = "webrtc_ice".toList) :
    handleValue env a msg = handleIce a msg := by
  simp only [handleValue, h]
  rfl

/-- An offer leaves an empty queue, a cleared flag and the new connection. -/
theorem handleOffer_webrtc (env : Env) (a : State) :
    (handleOffer env a).webrtcPendingCandidates = [] ∧
    (handleOffer env a).webrtcRemoteSet = false ∧ (handleOffer env a).added = a.added ∧
    ((handleOffer env a).webrtcPc.isSome = env.answer.toBool) := by
  unfold handleOffer
  cases env.answer with
  | ok r =>
    obtain ⟨h₁, h₂, h₃, h₄⟩ := sameWebrtc_send { a with
      webrtcPc := some r.1, closed := a.closed ++ a.webrtcPc.toList, webrtcDc := none
      webrtcRemoteSet := false, webrtcPendingCandidates := [] } env (.webrtcAnswer r.2)
    exact ⟨h₃, h₂, h₄, by rw [h₁]; rfl⟩
  | error e =>
    obtain ⟨h₁, h₂, h₃, h₄⟩ := sameWebrtc_send { a with
      webrtcPc := none, closed := a.closed ++ a.webrtcPc.toList, webrtcDc := none
      webrtcRemoteSet := false, webrtcPendingCandidates := [] } env (.webrtcError e)
    exact ⟨h₃, h₂, h₄, by rw [h₁]; rfl⟩

/-- While the flag is down, a candidate is queued. -/
theorem handleIce_queued {a : State} (h : a.webrtcRemoteSet = false) {msg : Value}
    (hc : (iceCandidate msg).candidate ≠ []) :
    handleIce a msg =
      { a with webrtcPendingCandidates := a.webrtcPendingCandidates ++ [iceCandidate msg] } := by
  simp [handleIce, takeCandidate, hc, h]

theorem handleIce_empty {a : State} {msg : Value} (hc : (iceCandidate msg).candidate = []) :
    handleIce a msg = a := by
  simp [handleIce, takeCandidate, hc]

/-! ## What a message does to the account -/

section
variable {readValue : Bytes → Option Value} {tr : Trickle} {data : Bytes} {env : Env} {msg : Value}

theorem Trickle.step_offer (hm : readValue data = some msg)
    (h : getStr msg "t".toList = "webrtc_offer".toList) :
    tr.step readValue (data, env) = { agent := handleOffer env tr.agent, answered := env.answers
                                      due := tr.agent.webrtcPendingCandidates } := by
  simp only [step, hm, handleMessage, account, if_pos h, handleValue_offer h]

theorem Trickle.step_ice (hm : readValue data = some msg)
    (h : getStr msg "t".toList = "webrtc_ice".toList)
    (hc : (iceCandidate msg).candidate ≠ []) (hf : tr.agent.webrtcRemoteSet = false) :
    tr.step readValue (data, env) = { tr with
      agent := { tr.agent with webrtcPendingCandidates :=
        tr.agent.webrtcPendingCandidates ++ [iceCandidate msg] }
      due := tr.due ++ [iceCandidate msg] } := by
  have ho : getStr msg "t".toList ≠ "webrtc_offer".toList := by rw [h]; decide
  simp only [step, hm, handleMessage, account, if_neg ho, if_pos h, if_neg hc, handleValue_ice h,
    handleIce_queued hf hc]

/-- Any other message, an empty candidate included. -/
theorem Trickle.step_other (tr : Trickle) (env : Env) (hm : readValue data = some msg)
    (ho : getStr msg "t".toList ≠ "webrtc_offer".toList)
    (hi : getStr msg "t".toList = "webrtc_ice".toList → (iceCandidate msg).candidate = []) :
    (tr.step readValue (data, env)).agent.SameWebrtc tr.agent ∧
      (tr.step readValue (data, env)).answered = tr.answered ∧
      (tr.step readValue (data, env)).due = tr.due := by
  simp only [step, hm, handleMessage, account, if_neg ho]
  by_cases h : getStr msg "t".toList = "webrtc_ice".toList
  · simp only [if_pos h, hi h, handleValue_ice h, handleIce_empty (hi h), if_true, and_self,
      and_true]
    exact .refl _
  · simp only [if_neg h, and_self, and_true]
    exact sameWebrtc_handleValue ho h

theorem Trickle.step_undecoded (hm : readValue data = none) :
    tr.step readValue (data, env) = tr := by
  simp only [step, hm]

end

/-- The account reads the agent through its peer connection only. -/
theorem Trickle.delivered_congr {tr tr' : Trickle} (h : tr'.agent.SameWebrtc tr.agent)
    (ha : tr'.answered = tr.answered) (hd : tr'.due = tr.due) :
    tr'.Delivered ↔ tr.Delivered := by
  obtain ⟨h₁, -, h₃, h₄⟩ := h
  simp only [Delivered, State.addedTo, h₁, h₃, h₄, ha, hd]

/-! ## Runs -/

/-- The flag is never up, so nothing was ever handed over. -/
def Trickle.FlagDown (tr : Trickle) : Prop :=
  tr.agent.webrtcRemoteSet = false ∧ tr.agent.added = []

theorem Trickle.flagDown_step (readValue : Bytes → Option Value) {tr : Trickle}
    (h : tr.FlagDown) (input : Bytes × Env) : (tr.step readValue input).FlagDown := by
  obtain ⟨data, env⟩ := input
  cases hm : readValue data with
  | none => rwa [step_undecoded hm]
  | some msg =>
    by_cases ho : getStr msg "t".toList = "webrtc_offer".toList
    · obtain ⟨-, hf, ha, -⟩ := handleOffer_webrtc env tr.agent
      rw [step_offer hm ho]
      exact ⟨hf, ha.trans h.2⟩
    · by_cases hi : getStr msg "t".toList = "webrtc_ice".toList ∧
          (iceCandidate msg).candidate ≠ []
      · rw [step_ice hm hi.1 hi.2 h.1]
        exact h
      · obtain ⟨⟨-, hf, -, ha⟩, -⟩ := step_other tr env hm ho
          fun h' => not_not.mp fun hc => hi ⟨h', hc⟩
        exact ⟨hf.trans h.1, ha.trans h.2⟩

/-- What is owed is delivered after a message exactly if it did not trickle. -/
theorem Trickle.delivered_step_iff (readValue : Bytes → Option Value) {tr : Trickle}
    (hf : tr.FlagDown) (hd : tr.Delivered) (input : Bytes × Env) :
    (tr.step readValue input).Delivered ↔ tr.NoTrickle readValue input := by
  obtain ⟨data, env⟩ := input
  cases hm : readValue data with
  | none =>
    rw [step_undecoded hm]
    exact iff_of_true hd fun msg h => by simp [hm] at h
  | some msg =>
    have hno : tr.NoTrickle readValue (data, env) ↔ _ :=
      ⟨fun h => h msg hm, fun h msg' h' => by rw [hm] at h'; exact Option.some.inj h' ▸ h⟩
    rw [hno]
    by_cases ho : getStr msg "t".toList = "webrtc_offer".toList
    · have hi : getStr msg "t".toList ≠ "webrtc_ice".toList := by rw [ho]; decide
      obtain ⟨hp, -, ha, hpc⟩ := handleOffer_webrtc env tr.agent
      rw [step_offer hm ho]
      constructor
      · intro h
        refine ⟨fun _ hans => ?_, fun h' => absurd h' hi⟩
        have hsome : (handleOffer env tr.agent).webrtcPc.isSome = true := by
          simp only [Env.answers, Bool.and_eq_true] at hans
          exact hpc.trans hans.1
        obtain ⟨pc, hpc'⟩ := Option.isSome_iff_exists.mp hsome
        simpa [State.addedTo, ha, hf.2] using (h hans pc hpc').1
      · intro h hans pc _
        exact ⟨by simp [State.addedTo, ha, hf.2, h.1 ho hans], hp⟩
    · by_cases hi : getStr msg "t".toList = "webrtc_ice".toList ∧
          (iceCandidate msg).candidate ≠ []
      · rw [step_ice hm hi.1 hi.2 hf.1]
        constructor
        · intro h
          refine ⟨fun h' => absurd h' ho, fun _ _ ⟨hans, hpc⟩ => ?_⟩
          obtain ⟨pc, hpc'⟩ := Option.isSome_iff_exists.mp hpc
          exact absurd (h hans pc hpc').2 (by simp)
        · intro h hans pc hpc
          exact absurd ⟨hans, Option.isSome_iff_exists.mpr ⟨pc, hpc⟩⟩ (h.2 hi.1 hi.2)
      · have hi' : getStr msg "t".toList = "webrtc_ice".toList →
            (iceCandidate msg).candidate = [] := fun h' => not_not.mp fun hc => hi ⟨h', hc⟩
        obtain ⟨hs, ha, hdue⟩ := step_other tr env hm ho hi'
        rw [delivered_congr hs ha hdue]
        exact iff_of_true hd ⟨fun h => absurd h ho, fun h hc => absurd (hi' h) hc⟩

/-- **When no candidate is lost**: in every state of a run the stored, answered
connection got what it is owed exactly if no candidate waited when an offer was
answered and none came while an answered connection was stored. -/
theorem delivered_iff_noTrickle (readValue : Bytes → Option Value) (ctrlStdin : Stdin)
    (inputs : List (Bytes × Env)) :
    Always (Trickle.step readValue) Trickle.Delivered (.new ctrlStdin) inputs ↔
      EachStep (Trickle.step readValue) (Trickle.NoTrickle readValue) (.new ctrlStdin) inputs :=
  always_iff_eachStep (I := Trickle.FlagDown) (by intro h; cases h) ⟨rfl, rfl⟩
    (fun _ input hf hd => Trickle.delivered_step_iff readValue hf hd input)
    (fun _ input hf _ _ => Trickle.flagDown_step readValue hf input) inputs

/-- The payload of `{t: "webrtc_offer", sdp: "v=0"}`. -/
def offerBytes : Bytes :=
  [0x82, 0xA1] ++ encode "t".toList ++ [0xAC] ++ encode "webrtc_offer".toList ++
    [0xA3] ++ encode "sdp".toList ++ [0xA3] ++ encode "v=0".toList

/-- The payload of `{t: "webrtc_ice", candidate: {candidate: "c", sdpMid: "0"}}`. -/
def iceBytes : Bytes :=
  [0x82, 0xA1] ++ encode "t".toList ++ [0xAA] ++ encode "webrtc_ice".toList ++
    [0xA9] ++ encode "candidate".toList ++ [0x82, 0xA9] ++ encode "candidate".toList ++
    [0xA1] ++ encode "c".toList ++ [0xA6] ++ encode "sdpMid".toList ++ [0xA1] ++ encode "0".toList

def sampleReadValue (bytes : Bytes) : Option Value :=
  if bytes = offerBytes then
    some (.map [(.str "t".toList, .str "webrtc_offer".toList),
      (.str "sdp".toList, .str "v=0".toList)])
  else if bytes = iceBytes then
    some (.map [(.str "t".toList, .str "webrtc_ice".toList), (.str "candidate".toList,
      .map [(.str "candidate".toList, .str "c".toList), (.str "sdpMid".toList, .str "0".toList)])])
  else none

/-- A candidate behind an answered offer stays in the queue. -/
theorem candidate_lost : ¬ ∀ (readValue : Bytes → Option Value) (ctrlStdin : Stdin)
    (inputs : List (Bytes × Env)),
    Always (Trickle.step readValue) Trickle.Delivered (.new ctrlStdin) inputs := by
  intro h
  have hd := (h sampleReadValue .alive [(offerBytes, { answer := .ok (0, []), replied := true }),
    (iceBytes, { answer := .error [], replied := true })]).last rfl 0 rfl
  exact absurd hd.2 (by decide)

end Oxmux.Agent
