import Oxmux.Agent.Value
import Oxmux.Lib.Frames

/-! How the agent's `handle_session` cuts the browser's stream into messages
(`agent/src/quic/server.rs`). The message that names the tmux session has a
loop and a buffer of its own; the message loop starts with an empty one. -/

namespace Oxmux.Agent
open Oxmux.Lib Oxmux.Lib.Frames Oxmux.Lib.Utf8

/-- `send_raw`: what it writes for an encoded message. -/
def sendRaw (encoded : Bytes) : Bytes := be32 encoded.length ++ encoded

/-- The calls that stand between the two loops, and what they answer. -/
structure Setup where
  readValue : Bytes → Option Value
  ensureSession : Text → Bool
  replied : Bool

/-- The loop that reads until the first message is complete; a closed stream or
an empty read ends the session. It returns its buffer and the reads to come. -/
def readFirst : Bytes → List Bytes → Option (Bytes × List Bytes)
  | _, [] => none
  | firstBuf, data :: reads =>
    if data = [] then none
    else if (takeFrame (firstBuf ++ data)).isSome then some (firstBuf ++ data, reads)
    else readFirst (firstBuf ++ data) reads

/-- The message loop: what every read completes is passed to `handle_message`. -/
def messageLoop : Bytes → List Bytes → List Bytes
  | _, [] => []
  | streamBuf, data :: reads =>
    if data = [] then []
    else (splitFrames (streamBuf ++ data)).1 ++
      messageLoop (splitFrames (streamBuf ++ data)).2 reads

/-- The tmux session that a first message asks for. -/
def sessionName (firstMsg : Value) : Text :=
  let name := getStr firstMsg "name".toList
  if name = [] then "default".toList else name

/-- What a session did with its input: the payload that it took for the first
message, and those that it passed to `handle_message`. -/
structure SessionRun where
  firstMsg : Bytes
  name : Text
  handled : List Bytes
  deriving DecidableEq

def handleSession (setup : Setup) (reads : List Bytes) : Option SessionRun :=
  (readFirst [] reads).bind fun first =>
  (takeFrame first.1).bind fun frame =>
  (setup.readValue frame.1).bind fun firstMsg =>
    if setup.ensureSession (sessionName firstMsg) && setup.replied then
      some { firstMsg := frame.1, name := sessionName firstMsg, handled := messageLoop [] first.2 }
    else none

/-! ## The two loops -/

theorem messageLoop_eq {streamBuf : Bytes} (h : takeFrame streamBuf = none) {reads : List Bytes}
    (hr : ∀ r ∈ reads, r ≠ []) :
    messageLoop streamBuf reads = (splitFrames (streamBuf ++ reads.flatten)).1 := by
  rw [← readFrames_eq h]
  clear h
  induction reads generalizing streamBuf with
  | nil => rfl
  | cons r rs ih =>
    rw [messageLoop, if_neg (hr r (by simp)), ih fun x hx => hr x (by simp [hx])]
    rfl

theorem readFirst_eq_some {firstBuf b : Bytes} {reads post : List Bytes}
    (h : readFirst firstBuf reads = some (b, post)) :
    ∃ pre, reads = pre ++ post ∧ b = firstBuf ++ pre.flatten := by
  induction reads generalizing firstBuf with
  | nil => cases h
  | cons data reads ih =>
    rw [readFirst] at h
    split at h
    · cases h
    · split at h
      · obtain ⟨rfl, rfl⟩ := Prod.mk.inj (Option.some.inj h)
        exact ⟨[data], rfl, by simp⟩
      · obtain ⟨pre, rfl, rfl⟩ := ih h
        exact ⟨data :: pre, rfl, by simp⟩

/-- If a read ends where the first frame ends, the first loop ends there. -/
theorem readFirst_boundary {firstBuf p : Bytes} {pre : List Bytes} (hp : Sized p)
    (h₀ : takeFrame firstBuf = none) (hpre : ∀ r ∈ pre, r ≠ [])
    (h : firstBuf ++ pre.flatten = frame p) (post : List Bytes) :
    readFirst firstBuf (pre ++ post) = some (frame p, post) := by
  have hframe : takeFrame (frame p) = some (p, []) := by simpa using takeFrame_frame hp []
  induction pre generalizing firstBuf with
  | nil =>
    rw [List.flatten_nil, List.append_nil] at h
    rw [h, hframe] at h₀
    cases h₀
  | cons data pre ih =>
    rw [List.flatten_cons, ← List.append_assoc] at h
    rw [List.cons_append, readFirst, if_neg (hpre data (by simp))]
    cases ht : takeFrame (firstBuf ++ data) with
    | none => exact ih ht (fun r hr => hpre r (by simp [hr])) h
    | some q =>
      -- A frame that is complete already leaves nothing for the reads behind it.
      have hq := takeFrame_append ht pre.flatten
      rw [h, hframe] at hq
      have hnil : pre = [] := by
        cases pre with
        | nil => rfl
        | cons d pre =>
          have hd := hpre d (by simp)
          have he := (Prod.mk.inj (Option.some.inj hq)).2
          simp [hd] at he
      subst hnil
      rw [List.flatten_nil, List.append_nil] at h
      simp [h]

theorem handleSession_eq_some {setup : Setup} {reads : List Bytes} {r : SessionRun}
    (h : handleSession setup reads = some r) :
    ∃ pre rest post, reads = pre ++ post ∧ pre.flatten = frame r.firstMsg ++ rest ∧
      Sized r.firstMsg ∧ r.handled = messageLoop [] post := by
  simp only [handleSession, Option.bind_eq_some_iff, Prod.exists] at h
  obtain ⟨b, post, hfirst, m, rest, hframe, v, -, hrun⟩ := h
  obtain ⟨pre, hpre, hb⟩ := readFirst_eq_some hfirst
  obtain ⟨hm, hb'⟩ := takeFrame_eq_some hframe
  split at hrun
  · cases hrun
    exact ⟨pre, rest, post, hpre, by rw [← hb', hb, List.nil_append], hm, rfl⟩
  · cases hrun

/-- Nothing of the messages is left over behind the first one: every frame of
the rest comes out of the reads behind. -/
theorem boundary_of_handleSession {setup : Setup} {m : Bytes} {ms reads : List Bytes} {name : Text}
    (hreads : ∀ r ∈ reads, r ≠ []) (h : reads.flatten = frames (m :: ms))
    (hrun : handleSession setup reads = some { firstMsg := m, name, handled := ms }) :
    (∀ p ∈ m :: ms, Sized p) ∧ ∃ pre post, reads = pre ++ post ∧ pre.flatten = frame m := by
  obtain ⟨pre, rest, post, rfl, hpre, hm, hms⟩ := handleSession_eq_some hrun
  simp only at hpre hm hms
  rw [messageLoop_eq rfl fun r hr => hreads r (by simp [hr]), List.nil_append] at hms
  constructor
  · intro p hp
    rcases List.mem_cons.mp hp with rfl | hp
    · exact hm
    · rw [hms] at hp
      exact sized_of_mem_splitFrames hp
  · refine ⟨pre, post, rfl, ?_⟩
    have hpost := congrArg List.length (frames_splitFrames post.flatten)
    rw [← hms, List.length_append] at hpost
    have hall : rest ++ post.flatten = frames ms := by
      rw [List.flatten_append, hpre, frames, List.flatMap_cons, List.append_assoc] at h
      exact List.append_cancel_left h
    have hlen := congrArg List.length hall
    rw [List.length_append] at hlen
    have hnil : rest = [] := List.eq_nil_of_length_eq_zero (by omega)
    rw [hpre, hnil, List.append_nil]

/-- A read that ends with the first message leaves all others to the loop. -/
theorem handleSession_of_boundary {setup : Setup} {m : Bytes} {ms pre post : List Bytes}
    {v : Value} (hv : setup.readValue m = some v)
    (hs : setup.ensureSession (sessionName v) = true) (hrep : setup.replied = true)
    (hreads : ∀ r ∈ pre ++ post, r ≠ []) (hsized : ∀ p ∈ m :: ms, Sized p)
    (hpre : pre.flatten = frame m) (hpost : post.flatten = frames ms) :
    handleSession setup (pre ++ post) =
      some { firstMsg := m, name := sessionName v, handled := ms } := by
  have hm : Sized m := hsized m (by simp)
  have hfirst := readFirst_boundary hm (rfl : takeFrame [] = none)
    (fun r hr => hreads r (List.mem_append_left _ hr)) hpre post
  have hloop : messageLoop [] post = ms := by
    have hnone : takeFrame [] = none := rfl
    have hsplit := splitFrames_frames (fun p hp => hsized p (List.mem_cons_of_mem m hp)) []
    rw [List.append_nil, splitFrames_none hnone, List.append_nil] at hsplit
    rw [messageLoop_eq hnone fun r hr => hreads r (List.mem_append_right _ hr), List.nil_append,
      hpost, hsplit]
  have htake := takeFrame_frame hm []
  rw [List.append_nil] at htake
  rw [handleSession, hfirst, Option.bind_some, htake, Option.bind_some, hv, Option.bind_some, hs,
    hrep, hloop]
  rfl

/-- **When the agent handles exactly what the browser sent**: every message fits
its length prefix, and some read ends exactly where the first message ends. What
arrives in one read with the end of the first message is lost. -/
theorem handles_exactly_iff (setup : Setup) {m : Bytes} {ms reads : List Bytes} {v : Value}
    (hv : setup.readValue m = some v) (hs : setup.ensureSession (sessionName v) = true)
    (hrep : setup.replied = true) (hreads : ∀ r ∈ reads, r ≠ [])
    (h : reads.flatten = frames (m :: ms)) :
    handleSession setup reads = some { firstMsg := m, name := sessionName v, handled := ms } ↔
      (∀ p ∈ m :: ms, Sized p) ∧ ∃ pre post, reads = pre ++ post ∧ pre.flatten = frame m := by
  refine ⟨boundary_of_handleSession hreads h, ?_⟩
  rintro ⟨hsized, pre, post, rfl, hpre⟩
  refine handleSession_of_boundary hv hs hrep hreads hsized hpre ?_
  rw [List.flatten_append, hpre, frames, List.flatMap_cons] at h
  exact List.append_cancel_left h

/-! ## The browser's first messages -/

/-- The payload of `{t: "sess_connect", name: "w"}`. -/
def sessConnect : Bytes :=
  [0x82, 0xA1] ++ encode "t".toList ++ [0xAC] ++ encode "sess_connect".toList ++
    [0xA4] ++ encode "name".toList ++ [0xA1] ++ encode "w".toList

/-- The payload of `{t: "sub", pane: "%0"}`. -/
def sub : Bytes :=
  [0x82, 0xA1] ++ encode "t".toList ++ [0xA3] ++ encode "sub".toList ++
    [0xA4] ++ encode "pane".toList ++ [0xA2] ++ encode "%0".toList

def sessConnectValue : Value :=
  .map [(.str "t".toList, .str "sess_connect".toList), (.str "name".toList, .str "w".toList)]

/-- A setup that decodes the first message and succeeds. -/
def sampleSetup : Setup where
  readValue bytes := if bytes = sessConnect then some sessConnectValue else none
  ensureSession _ := true
  replied := true

theorem handles_exactly_sample :
    handleSession sampleSetup [frame sessConnect, frame sub] =
      some { firstMsg := sessConnect, name := sessionName sessConnectValue, handled := [sub] } :=
  (handles_exactly_iff sampleSetup (by simp [sampleSetup]) rfl rfl (by decide) (by decide)).mpr
    ⟨by decide, [frame sessConnect], [frame sub], rfl, by simp⟩

/-- Both messages in one read: the subscription is lost. -/
theorem one_read_loses : ¬ ∀ (setup : Setup) (m : Bytes) (ms reads : List Bytes) (v : Value),
    setup.readValue m = some v → setup.ensureSession (sessionName v) = true →
    setup.replied = true → (∀ r ∈ reads, r ≠ []) → reads.flatten = frames (m :: ms) →
    handleSession setup reads = some { firstMsg := m, name := sessionName v, handled := ms } := by
  intro h
  have hrun := h sampleSetup sessConnect [sub] [frame sessConnect ++ frame sub] sessConnectValue
    (by simp [sampleSetup]) rfl rfl (by decide) (by decide)
  obtain ⟨-, pre, post, he, hpre⟩ := boundary_of_handleSession (by decide) (by decide) hrun
  rcases List.cons_eq_append_iff.mp he with ⟨rfl, -⟩ | ⟨pre', rfl, he'⟩
  · exact absurd (congrArg List.length hpre) (by decide)
  · rw [(List.nil_eq_append_iff.mp he').1] at hpre
    exact absurd (congrArg List.length hpre) (by decide)

end Oxmux.Agent
