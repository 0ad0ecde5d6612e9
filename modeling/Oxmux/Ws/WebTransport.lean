import Oxmux.Agent.Value
import Oxmux.Lib.Frames
import Oxmux.Ws.Protocol

/-! The two ends of a WebTransport stream: `handle_incoming` of
`server/src/ws/webtransport.rs` and `connectQuic` of
`client/src/composables/useQuic.ts`. The browser frames what it sends and expects
a bare reply to its authentication; the server does the opposite. -/

namespace Oxmux.Ws
open Oxmux.Lib Oxmux.Lib.Frames Oxmux.Lib.Utf8

/-- MessagePack as the two ends use it; an authentication message may be JSON too. -/
structure Codec where
  encode : ClientMsg → Bytes
  decode : Bytes → Option Agent.Value
  decodeClientMsg : Bytes → Option ClientMsg
  authToken : Bytes → Option Text

/-- A byte below 0x80 is an integer, which is no message; the browser's decoder
takes no bytes behind a value. -/
structure Codec.Lawful (c : Codec) : Prop where
  decode_nil : c.decode [] = none
  decode_integer : ∀ b : Byte, b < 0x80 → c.decode [b] = some (.integer b.toNat)
  decode_extra : ∀ (b : Byte) (s : Bytes), b < 0x80 → s ≠ [] → c.decode (b :: s) = none
  decodeClientMsg_integer : ∀ (b : Byte) (s : Bytes), b < 0x80 → c.decodeClientMsg (b :: s) = none

/-- The server decodes the message where its bytes begin; what is behind them in
the slice is ignored. -/
structure Codec.Carries (c : Codec) (m : ClientMsg) : Prop where
  encode_ne_nil : c.encode m ≠ []
  sized : (c.encode m).length < 2 ^ 31
  decodes : ∀ s, c.decodeClientMsg (c.encode m ++ s) = some m

/-! ## The server -/

def authOk : Bytes :=
  [0x81, 0xA1] ++ Utf8.encode "t".toList ++ [0xA7] ++ Utf8.encode "auth_ok".toList

/-- The message loop: every read is decoded by itself. -/
def receive (c : Codec) : List Bytes → List ClientMsg
  | [] => []
  | data :: reads =>
    if data = [] then [] else (c.decodeClientMsg data).toList ++ receive c reads

/-- What the server made of a WebTransport session. -/
structure Incoming where
  userId : Text
  reply : Bytes
  handled : List ClientMsg

/-- `handle_incoming`; the first read is the authentication. -/
def handleIncoming (c : Codec) (validateToken : Text → Option Text) :
    List Bytes → Option Incoming
  | [] => none
  | auth :: reads =>
    (c.authToken auth).bind fun token =>
    (validateToken token).map fun userId =>
      { userId, reply := frame authOk, handled := receive c reads }

/-! ## The browser -/

/-- `connectQuic` goes on if the first chunk of the stream is the reply that it
waits for. -/
def authAccepted (c : Codec) (chunk : Bytes) : Bool :=
  match c.decode chunk with
  | some authResult => Agent.getStr authResult "t".toList = "auth_ok".toList
  | none => false

/-- The bytes that `send` writes for these messages. -/
def sent (c : Codec) (msgs : List ClientMsg) : Bytes := frames (msgs.map c.encode)

def readLoop (c : Codec) (chunks : List Bytes) : List Agent.Value :=
  (readFrames [] chunks).1.filterMap c.decode

/-! ## The reply -/

theorem be32_head {n : Nat} (h : n < 2 ^ 31) : ∃ b s, be32 n = b :: s ∧ b < 0x80 := by
  refine ⟨_, _, rfl, ?_⟩
  rw [UInt8.lt_iff_toNat_lt, UInt8.toNat_ofNat']
  simp only [UInt8.reduceToNat]
  omega

/-- **The browser does not take the server's reply for one**, however much of it
comes first: it begins with a length. -/
theorem authAccepted_eq_false {c : Codec} (h : c.Lawful) {chunk s : Bytes}
    (hc : chunk <+: frame authOk ++ s) : authAccepted c chunk = false := by
  obtain ⟨b, t, hb, hlt⟩ := be32_head (show authOk.length < 2 ^ 31 by decide)
  rw [frame, hb] at hc
  rcases chunk with _ | ⟨b', _ | ⟨b'', chunk⟩⟩
  · simp [authAccepted, h.decode_nil]
  · obtain rfl : b' = b := by simpa using hc
    simp [authAccepted, h.decode_integer _ hlt, Agent.getStr, Agent.Value.field,
      Agent.Value.asMap]
  · obtain ⟨rfl, -⟩ : b' = b ∧ _ := by simpa using hc
    simp [authAccepted, h.decode_extra _ _ hlt]

/-! ## The messages -/

inductive Piece where
  | length (m : ClientMsg)
  | payload (m : ClientMsg)

namespace Piece

def msg : Piece → ClientMsg
  | length m => m
  | payload m => m

def bytes (c : Codec) : Piece → Bytes
  | length m => be32 (c.encode m).length
  | payload m => c.encode m

def payload? : Piece → Option ClientMsg
  | length _ => none
  | payload m => some m

end Piece

def pieces (msgs : List ClientMsg) : List Piece := msgs.flatMap fun m => [.length m, .payload m]

/-- The messages whose payload is among the pieces. -/
def payloads (ps : List Piece) : List ClientMsg := ps.filterMap Piece.payload?

/-- One read of whole pieces. -/
def readOf (c : Codec) (ps : List Piece) : Bytes := ps.flatMap (Piece.bytes c)

theorem payloads_pieces (msgs : List ClientMsg) : payloads (pieces msgs) = msgs := by
  induction msgs with
  | nil => rfl
  | cons m msgs ih =>
    change m :: payloads (pieces msgs) = m :: msgs
    rw [ih]

/-- Among lists whose parts begin those of another list, the whole is the same
only if all parts are. -/
theorem flatMap_eq_iff_of_isPrefix {α β : Type*} {f g : α → List β} (h : ∀ x, f x <+: g x)
    (xs : List α) : xs.flatMap f = xs.flatMap g ↔ ∀ x ∈ xs, f x = g x := by
  have hle : ∀ ys : List α, (ys.flatMap f).length ≤ (ys.flatMap g).length := by
    intro ys
    induction ys with
    | nil => simp
    | cons y ys ih =>
      have := (h y).length_le
      simp only [List.flatMap_cons, List.length_append]
      omega
  constructor
  · intro he
    induction xs with
    | nil => simp
    | cons x xs ih =>
      have hlen := congrArg List.length he
      simp only [List.flatMap_cons, List.length_append] at hlen
      have hx := (h x).length_le
      have hxs := hle xs
      have hfx : f x = g x := (h x).eq_of_length (by omega)
      rw [List.flatMap_cons, List.flatMap_cons, hfx] at he
      intro y hy
      rcases List.mem_cons.mp hy with rfl | hy
      · exact hfx
      · exact ih (List.append_cancel_left he) y hy
  · intro he
    induction xs with
    | nil => rfl
    | cons x xs ih =>
      rw [List.flatMap_cons, List.flatMap_cons, he x (by simp), ih fun y hy => he y (by simp [hy])]

/-- A read is decoded if it begins with a payload, and then to that alone. -/
theorem decodeClientMsg_readOf {c : Codec} (h : c.Lawful) {g : List Piece}
    (hm : ∀ p ∈ g, c.Carries p.msg) (hg : g ≠ []) :
    readOf c g ≠ [] ∧ (c.decodeClientMsg (readOf c g)).toList = payloads (g.take 1) := by
  rcases g with _ | ⟨p, g⟩
  · exact absurd rfl hg
  · cases p with
    | length m =>
      have hc : c.Carries m := hm (.length m) (by simp)
      obtain ⟨b, s, hb, hlt⟩ := be32_head hc.sized
      have hr : readOf c (.length m :: g) = b :: (s ++ readOf c g) := by
        simp [readOf, Piece.bytes, hb]
      rw [hr, h.decodeClientMsg_integer _ _ hlt]
      exact ⟨List.cons_ne_nil _ _, rfl⟩
    | payload m =>
      have hc : c.Carries m := hm (.payload m) (by simp)
      have hr : readOf c (.payload m :: g) = c.encode m ++ readOf c g := by
        simp [readOf, Piece.bytes]
      rw [hr, hc.decodes]
      exact ⟨List.append_ne_nil_of_left_ne_nil hc.encode_ne_nil _, rfl⟩

theorem receive_readOf {c : Codec} (h : c.Lawful) {groups : List (List Piece)}
    (hm : ∀ g ∈ groups, ∀ p ∈ g, c.Carries p.msg) (hg : ∀ g ∈ groups, g ≠ []) :
    receive c (groups.map (readOf c)) = groups.flatMap fun g => payloads (g.take 1) := by
  induction groups with
  | nil => rfl
  | cons g groups ih =>
    obtain ⟨hne, hd⟩ := decodeClientMsg_readOf h (hm g (by simp)) (hg g (by simp))
    rw [List.map_cons, receive, if_neg hne, hd,
      ih (fun g' hg' => hm g' (by simp [hg'])) fun g' hg' => hg g' (by simp [hg'])]
    rfl

/-- **When the server finds the messages** in reads that cut no length and no
payload apart: it does if no read has a payload behind its first piece, so if
every length comes without its payload. -/
theorem receive_eq_iff {c : Codec} (h : c.Lawful) {msgs : List ClientMsg}
    (hm : ∀ m ∈ msgs, c.Carries m) {groups : List (List Piece)} (hg : ∀ g ∈ groups, g ≠ [])
    (hf : groups.flatten = pieces msgs) :
    receive c (groups.map (readOf c)) = msgs ↔ ∀ g ∈ groups, payloads (g.drop 1) = [] := by
  have hpiece : ∀ g ∈ groups, ∀ p ∈ g, c.Carries p.msg := by
    intro g hgm p hp
    have hmem : p ∈ pieces msgs := by
      rw [← hf]
      exact List.mem_flatten.mpr ⟨g, hgm, hp⟩
    simp only [pieces, List.mem_flatMap, List.mem_cons, List.not_mem_nil, or_false] at hmem
    obtain ⟨m, hmm, rfl | rfl⟩ := hmem
    · exact hm m hmm
    · exact hm m hmm
  have hall : msgs = groups.flatMap payloads := by
    conv => lhs; rw [← payloads_pieces msgs, ← hf]
    rw [payloads, List.filterMap_flatten, List.flatMap_def]
    rfl
  have hsplit (g : List Piece) : payloads g = payloads (g.take 1) ++ payloads (g.drop 1) := by
    conv => lhs; rw [← List.take_append_drop 1 g]
    exact List.filterMap_append
  rw [receive_readOf h hpiece hg]
  conv => lhs; rhs; rw [hall]
  rw [flatMap_eq_iff_of_isPrefix fun g => ⟨_, (hsplit g).symm⟩]
  refine forall₂_congr fun g _ => ?_
  conv => lhs; rhs; rw [hsplit g]
  simp

/-! ## Both ends -/

/-- The server handles what the browser sent, and the browser takes the server's
reply for one. -/
def Understood (c : Codec) (msgs : List ClientMsg) (r : Incoming) (chunk : Bytes) : Prop :=
  r.handled = msgs ∧ authAccepted c chunk

/-- **The two ends never understand each other.** The reply is not accepted,
whatever part of the stream comes first; and where lengths and payloads arrive
whole, the messages are found only if no payload comes behind its length. -/
theorem never_understood {c : Codec} (h : c.Lawful) {validateToken : Text → Option Text}
    {auth chunk later : Bytes} {reads : List Bytes} {r : Incoming}
    (hr : handleIncoming c validateToken (auth :: reads) = some r)
    (hc : chunk <+: r.reply ++ later) {msgs : List ClientMsg} (hm : ∀ m ∈ msgs, c.Carries m) :
    ¬Understood c msgs r chunk ∧
    ∀ groups : List (List Piece), (∀ g ∈ groups, g ≠ []) → groups.flatten = pieces msgs →
      reads = groups.map (readOf c) →
      (r.handled = msgs ↔ ∀ g ∈ groups, payloads (g.drop 1) = []) := by
  simp only [handleIncoming, Option.bind_eq_some_iff, Option.map_eq_some_iff] at hr
  obtain ⟨token, -, userId, -, rfl⟩ := hr
  constructor
  · rintro ⟨-, ha⟩
    rw [authAccepted_eq_false h hc] at ha
    cases ha
  · rintro groups hg hf rfl
    exact receive_eq_iff h hm hg hf

/-! ## A ping -/

def pingBytes : Bytes :=
  [0x82, 0xA1] ++ Utf8.encode "t".toList ++ [0xA4] ++ Utf8.encode "ping".toList ++
    [0xA2] ++ Utf8.encode "ts".toList ++ [0x00]

/-- Both ends' MessagePack, as far as integers and this message go. -/
def sampleCodec : Codec where
  encode _ := pingBytes
  decode
    | [b] => if b < 0x80 then some (.integer b.toNat) else none
    | _ => none
  decodeClientMsg s := if pingBytes.isPrefixOf s then some (.ping 0) else none
  authToken _ := some "token".toList

theorem sampleCodec_lawful : sampleCodec.Lawful where
  decode_nil := rfl
  decode_integer b hb := by simp [sampleCodec, hb]
  decode_extra b s _ hs := by
    cases s with
    | nil => exact absurd rfl hs
    | cons b' s => rfl
  decodeClientMsg_integer b s hb := by
    have hne : (0x82 : Byte) ≠ b := by
      rintro rfl
      exact absurd hb (by decide)
    simp [sampleCodec, pingBytes, hne]

theorem sampleCodec_carries : sampleCodec.Carries (.ping 0) where
  encode_ne_nil := by decide
  sized := by decide
  decodes s := by
    have hp : pingBytes.isPrefixOf (pingBytes ++ s) = true :=
      List.isPrefixOf_iff_prefix.mpr (List.prefix_append _ _)
    simp only [sampleCodec, hp, if_true]

def sampleIncoming (handled : List ClientMsg) : Incoming where
  userId := "u".toList
  reply := frame authOk
  handled

/-- The frame of a ping in two reads: the server finds the message, but the reply
to the authentication was not accepted. -/
theorem never_understood_sample :
    ¬Understood sampleCodec [.ping 0] (sampleIncoming [.ping 0]) (frame authOk) :=
  (@never_understood sampleCodec sampleCodec_lawful (fun _ => some "u".toList) [] _ []
    [be32 pingBytes.length, pingBytes] _ (by rfl) (List.prefix_append _ _) [.ping 0]
    fun m hm => List.mem_singleton.mp hm ▸ sampleCodec_carries).1

/-- A ping that the browser sends in one write is no message to the server. -/
theorem framed_ping_not_understood : ¬∀ (c : Codec) (validateToken : Text → Option Text)
    (msgs : List ClientMsg) (auth chunk later : Bytes) (reads : List Bytes) (r : Incoming),
    c.Lawful → (∀ m ∈ msgs, c.Carries m) →
    handleIncoming c validateToken (auth :: reads) = some r → reads.flatten = sent c msgs →
    chunk <+: r.reply ++ later → Understood c msgs r chunk := by
  intro h
  have hu := h sampleCodec (fun _ => some "u".toList) [.ping 0] [] (frame authOk) []
    [frame pingBytes] (sampleIncoming []) sampleCodec_lawful
    (fun m hm => List.mem_singleton.mp hm ▸ sampleCodec_carries) (by rfl) (by rfl)
    (List.prefix_append _ _)
  cases hu.1

end Oxmux.Ws
