import Oxmux.Lib.Text

/-! The tokens of `server/src/auth/jwt.rs`. They are signed and checked by the
`jsonwebtoken` crate with HS256; the functions here fill in the claims. -/

namespace Oxmux.Auth
open Oxmux.Lib

structure Claims where
  sub : Text
  username : Text
  exp : Nat
  deriving DecidableEq

/-- The `jsonwebtoken` crate: what it makes of claims and a secret, and what it
reads from a token at a time, under the default validation. -/
structure Jsonwebtoken where
  encode : Claims → Text → Option Text
  decode : Nat → Text → Text → Option Claims

/-- The leeway of the default validation, in seconds. -/
def leeway : Nat := 60

/-- Claims are encoded, and a token decodes to its claims until they expire. -/
structure Jsonwebtoken.Lawful (jwt : Jsonwebtoken) : Prop where
  encode_isSome : ∀ claims secret, (jwt.encode claims secret).isSome
  decode_encode : ∀ {claims secret token}, jwt.encode claims secret = some token →
    ∀ now, jwt.decode now token secret = if now ≤ claims.exp + leeway then some claims else none

namespace Jsonwebtoken
variable (jwt : Jsonwebtoken)

/-- `create_token`: valid for seven days. -/
def createToken (now : Nat) (userId username secret : Text) : Option Text :=
  jwt.encode { sub := userId, username, exp := now + 7 * 24 * 3600 } secret

/-- `create_agent_token`: valid for five minutes. -/
def createAgentToken (now : Nat) (agentId secret : Text) : Option Text :=
  jwt.encode { sub := agentId, username := "agent".toList, exp := now + 300 } secret

def validateToken (now : Nat) (token secret : Text) : Option Claims := jwt.decode now token secret

variable {jwt}

/-- A token that is accepted at some time names the claims it was made of. -/
theorem Lawful.claims_eq (h : jwt.Lawful) {claims found : Claims} {secret token : Text} {now : Nat}
    (he : jwt.encode claims secret = some token)
    (hv : jwt.validateToken now token secret = some found) : found = claims := by
  rw [validateToken, h.decode_encode he] at hv
  split at hv
  · exact (Option.some.inj hv).symm
  · cases hv

/-- **The two kinds of tokens are told apart by nothing**: an agent's token is
accepted when it is made. -/
theorem Lawful.validate_agentToken (h : jwt.Lawful) {now : Nat} {agentId secret token : Text}
    (he : jwt.createAgentToken now agentId secret = some token) :
    (jwt.validateToken now token secret).isSome := by
  rw [validateToken, h.decode_encode he, if_pos (by simp; omega)]
  rfl

theorem Lawful.createAgentToken_isSome (h : jwt.Lawful) (now : Nat) (agentId secret : Text) :
    ∃ token, jwt.createAgentToken now agentId secret = some token :=
  Option.isSome_iff_exists.mp (h.encode_isSome _ _)

/-! ## A token that can be read -/

/-- Tokens that show their claims and carry the secret as their signature. -/
def plain : Jsonwebtoken where
  encode claims secret := some (showNat claims.exp ++ '.' :: (showNat claims.sub.length ++ '.' ::
    (showNat claims.username.length ++ '.' :: (claims.sub ++ (claims.username ++ secret)))))
  decode now token secret :=
    match splitn '.' 4 token with
    | [exp, subLength, usernameLength, rest] =>
      let sub := rest.take (Nat.ofDigitChars 10 subLength 0)
      let rest := rest.drop (Nat.ofDigitChars 10 subLength 0)
      let username := rest.take (Nat.ofDigitChars 10 usernameLength 0)
      let exp := Nat.ofDigitChars 10 exp 0
      if rest.drop (Nat.ofDigitChars 10 usernameLength 0) = secret ∧ now ≤ exp + leeway then
        some { sub, username, exp }
      else none
    | _ => none

theorem ofDigitChars_showNat (n : Nat) : Nat.ofDigitChars 10 (showNat n) 0 = n :=
  Nat.ofDigitChars_toDigits (by decide) (by decide)

theorem plain_lawful : plain.Lawful where
  encode_isSome _ _ := rfl
  decode_encode {claims secret token} he now := by
    have hdot (n : Nat) : '.' ∉ showNat n := not_mem_showNat n (by decide)
    obtain rfl := Option.some.inj he
    simp only [plain, splitn, splitOnce_append _ (hdot _), ofDigitChars_showNat,
      List.take_left, List.drop_left, true_and]

end Jsonwebtoken

end Oxmux.Auth
