/-!
# Chaos tokens

Every skill test draws one token.  A `TokenSupply` is anything tokens can be drawn from; a draw gives
a token or a reason why there is none, and the source after the draw.
-/

namespace CardRules

/-- What is printed on a token. -/
inductive TokenKind where
  | skull
  | cultist
  | tablet
  | elderThing
  | elderSign
  | autoFail
  | value
deriving DecidableEq

/-- The kinds of tokens, in the order in which they are counted. -/
def TokenKind.all : List TokenKind :=
  [.skull, .cultist, .tablet, .elderThing, .elderSign, .autoFail, .value]

/-- A token and what it adds to a test. -/
structure Token where
  kind : TokenKind
  effect : Int8 := 0
deriving DecidableEq

/-- Whether the token makes every test fail. -/
def Token.isAutoFail (t : Token) : Bool :=
  t.kind == .autoFail

/-- Why no token was drawn. -/
inductive TokenError where
  | empty
  | exhausted
deriving DecidableEq

/-- The text of the error. -/
def TokenError.message : TokenError → String
  | .empty => "chaos bag is empty"
  | .exhausted => "no scripted tokens left"

/-- Something tokens can be drawn from. -/
class TokenSupply (σ : Type) where
  /-- The drawn token, and the source after the draw, failed or not. -/
  draw : σ → Except TokenError Token × σ

end CardRules
