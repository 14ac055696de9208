import CardRules.Token

/-!
# Scripted tokens

A script yields a fixed list of tokens, one after the other, for replays of a game.
-/

namespace CardRules

/-- The tokens still to come. -/
structure Script where
  tokens : List Token := []
deriving DecidableEq, Inhabited

namespace Script

/-- The number of tokens still to come. -/
def remaining (s : Script) : Nat :=
  s.tokens.length

/-- Takes the next token. -/
def draw : Script → Except TokenError Token × Script
  | ⟨[]⟩ => (.error .exhausted, ⟨[]⟩)
  | ⟨token :: rest⟩ => (.ok token, ⟨rest⟩)

instance : TokenSupply Script := ⟨draw⟩

end Script

end CardRules
