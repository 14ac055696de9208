import CardRules.Random.Picker
import CardRules.Token

/-!
# The chaos bag

A bag holds tokens and draws one of them at a position chosen by a picker.  Under one rule the
drawn token goes back at once, under the other it is set aside until the bag is reset.
-/

namespace CardRules

/-- What becomes of a drawn token. -/
inductive DrawRule where
  /-- The token stays in the bag. -/
  | replace
  /-- The token is set aside until the bag is reset. -/
  | remove
deriving DecidableEq, Inhabited

/-- A bag of tokens, those set aside, and the picker that chooses among the tokens. -/
structure Bag (ρ : Type) where
  tokens : List Token := []
  /-- The tokens set aside since the last reset, in the order of their draws. -/
  drawn : List Token := []
  rule : DrawRule
  picker : ρ

namespace Bag

variable {ρ : Type}

/-- A bag filled with some tokens. -/
def filled (rule : DrawRule) (tokens : List Token) (picker : ρ) : Bag ρ :=
  { tokens, rule, picker }

/-- Puts one more token into the bag. -/
def add (bag : Bag ρ) (token : Token) : Bag ρ :=
  { bag with tokens := bag.tokens ++ [token] }

/-- Puts the tokens that were set aside back into the bag. -/
def reset (bag : Bag ρ) : Bag ρ :=
  { bag with tokens := bag.tokens ++ bag.drawn, drawn := [] }

/-- Draws a token.  An empty bag stays as it is, its picker included. -/
def draw [Picker ρ] (bag : Bag ρ) : Except TokenError Token × Bag ρ :=
  if h : 0 < bag.tokens.length then
    let (i, picker) := Picker.pick bag.picker bag.tokens.length h
    let token := bag.tokens[i]
    match bag.rule with
    | .replace => (.ok token, { bag with picker })
    | .remove =>
      (.ok token,
        { bag with tokens := bag.tokens.eraseIdx i, drawn := bag.drawn ++ [token], picker })
  else (.error .empty, bag)

instance [Picker ρ] : TokenSupply (Bag ρ) := ⟨draw⟩

end Bag

end CardRules
