import CardRules.Compile
import CardRules.Token.Bag

/-!
# Game setup

A setup says which tokens are in the chaos bag, what becomes of drawn ones, and how strictly
incomplete actions are taken.
-/

namespace CardRules

/-- What is in a chaos bag. -/
structure BagSetup where
  rule : DrawRule := .replace
  tokens : List Token
deriving DecidableEq

namespace BagSetup

/-- The tokens of the first scenario. -/
def standard : BagSetup where
  tokens :=
    [⟨.skull, 0⟩, ⟨.skull, 0⟩, ⟨.cultist, -1⟩, ⟨.elderSign, 1⟩, ⟨.tablet, -2⟩, ⟨.value, 1⟩,
      ⟨.value, 0⟩, ⟨.value, 0⟩, ⟨.value, -1⟩, ⟨.value, -1⟩, ⟨.value, -1⟩, ⟨.value, -2⟩,
      ⟨.value, -2⟩, ⟨.value, -3⟩, ⟨.value, -4⟩, ⟨.autoFail, 0⟩]

/-- The number of tokens of a kind. -/
def count (c : BagSetup) (kind : TokenKind) : Nat :=
  c.tokens.countP (·.kind == kind)

/-- The bag of a setup, with nothing drawn from it yet. -/
def bag {ρ : Type} (c : BagSetup) (picker : ρ) : Bag ρ :=
  .filled c.rule c.tokens picker

end BagSetup

/-- The setup of a game. -/
structure GameSetup where
  bag : BagSetup := .standard
  policy : Policy := .lenient
deriving DecidableEq

end CardRules
