import CardRules.Card
import CardRules.Token

/-!
# Skill tests

A test on an axis sets the value of the player, the values of the committed cards and the effect of
a drawn token against a difficulty.  A token that makes every test fail ends the test at once, with
no margin.
-/

namespace CardRules

/-- How a test ended. -/
structure Verdict where
  succeeded : Bool
  /-- What was reached beyond the difficulty; negative if it was missed. -/
  margin : Int
  token : Token
deriving DecidableEq

/-- A test on an axis against a difficulty. -/
structure SkillTest where
  axis : Axis
  tested : Skill
  player : Skill
  committed : List Card
deriving DecidableEq

namespace SkillTest

/-- What the committed cards add. -/
def committedTotal (t : SkillTest) : Int :=
  t.committed.foldl (fun total c => total + c.skillVector.value t.axis) 0

/-- How the test ends with a token. -/
def verdict (t : SkillTest) (token : Token) : Verdict :=
  if token.isAutoFail then { succeeded := false, margin := 0, token }
  else
    let reached := t.player.value t.axis + t.committedTotal + token.effect.toInt
    let difficulty := t.tested.difficulty t.axis
    { succeeded := decide (difficulty ≤ reached), margin := reached - difficulty, token }

/-- Draws one token and ends the test with it. -/
def resolve {σ : Type} [TokenSupply σ] (t : SkillTest) (source : σ) :
    Except TokenError Verdict × σ :=
  let (drawn, source) := TokenSupply.draw source
  (drawn.map t.verdict, source)

end SkillTest

end CardRules
