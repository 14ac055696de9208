import CardRules.Vocabulary

/-!
# Game situations and conditions

What effects depend on in a running game comes down to two questions about the investigator.  A
`Situation` is a pair of answers; conditions are judged against it.
-/

namespace CardRules

/-- What conditions can ask about the state of the game. -/
structure Situation where
  /-- The attacked enemy is the only one engaged with the investigator. -/
  onlyEnemyEngaged : Bool := false
  /-- The location of the investigator has undiscovered clues. -/
  undiscoveredClues : Bool := false
deriving DecidableEq

/-- The four situations. -/
def Situation.all : List Situation :=
  [⟨false, false⟩, ⟨false, true⟩, ⟨true, false⟩, ⟨true, true⟩]

/-- What an effect can ask before it may be used. -/
inductive Condition where
  | alwaysTrue
  | onlyEnemyEngaged
deriving DecidableEq

namespace Condition

/-- The name of a condition in summaries. -/
def name : Condition → String
  | .alwaysTrue => "AlwaysTrue"
  | .onlyEnemyEngaged => "OnlyEnemyEngaged"

/-- The condition that a card names.  Cards can name one condition only, and letter case
matters. -/
def ofKeyword? (s : String) : Option Condition :=
  if s = "only_enemy_engaged" then some .onlyEnemyEngaged else none

/-- Whether the condition is met. -/
def holds : Condition → Situation → Bool
  | .alwaysTrue, _ => true
  | .onlyEnemyEngaged, q => q.onlyEnemyEngaged

end Condition

/-- Whether the location is as the condition asks. -/
def LocationCondition.holds : LocationCondition → Situation → Bool
  | .undiscoveredClues, q => q.undiscoveredClues

end CardRules
