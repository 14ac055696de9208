import CardRules.Situation
import CardRules.Skill
import CardRules.Timing

/-!
# Effects

An effect is what an action of a card comes to in the game.  There are eight shapes of effects; all
of them grant a skill vector for a cost.  Some carry damage, one a condition that has to be met
before the effect may be used, and two a second skill vector that counts only while the location
is as it asks.
-/

namespace CardRules

/-- The part that all effects share: a skill vector and its price in resources. -/
structure Grant where
  skill : Skill := {}
  cost : UInt8 := 0
deriving DecidableEq, Inhabited

/-- A second skill vector that counts while a location condition holds. -/
structure LocationBonus where
  grant : Grant
  bonus : Skill
  condition : LocationCondition
deriving DecidableEq

/-- What the bonus adds in a situation. -/
def LocationBonus.skillIn (b : LocationBonus) (q : Situation) : Skill :=
  if b.condition.holds q then b.bonus else Skill.zero

/-- What an action of a card does. -/
inductive Effect where
  | skillBonus (grant : Grant)
  | fight (grant : Grant) (damage : UInt8)
  /-- Without a condition where the card names one that is not known. -/
  | conditionalFight (grant : Grant) (damage : UInt8) (condition : Option Condition)
  | investigate (grant : Grant) (shroud : Int8)
  | locationBonus (bonus : LocationBonus)
  | locationFight (grant : Grant) (damage : UInt8) (bonus : LocationBonus)
  | damageAtLocation (grant : Grant) (amount : UInt8)
  /-- Damage to the enemy that attacks the owner of the card. -/
  | damageToAttacker (grant : Grant) (amount : UInt8)
deriving DecidableEq

namespace Effect

/-- The skill vector and cost of an effect. -/
def grant : Effect → Grant
  | .skillBonus g => g
  | .fight g _ => g
  | .conditionalFight g _ _ => g
  | .investigate g _ => g
  | .locationBonus b => b.grant
  | .locationFight g _ _ => g
  | .damageAtLocation g _ => g
  | .damageToAttacker g _ => g

/-- The skill vector that the effect grants in every situation. -/
def skill (e : Effect) : Skill := e.grant.skill

/-- The price of using the effect. -/
def cost (e : Effect) : UInt8 := e.grant.cost

/-- The damage that a fight deals beyond the usual. -/
def damage? : Effect → Option UInt8
  | .fight _ d => some d
  | .conditionalFight _ d _ => some d
  | .locationFight _ d _ => some d
  | _ => none

/-- The condition that has to be met before the effect may be used. -/
def condition? : Effect → Option Condition
  | .conditionalFight _ _ c => c
  | _ => none

/-- Whether the effect may be used: its condition, if it has one, is met. -/
def usable (e : Effect) (q : Situation) : Bool :=
  match e.condition? with
  | some c => c.holds q
  | none => true

/-- The skill vector granted in a situation, with a location bonus that counts there. -/
def skillIn (e : Effect) (q : Situation) : Skill :=
  match e with
  | .locationBonus b => b.grant.skill + b.skillIn q
  | .locationFight g _ b => g.skill + b.skillIn q
  | e => e.skill

/-- The first effect of a timing, in the order of the card, that may be used. -/
def firstUsable (lists : ByTiming Effect) (timing : Timing) (q : Situation) : Option Effect :=
  (lists.get timing).find? (·.usable q)

end Effect

end CardRules
