import CardRules.Effect.Basic

/-!
# One-line summaries of effects

A summary names the shape of an effect, its skill vector and cost, and then what else the shape
carries.
-/

namespace CardRules

/-- An integer with its sign, `+` for zero. -/
def signed (n : Int) : String :=
  if n < 0 then toString n else "+" ++ toString n

namespace Effect

/-- The name of the shape of an effect. -/
def shape : Effect → String
  | .skillBonus _ => "skill_bonus"
  | .fight _ _ => "fight_with_damage"
  | .conditionalFight _ _ _ => "fight_with_damage_and_condition"
  | .investigate _ _ => "investigate_with_shroud"
  | .locationBonus _ => "location_optional"
  | .locationFight _ _ _ => "location_optional_fight"
  | .damageAtLocation _ _ => "damage_at_current_location"
  | .damageToAttacker _ _ => "damage_to_attacker"

/-- The condition as a summary shows it. -/
def conditionText : Option Condition → String
  | some c => c.name
  | none => "<unknown>"

/-- The bonus vector and the condition it depends on. -/
def bonusText (b : LocationBonus) : String :=
  "+(" ++ b.bonus.text ++ ") if " ++ Registered.word b.condition

/-- What a summary says beyond the shape, the skill vector and the cost. -/
def detail : Effect → String
  | .skillBonus _ => ""
  | .fight _ d => " damage +" ++ toString d.toNat
  | .conditionalFight _ d c => " damage +" ++ toString d.toNat ++ " if " ++ conditionText c
  | .investigate _ n => " shroud " ++ signed n.toInt
  | .locationBonus b => " " ++ bonusText b
  | .locationFight _ d b => " damage +" ++ toString d.toNat ++ ", " ++ bonusText b
  | .damageAtLocation _ n => " amount " ++ toString n.toNat
  | .damageToAttacker _ n => " amount " ++ toString n.toNat

/-- The one-line form of an effect. -/
def summary (e : Effect) : String :=
  e.shape ++ " (" ++ e.skill.text ++ ", cost " ++ toString e.cost.toNat ++ ")" ++ e.detail

end Effect

end CardRules
