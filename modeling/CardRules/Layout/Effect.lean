import CardRules.Effect.Basic
import CardRules.Layout.Action

/-!
# The formats of effects

An effect is written as a map with one key that names its shape.
-/

namespace CardRules

open Fields (need opt lax)

/-- The labels of conditions. -/
def Condition.table : LabelTable Condition where
  labels := [("AlwaysTrue", .alwaysTrue), ("OnlyEnemyEngaged", .onlyEnemyEngaged)]
  label := Condition.name
  lookup_label a := by cases a <;> rfl

/-- The labels of location conditions. -/
def LocationCondition.table : LabelTable LocationCondition where
  labels := [("UndiscoveredClues", .undiscoveredClues)]
  label | .undiscoveredClues => "UndiscoveredClues"
  lookup_label a := by cases a; rfl

/-- The format of conditions. -/
def Condition.format : Format Condition := .labels table

/-- The format of what effects grant. -/
def Grant.format : Format Grant :=
  .via
    (.record "EffectBase" <| need "skill" Skill.format <| need "activation_cost" .uint8 .nil)
    (fun (skill, cost, ()) => { skill, cost })
    (fun g => (g.skill, g.cost, ()))
    fun _ => rfl

/-- The format of location bonuses. -/
def LocationBonus.format : Format LocationBonus :=
  .via
    (.record "LocationOptional" <|
      need "base" Grant.format <| need "optional_skill" Skill.format <|
      need "condition" (.labels LocationCondition.table) .nil)
    (fun (grant, bonus, condition, ()) => { grant, bonus, condition })
    (fun b => (b.grant, b.bonus, b.condition, ()))
    fun _ => rfl

namespace Effect

/-- The contents of a fight. -/
def fightBody : Format (Tuple [Grant, UInt8]) :=
  .body <| need "base" Grant.format <| need "additional_damage" .uint8 .nil

/-- The contents of a conditional fight. -/
def conditionalFightBody : Format (Tuple [Grant, UInt8, Option Condition]) :=
  .body <| need "base" Grant.format <| need "additional_damage" .uint8 <|
    lax "condition" Condition.format .nil

/-- The contents of an investigation. -/
def investigateBody : Format (Tuple [Grant, Int8]) :=
  .body <| need "base" Grant.format <| need "shroud_modification" .int8 .nil

/-- The contents of a fight with a location bonus. -/
def locationFightBody : Format (Tuple [Grant, UInt8, LocationBonus]) :=
  .body <| need "base" Grant.format <| need "additional_damage" .uint8 <|
    need "optional" LocationBonus.format .nil

/-- The contents of an effect that deals damage by itself. -/
def damageBody : Format (Tuple [Grant, UInt8]) :=
  .body <| need "base" Grant.format <| need "amount" .uint8 .nil

/-- The shapes of effects. -/
def variants : Variants Effect :=
  .cons "SkillBonus" Grant.format skillBonus
    (fun | .skillBonus g => some g | _ => none) (by rintro ⟨⟩ _ h <;> cases h; rfl) <|
  .cons "FightWithDamage" fightBody (fun (g, d, ()) => fight g d)
    (fun | .fight g d => some (g, d, ()) | _ => none) (by rintro ⟨⟩ _ h <;> cases h; rfl) <|
  .cons "FightWithDamageAndCondition" conditionalFightBody
    (fun (g, d, c, ()) => conditionalFight g d c)
    (fun | .conditionalFight g d c => some (g, d, c, ()) | _ => none)
    (by rintro ⟨⟩ _ h <;> cases h; rfl) <|
  .cons "InvestigateWithShroud" investigateBody (fun (g, n, ()) => investigate g n)
    (fun | .investigate g n => some (g, n, ()) | _ => none)
    (by rintro ⟨⟩ _ h <;> cases h; rfl) <|
  .cons "LocationOptional" LocationBonus.format locationBonus
    (fun | .locationBonus b => some b | _ => none) (by rintro ⟨⟩ _ h <;> cases h; rfl) <|
  .cons "LocationOptionalFight" locationFightBody (fun (g, d, b, ()) => locationFight g d b)
    (fun | .locationFight g d b => some (g, d, b, ()) | _ => none)
    (by rintro ⟨⟩ _ h <;> cases h; rfl) <|
  .cons "DamageAtCurrentLocation" damageBody (fun (g, n, ()) => damageAtLocation g n)
    (fun | .damageAtLocation g n => some (g, n, ()) | _ => none)
    (by rintro ⟨⟩ _ h <;> cases h; rfl) <|
  .cons "DamageToAttacker" damageBody (fun (g, n, ()) => damageToAttacker g n)
    (fun | .damageToAttacker g n => some (g, n, ()) | _ => none)
    (by rintro ⟨⟩ _ h <;> cases h; rfl)
  .nil

/-- The format of effects. -/
def format : Format Effect := .tagged variants

/-- The format of the effects of a card. -/
def listsFormat : Format (ByTiming Effect) :=
  .via
    (.record "EffectLists" <|
      need "activate" (.list format) <| need "trigger" (.list format) <|
      need "passive" (.list format) <| need "discard" (.list format) .nil)
    ByTiming.ofTuple ByTiming.toTuple fun _ => rfl

end Effect

end CardRules
