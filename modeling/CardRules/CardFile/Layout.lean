import CardRules.CardFile.Basic
import CardRules.Layout.Action

/-!
# The format of card files

The actions of a card stand beside its own keys, and so do the components of a skill vector.  The
list of passive actions is written `pasive` and may also be read as `passive`.
-/

namespace CardRules

open Fields (need opt maybe)

/-- The format of optional skills in a card file. -/
def OptionalEntry.format : Format OptionalEntry :=
  .via (.flat "OptionalDef" (maybe "location" .text .nil) Skill.fields)
    (fun ((location, ()), skill) => { skill := .ofTuple skill, location })
    (fun e => ((e.location, ()), e.skill.toTuple))
    fun _ => rfl

/-- The format of the skill of an action in a card file. -/
def SkillsEntry.format : Format SkillsEntry :=
  .via (.flat "SkillsDef" (maybe "optional" OptionalEntry.format .nil) Skill.fields)
    (fun ((optional, ()), skill) => { skill := .ofTuple skill, optional })
    (fun e => ((e.optional, ()), e.skill.toTuple))
    fun _ => rfl

/-- The format of actions in a card file. -/
def ActionEntry.format : Format ActionEntry :=
  .via
    (.record "ActionDef" <|
      need "action" .text <| maybe "expend" .uint8 <| opt "skills" {} SkillsEntry.format <|
      opt "modifications" [] (.list (.dictionary Modifier.format)) <| maybe "target" .text .nil)
    (fun (tag, expend, skills, modifiers, target, ()) =>
      { tag, expend, skills, modifiers, target })
    (fun e => (e.tag, e.expend, e.skills, e.modifiers, e.target, ()))
    fun _ => rfl

/-- The four lists of actions of a card. -/
def ActionEntry.listFields :
    Fields [List ActionEntry, List ActionEntry, List ActionEntry, List ActionEntry] :=
  opt "activate" [] (.list ActionEntry.format) <| opt "trigger" [] (.list ActionEntry.format) <|
    .cons "pasive" ["passive"] (.defaulted []) (.list ActionEntry.format) <|
    opt "discard" [] (.list ActionEntry.format) .nil

/-- The format of investigators in a card file. -/
def InvestigatorEntry.format : Format InvestigatorEntry :=
  .via
    (.record "InvestigatorDef" <|
      need "name" .text <| need "faction" .text <| opt "traits" "" .text <|
      opt "subname" "" .text <| opt "skill_willpower" 0 .int8 <|
      opt "skill_intellect" 0 .int8 <| opt "skill_combat" 0 .int8 <|
      opt "skill_agility" 0 .int8 <| need "health" .uint8 <| need "sanity" .uint8 <|
      maybe "elder_sign" ActionEntry.format .nil)
    (fun (name, faction, traits, subname, willpower, intellect, combat, agility, health, sanity,
        elderSign, ()) =>
      { name, faction, traits, subname, willpower, intellect, combat, agility, health, sanity,
        elderSign })
    (fun e =>
      (e.name, e.faction, e.traits, e.subname, e.willpower, e.intellect, e.combat, e.agility,
        e.health, e.sanity, e.elderSign, ()))
    fun _ => rfl

/-- The format of assets in a card file. -/
def AssetEntry.format : Format AssetEntry :=
  .via
    (.flat "AssetDef"
      (need "name" .text <| need "faction" .text <| opt "traits" "" .text <|
        need "cost" .uint8 <| opt "test_skill" {} Skill.format <| maybe "slot" .text <|
        maybe "uses" .uint8 <| maybe "health" .uint8 <| maybe "sanity" .uint8 .nil)
      ActionEntry.listFields)
    (fun ((name, faction, traits, cost, testSkill, slot, uses, health, sanity, ()), actions) =>
      { name, faction, traits, cost, testSkill, slot, uses, health, sanity,
        actions := .ofTuple actions })
    (fun e =>
      ((e.name, e.faction, e.traits, e.cost, e.testSkill, e.slot, e.uses, e.health, e.sanity, ()),
        e.actions.toTuple))
    fun _ => rfl

/-- The format of events in a card file. -/
def EventEntry.format : Format EventEntry :=
  .via
    (.flat "EventDef"
      (need "name" .text <| need "faction" .text <| opt "traits" "" .text <|
        need "cost" .uint8 <| opt "test_skill" {} Skill.format .nil)
      ActionEntry.listFields)
    (fun ((name, faction, traits, cost, testSkill, ()), actions) =>
      { name, faction, traits, cost, testSkill, actions := .ofTuple actions })
    (fun e => ((e.name, e.faction, e.traits, e.cost, e.testSkill, ()), e.actions.toTuple))
    fun _ => rfl

/-- The format of abilities and skill cards in a card file. -/
def PlainEntry.format : Format PlainEntry :=
  .via
    (.flat "SimpleCardDef"
      (need "name" .text <| need "faction" .text <| opt "test_skill" {} Skill.format .nil)
      ActionEntry.listFields)
    (fun ((name, faction, testSkill, ()), actions) =>
      { name, faction, testSkill, actions := .ofTuple actions })
    (fun e => ((e.name, e.faction, e.testSkill, ()), e.actions.toTuple))
    fun _ => rfl

/-- The format of card files. -/
def CardFile.format : Format CardFile :=
  .via
    (.record "CardFile" <|
      opt "investigators" [] (.list InvestigatorEntry.format) <|
      opt "assets" [] (.list AssetEntry.format) <| opt "events" [] (.list EventEntry.format) <|
      opt "habilities" [] (.list PlainEntry.format) <|
      opt "skills" [] (.list PlainEntry.format) .nil)
    (fun (investigators, assets, events, abilities, skills, ()) =>
      { investigators, assets, events, abilities, skills })
    (fun file =>
      (file.investigators, file.assets, file.events, file.abilities, file.skills, ()))
    fun _ => rfl

end CardRules
