import CardRules.Card
import CardRules.Layout.Effect

/-!
# The formats of cards
-/

namespace CardRules

open Fields (need opt lax)

/-- The labels of factions. -/
def Faction.table : LabelTable Faction where
  labels :=
    [("Guardian", .guardian), ("Seeker", .seeker), ("Rogue", .rogue), ("Mystic", .mystic),
      ("Survivor", .survivor), ("Neutral", .neutral)]
  label
    | .guardian => "Guardian"
    | .seeker => "Seeker"
    | .rogue => "Rogue"
    | .mystic => "Mystic"
    | .survivor => "Survivor"
    | .neutral => "Neutral"
  lookup_label a := by cases a <;> rfl

/-- The labels of slots. -/
def Slot.table : LabelTable Slot where
  labels :=
    [("Accessory", .accessory), ("Body", .body), ("Ally", .ally), ("Hand", .hand),
      ("Arcane", .arcane), ("TwoHanded", .twoHanded)]
  label
    | .accessory => "Accessory"
    | .body => "Body"
    | .ally => "Ally"
    | .hand => "Hand"
    | .arcane => "Arcane"
    | .twoHanded => "TwoHanded"
  lookup_label a := by cases a <;> rfl

/-- The format of factions. -/
def Faction.format : Format Faction := .labels table

/-- The format of slots. -/
def Slot.format : Format Slot := .labels table

/-- The format of investigators. -/
def Investigator.format : Format Investigator :=
  .via
    (.record "Investigator" <|
      need "name" .text <| need "subname" .text <| need "traits" .text <|
      need "faction" Faction.format <| need "skill" Skill.format <| need "health" .uint8 <|
      need "sanity" .uint8 <| lax "elder_sign" Effect.format .nil)
    (fun (name, subname, traits, faction, skill, health, sanity, elderSign, ()) =>
      { name, subname, traits, faction, skill, health, sanity, elderSign })
    (fun c =>
      (c.name, c.subname, c.traits, c.faction, c.skill, c.health, c.sanity, c.elderSign, ()))
    fun _ => rfl

/-- The format of assets. -/
def Asset.format : Format Asset :=
  .via
    (.record "Asset" <|
      need "name" .text <| need "traits" .text <| need "faction" Faction.format <|
      need "skill" Skill.format <| need "cost" .uint8 <| lax "slot" Slot.format <|
      lax "uses" .uint8 <| lax "health" .uint8 <| lax "sanity" .uint8 <|
      need "effects" Effect.listsFormat .nil)
    (fun (name, traits, faction, skill, cost, slot, uses, health, sanity, effects, ()) =>
      { name, traits, faction, skill, cost, slot, uses, health, sanity, effects })
    (fun c =>
      (c.name, c.traits, c.faction, c.skill, c.cost, c.slot, c.uses, c.health, c.sanity,
        c.effects, ()))
    fun _ => rfl

/-- The format of events. -/
def Event.format : Format Event :=
  .via
    (.record "Event" <|
      need "name" .text <| need "traits" .text <| need "faction" Faction.format <|
      need "skill" Skill.format <| need "cost" .uint8 <| need "effects" Effect.listsFormat .nil)
    (fun (name, traits, faction, skill, cost, effects, ()) =>
      { name, traits, faction, skill, cost, effects })
    (fun c => (c.name, c.traits, c.faction, c.skill, c.cost, c.effects, ()))
    fun _ => rfl

/-- The format of abilities and skill cards, which differ in what issues call them. -/
def PlainCard.formatCalled (name : String) : Format PlainCard :=
  .via
    (.record name <|
      need "name" .text <| need "faction" Faction.format <| need "skill" Skill.format <|
      need "effects" Effect.listsFormat .nil)
    (fun (name, faction, skill, effects, ()) => { name, faction, skill, effects })
    (fun c => (c.name, c.faction, c.skill, c.effects, ()))
    fun _ => rfl

/-- The format of abilities. -/
def PlainCard.abilityFormat : Format PlainCard := formatCalled "Hability"

/-- The format of skill cards. -/
def PlainCard.skillFormat : Format PlainCard := formatCalled "SkillCard"

namespace Card

/-- Writes a card in the format of its kind. -/
def encode : Card → Json
  | .investigator c => Investigator.format.encode c
  | .asset c => Asset.format.encode c
  | .event c => Event.format.encode c
  | .ability c => PlainCard.abilityFormat.encode c
  | .skill c => PlainCard.skillFormat.encode c

end Card

end CardRules
