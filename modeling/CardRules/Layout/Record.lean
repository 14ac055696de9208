import CardRules.Layout.Action
import CardRules.Record

/-!
# The formats of records

Records are written with all their keys.
-/

namespace CardRules

open Fields (need opt maybe)

/-- The format of investigator records. -/
def InvestigatorRecord.format : Format InvestigatorRecord :=
  .via
    (.record "InvestigatorRecord" <|
      need "name" .text <| need "faction" .text <| opt "traits" "" .text <|
      opt "subname" "" .text <| need "skill" Skill.format <| need "health" .uint8 <|
      need "sanity" .uint8 <| maybe "elder_sign" Action.format .nil)
    (fun (name, faction, traits, subname, skill, health, sanity, elderSign, ()) =>
      { name, faction, traits, subname, skill, health, sanity, elderSign })
    (fun r =>
      (r.name, r.faction, r.traits, r.subname, r.skill, r.health, r.sanity, r.elderSign, ()))
    fun _ => rfl

/-- The format of asset records. -/
def AssetRecord.format : Format AssetRecord :=
  .via
    (.record "AssetRecord" <|
      need "name" .text <| need "faction" .text <| opt "traits" "" .text <|
      need "cost" .uint8 <| need "skill" Skill.format <| maybe "slot" .text <|
      maybe "uses" .uint8 <| maybe "health" .uint8 <| maybe "sanity" .uint8 <|
      opt "actions" {} Action.listsFormat .nil)
    (fun (name, faction, traits, cost, skill, slot, uses, health, sanity, actions, ()) =>
      { name, faction, traits, cost, skill, slot, uses, health, sanity, actions })
    (fun r =>
      (r.name, r.faction, r.traits, r.cost, r.skill, r.slot, r.uses, r.health, r.sanity,
        r.actions, ()))
    fun _ => rfl

/-- The format of event records. -/
def EventRecord.format : Format EventRecord :=
  .via
    (.record "EventRecord" <|
      need "name" .text <| need "faction" .text <| opt "traits" "" .text <|
      need "cost" .uint8 <| need "skill" Skill.format <| opt "actions" {} Action.listsFormat .nil)
    (fun (name, faction, traits, cost, skill, actions, ()) =>
      { name, faction, traits, cost, skill, actions })
    (fun r => (r.name, r.faction, r.traits, r.cost, r.skill, r.actions, ()))
    fun _ => rfl

/-- The format of the records of abilities and skill cards. -/
def PlainRecord.format : Format PlainRecord :=
  .via
    (.record "SimpleCardRecord" <|
      need "name" .text <| need "faction" .text <| need "skill" Skill.format <|
      opt "actions" {} Action.listsFormat .nil)
    (fun (name, faction, skill, actions, ()) => { name, faction, skill, actions })
    (fun r => (r.name, r.faction, r.skill, r.actions, ()))
    fun _ => rfl

/-- The format of the records of a collection. -/
def Records.format : Format Records :=
  .via
    (.record "CardRecords" <|
      opt "investigators" [] (.list InvestigatorRecord.format) <|
      opt "assets" [] (.list AssetRecord.format) <| opt "events" [] (.list EventRecord.format) <|
      opt "habilities" [] (.list PlainRecord.format) <|
      opt "skills" [] (.list PlainRecord.format) .nil)
    (fun (investigators, assets, events, abilities, skills, ()) =>
      { investigators, assets, events, abilities, skills })
    (fun rs => (rs.investigators, rs.assets, rs.events, rs.abilities, rs.skills, ()))
    fun _ => rfl

end CardRules
