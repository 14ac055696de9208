import CardRules.Action
import CardRules.Card

/-!
# Card records

A record is a card as it was read: its faction and slot are still words, and its effects still
actions.  `Records` holds the records of a whole collection, one list for each kind of card.
-/

namespace CardRules

/-- The record of an investigator. -/
structure InvestigatorRecord where
  name : String
  faction : String
  traits : String := ""
  subname : String := ""
  skill : Skill
  health : UInt8
  sanity : UInt8
  elderSign : Option Action := none
deriving DecidableEq

/-- The record of an asset. -/
structure AssetRecord where
  name : String
  faction : String
  traits : String := ""
  cost : UInt8
  skill : Skill
  slot : Option String := none
  uses : Option UInt8 := none
  health : Option UInt8 := none
  sanity : Option UInt8 := none
  actions : ByTiming Action := {}
deriving DecidableEq

/-- The record of an event. -/
structure EventRecord where
  name : String
  faction : String
  traits : String := ""
  cost : UInt8
  skill : Skill
  actions : ByTiming Action := {}
deriving DecidableEq

/-- The record of an ability or of a skill card. -/
structure PlainRecord where
  name : String
  faction : String
  skill : Skill
  actions : ByTiming Action := {}
deriving DecidableEq

/-- The records of a collection, one list for each kind of card. -/
structure Records where
  investigators : List InvestigatorRecord := []
  assets : List AssetRecord := []
  events : List EventRecord := []
  abilities : List PlainRecord := []
  skills : List PlainRecord := []
deriving DecidableEq, Inhabited

/-- The record of a card of any kind. -/
inductive CardRecord where
  | investigator (r : InvestigatorRecord)
  | asset (r : AssetRecord)
  | event (r : EventRecord)
  | ability (r : PlainRecord)
  | skill (r : PlainRecord)
deriving DecidableEq

namespace CardRecord

/-- The name on the record. -/
def name : CardRecord → String
  | .investigator r => r.name
  | .asset r => r.name
  | .event r => r.name
  | .ability r => r.name
  | .skill r => r.name

/-- The word for the faction. -/
def factionWord : CardRecord → String
  | .investigator r => r.faction
  | .asset r => r.faction
  | .event r => r.faction
  | .ability r => r.faction
  | .skill r => r.faction

/-- The word for the slot, which only an asset can have. -/
def slotWord? : CardRecord → Option String
  | .asset r => r.slot
  | _ => none

/-- The actions by timing.  The elder sign of an investigator counts as its only trigger. -/
def actions : CardRecord → ByTiming Action
  | .investigator r => { trigger := r.elderSign.toList }
  | .asset r => r.actions
  | .event r => r.actions
  | .ability r => r.actions
  | .skill r => r.actions

end CardRecord

/-- The records of one kind, in their order. -/
def Records.ofKind (rs : Records) : CardKind → List CardRecord
  | .investigator => rs.investigators.map .investigator
  | .asset => rs.assets.map .asset
  | .event => rs.events.map .event
  | .ability => rs.abilities.map .ability
  | .skill => rs.skills.map .skill

end CardRules
