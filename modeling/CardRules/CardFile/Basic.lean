import CardRules.Record

/-!
# Card files

A card file lists cards as they are printed.  Its layout differs from records: the skill of an
investigator is four separate numbers, the modifiers of an action are a list of maps, and an optional
skill names the condition on its location directly.

`CardFile.toRecords` turns a file into records, entry by entry and in the same order.
-/

namespace CardRules

/-- A skill vector that counts while a location condition holds. -/
structure OptionalEntry where
  skill : Skill
  location : Option String := none
deriving DecidableEq

/-- The skill of an action together with an optional one. -/
structure SkillsEntry where
  skill : Skill := {}
  optional : Option OptionalEntry := none
deriving DecidableEq, Inhabited

/-- An action in a card file. -/
structure ActionEntry where
  tag : String
  expend : Option UInt8 := none
  skills : SkillsEntry := {}
  modifiers : List (KeyMap Modifier) := []
  target : Option String := none
deriving DecidableEq

/-- An investigator in a card file. -/
structure InvestigatorEntry where
  name : String
  faction : String
  traits : String := ""
  subname : String := ""
  willpower : Int8 := 0
  intellect : Int8 := 0
  combat : Int8 := 0
  agility : Int8 := 0
  health : UInt8
  sanity : UInt8
  elderSign : Option ActionEntry := none
deriving DecidableEq

/-- An asset in a card file. -/
structure AssetEntry where
  name : String
  faction : String
  traits : String := ""
  cost : UInt8
  testSkill : Skill := {}
  slot : Option String := none
  uses : Option UInt8 := none
  health : Option UInt8 := none
  sanity : Option UInt8 := none
  actions : ByTiming ActionEntry := {}
deriving DecidableEq

/-- An event in a card file. -/
structure EventEntry where
  name : String
  faction : String
  traits : String := ""
  cost : UInt8
  testSkill : Skill := {}
  actions : ByTiming ActionEntry := {}
deriving DecidableEq

/-- An ability or a skill card in a card file. -/
structure PlainEntry where
  name : String
  faction : String
  testSkill : Skill := {}
  actions : ByTiming ActionEntry := {}
deriving DecidableEq

/-- A card file, with one section for each kind of card. -/
structure CardFile where
  investigators : List InvestigatorEntry := []
  assets : List AssetEntry := []
  events : List EventEntry := []
  abilities : List PlainEntry := []
  skills : List PlainEntry := []
deriving DecidableEq, Inhabited

/-! ### Records of a file -/

/-- The optional skill of an action.  Without a location it has neither subject nor condition. -/
def OptionalEntry.toOptionalSkill (e : OptionalEntry) : OptionalSkill :=
  match e.location with
  | some condition => { skill := e.skill, subject := "location", condition }
  | none => { skill := e.skill, subject := "", condition := "" }

namespace ActionEntry

/-- The modifiers of all maps together; a later map overrides an earlier one. -/
def allModifiers (e : ActionEntry) : KeyMap Modifier :=
  .ofList (e.modifiers.flatMap (·.entries))

/-- The action of an entry. -/
def toAction (e : ActionEntry) : Action where
  tag := e.tag
  expend := e.expend
  skill := e.skills.skill
  optional := e.skills.optional.map (·.toOptionalSkill)
  modifiers := e.allModifiers
  target := e.target

end ActionEntry

/-- The record of an investigator; its skill vector has no wild number. -/
def InvestigatorEntry.toRecord (e : InvestigatorEntry) : InvestigatorRecord where
  name := e.name
  faction := e.faction
  traits := e.traits
  subname := e.subname
  skill :=
    { willpower := e.willpower, intellect := e.intellect, combat := e.combat, agility := e.agility }
  health := e.health
  sanity := e.sanity
  elderSign := e.elderSign.map (·.toAction)

/-- The record of an asset. -/
def AssetEntry.toRecord (e : AssetEntry) : AssetRecord where
  name := e.name
  faction := e.faction
  traits := e.traits
  cost := e.cost
  skill := e.testSkill
  slot := e.slot
  uses := e.uses
  health := e.health
  sanity := e.sanity
  actions := e.actions.map (·.toAction)

/-- The record of an event. -/
def EventEntry.toRecord (e : EventEntry) : EventRecord where
  name := e.name
  faction := e.faction
  traits := e.traits
  cost := e.cost
  skill := e.testSkill
  actions := e.actions.map (·.toAction)

/-- The record of an ability or a skill card. -/
def PlainEntry.toRecord (e : PlainEntry) : PlainRecord where
  name := e.name
  faction := e.faction
  skill := e.testSkill
  actions := e.actions.map (·.toAction)

/-- The records of a file. -/
def CardFile.toRecords (file : CardFile) : Records where
  investigators := file.investigators.map (·.toRecord)
  assets := file.assets.map (·.toRecord)
  events := file.events.map (·.toRecord)
  abilities := file.abilities.map (·.toRecord)
  skills := file.skills.map (·.toRecord)

end CardRules
