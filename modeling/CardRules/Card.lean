import CardRules.Effect.Summary

/-!
# Cards

There are five kinds of cards.  All of them have a name, a faction and a skill vector, which is
what a card adds to a test it is committed to.  An investigator may have an elder sign effect; the
other kinds have effects for the four timings.
-/

namespace CardRules

/-- The five kinds of cards. -/
inductive CardKind where
  | investigator
  | asset
  | event
  | ability
  | skill
deriving DecidableEq

namespace CardKind

/-- All kinds, in the order in which card files list them. -/
def all : List CardKind := [.investigator, .asset, .event, .ability, .skill]

/-- The written name of a kind; `hability` is the spelling that card files use. -/
def keyword : CardKind → String
  | .investigator => "investigator"
  | .asset => "asset"
  | .event => "event"
  | .ability => "hability"
  | .skill => "skill"

/-- The kind of a written name. -/
def ofKeyword? (s : String) : Option CardKind :=
  all.find? (·.keyword == s)

end CardKind

/-- An investigator. -/
structure Investigator where
  name : String
  subname : String := ""
  traits : String := ""
  faction : Faction
  skill : Skill
  health : UInt8
  sanity : UInt8
  elderSign : Option Effect := none
deriving DecidableEq

/-- An asset; health and sanity are those of an ally. -/
structure Asset where
  name : String
  traits : String := ""
  faction : Faction
  skill : Skill
  cost : UInt8
  slot : Option Slot
  uses : Option UInt8 := none
  health : Option UInt8 := none
  sanity : Option UInt8 := none
  effects : ByTiming Effect := {}
deriving DecidableEq

/-- An event. -/
structure Event where
  name : String
  traits : String := ""
  faction : Faction
  skill : Skill
  cost : UInt8
  effects : ByTiming Effect := {}
deriving DecidableEq

/-- A card that is no more than its effects: an ability printed on an investigator, or a skill. -/
structure PlainCard where
  name : String
  faction : Faction
  skill : Skill
  effects : ByTiming Effect := {}
deriving DecidableEq

/-- A card of any kind. -/
inductive Card where
  | investigator (c : Investigator)
  | asset (c : Asset)
  | event (c : Event)
  | ability (c : PlainCard)
  | skill (c : PlainCard)
deriving DecidableEq

/-! ### Summaries -/

/-- How many effects a summary counts. -/
def effectCount (effects : ByTiming Effect) : String :=
  toString effects.size ++ " effects"

/-- The one-line form of an investigator. -/
def Investigator.summary (c : Investigator) : String :=
  c.name ++ (if c.subname.isEmpty then "" else ", " ++ c.subname) ++
    " [" ++ Registered.word c.faction ++ "] " ++ c.skill.text ++
    ", health " ++ toString c.health.toNat ++ ", sanity " ++ toString c.sanity.toNat

/-- The one-line form of an asset. -/
def Asset.summary (c : Asset) : String :=
  c.name ++ " [" ++ Registered.word c.faction ++ "] cost " ++ toString c.cost.toNat ++
    c.slot.elim "" (", " ++ Registered.word ·) ++
    c.uses.elim "" (", uses " ++ toString ·.toNat) ++
    ", " ++ c.skill.text ++ ", " ++ effectCount c.effects

/-- The one-line form of an event. -/
def Event.summary (c : Event) : String :=
  c.name ++ " [" ++ Registered.word c.faction ++ "] cost " ++ toString c.cost.toNat ++
    ", " ++ c.skill.text ++ ", " ++ effectCount c.effects

/-- The one-line form of a plain card. -/
def PlainCard.summary (c : PlainCard) : String :=
  c.name ++ " [" ++ Registered.word c.faction ++ "] " ++ c.skill.text ++
    ", " ++ effectCount c.effects

/-! ### What all kinds share -/

namespace Card

/-- The kind of a card. -/
def kind : Card → CardKind
  | .investigator _ => .investigator
  | .asset _ => .asset
  | .event _ => .event
  | .ability _ => .ability
  | .skill _ => .skill

/-- The name of a card. -/
def name : Card → String
  | .investigator c => c.name
  | .asset c => c.name
  | .event c => c.name
  | .ability c => c.name
  | .skill c => c.name

/-- The faction of a card. -/
def faction : Card → Faction
  | .investigator c => c.faction
  | .asset c => c.faction
  | .event c => c.faction
  | .ability c => c.faction
  | .skill c => c.faction

/-- What a card adds to a test it is committed to. -/
def skillVector : Card → Skill
  | .investigator c => c.skill
  | .asset c => c.skill
  | .event c => c.skill
  | .ability c => c.skill
  | .skill c => c.skill

/-- What a card adds to a test is the skill vector that is printed on it, whatever its kind. -/
theorem skillVector_printed :
    (∀ c, (investigator c).skillVector = c.skill) ∧ (∀ c, (asset c).skillVector = c.skill) ∧
      (∀ c, (event c).skillVector = c.skill) ∧ (∀ c, (ability c).skillVector = c.skill) ∧
      ∀ c, (skill c).skillVector = c.skill :=
  ⟨fun _ => rfl, fun _ => rfl, fun _ => rfl, fun _ => rfl, fun _ => rfl⟩

/-- The effects of a card by timing; an investigator has none. -/
def effects : Card → ByTiming Effect
  | .investigator _ => {}
  | .asset c => c.effects
  | .event c => c.effects
  | .ability c => c.effects
  | .skill c => c.effects

/-- The elder sign effect, which only an investigator can have. -/
def elderSign? : Card → Option Effect
  | .investigator c => c.elderSign
  | _ => none

/-- The same card with one more effect, the last of its timing.  An investigator stays as it is. -/
def withEffect (card : Card) (timing : Timing) (e : Effect) : Card :=
  match card with
  | .investigator c => .investigator c
  | .asset c => .asset { c with effects := c.effects.push timing e }
  | .event c => .event { c with effects := c.effects.push timing e }
  | .ability c => .ability { c with effects := c.effects.push timing e }
  | .skill c => .skill { c with effects := c.effects.push timing e }

/-- The one-line form of a card. -/
def summary : Card → String
  | .investigator c => c.summary
  | .asset c => c.summary
  | .event c => c.summary
  | .ability c => c.summary
  | .skill c => c.summary

end Card

end CardRules
