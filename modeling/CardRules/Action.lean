import CardRules.KeyMap
import CardRules.Skill
import CardRules.Timing

/-!
# Actions

An action is one rule of a card before it is compiled to an effect: a tag that says what is done,
the resources it takes, the skill it grants and a few named modifiers.  Nothing about an action is
checked here; a tag can be any text, and a modifier can have any name.
-/

namespace CardRules

/-- The value of a modifier. -/
inductive Modifier where
  | amount (n : Int8)
  /-- A whole number that is kept although it is too large for an amount, so that only the action
  it belongs to is at fault. -/
  | number (n : Int64)
  | text (s : String)
deriving DecidableEq

namespace Modifier

/-- The amount, if the modifier is one. -/
def amount? : Modifier → Option Int8
  | .amount n => some n
  | _ => none

/-- The text, if the modifier is one. -/
def text? : Modifier → Option String
  | .text s => some s
  | _ => none

/-- The written form: numbers in decimal, texts as they are. -/
def written : Modifier → String
  | .amount n => toString n.toInt
  | .number n => toString n.toInt
  | .text s => s

end Modifier

/-- A skill vector that counts while a condition on some subject holds. -/
structure OptionalSkill where
  skill : Skill
  /-- What the condition is about, such as `location`. -/
  subject : String
  condition : String
deriving DecidableEq, Inhabited

/-- One rule of a card, as it was read. -/
structure Action where
  /-- What is done, such as `fight`. -/
  tag : String
  /-- The resources spent; without a number the player pays from their own pool. -/
  expend : Option UInt8 := none
  skill : Skill := {}
  optional : Option OptionalSkill := none
  modifiers : KeyMap Modifier := ∅
  target : Option String := none
deriving DecidableEq, Inhabited

namespace Action

/-- The action of a tag and nothing else. -/
def ofTag (tag : String) : Action := { tag }

/-- The same action for a price. -/
def withExpend (a : Action) (n : UInt8) : Action := { a with expend := some n }

/-- The same action with another skill vector. -/
def withSkill (a : Action) (skill : Skill) : Action := { a with skill }

/-- The same action with an optional skill vector. -/
def withOptional (a : Action) (skill : Skill) (subject condition : String) : Action :=
  { a with optional := some ⟨skill, subject, condition⟩ }

/-- The same action with an amount as modifier. -/
def withAmount (a : Action) (key : String) (n : Int8) : Action :=
  { a with modifiers := a.modifiers.insert key (.amount n) }

/-- The same action with a text as modifier. -/
def withText (a : Action) (key s : String) : Action :=
  { a with modifiers := a.modifiers.insert key (.text s) }

/-- The same action aimed at a target. -/
def withTarget (a : Action) (target : String) : Action := { a with target := some target }

end Action

end CardRules
