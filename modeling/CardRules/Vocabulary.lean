/-!
# Registered words

Card records spell factions, slots and location conditions as words.  Each of the three
vocabularies is a closed list of values with one word for each value; a word of no value is an
error that names the word and the vocabulary.  Words are compared exactly, letter case included.
-/

namespace CardRules

/-- The three lists of registered words. -/
inductive Vocabulary where
  | factions
  | slots
  | locationConditions
deriving DecidableEq

/-- What a value of the vocabulary is called in error texts. -/
def Vocabulary.title : Vocabulary → String
  | .factions => "Faction"
  | .slots => "Slot"
  | .locationConditions => "LocationCondition"

/-- A word was looked up in a vocabulary that does not have it. -/
structure UnknownWord where
  word : String
  vocabulary : Vocabulary
deriving DecidableEq

/-- The text of the error. -/
def UnknownWord.message (e : UnknownWord) : String :=
  "'" ++ e.word ++ "' is not registered as " ++ e.vocabulary.title

/-- A type whose values are spelled by the words of a vocabulary. -/
class Registered (α : Type) where
  /-- The vocabulary that holds the words. -/
  vocabulary : Vocabulary
  /-- All values, in registration order. -/
  all : List α
  /-- The word of a value. -/
  word : α → String

/-- The value spelled by a word. -/
def Registered.ofWord (α : Type) [Registered α] (s : String) : Except UnknownWord α :=
  match (Registered.all : List α).find? fun a => Registered.word a == s with
  | some a => .ok a
  | none => .error ⟨s, Registered.vocabulary α⟩

/-- The class a card belongs to. -/
inductive Faction where
  | guardian
  | seeker
  | rogue
  | mystic
  | survivor
  | neutral
deriving DecidableEq

instance : Registered Faction where
  vocabulary := .factions
  all := [.guardian, .seeker, .rogue, .mystic, .survivor, .neutral]
  word
    | .guardian => "guardian"
    | .seeker => "seeker"
    | .rogue => "rogue"
    | .mystic => "mystic"
    | .survivor => "survivor"
    | .neutral => "neutral"

/-- The place an asset takes up. -/
inductive Slot where
  | accessory
  | body
  | ally
  | hand
  | arcane
  | twoHanded
deriving DecidableEq

instance : Registered Slot where
  vocabulary := .slots
  all := [.accessory, .body, .ally, .hand, .arcane, .twoHanded]
  word
    | .accessory => "accessory"
    | .body => "body"
    | .ally => "ally"
    | .hand => "hand"
    | .arcane => "arcane"
    | .twoHanded => "two_handed"

/-- What an optional skill bonus asks of the location of the investigator. -/
inductive LocationCondition where
  | undiscoveredClues
deriving DecidableEq

instance : Registered LocationCondition where
  vocabulary := .locationConditions
  all := [.undiscoveredClues]
  word
    | .undiscoveredClues => "undiscovered_clues"

end CardRules
