import CardRules.Compile
import CardRules.Record

/-!
# Building cards from records

`CardRecord.build` turns a record into a card: the word for the faction is looked up first, then the
word for the slot, and then the actions are compiled.  The first fault ends the building.

A `Catalogue` finds records by kind and name and builds cards under one policy.  Of several records
with the same kind and name the first one counts.  A card is built anew each time it is asked for.
-/

namespace CardRules

/-- Why a card cannot be built. -/
inductive BuildError where
  | unknownWord (card : String) (e : UnknownWord)
  | compile (card : String) (e : CompileError)
deriving DecidableEq

/-- The text of the error. -/
def BuildError.message : BuildError → String
  | .unknownWord card e => "card '" ++ card ++ "': " ++ e.message
  | .compile card e => "card '" ++ card ++ "': " ++ e.message

/-- A card and what was noted while it was built. -/
structure Report where
  card : Card
  warnings : List Warning
deriving DecidableEq

/-! ### One record -/

namespace CardRecord

/-- The card of a record, once its words are known and its actions compiled. -/
def assemble (r : CardRecord) (faction : Faction) (slot : Option Slot)
    (effects : ByTiming Effect) : Card :=
  match r with
  | .investigator r => .investigator
    { name := r.name, subname := r.subname, traits := r.traits, faction, skill := r.skill,
      health := r.health, sanity := r.sanity, elderSign := effects.trigger.head? }
  | .asset r => .asset
    { name := r.name, traits := r.traits, faction, skill := r.skill, cost := r.cost, slot,
      uses := r.uses, health := r.health, sanity := r.sanity, effects }
  | .event r => .event
    { name := r.name, traits := r.traits, faction, skill := r.skill, cost := r.cost, effects }
  | .ability r => .ability { name := r.name, faction, skill := r.skill, effects }
  | .skill r => .skill { name := r.name, faction, skill := r.skill, effects }

/-- The card of a record with the warnings of its actions, or the first fault. -/
def build (r : CardRecord) (policy : Policy) : Except BuildError Report := do
  let faction ← (Registered.ofWord Faction r.factionWord).mapError (.unknownWord r.name)
  let slot ← match r.slotWord? with
    | none => pure none
    | some w => some <$> (Registered.ofWord Slot w).mapError (.unknownWord r.name)
  let (result, warnings) := (compileAll policy r.actions).runFrom []
  let effects ← result.mapError (.compile r.name)
  return ⟨r.assemble faction slot effects, warnings⟩

end CardRecord

/-! ### Records by name -/

/-- Records by name, kept apart by kind. -/
structure Index where
  investigators : KeyMap CardRecord := ∅
  assets : KeyMap CardRecord := ∅
  events : KeyMap CardRecord := ∅
  abilities : KeyMap CardRecord := ∅
  skills : KeyMap CardRecord := ∅
deriving DecidableEq, Inhabited

namespace Index

/-- The first record of each name. -/
def byName (records : List CardRecord) : KeyMap CardRecord :=
  .ofListFirst (records.map fun r => (r.name, r))

/-- The index of a collection. -/
def ofRecords (rs : Records) : Index where
  investigators := byName (rs.ofKind .investigator)
  assets := byName (rs.ofKind .asset)
  events := byName (rs.ofKind .event)
  abilities := byName (rs.ofKind .ability)
  skills := byName (rs.ofKind .skill)

/-- The records of one kind. -/
def ofKind (index : Index) : CardKind → KeyMap CardRecord
  | .investigator => index.investigators
  | .asset => index.assets
  | .event => index.events
  | .ability => index.abilities
  | .skill => index.skills

/-- The record of a kind and name. -/
def find? (index : Index) (kind : CardKind) (name : String) : Option CardRecord :=
  (index.ofKind kind).get? name

/-- Whether there is a record of a kind and name. -/
def contains (index : Index) (kind : CardKind) (name : String) : Bool :=
  (index.find? kind name).isSome

/-- The number of records of all kinds. -/
def size (index : Index) : Nat :=
  index.investigators.size + index.assets.size + index.events.size + index.abilities.size +
    index.skills.size

/-- Whether there is no record of any kind. -/
def isEmpty (index : Index) : Bool :=
  index.size == 0

end Index

/-! ### The catalogue -/

/-- An index and the policy under which its cards are built. -/
structure Catalogue where
  index : Index := {}
  policy : Policy := .lenient
deriving Inhabited

namespace Catalogue

/-- The catalogue of a collection. -/
def ofRecords (rs : Records) (policy : Policy) : Catalogue :=
  ⟨.ofRecords rs, policy⟩

/-- The card of a kind and name with the warnings of its actions.  That there is no such record is
not an error. -/
def report (c : Catalogue) (kind : CardKind) (name : String) :
    Except BuildError (Option Report) :=
  match c.index.find? kind name with
  | none => .ok none
  | some r => some <$> r.build c.policy

/-- The card of a kind and name. -/
def card (c : Catalogue) (kind : CardKind) (name : String) : Except BuildError (Option Card) :=
  (Option.map Report.card) <$> c.report kind name

end Catalogue

end CardRules
