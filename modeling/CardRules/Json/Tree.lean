import CardRules.Json.Number
import CardRules.KeyMap

/-!
# JSON values and broken texts

A `Tree φ` is what a JSON text says, entry by entry and in the order of the text, with faults of type
`φ` where the text is broken.  A tree without faults is a JSON value: `Json` takes for `φ` the type
without elements.  A broken text is thus no error by itself; whoever reads the tree meets the faults
in the order of the text, and may report something else before.

Two ways of going over a text meet different faults.  To *read* a value is to take in all of it,
numbers and characters included.  To *skip* it asks only for well-formed tokens, so that a number
without a value or half a character does no harm.
-/

namespace CardRules

open Json (Number)

/-- What a reader found in the place of something else. -/
inductive Found where
  | null
  | bool (b : Bool)
  | number (n : Number)
  | text (s : String)
  | sequence
  | map
  | bareLabel
deriving DecidableEq

/-- A value that cannot be read. -/
structure Broken (φ : Type) where
  /-- The fault met when the value is read. -/
  read : φ
  /-- The fault met when the value is skipped, if it is one to be met then. -/
  skip : Option φ
  /-- The fault met when the value is to be a label. -/
  label : φ
deriving DecidableEq

/-- The place where a sequence or map breaks off. -/
structure Cut (φ : Type) where
  /-- The fault met when one more item is asked for. -/
  next : φ
  /-- The fault met when the rest is skipped, if there is one to be met then. -/
  skip : Option φ
  /-- The fault met when the end is asked for. -/
  close : φ
  /-- The fault met when a label is asked for. -/
  label : φ
deriving DecidableEq

/-- A JSON text, with faults where it is broken. -/
inductive Tree (φ : Type) where
  | null
  | bool (b : Bool)
  | number (n : Number)
  | text (s : String)
  | sequence (items : List (Tree φ)) (cut : Option (Cut φ))
  | map (entries : List (String × Tree φ)) (cut : Option (Cut φ))
  | broken (b : Broken φ)

/-- A JSON value. -/
abbrev Json := Tree Empty

namespace Tree

variable {φ : Type}

/-- What a reader of something else finds. -/
def found : Tree φ → Except φ Found
  | .null => .ok .null
  | .bool b => .ok (.bool b)
  | .number n => .ok (.number n)
  | .text s => .ok (.text s)
  | .sequence _ _ => .ok .sequence
  | .map _ _ => .ok .map
  | .broken b => .error b.read

/-! ### Skipping -/

/-- The fault at the end of a sequence or map that is skipped. -/
def cutSkip : Option (Cut φ) → Option φ
  | none => none
  | some c => c.skip

mutual

/-- The first fault met when a value is skipped. -/
def skip : Tree φ → Option φ
  | .null | .bool _ | .number _ | .text _ => none
  | .sequence items cut => skipItems items <|> cutSkip cut
  | .map entries cut => skipEntries entries <|> cutSkip cut
  | .broken b => b.skip

/-- The first fault met when items are skipped. -/
def skipItems : List (Tree φ) → Option φ
  | [] => none
  | t :: rest => t.skip <|> skipItems rest

/-- The first fault met when entries are skipped. -/
def skipEntries : List (String × Tree φ) → Option φ
  | [] => none
  | (_, t) :: rest => t.skip <|> skipEntries rest

end

/-! ### Reading -/

/-- The fault at the end of a sequence or map that is read to its end. -/
def cutNext : Option (Cut φ) → Except φ Unit
  | none => .ok ()
  | some c => .error c.next

mutual

/-- The value that a text says, or the first fault met when it is read.  Entries stay in the order
of the text, and repeated keys stay repeated. -/
def value : Tree φ → Except φ Json
  | .null => .ok .null
  | .bool b => .ok (.bool b)
  | .number n => .ok (.number n)
  | .text s => .ok (.text s)
  | .sequence items cut => do
    let items ← valueItems items
    cutNext cut
    return .sequence items none
  | .map entries cut => do
    let entries ← valueEntries entries
    cutNext cut
    return .map entries none
  | .broken b => .error b.read

/-- The values of items. -/
def valueItems : List (Tree φ) → Except φ (List Json)
  | [] => .ok []
  | t :: rest => do
    let j ← t.value
    let js ← valueItems rest
    return j :: js

/-- The values of entries. -/
def valueEntries : List (String × Tree φ) → Except φ (List (String × Json))
  | [] => .ok []
  | (key, t) :: rest => do
    let j ← t.value
    let js ← valueEntries rest
    return (key, j) :: js

end

/-! ### Values as maps -/

mutual

/-- The same value with the entries of every map in ascending order of their keys; of several entries
with one key the last one stays. -/
def arranged : Json → Json
  | .null => .null
  | .bool b => .bool b
  | .number n => .number n
  | .text s => .text s
  | .sequence items _ => .sequence (arrangedItems items) none
  | .map entries _ => .map (KeyMap.ofList (arrangedEntries entries)).entries none
  | .broken b => b.read.elim

/-- The items of a sequence, each arranged. -/
def arrangedItems : List Json → List Json
  | [] => []
  | j :: rest => arranged j :: arrangedItems rest

/-- The entries of a map, the value of each arranged. -/
def arrangedEntries : List (String × Json) → List (String × Json)
  | [] => []
  | (key, j) :: rest => (key, arranged j) :: arrangedEntries rest

end

/-- A whole number as a JSON value. -/
def int (n : Int) : Tree φ := .number (.int n)

/-- A sequence of values. -/
def ofItems (items : List (Tree φ)) : Tree φ := .sequence items none

/-- A map of entries. -/
def ofEntries (entries : List (String × Tree φ)) : Tree φ := .map entries none

/-- The value under a key of a map; of several the first. -/
def get? (t : Tree φ) (key : String) : Option (Tree φ) :=
  match t with
  | .map entries _ => KeyMap.lookup key entries
  | _ => none

end Tree

end CardRules
