import CardRules.Catalogue
import CardRules.Layout.Setup
import CardRules.Load.Records

/-!
# Loading a game directory

A game directory holds the cards, the contents of the chaos bag and, if it likes, the policy for
incomplete actions, each in a file of its own.  The bag is loaded before the policy.
-/

namespace CardRules

/-- What a name in a directory stands for. -/
inductive DirectoryEntry where
  | text (content : String)
  /-- A file that is not text. -/
  | binary
  | folder
deriving DecidableEq

/-- The entry of a file with some bytes. -/
def DirectoryEntry.ofBytes (bytes : List UInt8) : DirectoryEntry :=
  match String.fromUTF8? ⟨bytes.toArray⟩ with
  | some s => .text s
  | none => .binary

/-- A directory: its path, and what its names stand for. -/
structure Directory where
  path : String
  entry? : String → Option DirectoryEntry

namespace Directory

/-- The file that holds the cards. -/
def cardsName : String := "cards.json"

/-- The file that holds the contents of the chaos bag. -/
def bagName : String := "chaos_bag.json"

/-- The file that holds the policy. -/
def policyName : String := "compiler.json"

/-- What stands between the path of the directory and a name: a slash, unless the path is empty or
ends in one. -/
def separator (d : Directory) : String :=
  match d.path.toList.getLast? with
  | none | some '/' => ""
  | some _ => "/"

/-- The path of a name. -/
def pathOf (d : Directory) (name : String) : String :=
  d.path ++ d.separator ++ name

/-- The text of a file. -/
def readText (d : Directory) (name : String) : Except LoadError String :=
  match d.entry? name with
  | some (.text s) => .ok s
  | some .binary => .error ⟨[.read (d.pathOf name)], .notText⟩
  | some .folder => .error ⟨[.read (d.pathOf name)], .folder⟩
  | none => .error ⟨[.read (d.pathOf name)], .missing⟩

/-- The value in a file. -/
def load {α : Type} (d : Directory) (f : Format α) (name : String) : Except LoadError α := do
  let text ← d.readText name
  (f.decodeText text).mapError (.ofDecode (.parse (d.pathOf name)))

/-- The records of the cards. -/
def records (d : Directory) : Except LoadError Records := do
  let text ← d.readText cardsName
  Records.ofText (.parse (d.pathOf cardsName)) text

/-- The policy, lenient if there is no file for it. -/
def policy (d : Directory) : Except LoadError Policy :=
  match d.entry? policyName with
  | none => .ok .lenient
  | some _ => d.load Policy.fileFormat policyName

/-- The setup of the game. -/
def setup (d : Directory) : Except LoadError GameSetup := do
  let bag ← d.load BagSetup.format bagName
  let policy ← d.policy
  return { bag, policy }

/-- The catalogue of the cards under the policy of a setup. -/
def catalogue (d : Directory) (c : GameSetup) : Except LoadError Catalogue := do
  let rs ← d.records.mapError (·.behind (.index (d.pathOf cardsName)))
  return .ofRecords rs c.policy

/-- The chaos bag of the directory, with nothing drawn from it yet. -/
def bag {ρ : Type} (d : Directory) (picker : ρ) : Except LoadError (Bag ρ) := do
  let c ← d.setup
  return c.bag.bag picker

end Directory

end CardRules
