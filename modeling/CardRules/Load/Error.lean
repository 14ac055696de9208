import CardRules.CardFile.Sections

/-!
# Errors of loading

A loading error has a cause and the steps on the way to it, the outermost first.  Its text strings
the steps together; only what is wrong with the data is said at the end, for a broken text the kind
of the fault has to do.
-/

namespace CardRules

/-- Why something could not be loaded. -/
inductive LoadCause where
  /-- There is no such file. -/
  | missing
  /-- The file is not text. -/
  | notText
  /-- There is a folder of that name. -/
  | folder
  /-- The text does not decode. -/
  | decode (e : DecodeError Fault)
deriving DecidableEq

/-- A step on the way to an error.  A file is named by its path. -/
inductive LoadStep where
  | read (path : String)
  | parse (path : String)
  | index (path : String)
  | cardRecords
  | entry (kind : CardKind) (index : Nat) (name : String)
deriving DecidableEq

/-- A cause and the steps on the way to it, the outermost first. -/
structure LoadError where
  steps : List LoadStep
  cause : LoadCause
deriving DecidableEq

/-- The text of a step. -/
def LoadStep.text : LoadStep → String
  | .read path => "read " ++ path
  | .parse path => "parse " ++ path
  | .index path => "index " ++ path
  | .cardRecords => "parse card records"
  | .entry kind number name =>
    "parse " ++ kind.keyword ++ " #" ++ toString number ++ " '" ++ name ++ "'"

namespace LoadError

/-- The text of the error. -/
def message (e : LoadError) : String :=
  let detail := match e.cause with
    | .decode (.data issue) => [issue.message]
    | _ => []
  ": ".intercalate (e.steps.map LoadStep.text ++ detail)

/-- An error one step further out. -/
def behind (e : LoadError) (step : LoadStep) : LoadError :=
  { e with steps := step :: e.steps }

/-- The error of a text that does not decode. -/
def ofDecode (step : LoadStep) (e : DecodeError Fault) : LoadError :=
  ⟨[step], .decode e⟩

/-- The error of a card file with a bad entry. -/
def ofBadEntry (step : LoadStep) (b : BadEntry) : LoadError :=
  ⟨[step, .entry b.kind b.index b.name], .decode b.error.ofValue⟩

end LoadError

end CardRules
