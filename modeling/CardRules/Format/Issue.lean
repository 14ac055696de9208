import CardRules.Json.Writer
import CardRules.Quoted

/-!
# What can be wrong with data

An `Issue` is a disagreement between a value and the format it should have.  The text of an issue
names what was found and what was expected, never where.

Reading a text can also end at a fault of the text; `DecodeError` is one or the other.
-/

namespace CardRules

/-- A disagreement between a value and its format. -/
inductive Issue where
  | missingField (key : String)
  | repeatedField (key : String)
  | unknownLabel (label : String) (known : List String)
  /-- A value of another kind than expected. -/
  | wrongKind (found : Found) (expected : String)
  /-- An integer that does not fit. -/
  | outOfRange (n : Int) (expected : String)
  /-- A sequence of another length than expected. -/
  | wrongLength (length : Nat) (expected : String)
  /-- A map that should name one label and does not have just one key. -/
  | notOneLabel
  /-- A value that none of several formats accepts. -/
  | noAlternative (name : String)
deriving DecidableEq

/-- What was found, as issues show it. -/
def Found.shown : Found → String
  | .null => "null"
  | .bool b => "boolean `" ++ (if b then "true" else "false") ++ "`"
  | .number (.int n) => "integer `" ++ toString n ++ "`"
  | .number (.fraction x) => "floating point `" ++ x.text ++ "`"
  | .text s => "string " ++ quoted s
  | .sequence => "sequence"
  | .map => "map"
  | .bareLabel => "unit variant"

/-- The labels that would have been known. -/
def knownLabels : List String → String
  | [] => "there are no variants"
  | [a] => "expected `" ++ a ++ "`"
  | [a, b] => "expected `" ++ a ++ "` or `" ++ b ++ "`"
  | labels => "expected one of " ++ ", ".intercalate (labels.map fun a => "`" ++ a ++ "`")

/-- The text of an issue. -/
def Issue.message : Issue → String
  | .missingField key => "missing field `" ++ key ++ "`"
  | .repeatedField key => "duplicate field `" ++ key ++ "`"
  | .unknownLabel label known => "unknown variant `" ++ label ++ "`, " ++ knownLabels known
  | .wrongKind found expected => "invalid type: " ++ found.shown ++ ", expected " ++ expected
  | .outOfRange n expected =>
    "invalid value: " ++ (Found.number (.int n)).shown ++ ", expected " ++ expected
  | .wrongLength length expected =>
    "invalid length " ++ toString length ++ ", expected " ++ expected
  | .notOneLabel => "invalid value: map, expected map with a single key"
  | .noAlternative name => "data did not match any variant of untagged enum " ++ name

/-- Why something does not decode: the data disagree with the format, or the text is broken. -/
inductive DecodeError (φ : Type) where
  | data (issue : Issue)
  | fault (f : φ)
deriving DecidableEq

/-- An error on a value, where there are no faults, as an error on any text. -/
def DecodeError.ofValue {φ : Type} : DecodeError Empty → DecodeError φ
  | .data issue => .data issue
  | .fault f => f.elim

end CardRules
