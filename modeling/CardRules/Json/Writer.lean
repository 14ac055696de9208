import CardRules.Json.Decimal
import CardRules.Json.Tree

/-!
# From values to text

`Json.render` writes a value on one line, without blanks, its entries in the order in which they
stand.
-/

namespace CardRules.Json

/-- A character inside a JSON string. -/
def stringChar (c : Char) : List Char :=
  match c with
  | '"' => ['\\', '"']
  | '\\' => ['\\', '\\']
  | '\n' => ['\\', 'n']
  | '\r' => ['\\', 'r']
  | '\t' => ['\\', 't']
  | c =>
    if c.toNat < 0x20 then
      ['\\', 'u', '0', '0', Nat.digitChar (c.toNat / 16), Nat.digitChar (c.toNat % 16)]
    else [c]

/-- A JSON string. -/
def stringText (s : String) : String :=
  String.ofList ('"' :: s.toList.flatMap stringChar ++ ['"'])

/-- The text of a number. -/
def Number.text : Number → String
  | .int n => toString n
  | .fraction x => x.text

mutual

/-- The text of a value. -/
def render : Json → String
  | .null => "null"
  | .bool b => if b then "true" else "false"
  | .number n => n.text
  | .text s => stringText s
  | .sequence items _ => "[" ++ renderItems items ++ "]"
  | .map entries _ => "\x7b" ++ renderEntries entries ++ "\x7d"
  | .broken b => b.read.elim

/-- The texts of items, with commas between them. -/
def renderItems : List Json → String
  | [] => ""
  | [j] => render j
  | j :: rest => render j ++ "," ++ renderItems rest

/-- The texts of entries, with commas between them. -/
def renderEntries : List (String × Json) → String
  | [] => ""
  | [(key, j)] => stringText key ++ ":" ++ render j
  | (key, j) :: rest => stringText key ++ ":" ++ render j ++ "," ++ renderEntries rest

end

end CardRules.Json
