import CardRules.Quoted.Hidden

/-!
# Quoted text

Error texts show a piece of foreign text between double quotes.  Quotes, backslashes and the usual
control characters are written as two-character escapes; every other character that would not
show, or that would combine with the character before it, is written by its code in hexadecimal.
-/

namespace CardRules

/-- A character as it stands between quotes. -/
def quotedChar (c : Char) : List Char :=
  match c with
  | '"' => ['\\', '"']
  | '\\' => ['\\', '\\']
  | '\n' => ['\\', 'n']
  | '\r' => ['\\', 'r']
  | '\t' => ['\\', 't']
  | '\x00' => ['\\', '0']
  | c =>
    if isHidden c then ['\\', 'u', '\x7b'] ++ Nat.toDigits 16 c.toNat ++ ['\x7d']
    else [c]

/-- A text between double quotes. -/
def quoted (s : String) : String :=
  String.ofList ('"' :: s.toList.flatMap quotedChar ++ ['"'])

end CardRules
