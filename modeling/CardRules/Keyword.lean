import CardRules.Skill
import CardRules.Timing

/-!
# Keywords in any letter case

Axes and timings can be named by keywords whose letter case does not matter.  A text is brought to
lower case first.  Two letters outside ASCII have a lower case with an ASCII letter in it, the
Kelvin sign and the dotted capital I; all others keep out of ASCII, so that none of them can
become part of a keyword.
-/

namespace CardRules

/-- The lower case of one character, as far as it has ASCII letters in it. -/
def lowerChar (c : Char) : List Char :=
  if c.val = 0x212A then ['k']
  else if c.val = 0x130 then ['i', Char.ofNat 0x307]
  else [c.toLower]

/-- The lower case of a text, as far as it has ASCII letters in it. -/
def lowerCase (s : String) : String :=
  String.ofList (s.toList.flatMap lowerChar)

/-- The axis named by a keyword: its name or the first three letters of it. -/
def Axis.ofKeyword? (s : String) : Option Axis :=
  match lowerCase s with
  | "willpower" | "wil" => some .willpower
  | "intellect" | "int" => some .intellect
  | "combat" | "com" => some .combat
  | "agility" | "agi" => some .agility
  | _ => none

/-- The timing named by a keyword. -/
def Timing.ofKeyword? (s : String) : Option Timing :=
  match lowerCase s with
  | "activate" | "activation" => some .activate
  | "trigger" => some .trigger
  | "pasive" | "passive" => some .passive
  | "discard" => some .discard
  | _ => none

end CardRules
