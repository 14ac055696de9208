/-!
# Skill vectors

A skill vector holds one small signed number for each of the four axes a test can be about, and a
*wild* number that counts toward whichever axis is tested.  Vectors are added component by
component; a component that would leave the signed 8-bit range stays at the end of it.
-/

namespace CardRules

/-- What a skill test is about. -/
inductive Axis where
  | willpower
  | intellect
  | combat
  | agility
deriving DecidableEq

/-- The four axes, in the order in which they are printed. -/
def Axis.all : List Axis := [.willpower, .intellect, .combat, .agility]

/-- The lower-case name of an axis. -/
def Axis.name : Axis → String
  | .willpower => "willpower"
  | .intellect => "intellect"
  | .combat => "combat"
  | .agility => "agility"

/-- The skill numbers carried by investigators, cards and effects. -/
structure Skill where
  willpower : Int8 := 0
  intellect : Int8 := 0
  combat : Int8 := 0
  agility : Int8 := 0
  /-- Counts toward whichever axis is tested. -/
  wild : Int8 := 0
deriving DecidableEq, Inhabited

/-- The 8-bit number nearest to an integer. -/
def saturate (n : Int) : Int8 :=
  Int8.ofInt (max (-128) (min 127 n))

namespace Skill

/-- The vector without any skill. -/
def zero : Skill := {}

/-- The component of one axis, without the wild number. -/
def on (s : Skill) : Axis → Int8
  | .willpower => s.willpower
  | .intellect => s.intellect
  | .combat => s.combat
  | .agility => s.agility

/-- What the vector is worth in a test of `axis`: its component there and the wild number. -/
def value (s : Skill) (axis : Axis) : Int :=
  (s.on axis).toInt + s.wild.toInt

/-- The value that a test against this vector has to reach; it is never negative. -/
def difficulty (tested : Skill) (axis : Axis) : Int :=
  max (tested.value axis) 0

/-- The same vector with another wild number. -/
def withWild (s : Skill) (wild : Int8) : Skill :=
  { s with wild }

/-- Whether every component is zero. -/
def isZero (s : Skill) : Bool :=
  s == zero

/-- Component-wise sum; each component stays within the 8-bit range. -/
def add (s t : Skill) : Skill where
  willpower := saturate (s.willpower.toInt + t.willpower.toInt)
  intellect := saturate (s.intellect.toInt + t.intellect.toInt)
  combat := saturate (s.combat.toInt + t.combat.toInt)
  agility := saturate (s.agility.toInt + t.agility.toInt)
  wild := saturate (s.wild.toInt + t.wild.toInt)

instance : Add Skill := ⟨add⟩

/-- The one-line form of a vector, such as `wil 1 int 0 com 4 agi 0 wild 1`. -/
def text (s : Skill) : String :=
  "wil " ++ toString s.willpower.toInt ++ " int " ++ toString s.intellect.toInt ++
    " com " ++ toString s.combat.toInt ++ " agi " ++ toString s.agility.toInt ++
    " wild " ++ toString s.wild.toInt

/-- The component of a sum on an axis. -/
theorem add_on (s t : Skill) (axis : Axis) :
    (s + t).on axis = saturate ((s.on axis).toInt + (t.on axis).toInt) := by
  cases axis <;> rfl

/-- The wild number of a sum. -/
theorem add_wild (s t : Skill) : (s + t).wild = saturate (s.wild.toInt + t.wild.toInt) := rfl

end Skill

end CardRules
