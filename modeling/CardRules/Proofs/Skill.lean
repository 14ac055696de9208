import CardRules.Skill
import Mathlib.Tactic.Lemma

/-!
# Sums of skill vectors

A component of a sum is the sum of the components as far as that is an 8-bit number.  Nothing is
lost when the empty vector is added (`Skill.add_zero`).

A sum that is beyond the 8-bit numbers stays at the end of them that is nearer
(`Skill.toInt_component_add`), which keeps its sign (`Skill.sign_component_add`).  On an axis a sum
is worth what the two vectors are worth together if neither the number of the axis nor the wild
number is beyond the range (`Skill.value_add`).
-/

namespace CardRules

/-- An 8-bit number is nearest to itself. -/
lemma saturate_toInt (x : Int8) : saturate x.toInt = x := by
  have hlower : -128 ≤ x.toInt := x.le_toInt
  have hupper : x.toInt < 128 := x.toInt_lt
  have hclamp : max (-128) (min 127 x.toInt) = x.toInt := by omega
  rw [saturate, hclamp, Int8.ofInt_toInt]

/-- The nearest 8-bit number of an integer beyond the range is the end of the range. -/
lemma toInt_saturate (n : Int) : (saturate n).toInt = max (-128) (min 127 n) := by
  have hlower : -2 ^ 7 ≤ max (-128) (min 127 n) := by omega
  have hupper : max (-128) (min 127 n) < 2 ^ 7 := by omega
  rw [saturate, Int8.toInt_ofInt_of_le hlower hupper]

/-- Adding a component that is zero. -/
lemma saturate_toInt_add_zero (x : Int8) : saturate (x.toInt + (0 : Int8).toInt) = x := by
  rw [Int8.toInt_zero, Int.add_zero, saturate_toInt]

namespace Skill

/-- The empty vector adds nothing. -/
lemma add_zero (s : Skill) : s + Skill.zero = s := by
  obtain ⟨willpower, intellect, combat, agility, wild⟩ := s
  change Skill.mk _ _ _ _ _ = _
  congr 1 <;> exact saturate_toInt_add_zero _

/-! ## Component by component -/

/-- What a skill vector has numbers for. -/
inductive Component where
  | on (axis : Axis)
  | wild

/-- The number of a component. -/
def component (s : Skill) : Component → Int8
  | .on axis => s.on axis
  | .wild => s.wild

/-- The value on an axis is made of two components. -/
lemma value_eq (s : Skill) (axis : Axis) :
    s.value axis = (s.component (.on axis)).toInt + (s.component .wild).toInt :=
  rfl

/-- The sum of the numbers of a component, before it is cut off. -/
def exactSum (s t : Skill) (c : Component) : Int :=
  (s.component c).toInt + (t.component c).toInt

/-- A component of a sum is the exact sum, or the end of the 8-bit range that it is beyond. -/
lemma toInt_component_add (s t : Skill) (c : Component) :
    ((s + t).component c).toInt = max (-128) (min 127 (s.exactSum t c)) := by
  cases c with
  | on axis => rw [component, add_on, toInt_saturate, exactSum, component, component]
  | wild => rw [component, add_wild, toInt_saturate, exactSum, component, component]

/-- A component of a sum has the sign of the exact sum. -/
lemma sign_component_add (s t : Skill) (c : Component) :
    ((s + t).component c).toInt.sign = (s.exactSum t c).sign := by
  rw [toInt_component_add]
  rcases Int.lt_trichotomy (s.exactSum t c) 0 with hneg | hzero | hpos
  · rw [Int.sign_eq_neg_one_of_neg hneg, Int.sign_eq_neg_one_of_neg (by omega)]
  · rw [hzero]
    rfl
  · rw [Int.sign_eq_one_of_pos hpos, Int.sign_eq_one_of_pos (by omega)]

/-- No component is lowered by a number that is not negative. -/
lemma le_component_add {s t : Skill} {c : Component} (h : 0 ≤ (t.component c).toInt) :
    (s.component c).toInt ≤ ((s + t).component c).toInt := by
  have hupper : (s.component c).toInt < 128 := (s.component c).toInt_lt
  rw [toInt_component_add, exactSum]
  omega

/-- A component whose exact sum is an 8-bit number is not cut off. -/
def SumFits (s t : Skill) (c : Component) : Prop :=
  -128 ≤ s.exactSum t c ∧ s.exactSum t c ≤ 127

instance (s t : Skill) (c : Component) : Decidable (s.SumFits t c) :=
  inferInstanceAs (Decidable (_ ∧ _))

/-- A component that is not cut off is the exact sum. -/
lemma SumFits.toInt_component {s t : Skill} {c : Component} (h : s.SumFits t c) :
    ((s + t).component c).toInt = s.exactSum t c := by
  obtain ⟨hlower, hupper⟩ := h
  rw [toInt_component_add]
  omega

/-- Values are added exactly if neither of the components they are made of is cut off. -/
lemma value_add {s t : Skill} {axis : Axis} (haxis : s.SumFits t (.on axis))
    (hwild : s.SumFits t .wild) : (s + t).value axis = s.value axis + t.value axis := by
  rw [value_eq, haxis.toInt_component, hwild.toInt_component, exactSum, exactSum, value_eq, value_eq]
  omega

/-! ## Clamped sums -/

/-- A vector is the *clamped sum* of two others:

* each component is the exact sum, cut off at the ends of the 8-bit range;
* so it has the sign of the exact sum;
* on an axis the vector is worth what the two others are worth together, provided that neither the
  number of the axis nor the wild number is cut off. -/
structure IsClampedSum (s t sum : Skill) : Prop where
  toInt_component : ∀ c, (sum.component c).toInt = max (-128) (min 127 (s.exactSum t c))
  sign_component : ∀ c, (sum.component c).toInt.sign = (s.exactSum t c).sign
  value : ∀ axis, s.SumFits t (.on axis) → s.SumFits t .wild →
    sum.value axis = s.value axis + t.value axis

/-- Vectors are added to their clamped sum. -/
lemma isClampedSum_add (s t : Skill) : s.IsClampedSum t (s + t) where
  toInt_component := s.toInt_component_add t
  sign_component := s.sign_component_add t
  value _ haxis hwild := value_add haxis hwild

end Skill

end CardRules
