import CardRules.Action
import CardRules.Format.Integer

/-!
# The formats of skills and actions

Skill vectors, modifiers and actions as they are exchanged between programs.  Card files have a
layout of their own.
-/

namespace CardRules

open Fields (need opt maybe)

/-- The components of a skill vector, zero where they are missing. -/
def Skill.fields : Fields [Int8, Int8, Int8, Int8, Int8] :=
  opt "willpower" 0 .int8 <| opt "intellect" 0 .int8 <| opt "combat" 0 .int8 <|
    opt "agility" 0 .int8 <| opt "wild" 0 .int8 .nil

/-- A skill vector of its components. -/
def Skill.ofTuple : Tuple [Int8, Int8, Int8, Int8, Int8] → Skill
  | (willpower, intellect, combat, agility, wild, ()) =>
    { willpower, intellect, combat, agility, wild }

/-- The components of a skill vector. -/
def Skill.toTuple (s : Skill) : Tuple [Int8, Int8, Int8, Int8, Int8] :=
  (s.willpower, s.intellect, s.combat, s.agility, s.wild, ())

/-- The format of skill vectors. -/
def Skill.format : Format Skill :=
  .via (.record "Skill" fields) ofTuple toTuple fun _ => rfl

/-- The format of modifiers: an amount if it can be one, else a number, else a text. -/
def Modifier.format : Format Modifier :=
  .via (.either "Modification" .int8 (.either "Modification" .int64 .text))
    (fun
      | .inl n => .amount n
      | .inr (.inl n) => .number n
      | .inr (.inr s) => .text s)
    (fun
      | .amount n => .inl n
      | .number n => .inr (.inl n)
      | .text s => .inr (.inr s))
    fun m => by cases m <;> rfl

/-- The format of optional skills. -/
def OptionalSkill.format : Format OptionalSkill :=
  .via
    (.record "OptionalEffectDescriptor" <|
      need "skill" Skill.format <| need "what" .text <| need "condition" .text .nil)
    (fun (skill, subject, condition, ()) => { skill, subject, condition })
    (fun o => (o.skill, o.subject, o.condition, ()))
    fun _ => rfl

/-- The format of the skill of an action together with its optional skill. -/
def Action.skillFormat : Format (Tuple [Skill, Option OptionalSkill]) :=
  .record "SkillEffectDescriptor" <|
    need "skill" Skill.format <| maybe "optional_effect" OptionalSkill.format .nil

/-- The format of actions. -/
def Action.format : Format Action :=
  .via
    (.record "ActionDescriptor" <|
      need "action" .text <| maybe "expend" .uint8 <|
      opt "skill_effect" (Skill.zero, none, ()) Action.skillFormat <|
      opt "modifications" ∅ (.dictionary Modifier.format) <| maybe "target" .text .nil)
    (fun (tag, expend, (skill, optional, ()), modifiers, target, ()) =>
      { tag, expend, skill, optional, modifiers, target })
    (fun a => (a.tag, a.expend, (a.skill, a.optional, ()), a.modifiers, a.target, ()))
    fun _ => rfl

/-- Lists by timing of their four lists. -/
def ByTiming.ofTuple {α : Type} : Tuple [List α, List α, List α, List α] → ByTiming α
  | (activate, trigger, passive, discard, ()) => { activate, trigger, passive, discard }

/-- The four lists of lists by timing. -/
def ByTiming.toTuple {α : Type} (lists : ByTiming α) : Tuple [List α, List α, List α, List α] :=
  (lists.activate, lists.trigger, lists.passive, lists.discard, ())

/-- The format of the actions of a card. -/
def Action.listsFormat : Format (ByTiming Action) :=
  .via
    (.record "ActionLists" <|
      opt "activate" [] (.list Action.format) <| opt "trigger" [] (.list Action.format) <|
      opt "passive" [] (.list Action.format) <| opt "discard" [] (.list Action.format) .nil)
    ByTiming.ofTuple ByTiming.toTuple fun _ => rfl

end CardRules
