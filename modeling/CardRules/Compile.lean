import CardRules.Action
import CardRules.Effect.Basic
import CardRules.Quoted

/-!
# From actions to effects

`Action.effect` reads an action by its tag and gives at most one effect and at most one warning.
The only failure is a word for a location condition that is not registered.

`compileList` and `compileAll` compile the actions of a card under a policy.  A lenient policy drops
what is incomplete and notes a warning; a strict one refuses the card at the first warning.  Both run
in `Compiling`, which carries the warnings noted so far and keeps them when it fails.
-/

namespace CardRules

/-! ### Warnings and errors -/

/-- What may be wrong with an action that has a readable tag. -/
inductive Warning where
  | unknownAction (tag : String)
  | missingModifier (tag key : String)
  | invalidModifier (tag key : String)
  | wrongTarget (tag expected : String) (found : Option String)
  | unknownCondition (keyword : String)
deriving DecidableEq

/-- An optional text as warnings show it. -/
def optionText : Option String → String
  | none => "None"
  | some s => "Some(" ++ quoted s ++ ")"

/-- The text of a warning. -/
def Warning.message : Warning → String
  | .unknownAction tag => "unknown action '" ++ tag ++ "'"
  | .missingModifier tag key => "action '" ++ tag ++ "' requires modification '" ++ key ++ "'"
  | .invalidModifier tag key =>
    "modification '" ++ key ++ "' of action '" ++ tag ++ "' is not a valid amount"
  | .wrongTarget tag expected found =>
    "action '" ++ tag ++ "' requires target '" ++ expected ++ "', found " ++ optionText found
  | .unknownCondition keyword => "unknown condition '" ++ keyword ++ "'"

/-- How strictly incomplete actions are taken. -/
inductive Policy where
  /-- Incomplete and unknown actions are dropped with a warning. -/
  | lenient
  /-- Incomplete and unknown actions are refused. -/
  | strict
deriving DecidableEq, Inhabited

/-- Why the actions of a card do not compile. -/
inductive CompileError where
  | unknownWord (e : UnknownWord)
  | rejected (timing : Timing) (index : Nat) (warning : Warning)
deriving DecidableEq

/-- The text of the error. -/
def CompileError.message : CompileError → String
  | .unknownWord e => e.message
  | .rejected timing index warning =>
    timing.keyword ++ " action #" ++ toString index ++ " rejected: " ++ warning.message

/-! ### One action -/

/-- What an action compiles to. -/
structure Compiled where
  effect : Option Effect := none
  warning : Option Warning := none
deriving DecidableEq

/-- An effect without a warning, or a warning without an effect. -/
def Compiled.ofExcept : Except Warning Effect → Compiled
  | .ok e => { effect := some e }
  | .error w => { warning := some w }

namespace Action

/-- What the effect of an action grants; an action without a price costs nothing. -/
def grant (a : Action) : Grant := ⟨a.skill, a.expend.getD 0⟩

/-- The amount of a modifier, which may be negative. -/
def amountOf (a : Action) (key : String) : Except Warning Int8 :=
  match a.modifiers.get? key with
  | none => .error (.missingModifier a.tag key)
  | some m =>
    match m.amount? with
    | some n => .ok n
    | none => .error (.invalidModifier a.tag key)

/-- The amount of a modifier that may not be negative. -/
def damageOf (a : Action) (key : String) : Except Warning UInt8 := do
  let n ← a.amountOf key
  if n.toInt < 0 then throw (.invalidModifier a.tag key)
  return UInt8.ofNat n.toInt.toNat

/-- The optional skill of a fight that depends on the location. -/
def locationSkill? (a : Action) : Option OptionalSkill :=
  a.optional.filter (·.subject == "location")

/-- A fight with a skill that depends on the location.  It needs no damage, but damage that is
given has to be valid; a condition is not looked at. -/
def locationFight (a : Action) (o : OptionalSkill) : Except UnknownWord Compiled := do
  let condition ← Registered.ofWord LocationCondition o.condition
  let fight (damage : UInt8) : Effect :=
    .locationFight a.grant damage ⟨a.grant, o.skill, condition⟩
  return match a.modifiers.get? "damage" with
    | none => { effect := some (fight 0) }
    | some _ => .ofExcept (fight <$> a.damageOf "damage")

/-- Any other fight.  It needs damage; with a condition that is not known it stays a conditional
fight, but one without a condition, and the condition is warned of. -/
def plainFight (a : Action) : Compiled :=
  match a.damageOf "damage" with
  | .error w => { warning := some w }
  | .ok damage =>
    match a.modifiers.get? "condition" with
    | none => { effect := some (.fight a.grant damage) }
    | some m =>
      match Condition.ofKeyword? m.written with
      | some c => { effect := some (.conditionalFight a.grant damage (some c)) }
      | none =>
        { effect := some (.conditionalFight a.grant damage none)
          warning := some (.unknownCondition m.written) }

/-- Damage to the attacker.  The damage is checked before the target. -/
def attackerDamage (a : Action) : Except Warning Effect := do
  let amount ← a.damageOf "damage"
  if a.target = some "attacking_enemy" then
    return .damageToAttacker a.grant amount
  throw (.wrongTarget a.tag "attacking_enemy" a.target)

/-- What an action compiles to. -/
def effect (a : Action) : Except UnknownWord Compiled :=
  match a.tag with
  | "fight" =>
    match a.locationSkill? with
    | some o => a.locationFight o
    | none => .ok a.plainFight
  | "skill_test" => .ok { effect := some (.skillBonus a.grant) }
  | "investigate" => .ok (.ofExcept (.investigate a.grant <$> a.amountOf "shroud"))
  | "make_damage" => .ok (.ofExcept (.damageAtLocation a.grant <$> a.damageOf "damage"))
  | "recive_damage" => .ok (.ofExcept a.attackerDamage)
  | tag => .ok { warning := some (.unknownAction tag) }

end Action

/-! ### The actions of a card -/

/-- A step of compilation: it may fail, and in any case it leaves the warnings noted so far. -/
abbrev Compiling := ExceptT CompileError (StateM (List Warning))

/-- Compiles the actions of one timing, the first of which has number `index`. -/
def compileFrom (policy : Policy) (timing : Timing) :
    (index : Nat) → List Action → Compiling (List Effect)
  | _, [] => return []
  | index, a :: rest => do
    match a.effect with
    | .error e => throw (.unknownWord e)
    | .ok compiled =>
      match policy, compiled.warning with
      | .strict, some w => throw (.rejected timing index w)
      | _, w =>
        modify (· ++ w.toList)
        let effects ← compileFrom policy timing (index + 1) rest
        return compiled.effect.toList ++ effects

/-- Compiles the actions of one timing and keeps their order. -/
def compileList (policy : Policy) (timing : Timing) (actions : List Action) :
    Compiling (List Effect) :=
  compileFrom policy timing 0 actions

/-- Compiles the actions of all timings, one timing after the other. -/
def compileAll (policy : Policy) (actions : ByTiming Action) : Compiling (ByTiming Effect) := do
  let activate ← compileList policy .activate actions.activate
  let trigger ← compileList policy .trigger actions.trigger
  let passive ← compileList policy .passive actions.passive
  let discard ← compileList policy .discard actions.discard
  return { activate, trigger, passive, discard }

/-- Runs a compilation after some warnings; gives its outcome and all warnings. -/
def Compiling.runFrom {α : Type} (x : Compiling α) (warnings : List Warning) :
    Except CompileError α × List Warning :=
  (ExceptT.run x).run warnings

end CardRules
