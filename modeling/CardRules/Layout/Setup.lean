import CardRules.Format.Integer
import CardRules.Setup

/-!
# The formats of tokens and setups
-/

namespace CardRules

open Fields (need opt)

/-- The labels of kinds of tokens. -/
def TokenKind.table : LabelTable TokenKind where
  labels :=
    [("skull", .skull), ("cultist", .cultist), ("tablet", .tablet), ("elder_thing", .elderThing),
      ("elder_sign", .elderSign), ("auto_fail", .autoFail), ("value", .value)]
  label
    | .skull => "skull"
    | .cultist => "cultist"
    | .tablet => "tablet"
    | .elderThing => "elder_thing"
    | .elderSign => "elder_sign"
    | .autoFail => "auto_fail"
    | .value => "value"
  lookup_label a := by cases a <;> rfl

/-- The labels of draw rules. -/
def DrawRule.table : LabelTable DrawRule where
  labels := [("replace", .replace), ("remove", .remove)]
  label
    | .replace => "replace"
    | .remove => "remove"
  lookup_label a := by cases a <;> rfl

/-- The labels of policies. -/
def Policy.table : LabelTable Policy where
  labels := [("lenient", .lenient), ("strict", .strict)]
  label
    | .lenient => "lenient"
    | .strict => "strict"
  lookup_label a := by cases a <;> rfl

/-- The format of draw rules. -/
def DrawRule.format : Format DrawRule := .labels table

/-- The format of policies. -/
def Policy.format : Format Policy := .labels table

/-- The format of tokens. -/
def Token.format : Format Token :=
  .via
    (.record "ChaosToken" <| need "kind" (.labels TokenKind.table) <| opt "effect" 0 .int8 .nil)
    (fun (kind, effect, ()) => { kind, effect })
    (fun t => (t.kind, t.effect, ()))
    fun _ => rfl

/-- The format of what is in a chaos bag. -/
def BagSetup.format : Format BagSetup :=
  .via
    (.record "ChaosBagConfig" <|
      opt "draw_policy" .replace DrawRule.format <| need "tokens" (.list Token.format) .nil)
    (fun (rule, tokens, ()) => { rule, tokens })
    (fun c => (c.rule, c.tokens, ()))
    fun _ => rfl

/-- The format of the setup of a game. -/
def GameSetup.format : Format GameSetup :=
  .via
    (.record "GameConfig" <|
      need "chaos_bag" BagSetup.format <| opt "descriptors" .lenient Policy.format .nil)
    (fun (bag, policy, ()) => { bag, policy })
    (fun c => (c.bag, c.policy, ()))
    fun _ => rfl

/-- The format of a file that holds no more than a policy. -/
def Policy.fileFormat : Format Policy :=
  .via (.record "CompilerConfig" <| opt "descriptors" .lenient Policy.format .nil)
    (fun (policy, ()) => policy) (fun policy => (policy, ())) fun _ => rfl

end CardRules
