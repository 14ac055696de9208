import CardRules.Proofs.Compile.DecisionTable
import CardRules.Proofs.Compile.Faults
import CardRules.Proofs.Timing

/-!
# Every action is accounted for

Under the lenient policy an action of a card becomes an effect, or a warning says what is wrong with
it.  Only a fight whose condition is not known does both.  As each row of the decision table keeps to
this (`DecisionTable.accounts`), the counts add up over all actions of a card: the warnings are the
full list of what is missing from it.  The main statement is `compileAll_accounts`.
-/

namespace CardRules

/-- Whether a warning is about a condition that is not known. -/
def Warning.isUnknownCondition : Warning → Bool
  | .unknownCondition _ => true
  | _ => false

/-- Whether an effect is a conditional fight that has lost its condition. -/
def Effect.lacksCondition : Effect → Bool
  | .conditionalFight _ _ none => true
  | _ => false

/-! ## One action -/

/-- In each row of the decision table there is either an effect or a warning, but for the warning of
an unknown condition, which comes with a fight that lacks the condition. -/
lemma DecisionTable.accounts {a : Action} {base : Grant} {compiled : Compiled}
    (h : DecisionTable a base (.ok compiled)) :
    compiled.warning.any (fun w => !w.isUnknownCondition) = !compiled.effect.isSome ∧
      compiled.warning.any (·.isUnknownCondition) = compiled.effect.any (·.lacksCondition) := by
  cases h <;> exact ⟨rfl, rfl⟩

namespace Action

/-- An action that compiles has an effect, or a warning other than that of an unknown condition. -/
lemma any_warning?_of_ok {a : Action} {compiled : Compiled} (h : a.effect = .ok compiled) :
    a.warning?.any (fun w => !w.isUnknownCondition) = !a.effect?.isSome := by
  have hrow := decisionTable_effect a
  rw [h] at hrow
  rw [warning?_of_ok h, effect?_of_ok h]
  exact hrow.accounts.1

/-- An action warns of an unknown condition exactly if its effect lacks the condition. -/
lemma any_isUnknownCondition (a : Action) :
    a.warning?.any (·.isUnknownCondition) = a.effect?.any (·.lacksCondition) := by
  cases h : a.effect with
  | error e => simp only [warning?, effect?, h, Option.any_none]
  | ok compiled =>
    have hrow := decisionTable_effect a
    rw [h] at hrow
    rw [warning?_of_ok h, effect?_of_ok h]
    exact hrow.accounts.2

end Action

/-! ## Lists of actions -/

/-- Counting among the results of a partial function. -/
lemma countP_filterMap_any {α β : Type} (f : α → Option β) (p : β → Bool) (as : List α) :
    (as.filterMap f).countP p = as.countP fun a => (f a).any p := by
  rw [List.countP_filterMap]
  congr 1
  funext a
  cases f a <;> rfl

/-- The effects and the warnings other than those of unknown conditions are as many as the
actions. -/
lemma length_effects_add_countP_warnings {as : List Action}
    (h : ∀ a ∈ as, ∃ compiled, a.effect = .ok compiled) :
    (as.filterMap Action.effect?).length +
      (as.filterMap Action.warning?).countP (fun w => !w.isUnknownCondition) = as.length := by
  have hwarned : as.countP (fun a => a.warning?.any fun w => !w.isUnknownCondition) =
      as.countP fun a => decide ¬ a.effect?.isSome = true := by
    refine List.countP_congr ?_
    intro a ha
    obtain ⟨compiled, hcompiled⟩ := h a ha
    rw [Action.any_warning?_of_ok hcompiled, decide_eq_true_iff, Bool.not_eq_true',
      Bool.not_eq_true]
  rw [List.length_filterMap_eq_countP, countP_filterMap_any, hwarned]
  exact (List.length_eq_countP_add_countP _).symm

/-- There are as many warnings of unknown conditions as fights that lack their condition. -/
lemma countP_isUnknownCondition (as : List Action) :
    (as.filterMap Action.warning?).countP (·.isUnknownCondition) =
      (as.filterMap Action.effect?).countP (·.lacksCondition) := by
  rw [countP_filterMap_any, countP_filterMap_any]
  refine List.countP_congr ?_
  intro a _
  rw [a.any_isUnknownCondition]

namespace ByTiming

variable {α β : Type}

/-- There are as many values as the four lists have together. -/
lemma length_values (lists : ByTiming α) : lists.values.length = lists.size := by
  simp only [values, size, List.length_append]

/-- The results of a partial function at all timings. -/
lemma values_filterMap (f : α → Option β) (lists : ByTiming α) :
    (lists.filterMap f).values = lists.values.filterMap f := by
  simp only [values, filterMap, List.filterMap_append]

/-- The actions at their places are the actions of the four timings. -/
lemma map_action_placed (actions : ByTiming Action) :
    actions.placed.map (·.action) = actions.values := by
  have hfrom (timing : Timing) (as : List Action) :
      (placedFrom timing 0 as).map (·.action) = as := by
    rw [placedFrom, List.map_map]
    exact List.zipIdx_map_fst 0 as
  simp only [placed_eq, values, List.map_append, hfrom, List.append_assoc]

end ByTiming

/-! ## The actions of a card -/

/-- Without a word that is not registered the lenient policy objects to nothing. -/
lemma Policy.lenient_findSome?_of_ok {ps : List Placed}
    (h : ∀ p ∈ ps, ∃ compiled, p.action.effect = .ok compiled) :
    ps.findSome? Policy.lenient.fault? = none := by
  rw [List.findSome?_eq_none_iff]
  intro p hp
  obtain ⟨compiled, hcompiled⟩ := h p hp
  exact lenient_fault?_of_ok hcompiled

/-- **No action is lost or counted twice.**  If no action of a card fails for a word that is not
registered, the lenient compilation succeeds after any earlier warnings.

* Each timing has the effects of its actions, in their order; those without an effect are left out.
* The warnings of all actions are added in the order of the timings and of the actions in them.
* The effects and the added warnings, but for those of unknown conditions, are together as many as
  the actions.
* There is a warning of an unknown condition for each conditional fight without its condition. -/
theorem compileAll_accounts (actions : ByTiming Action) (ws : List Warning)
    (h : ∀ a ∈ actions.values, ∃ compiled, a.effect = .ok compiled) :
    ∃ (effects : ByTiming Effect) (added : List Warning),
      (compileAll .lenient actions).runFrom ws = (.ok effects, ws ++ added) ∧
      (∀ timing, effects.get timing = (actions.get timing).filterMap Action.effect?) ∧
      added = actions.values.filterMap Action.warning? ∧
      effects.size + added.countP (fun w => !w.isUnknownCondition) = actions.size ∧
      added.countP (·.isUnknownCondition) = effects.values.countP (·.lacksCondition) := by
  have hclean : actions.placed.findSome? Policy.lenient.fault? = none := by
    refine Policy.lenient_findSome?_of_ok ?_
    intro p hp
    have haction : p.action ∈ actions.values := by
      rw [← actions.map_action_placed]
      exact List.mem_map_of_mem hp
    exact h p.action haction
  have hnotes : Policy.lenient.notes actions.placed = actions.values.filterMap Action.warning? := by
    rw [Policy.notes_of_clean hclean, ← actions.map_action_placed, List.filterMap_map]
    rfl
  have hrun := compileAll_worksThrough .lenient actions ws
  rw [hclean, hnotes] at hrun
  refine ⟨_, _, hrun, actions.get_filterMap Action.effect?, rfl, ?_, ?_⟩
  · rw [← ByTiming.length_values, ← ByTiming.length_values, ByTiming.values_filterMap]
    exact length_effects_add_countP_warnings h
  · rw [ByTiming.values_filterMap]
    exact countP_isUnknownCondition _

/-- Actions of which one is complete, one has a condition that nobody knows and one a tag that nobody
knows. -/
def raid : ByTiming Action where
  activate :=
    [.ofTag "skill_test",
      { tag := "fight", modifiers := .ofList [("condition", .text "at_night"), ("damage", .amount 1)] }]
  discard := [.ofTag "sing"]

/-- Of the three actions two have an effect; one of these and the third one are warned of. -/
theorem compileAll_accounts_raid :
    ∃ effects added,
      (compileAll .lenient raid).runFrom [.unknownAction "dance"] =
        (.ok effects, .unknownAction "dance" :: added) ∧
      added = [.unknownCondition "at_night", .unknownAction "sing"] ∧
      effects.size = 2 ∧ effects.values.countP (·.lacksCondition) = 1 := by
  have hcompiles : ∀ a ∈ raid.values, ∃ compiled, a.effect = .ok compiled := by
    intro a ha
    rcases List.mem_cons.1 ha with rfl | ha
    · exact ⟨_, rfl⟩
    rcases List.mem_cons.1 ha with rfl | ha
    · exact ⟨_, rfl⟩
    obtain rfl := List.mem_singleton.1 ha
    exact ⟨_, rfl⟩
  obtain ⟨effects, added, hrun, -, hadded, hsize, hcount⟩ :=
    compileAll_accounts raid [.unknownAction "dance"] hcompiles
  obtain rfl : added = [.unknownCondition "at_night", .unknownAction "sing"] :=
    hadded.trans (by rfl)
  exact ⟨effects, _, hrun, rfl, Nat.add_right_cancel hsize, hcount.symm⟩

end CardRules
