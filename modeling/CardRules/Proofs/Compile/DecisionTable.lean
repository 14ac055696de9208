import CardRules.Compile
import Mathlib.Tactic.Lemma

/-!
# The decision table of actions

The rules by which an action is compiled form a table: the tag, the optional skill and the modifiers
of an action decide on a row, and the row says which effect there is and what is warned of.
`DecisionTable` states the table row by row, in terms of what stands in the action.

`effect_eq_iff_decisionTable` says that `Action.effect` and the table are the same: exactly one row
applies to each action, and it gives what the action compiles to.
-/

namespace CardRules

namespace Action

/-! ## Conditions of the table -/

/-- The damage of the action is an amount that is not negative. -/
def HasDamage (a : Action) (d : UInt8) : Prop :=
  ∃ n : Int8, a.modifiers.get? "damage" = some (.amount n) ∧ n.toInt = d.toNat

/-- The damage of the action is given, but it is no amount or a negative one. -/
def HasBadDamage (a : Action) : Prop :=
  ∃ m, a.modifiers.get? "damage" = some m ∧ ∀ n, m = .amount n → n.toInt < 0

/-- The action is a fight with an optional skill that depends on the location. -/
def FightsAtLocation (a : Action) (o : OptionalSkill) : Prop :=
  a.tag = "fight" ∧ a.optional = some o ∧ o.subject = "location"

/-- The action is any other fight. -/
def FightsAnywhere (a : Action) : Prop :=
  a.tag = "fight" ∧ ∀ o, a.optional = some o → o.subject ≠ "location"

/-- The action is of a kind that has no effect without damage. -/
def NeedsDamage (a : Action) : Prop :=
  a.FightsAnywhere ∨ a.tag = "make_damage" ∨ a.tag = "recive_damage"

end Action

/-! ## The table -/

/-- What an action compiles to, by the rows of the decision table; `base` is the skill vector and
the price of every effect. -/
inductive DecisionTable (a : Action) (base : Grant) : Except UnknownWord Compiled → Prop
  | unknownLocation (o : OptionalSkill) : a.FightsAtLocation o →
      o.condition ≠ "undiscovered_clues" →
      DecisionTable a base (.error ⟨o.condition, .locationConditions⟩)
  | locationFightWithoutDamage (o : OptionalSkill) : a.FightsAtLocation o →
      o.condition = "undiscovered_clues" → a.modifiers.get? "damage" = none →
      DecisionTable a base
        (.ok { effect := some (.locationFight base 0 ⟨base, o.skill, .undiscoveredClues⟩) })
  | locationFight (o : OptionalSkill) (d : UInt8) : a.FightsAtLocation o →
      o.condition = "undiscovered_clues" → a.HasDamage d →
      DecisionTable a base
        (.ok { effect := some (.locationFight base d ⟨base, o.skill, .undiscoveredClues⟩) })
  | locationFightWithBadDamage (o : OptionalSkill) : a.FightsAtLocation o →
      o.condition = "undiscovered_clues" → a.HasBadDamage →
      DecisionTable a base (.ok { warning := some (.invalidModifier a.tag "damage") })
  | missingDamage : a.NeedsDamage → a.modifiers.get? "damage" = none →
      DecisionTable a base (.ok { warning := some (.missingModifier a.tag "damage") })
  | badDamage : a.NeedsDamage → a.HasBadDamage →
      DecisionTable a base (.ok { warning := some (.invalidModifier a.tag "damage") })
  | fight (d : UInt8) : a.FightsAnywhere → a.HasDamage d →
      a.modifiers.get? "condition" = none →
      DecisionTable a base (.ok { effect := some (.fight base d) })
  | engagedFight (d : UInt8) (m : Modifier) : a.FightsAnywhere → a.HasDamage d →
      a.modifiers.get? "condition" = some m → m.written = "only_enemy_engaged" →
      DecisionTable a base
        (.ok { effect := some (.conditionalFight base d (some .onlyEnemyEngaged)) })
  | unknownCondition (d : UInt8) (m : Modifier) : a.FightsAnywhere → a.HasDamage d →
      a.modifiers.get? "condition" = some m → m.written ≠ "only_enemy_engaged" →
      DecisionTable a base
        (.ok { effect := some (.conditionalFight base d none)
               warning := some (.unknownCondition m.written) })
  | skillTest : a.tag = "skill_test" →
      DecisionTable a base (.ok { effect := some (.skillBonus base) })
  | missingShroud : a.tag = "investigate" → a.modifiers.get? "shroud" = none →
      DecisionTable a base (.ok { warning := some (.missingModifier a.tag "shroud") })
  | badShroud (m : Modifier) : a.tag = "investigate" → a.modifiers.get? "shroud" = some m →
      (∀ n, m ≠ .amount n) →
      DecisionTable a base (.ok { warning := some (.invalidModifier a.tag "shroud") })
  | investigate (n : Int8) : a.tag = "investigate" → a.modifiers.get? "shroud" = some (.amount n) →
      DecisionTable a base (.ok { effect := some (.investigate base n) })
  | damageAtLocation (d : UInt8) : a.tag = "make_damage" → a.HasDamage d →
      DecisionTable a base (.ok { effect := some (.damageAtLocation base d) })
  | damageToAttacker (d : UInt8) : a.tag = "recive_damage" → a.HasDamage d →
      a.target = some "attacking_enemy" →
      DecisionTable a base (.ok { effect := some (.damageToAttacker base d) })
  | wrongTarget (d : UInt8) : a.tag = "recive_damage" → a.HasDamage d →
      a.target ≠ some "attacking_enemy" →
      DecisionTable a base
        (.ok { warning := some (.wrongTarget a.tag "attacking_enemy" a.target) })
  | unknownAction :
      a.tag ∉ ["fight", "skill_test", "investigate", "make_damage", "recive_damage"] →
      DecisionTable a base (.ok { warning := some (.unknownAction a.tag) })

namespace Action

variable {a : Action}

/-! ## Reading modifiers -/

/-- A modifier that is missing. -/
lemma amountOf_of_missing {key : String} (h : a.modifiers.get? key = none) :
    a.amountOf key = .error (.missingModifier a.tag key) := by
  unfold amountOf
  rw [h]

/-- A modifier that is an amount. -/
lemma amountOf_of_amount {key : String} {n : Int8} (h : a.modifiers.get? key = some (.amount n)) :
    a.amountOf key = .ok n := by
  unfold amountOf
  rw [h]
  rfl

/-- A modifier that is something else. -/
lemma amountOf_of_bad {key : String} {m : Modifier} (h : a.modifiers.get? key = some m)
    (hm : ∀ n, m ≠ .amount n) : a.amountOf key = .error (.invalidModifier a.tag key) := by
  unfold amountOf
  rw [h]
  cases m with
  | amount n => exact absurd rfl (hm n)
  | number n => rfl
  | text s => rfl

/-- Damage that is missing. -/
lemma damageOf_of_missing (h : a.modifiers.get? "damage" = none) :
    a.damageOf "damage" = .error (.missingModifier a.tag "damage") := by
  unfold damageOf
  rw [amountOf_of_missing h]
  rfl

/-- Damage that is valid. -/
lemma damageOf_of_hasDamage {d : UInt8} (h : a.HasDamage d) : a.damageOf "damage" = .ok d := by
  obtain ⟨n, hn, hd⟩ := h
  have hnonneg : ¬ n.toInt < 0 := by omega
  have hofNat : UInt8.ofNat n.toInt.toNat = d := by
    rw [hd, Int.toNat_natCast, UInt8.ofNat_toNat]
  unfold damageOf
  rw [amountOf_of_amount hn, ← hofNat]
  simp only [bind, Except.bind, if_neg hnonneg]
  rfl

/-- Damage that is not valid. -/
lemma damageOf_of_hasBadDamage (h : a.HasBadDamage) :
    a.damageOf "damage" = .error (.invalidModifier a.tag "damage") := by
  obtain ⟨m, hm, hbad⟩ := h
  unfold damageOf
  cases m with
  | amount n =>
    rw [amountOf_of_amount hm]
    simp only [bind, Except.bind, if_pos (hbad n rfl)]
    rfl
  | number n => rw [amountOf_of_bad hm (by simp)]; rfl
  | text s => rw [amountOf_of_bad hm (by simp)]; rfl

/-- Damage is missing, valid or not valid. -/
lemma damage_cases (a : Action) :
    a.modifiers.get? "damage" = none ∨ (∃ d, a.HasDamage d) ∨ a.HasBadDamage := by
  cases hm : a.modifiers.get? "damage" with
  | none => exact .inl rfl
  | some m =>
    refine .inr ?_
    cases m with
    | amount n =>
      by_cases hn : n.toInt < 0
      · refine .inr ⟨_, hm, fun n' hn' => ?_⟩
        cases hn'
        exact hn
      · have hlt := n.toInt_lt
        have hsize : n.toInt.toNat < 256 := by omega
        refine .inl ⟨UInt8.ofNat n.toInt.toNat, n, hm, ?_⟩
        rw [UInt8.toNat_ofNat_of_lt' hsize]
        omega
    | number n => exact .inr ⟨_, hm, fun n' hn' => by cases hn'⟩
    | text s => exact .inr ⟨_, hm, fun n' hn' => by cases hn'⟩

/-- The optional skill of a fight at the location. -/
lemma locationSkill?_of_atLocation {o : OptionalSkill} (h : a.FightsAtLocation o) :
    a.locationSkill? = some o := by
  obtain ⟨-, ho, hsubject⟩ := h
  unfold locationSkill?
  rw [ho, Option.filter_some, if_pos (by rw [hsubject]; rfl)]

/-- Any other fight has no optional skill that counts. -/
lemma locationSkill?_of_anywhere (h : a.FightsAnywhere) : a.locationSkill? = none := by
  unfold locationSkill?
  rw [Option.filter_eq_none_iff]
  intro o ho hsubject
  exact h.2 o ho (by simpa using hsubject)

/-- A fight is at the location or anywhere. -/
lemma fight_cases (h : a.tag = "fight") : (∃ o, a.FightsAtLocation o) ∨ a.FightsAnywhere := by
  cases ho : a.optional with
  | none => exact .inr ⟨h, fun o ho' => by rw [ho] at ho'; cases ho'⟩
  | some o =>
    by_cases hsubject : o.subject = "location"
    · exact .inl ⟨o, h, ho, hsubject⟩
    · refine .inr ⟨h, fun o' ho' => ?_⟩
      rw [ho] at ho'
      cases ho'
      exact hsubject

/-! ## The table against `effect` -/

/-- A fight at the location is compiled as such. -/
lemma effect_of_atLocation {o : OptionalSkill} (h : a.FightsAtLocation o) :
    a.effect = a.locationFight o := by
  simp only [effect, h.1, locationSkill?_of_atLocation h]

/-- Any other fight is compiled as such. -/
lemma effect_of_anywhere (h : a.FightsAnywhere) : a.effect = .ok a.plainFight := by
  simp only [effect, h.1, locationSkill?_of_anywhere h]

/-- A fight at the location fails if its word is not registered. -/
lemma locationFight_of_unknown {o : OptionalSkill} (h : o.condition ≠ "undiscovered_clues") :
    a.locationFight o = .error ⟨o.condition, .locationConditions⟩ := by
  have hword : Registered.ofWord LocationCondition o.condition =
      .error ⟨o.condition, .locationConditions⟩ := by
    simp [Registered.ofWord, Registered.all, Registered.word, Registered.vocabulary, Ne.symm h]
  unfold locationFight
  rw [hword]
  rfl

/-- With the registered word it depends on the damage alone. -/
lemma locationFight_of_clues {o : OptionalSkill} (h : o.condition = "undiscovered_clues") :
    a.locationFight o =
      .ok (match a.modifiers.get? "damage" with
        | none =>
          { effect := some (.locationFight a.grant 0 ⟨a.grant, o.skill, .undiscoveredClues⟩) }
        | some _ => .ofExcept ((fun d =>
          .locationFight a.grant d ⟨a.grant, o.skill, .undiscoveredClues⟩) <$>
            a.damageOf "damage")) := by
  have hword : Registered.ofWord LocationCondition o.condition = .ok .undiscoveredClues := by
    rw [h]
    rfl
  unfold locationFight
  rw [hword]
  rfl

/-- What needs damage is dropped for whatever is wrong with the damage. -/
lemma effect_of_needsDamage {w : Warning} (h : a.NeedsDamage)
    (hw : a.damageOf "damage" = .error w) : a.effect = .ok { warning := some w } := by
  rcases h with hfight | htag | htag
  · rw [effect_of_anywhere hfight, plainFight, hw]
  · simp only [effect, htag, hw]
    rfl
  · simp only [effect, htag, attackerDamage, hw]
    rfl

end Action

/-- The table is sound: an action compiles to what a row that applies to it gives. -/
lemma DecisionTable.effect_eq {a : Action} {r : Except UnknownWord Compiled}
    (h : DecisionTable a a.grant r) : a.effect = r := by
  cases h with
  | unknownLocation o hfight hword =>
    rw [Action.effect_of_atLocation hfight, Action.locationFight_of_unknown hword]
  | locationFightWithoutDamage o hfight hword hmissing =>
    rw [Action.effect_of_atLocation hfight, Action.locationFight_of_clues hword, hmissing]
  | locationFight o d hfight hword hdamage =>
    rw [Action.effect_of_atLocation hfight, Action.locationFight_of_clues hword,
      Action.damageOf_of_hasDamage hdamage]
    obtain ⟨n, hn, -⟩ := hdamage
    rw [hn]
    rfl
  | locationFightWithBadDamage o hfight hword hbad =>
    rw [Action.effect_of_atLocation hfight, Action.locationFight_of_clues hword,
      Action.damageOf_of_hasBadDamage hbad]
    obtain ⟨m, hm, -⟩ := hbad
    rw [hm]
    rfl
  | missingDamage hneeds hmissing =>
    exact Action.effect_of_needsDamage hneeds (Action.damageOf_of_missing hmissing)
  | badDamage hneeds hbad =>
    exact Action.effect_of_needsDamage hneeds (Action.damageOf_of_hasBadDamage hbad)
  | fight d hfight hdamage hcondition =>
    rw [Action.effect_of_anywhere hfight, Action.plainFight, Action.damageOf_of_hasDamage hdamage,
      hcondition]
  | engagedFight d m hfight hdamage hcondition hword =>
    rw [Action.effect_of_anywhere hfight, Action.plainFight, Action.damageOf_of_hasDamage hdamage,
      hcondition]
    simp only [Condition.ofKeyword?, if_pos hword]
  | unknownCondition d m hfight hdamage hcondition hword =>
    rw [Action.effect_of_anywhere hfight, Action.plainFight, Action.damageOf_of_hasDamage hdamage,
      hcondition]
    simp only [Condition.ofKeyword?, if_neg hword]
  | skillTest htag => simp only [Action.effect, htag]
  | missingShroud htag hmissing =>
    simp only [Action.effect, htag, Action.amountOf_of_missing hmissing]
    rfl
  | badShroud m htag hm hbad =>
    simp only [Action.effect, htag, Action.amountOf_of_bad hm hbad]
    rfl
  | investigate n htag hn =>
    simp only [Action.effect, htag, Action.amountOf_of_amount hn]
    rfl
  | damageAtLocation d htag hdamage =>
    simp only [Action.effect, htag, Action.damageOf_of_hasDamage hdamage]
    rfl
  | damageToAttacker d htag hdamage htarget =>
    simp only [Action.effect, htag, Action.attackerDamage, Action.damageOf_of_hasDamage hdamage,
      htarget]
    rfl
  | wrongTarget d htag hdamage htarget =>
    have hdrop : a.attackerDamage = .error (.wrongTarget a.tag "attacking_enemy" a.target) := by
      unfold Action.attackerDamage
      rw [Action.damageOf_of_hasDamage hdamage]
      simp only [bind, Except.bind, if_neg htarget]
      rfl
    simp only [Action.effect, htag, hdrop]
    rfl
  | unknownAction htag =>
    unfold Action.effect
    split
    next h => exact absurd (by simp [h]) htag
    next h => exact absurd (by simp [h]) htag
    next h => exact absurd (by simp [h]) htag
    next h => exact absurd (by simp [h]) htag
    next h => exact absurd (by simp [h]) htag
    next => rfl

/-- A row applies to every fight at the location. -/
lemma exists_decisionTable_of_atLocation {a : Action} (base : Grant) {o : OptionalSkill}
    (h : a.FightsAtLocation o) : ∃ r, DecisionTable a base r := by
  by_cases hword : o.condition = "undiscovered_clues"
  · rcases a.damage_cases with hmissing | ⟨d, hd⟩ | hbad
    · exact ⟨_, .locationFightWithoutDamage o h hword hmissing⟩
    · exact ⟨_, .locationFight o d h hword hd⟩
    · exact ⟨_, .locationFightWithBadDamage o h hword hbad⟩
  · exact ⟨_, .unknownLocation o h hword⟩

/-- A row applies to every other fight. -/
lemma exists_decisionTable_of_anywhere {a : Action} (base : Grant) (h : a.FightsAnywhere) :
    ∃ r, DecisionTable a base r := by
  rcases a.damage_cases with hmissing | ⟨d, hd⟩ | hbad
  · exact ⟨_, .missingDamage (.inl h) hmissing⟩
  · cases hm : a.modifiers.get? "condition" with
    | none => exact ⟨_, .fight d h hd hm⟩
    | some m =>
      by_cases hword : m.written = "only_enemy_engaged"
      · exact ⟨_, .engagedFight d m h hd hm hword⟩
      · exact ⟨_, .unknownCondition d m h hd hm hword⟩
  · exact ⟨_, .badDamage (.inl h) hbad⟩

/-- The table is complete: a row applies to every action. -/
lemma exists_decisionTable (a : Action) (base : Grant) : ∃ r, DecisionTable a base r := by
  by_cases htag : a.tag ∈ ["fight", "skill_test", "investigate", "make_damage", "recive_damage"]
  · simp only [List.mem_cons, List.not_mem_nil, or_false] at htag
    rcases htag with hfight | htest | hinvestigate | hmake | hreceive
    · rcases Action.fight_cases hfight with ⟨o, ho⟩ | hany
      · exact exists_decisionTable_of_atLocation base ho
      · exact exists_decisionTable_of_anywhere base hany
    · exact ⟨_, .skillTest htest⟩
    · cases hm : a.modifiers.get? "shroud" with
      | none => exact ⟨_, .missingShroud hinvestigate hm⟩
      | some m =>
        cases m with
        | amount n => exact ⟨_, .investigate n hinvestigate hm⟩
        | number n => exact ⟨_, .badShroud _ hinvestigate hm (by simp)⟩
        | text s => exact ⟨_, .badShroud _ hinvestigate hm (by simp)⟩
    · rcases a.damage_cases with hmissing | ⟨d, hd⟩ | hbad
      · exact ⟨_, .missingDamage (.inr (.inl hmake)) hmissing⟩
      · exact ⟨_, .damageAtLocation d hmake hd⟩
      · exact ⟨_, .badDamage (.inr (.inl hmake)) hbad⟩
    · rcases a.damage_cases with hmissing | ⟨d, hd⟩ | hbad
      · exact ⟨_, .missingDamage (.inr (.inr hreceive)) hmissing⟩
      · by_cases htarget : a.target = some "attacking_enemy"
        · exact ⟨_, .damageToAttacker d hreceive hd htarget⟩
        · exact ⟨_, .wrongTarget d hreceive hd htarget⟩
      · exact ⟨_, .badDamage (.inr (.inr hreceive)) hbad⟩
  · exact ⟨_, .unknownAction htag⟩

/-- What an action compiles to stands in the table. -/
lemma decisionTable_effect (a : Action) : DecisionTable a a.grant a.effect := by
  obtain ⟨r, hr⟩ := exists_decisionTable a a.grant
  rw [hr.effect_eq]
  exact hr

/-- **Actions are compiled by the decision table.**  An action compiles to a result exactly if a row
of the table gives that result for it, with the skill vector and the price of the action, no price
counting as zero, in every effect. -/
theorem effect_eq_iff_decisionTable (a : Action) (r : Except UnknownWord Compiled) :
    a.effect = r ↔ DecisionTable a { skill := a.skill, cost := a.expend.getD 0 } r := by
  constructor
  · rintro rfl
    exact decisionTable_effect a
  · exact DecisionTable.effect_eq

end CardRules
