import CardRules.Proofs.CardFile.Modifiers
import CardRules.Proofs.Compile.DecisionTable
import CardRules.Proofs.Skill

/-!
# What actions in card files mean

An action in a card file goes a long way before it is played: it becomes the action of a record,
the action is compiled, and the effect is judged in a situation of the game.  `ActionEntry.Means`
says in terms of the entry alone what has to come out of that.

`means_of_effect_toAction` says that it does: whatever effect an entry is compiled to, it plays as
the entry is written.  The proof goes through the rows of the decision table that give an effect.
-/

namespace CardRules

namespace ActionEntry

/-! ## The meaning of an entry -/

/-- A fight deals the damage that is given last, and none if no map of modifiers gives any. -/
def Deals (entry : ActionEntry) (d : UInt8) : Prop :=
  (entry.modifier? "damage" = none ∧ d = 0) ∨
    ∃ n : Int8, entry.modifier? "damage" = some (.amount n) ∧ n.toInt = d.toNat

/-- A fight that does not depend on the location may ask that the enemy is the only one. -/
def AsksForLoneEnemy (entry : ActionEntry) : Prop :=
  entry.tag = "fight" ∧ entry.skills.optional.bind (·.location) = none ∧
    entry.modifier? "condition" = some (.text "only_enemy_engaged")

/-- A fight may have an optional skill that counts where clues are undiscovered. -/
def HasClueSkill (entry : ActionEntry) (o : OptionalEntry) : Prop :=
  entry.tag = "fight" ∧ entry.skills.optional = some o ∧ o.location = some "undiscovered_clues"

/-- What an entry says about its effect in a situation. -/
structure Means (entry : ActionEntry) (e : Effect) (q : Situation) : Prop where
  cost : e.cost = entry.expend.getD 0
  skill : e.skill = entry.skills.skill
  /-- Fights and only fights deal additional damage. -/
  damage_isSome : e.damage?.isSome ↔ entry.tag = "fight"
  deals : ∀ d, e.damage? = some d → entry.Deals d
  unusable : e.usable q = false ↔ entry.AsksForLoneEnemy ∧ q.onlyEnemyEngaged = false
  skillIn_of_clues : ∀ o, entry.HasClueSkill o → q.undiscoveredClues = true →
    e.skillIn q = entry.skills.skill + o.skill
  skillIn_of_no_clues : (∀ o, entry.HasClueSkill o → q.undiscoveredClues = false) →
    e.skillIn q = entry.skills.skill

variable {entry : ActionEntry} {e : Effect} {q : Situation} {d : UInt8}

/-! ## The action of an entry -/

/-- The action of an entry fights at the location if its optional skill names a condition. -/
lemma fightsAtLocation_toAction {o : OptionalSkill} (h : entry.toAction.FightsAtLocation o) :
    entry.tag = "fight" ∧ ∃ o', entry.skills.optional = some o' ∧
      o'.location = some o.condition ∧ o.skill = o'.skill := by
  obtain ⟨htag, ho, hsubject⟩ := h
  obtain ⟨⟨skill, location⟩, ho', rfl⟩ := Option.map_eq_some_iff.1 ho
  refine ⟨htag, _, ho', ?_⟩
  cases location with
  | none =>
    rw [OptionalEntry.toOptionalSkill] at hsubject
    exact absurd hsubject (by decide : "" ≠ "location")
  | some condition => exact ⟨rfl, rfl⟩

/-- The action of an entry fights anywhere if its optional skill, as far as there is one, names no
condition. -/
lemma fightsAnywhere_toAction (h : entry.toAction.FightsAnywhere) :
    entry.tag = "fight" ∧ entry.skills.optional.bind (·.location) = none := by
  obtain ⟨htag, hsubject⟩ := h
  refine ⟨htag, Option.bind_eq_none_iff.2 fun o ho => ?_⟩
  obtain ⟨skill, location⟩ := o
  cases location with
  | none => rfl
  | some condition =>
    refine absurd rfl (hsubject ⟨skill, "location", condition⟩ ?_)
    rw [toAction, ho]
    rfl

/-- The damage of the action is dealt by the entry. -/
lemma deals_of_hasDamage (h : entry.toAction.HasDamage d) : entry.Deals d := by
  obtain ⟨n, hn, hd⟩ := h
  rw [get?_toAction_modifiers] at hn
  exact .inr ⟨n, hn, hd⟩

/-- Without damage in the action the entry deals none. -/
lemma deals_zero (h : entry.toAction.modifiers.get? "damage" = none) : entry.Deals 0 := by
  rw [get?_toAction_modifiers] at h
  exact .inl ⟨h, rfl⟩

/-- A condition names the lone enemy only as a text. -/
lemma written_eq_onlyEnemyEngaged (m : Modifier) :
    m.written = "only_enemy_engaged" ↔ m = .text "only_enemy_engaged" :=
  Modifier.written_eq_iff (c := 'o') (by decide) (by decide) (by decide) m

/-! ## Effects that mean what the entry says -/

/-- The price of an effect is that of the entry. -/
lemma cost_of_grant (h : e.grant = entry.toAction.grant) : e.cost = entry.expend.getD 0 := by
  rw [Effect.cost, h]
  rfl

/-- The skill of an effect is that of the entry. -/
lemma skill_of_grant (h : e.grant = entry.toAction.grant) : e.skill = entry.skills.skill := by
  rw [Effect.skill, h]
  rfl

/-- An effect without a condition may be used in every situation. -/
lemma usable_ne_false (h : e.condition? = none) : e.usable q ≠ false := by
  rw [Effect.usable, h]
  simp

/-- Where clues are undiscovered a location bonus counts, and elsewhere it does not. -/
lemma skillIn_clueBonus (g : Grant) (s : Skill) (q : Situation) :
    LocationBonus.skillIn ⟨g, s, .undiscoveredClues⟩ q =
      if q.undiscoveredClues = true then s else Skill.zero :=
  rfl

/-- A fight at the location. -/
lemma means_locationFight {o : OptionalSkill} (h : entry.toAction.FightsAtLocation o)
    (hword : o.condition = "undiscovered_clues") (hdeals : entry.Deals d) :
    entry.Means (.locationFight entry.toAction.grant d
      ⟨entry.toAction.grant, o.skill, .undiscoveredClues⟩) q := by
  obtain ⟨htag, o', ho', hlocation, hskill⟩ := fightsAtLocation_toAction h
  rw [hword] at hlocation
  have hclues : entry.HasClueSkill o' := ⟨htag, ho', hlocation⟩
  constructor
  case cost => exact cost_of_grant rfl
  case skill => exact skill_of_grant rfl
  case damage_isSome => exact iff_of_true rfl htag
  case deals =>
    intro d' hd'
    cases hd'
    exact hdeals
  case unusable =>
    refine iff_of_false (usable_ne_false rfl) fun hlone => ?_
    have hnowhere := hlone.1.2.1
    rw [ho', Option.bind_some, hlocation] at hnowhere
    cases hnowhere
  case skillIn_of_clues =>
    intro o'' ho'' hq
    have heq : o' = o'' := Option.some.inj (ho'.symm.trans ho''.2.1)
    rw [Effect.skillIn, skillIn_clueBonus, if_pos hq, hskill, heq]
    rfl
  case skillIn_of_no_clues =>
    intro hno
    rw [Effect.skillIn, skillIn_clueBonus, hno o' hclues, if_neg (by decide), Skill.add_zero]
    rfl

/-- Any other fight; it differs by when it may be used. -/
lemma means_fight (h : entry.toAction.FightsAnywhere) (hgrant : e.grant = entry.toAction.grant)
    (hdamage : e.damage? = some d) (hdeals : entry.Deals d) (hskill : e.skillIn q = e.skill)
    (hunusable : e.usable q = false ↔
      entry.modifier? "condition" = some (.text "only_enemy_engaged") ∧
        q.onlyEnemyEngaged = false) :
    entry.Means e q := by
  obtain ⟨htag, hlocation⟩ := fightsAnywhere_toAction h
  constructor
  case cost => exact cost_of_grant hgrant
  case skill => exact skill_of_grant hgrant
  case damage_isSome => exact iff_of_true (by rw [hdamage]; rfl) htag
  case deals =>
    intro d' hd'
    rw [hdamage] at hd'
    cases hd'
    exact hdeals
  case unusable =>
    rw [hunusable]
    constructor
    · rintro ⟨hm, hq⟩
      exact ⟨⟨htag, hlocation, hm⟩, hq⟩
    · rintro ⟨⟨-, -, hm⟩, hq⟩
      exact ⟨hm, hq⟩
  case skillIn_of_clues =>
    intro o ho
    rw [ho.2.1, Option.bind_some, ho.2.2] at hlocation
    cases hlocation
  case skillIn_of_no_clues =>
    intro _
    rw [hskill, skill_of_grant hgrant]

/-- An effect of any other kind of action. -/
lemma means_of_tag {tag : String} (htag : entry.toAction.tag = tag) (hne : tag ≠ "fight")
    (hgrant : e.grant = entry.toAction.grant) (hdamage : e.damage? = none)
    (hcondition : e.condition? = none) (hskill : e.skillIn q = e.skill) : entry.Means e q := by
  have hfight : entry.tag ≠ "fight" := fun h => hne (htag.symm.trans h)
  constructor
  case cost => exact cost_of_grant hgrant
  case skill => exact skill_of_grant hgrant
  case damage_isSome => exact iff_of_false (by rw [hdamage]; decide) hfight
  case deals =>
    intro d hd
    rw [hdamage] at hd
    cases hd
  case unusable => exact iff_of_false (usable_ne_false hcondition) fun hlone => hfight hlone.1.1
  case skillIn_of_clues =>
    intro o ho
    exact absurd ho.1 hfight
  case skillIn_of_no_clues =>
    intro _
    rw [hskill, skill_of_grant hgrant]

/-- **Actions in card files play as they are written.**  Whatever effect the action of an entry is
compiled to, its price, its skill, its damage, when it may be used and what skill it grants in a
situation are those that the entry says. -/
theorem means_of_effect_toAction (entry : ActionEntry) (q : Situation) (compiled : Compiled)
    (e : Effect) (h : entry.toAction.effect = .ok compiled) (he : compiled.effect = some e) :
    entry.Means e q := by
  have hrow := decisionTable_effect entry.toAction
  rw [h] at hrow
  cases hrow with
  | locationFightWithoutDamage o hfight hword hmissing =>
    cases he
    exact means_locationFight hfight hword (deals_zero hmissing)
  | locationFight o d hfight hword hdamage =>
    cases he
    exact means_locationFight hfight hword (deals_of_hasDamage hdamage)
  | fight d hfight hdamage hcondition =>
    cases he
    rw [get?_toAction_modifiers] at hcondition
    refine means_fight hfight rfl rfl (deals_of_hasDamage hdamage) rfl ?_
    rw [hcondition]
    exact iff_of_false (usable_ne_false rfl) (by simp)
  | engagedFight d m hfight hdamage hcondition hword =>
    cases he
    rw [get?_toAction_modifiers] at hcondition
    rw [written_eq_onlyEnemyEngaged] at hword
    refine means_fight hfight rfl rfl (deals_of_hasDamage hdamage) rfl ?_
    rw [hcondition, hword]
    exact (and_iff_right rfl).symm
  | unknownCondition d m hfight hdamage hcondition hword =>
    cases he
    rw [get?_toAction_modifiers] at hcondition
    rw [Ne, written_eq_onlyEnemyEngaged] at hword
    refine means_fight hfight rfl rfl (deals_of_hasDamage hdamage) rfl ?_
    rw [hcondition]
    exact iff_of_false (usable_ne_false rfl) fun hm => hword (Option.some.inj hm.1)
  | skillTest htag =>
    cases he
    exact means_of_tag htag (by decide) rfl rfl rfl rfl
  | investigate n htag =>
    cases he
    exact means_of_tag htag (by decide) rfl rfl rfl rfl
  | damageAtLocation d htag =>
    cases he
    exact means_of_tag htag (by decide) rfl rfl rfl rfl
  | damageToAttacker d htag =>
    cases he
    exact means_of_tag htag (by decide) rfl rfl rfl rfl
  | locationFightWithBadDamage => cases he
  | missingDamage => cases he
  | badDamage => cases he
  | missingShroud => cases he
  | badShroud => cases he
  | wrongTarget => cases he
  | unknownAction => cases he

/-- The fight of a gun: it costs a use, an optional skill counts where clues are undiscovered, and
the second map of modifiers lowers the damage of the first. -/
def gunFight : ActionEntry where
  tag := "fight"
  expend := some 1
  skills :=
    { skill := { combat := 1 }
      optional := some { skill := { combat := 3 }, location := some "undiscovered_clues" } }
  modifiers := [.ofList [("damage", .amount 3)], .ofList [("damage", .amount 1)]]

/-- The gun means what its entry says where clues are undiscovered. -/
theorem gunFight_means :
    ∃ e, gunFight.toAction.effect = .ok { effect := some e } ∧ e.damage? = some 1 ∧
      gunFight.Means e { undiscoveredClues := true } :=
  ⟨_, rfl, rfl, means_of_effect_toAction gunFight _ _ _ rfl rfl⟩

end ActionEntry

end CardRules
