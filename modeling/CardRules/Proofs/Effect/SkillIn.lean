import CardRules.Effect.Basic
import CardRules.Proofs.Skill

/-!
# The skill that an effect grants in a situation

An effect grants the vector of its grant, and two shapes carry a second vector, which counts while
there are undiscovered clues.  Where it counts the two vectors are added as 8-bit vectors
(`Effect.skillIn_of_bonus`), and everywhere else the first one is granted as it is
(`Effect.skillIn_of_no_clues`, `Effect.skillIn_of_no_bonus`).

The main statement, `Effect.skillIn_clamped`, says how far the result can be from the exact sum.
-/

namespace CardRules

/-- A location condition asks for undiscovered clues and nothing else. -/
lemma LocationCondition.holds_eq (condition : LocationCondition) (q : Situation) :
    condition.holds q = q.undiscoveredClues := by
  cases condition
  rfl

namespace LocationBonus

variable {q : Situation}

/-- A location bonus counts where there are undiscovered clues. -/
lemma skillIn_of_clues (b : LocationBonus) (hclues : q.undiscoveredClues = true) :
    b.skillIn q = b.bonus := by
  rw [skillIn, LocationCondition.holds_eq, if_pos hclues]

/-- A location bonus does not count where there are no undiscovered clues. -/
lemma skillIn_of_no_clues (b : LocationBonus) (hclues : q.undiscoveredClues = false) :
    b.skillIn q = Skill.zero := by
  rw [skillIn, LocationCondition.holds_eq, hclues, if_neg Bool.false_ne_true]

end LocationBonus

namespace Effect

variable {e : Effect} {q q' : Situation} {bonus : Skill}

/-! ## The second vector -/

/-- The second vector of an effect, if its shape has one. -/
def bonus? : Effect → Option Skill
  | .locationBonus b => some b.bonus
  | .locationFight _ _ b => some b.bonus
  | _ => none

/-- The second vector is added where there are undiscovered clues. -/
lemma skillIn_of_bonus (hbonus : e.bonus? = some bonus) (hclues : q.undiscoveredClues = true) :
    e.skillIn q = e.skill + bonus := by
  cases e with
  | locationBonus b =>
    cases hbonus
    rw [skillIn, b.skillIn_of_clues hclues]
    rfl
  | locationFight g d b =>
    cases hbonus
    rw [skillIn, b.skillIn_of_clues hclues]
    rfl
  | _ => cases hbonus

/-- Without clues no shape adds anything. -/
lemma skillIn_of_no_clues (hclues : q.undiscoveredClues = false) : e.skillIn q = e.skill := by
  cases e with
  | locationBonus b =>
    rw [skillIn, b.skillIn_of_no_clues hclues, Skill.add_zero]
    rfl
  | locationFight g d b =>
    rw [skillIn, b.skillIn_of_no_clues hclues, Skill.add_zero]
    rfl
  | _ => rfl

/-- A shape without a second vector adds nothing anywhere. -/
lemma skillIn_of_no_bonus (hbonus : e.bonus? = none) (q : Situation) : e.skillIn q = e.skill := by
  cases e with
  | locationBonus | locationFight => cases hbonus
  | _ => rfl

/-- Situations that agree on the clues agree on the skill. -/
lemma skillIn_congr (hclues : q.undiscoveredClues = q'.undiscoveredClues) (e : Effect) :
    e.skillIn q = e.skillIn q' := by
  cases hq : q.undiscoveredClues with
  | false => rw [skillIn_of_no_clues hq, skillIn_of_no_clues (hclues.symm.trans hq)]
  | true =>
    cases hbonus : e.bonus? with
    | none => rw [skillIn_of_no_bonus hbonus, skillIn_of_no_bonus hbonus]
    | some bonus =>
      rw [skillIn_of_bonus hbonus hq, skillIn_of_bonus hbonus (hclues.symm.trans hq)]

/-- A component of the second vector that is not negative lowers nothing when it starts to count. -/
lemma component_skillIn_le {c : Skill.Component} (hbefore : q.undiscoveredClues = false)
    (hafter : q'.undiscoveredClues = true)
    (hnonneg : ∀ bonus, e.bonus? = some bonus → 0 ≤ (bonus.component c).toInt) :
    ((e.skillIn q).component c).toInt ≤ ((e.skillIn q').component c).toInt := by
  rw [skillIn_of_no_clues hbefore]
  cases hbonus : e.bonus? with
  | none =>
    have hsame : e.skillIn q' = e.skill := skillIn_of_no_bonus hbonus q'
    exact Int.le_of_eq (by rw [hsame])
  | some bonus =>
    rw [skillIn_of_bonus hbonus hafter]
    exact Skill.le_component_add (hnonneg bonus hbonus)

/-! ## The result and the exact sum -/

/-- **The skill that an effect grants in a situation is the clamped sum of the vectors that count
there**, whatever the shape of the effect is and however it came about.

* Where there are undiscovered clues an effect with a second vector grants the clamped sum of its
  two vectors.
* An effect without a second vector, and any effect where there are no undiscovered clues, grants
  the vector of its grant.
* Situations that agree on the clues give the same skill.
* A component of the second vector that is not negative never lowers that component of the skill
  when clues turn up. -/
theorem skillIn_clamped (e : Effect) :
    (∀ q bonus, e.bonus? = some bonus → q.undiscoveredClues = true →
      e.skill.IsClampedSum bonus (e.skillIn q)) ∧
    (∀ q, e.bonus? = none ∨ q.undiscoveredClues = false → e.skillIn q = e.skill) ∧
    (∀ q q', q.undiscoveredClues = q'.undiscoveredClues → e.skillIn q = e.skillIn q') ∧
    ∀ q q' c, q.undiscoveredClues = false → q'.undiscoveredClues = true →
      (∀ bonus, e.bonus? = some bonus → 0 ≤ (bonus.component c).toInt) →
        ((e.skillIn q).component c).toInt ≤ ((e.skillIn q').component c).toInt := by
  refine ⟨fun q bonus hbonus hclues => ?_, ?_, fun q q' hclues => skillIn_congr hclues e,
    fun q q' c hbefore hafter hnonneg => component_skillIn_le hbefore hafter hnonneg⟩
  · rw [skillIn_of_bonus hbonus hclues]
    exact e.skill.isClampedSum_add bonus
  · rintro q (hbonus | hclues)
    · exact skillIn_of_no_bonus hbonus q
    · exact skillIn_of_no_clues hclues

/-- A fight whose bonus is too large for the combat number, and whose bonus has a grant of its own,
which is not the grant of the fight. -/
def charge : Effect :=
  .locationFight { skill := { combat := 100, agility := 3, wild := 1 } } 2
    { grant := { skill := { combat := -7 }, cost := 1 }
      bonus := { combat := 90, agility := 4, willpower := -5 }
      condition := .undiscoveredClues }

/-- Where there are clues the combat number of the charge stops at 127 and keeps its sign, while on
agility the charge is worth 8.  Without clues it grants the vector of the fight, also against a lone
enemy, and its combat number is not greater then. -/
theorem skillIn_clamped_charge :
    (charge.skillIn { undiscoveredClues := true }).combat.toInt = 127 ∧
      (charge.skillIn { undiscoveredClues := true }).combat.toInt.sign = 1 ∧
      (charge.skillIn { undiscoveredClues := true }).value .agility = 8 ∧
      charge.skillIn {} = { combat := 100, agility := 3, wild := 1 } ∧
      charge.skillIn { onlyEnemyEngaged := true } = charge.skillIn {} ∧
      (charge.skillIn {}).combat.toInt ≤
        (charge.skillIn { undiscoveredClues := true }).combat.toInt := by
  obtain ⟨hsum, hbase, hcongr, hmono⟩ := skillIn_clamped charge
  have hclamped := hsum { undiscoveredClues := true } _ rfl rfl
  refine ⟨(hclamped.toInt_component (.on .combat)).trans (by decide),
    (hclamped.sign_component (.on .combat)).trans (by decide),
    (hclamped.value .agility (by decide) (by decide)).trans (by decide),
    hbase {} (.inr rfl), hcongr { onlyEnemyEngaged := true } {} rfl, ?_⟩
  refine hmono {} { undiscoveredClues := true } (.on .combat) rfl rfl fun bonus hbonus => ?_
  cases hbonus
  decide

end Effect

end CardRules
