import CardRules.Proofs.Catalogue.Build
import CardRules.Proofs.Compile.DecisionTable

/-!
# Well-formed effects

The type of effects has more values than cards ever have.  What cards have is *well formed*
(`Effect.WellFormed`): amounts are those of a signed byte, a bonus for the location comes only with
a fight and repeats its grant, and a condition is never the one that always holds.

An effect is well formed because of the row of the decision table that gives it
(`DecisionTable.wellFormed`), and a card has no effects but those of its actions
(`CardRecord.effect?_of_build`).  The main statement, `Catalogue.card_wellFormed`, puts the two
together for every card that a catalogue gives.
-/

namespace CardRules

/-- An effect is *well formed* under a policy.  A location bonus does not stand alone, and the one of
a fight has the grant of the fight; damage and other amounts are at most 127; a condition does not
always hold, and it is only missing where the policy lets an unknown one pass. -/
def Effect.WellFormed (policy : Policy) : Effect → Prop
  | .skillBonus _ => True
  | .fight _ damage => damage.toNat ≤ 127
  | .conditionalFight _ damage condition =>
    damage.toNat ≤ 127 ∧ condition ≠ some .alwaysTrue ∧ (policy = .strict → condition ≠ none)
  | .investigate _ _ => True
  | .locationBonus _ => False
  | .locationFight grant damage bonus => damage.toNat ≤ 127 ∧ bonus.grant = grant
  | .damageAtLocation _ amount => amount.toNat ≤ 127
  | .damageToAttacker _ amount => amount.toNat ≤ 127

/-! ## Actions -/

/-- Damage was read as a signed byte. -/
lemma Action.HasDamage.le {a : Action} {d : UInt8} (h : a.HasDamage d) : d.toNat ≤ 127 := by
  obtain ⟨n, -, hn⟩ := h
  have hlt := n.toInt_lt
  omega

/-- The effect in a row of the decision table is well formed under a policy that does not object to
the row. -/
lemma DecisionTable.wellFormed {a : Action} {base : Grant} {compiled : Compiled} {e : Effect}
    {policy : Policy} (h : DecisionTable a base (.ok compiled)) (he : compiled.effect = some e)
    (hpolicy : policy = .strict → compiled.warning = none) : e.WellFormed policy := by
  cases h with
  | locationFightWithoutDamage o => cases he; exact ⟨by decide, rfl⟩
  | locationFight o d _ _ hdamage => cases he; exact ⟨hdamage.le, rfl⟩
  | locationFightWithBadDamage => cases he
  | missingDamage => cases he
  | badDamage => cases he
  | fight d _ hdamage => cases he; exact hdamage.le
  | engagedFight d m _ hdamage => cases he; exact ⟨hdamage.le, by decide, fun _ => by decide⟩
  | unknownCondition d m _ hdamage =>
    -- The row has a warning, so the policy is not the strict one.
    cases he
    exact ⟨hdamage.le, by decide, fun hstrict => absurd (hpolicy hstrict) (Option.some_ne_none _)⟩
  | skillTest => cases he; trivial
  | missingShroud => cases he
  | badShroud => cases he
  | investigate n => cases he; trivial
  | damageAtLocation d _ hdamage => cases he; exact hdamage.le
  | damageToAttacker d _ hdamage => cases he; exact hdamage.le
  | wrongTarget => cases he
  | unknownAction => cases he

/-- The effect of an action to which a policy does not object is well formed under the policy. -/
lemma Policy.wellFormed_of_clean {policy : Policy} {p : Placed} {e : Effect}
    (hclean : policy.fault? p = none) (he : p.action.effect? = some e) : e.WellFormed policy := by
  cases heffect : p.action.effect with
  | error unknown =>
    rw [fault?_of_error heffect] at hclean
    cases hclean
  | ok compiled =>
    have hrow := decisionTable_effect p.action
    rw [heffect] at hrow
    rw [Action.effect?_of_ok heffect] at he
    refine hrow.wellFormed he fun hstrict => ?_
    rw [hstrict, strict_fault?_of_ok heffect] at hclean
    exact Option.map_eq_none_iff.1 hclean

/-! ## Cards -/

/-- An effect is one of a card: it is in one of the four lists, or it is the elder sign. -/
def Card.Has (c : Card) (e : Effect) : Prop :=
  (∃ timing, e ∈ c.effects.get timing) ∨ c.elderSign? = some e

namespace CardRecord

/-- The effects of a card are among those it is assembled from. -/
lemma mem_of_has_assemble {r : CardRecord} {faction : Faction} {slot : Option Slot}
    {effects : ByTiming Effect} {e : Effect} (h : (r.assemble faction slot effects).Has e) :
    ∃ timing, e ∈ effects.get timing := by
  rcases h with ⟨timing, he⟩ | he
  · cases r with
    | investigator r => cases timing <;> exact absurd he List.not_mem_nil
    | asset r => exact ⟨timing, he⟩
    | event r => exact ⟨timing, he⟩
    | ability r => exact ⟨timing, he⟩
    | skill r => exact ⟨timing, he⟩
  · cases r with
    | investigator r => exact ⟨.trigger, List.mem_of_mem_head? he⟩
    | asset r => cases he
    | event r => cases he
    | ability r => cases he
    | skill r => cases he

/-- **Every effect of a card is that of an action of its record**, one to which the policy does not
object. -/
lemma effect?_of_build {r : CardRecord} {policy : Policy} {report : Report} {e : Effect}
    (h : r.build policy = .ok report) (he : report.card.Has e) :
    ∃ p ∈ r.actions.placed, policy.fault? p = none ∧ p.action.effect? = some e := by
  obtain ⟨faction, slot, -, hclean, rfl⟩ := exists_of_build_eq_ok h
  obtain ⟨timing, hmem⟩ := mem_of_has_assemble he
  rw [ByTiming.get_filterMap] at hmem
  obtain ⟨a, ha, hae⟩ := List.mem_filterMap.1 hmem
  obtain ⟨index, hindex⟩ := List.mem_iff_getElem?.1 ha
  have hplaced : (⟨timing, index, a⟩ : Placed) ∈ r.actions.placed := ByTiming.mem_placed.2 hindex
  exact ⟨_, hplaced, List.findSome?_eq_none_iff.1 hclean _ hplaced, hae⟩

end CardRecord

/-- A card that a catalogue gives is that of the record of its kind and name. -/
lemma Catalogue.card_eq_some_iff {c : Catalogue} {kind : CardKind} {name : String} {card : Card} :
    c.card kind name = .ok (some card) ↔
      ∃ r report, c.index.find? kind name = some r ∧ r.build c.policy = .ok report ∧
        report.card = card := by
  unfold Catalogue.card report
  cases c.index.find? kind name with
  | none => simp [Functor.map, Except.map]
  | some r => cases hbuild : r.build c.policy <;> simp [hbuild, Functor.map, Except.map]

/-- **Every effect of every card is well formed**, whatever the records, under both policies. -/
theorem Catalogue.card_wellFormed (rs : Records) (policy : Policy) (kind : CardKind) (name : String)
    (card : Card) (h : (Catalogue.ofRecords rs policy).card kind name = .ok (some card)) :
    ∀ e, card.Has e → e.WellFormed policy := by
  intro e he
  obtain ⟨r, report, -, hbuild, rfl⟩ := Catalogue.card_eq_some_iff.1 h
  obtain ⟨p, -, hclean, heffect⟩ := CardRecord.effect?_of_build hbuild he
  exact Policy.wellFormed_of_clean hclean heffect

/-- A pistol that hits harder if there is only one enemy to aim at. -/
def derringer : Records where
  assets :=
    [{ name := "Derringer", faction := "rogue", cost := 3, skill := { agility := 1 }
       slot := some "hand"
       actions :=
        { activate :=
            [{ tag := "fight", expend := some 1, skill := { combat := 2 }
               modifiers := .ofList
                [("condition", .text "only_enemy_engaged"), ("damage", .amount 1)] }] } }]

/-- The effect of the pistol under the strict policy. -/
theorem Catalogue.card_wellFormed_derringer :
    ∃ card, (Catalogue.ofRecords derringer .strict).card .asset "Derringer" = .ok (some card) ∧
      card.effects.activate =
        [.conditionalFight ⟨{ combat := 2 }, 1⟩ 1 (some .onlyEnemyEngaged)] ∧
      ∀ e, card.Has e → e.WellFormed .strict :=
  ⟨_, rfl, rfl, Catalogue.card_wellFormed derringer .strict .asset "Derringer" _ rfl⟩

end CardRules
