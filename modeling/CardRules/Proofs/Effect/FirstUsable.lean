import CardRules.Effect.Basic
import Mathlib.Tactic.Lemma

/-!
# The first effect that may be used

Of the effects that a card has for a timing, the first one whose condition is met is used.  The only
thing an effect can ask for is that the enemy is alone, and no effect asks for the contrary
(`Effect.usable_iff`).  So a situation in which the enemy is alone leaves at least as much to choose
from as one in which it is not, and what is known of the clues makes no difference.

The main statement, `Effect.firstUsable_at_least_index`, says at which index the effect stands and
how the choices of two situations are related.
-/

namespace CardRules

namespace Effect

/-! ## What an effect asks for -/

/-- An effect that may only be used while the enemy is alone. -/
def NeedsLoneEnemy : Effect → Prop
  | .conditionalFight _ _ (some .onlyEnemyEngaged) => True
  | _ => False

variable {e : Effect} {q q' : Situation}

/-- An effect may be used if the enemy is alone or does not have to be.  A condition that is missing
counts as met. -/
lemma usable_iff (e : Effect) (q : Situation) :
    e.usable q = true ↔ (e.NeedsLoneEnemy → q.onlyEnemyEngaged = true) := by
  cases e with
  | conditionalFight g d condition =>
    cases condition with
    | none => simp [usable, condition?, NeedsLoneEnemy]
    | some condition =>
      cases condition <;> simp [usable, condition?, NeedsLoneEnemy, Condition.holds]
  | _ => simp [usable, condition?, NeedsLoneEnemy]

/-- What may be used stays usable if a lone enemy stays alone. -/
lemma usable_mono (hlone : q.onlyEnemyEngaged = true → q'.onlyEnemyEngaged = true)
    (h : e.usable q = true) : e.usable q' = true := by
  rw [usable_iff] at h ⊢
  exact fun hneeds => hlone (h hneeds)

/-- Situations that agree on the lone enemy agree on what may be used. -/
lemma usable_congr (hlone : q.onlyEnemyEngaged = q'.onlyEnemyEngaged) (e : Effect) :
    e.usable q = e.usable q' := by
  rw [Bool.eq_iff_iff, usable_iff, usable_iff, hlone]

/-! ## The least index -/

/-- In a situation the effect at an index of a list is the first one that may be used. -/
structure FirstUsableAt (es : List Effect) (q : Situation) (i : Nat) (e : Effect) : Prop where
  getElem? : es[i]? = some e
  usable : e.usable q = true
  unusable_before : ∀ j e', j < i → es[j]? = some e' → e'.usable q = false

variable {es : List Effect} {i j : Nat} {e' : Effect} {lists lists' : ByTiming Effect}
  {timing : Timing}

/-- No effect that may be used stands before the first one. -/
lemma FirstUsableAt.le (h : FirstUsableAt es q i e) (hj : es[j]? = some e')
    (husable : e'.usable q = true) : i ≤ j := by
  refine Nat.not_lt.1 fun hlt => ?_
  have hunusable := h.unusable_before j e' hlt hj
  rw [husable] at hunusable
  cases hunusable

/-- What is found in a list is the usable effect at the least index. -/
lemma find?_usable_eq_some_iff :
    es.find? (·.usable q) = some e ↔ ∃ i, FirstUsableAt es q i e := by
  rw [List.find?_eq_some_iff_getElem]
  constructor
  · rintro ⟨husable, i, hi, rfl, hbefore⟩
    refine ⟨i, List.getElem?_eq_getElem hi, husable, fun j e' hj hj' => ?_⟩
    obtain ⟨hlength, rfl⟩ := List.getElem?_eq_some_iff.1 hj'
    exact (Bool.not_eq_true' _).mp (hbefore j hj)
  · rintro ⟨i, hi, husable, hbefore⟩
    obtain ⟨hlength, rfl⟩ := List.getElem?_eq_some_iff.1 hi
    refine ⟨husable, i, hlength, rfl, fun j hj => ?_⟩
    exact (Bool.not_eq_true' _).mpr (hbefore j _ hj (List.getElem?_eq_getElem _))

/-- Where an effect may be used there is a first one, not behind it. -/
lemma exists_firstUsableAt_le (hi : es[i]? = some e) (husable : e.usable q = true) :
    ∃ j e', j ≤ i ∧ FirstUsableAt es q j e' := by
  have hfound : (es.find? (·.usable q)).isSome :=
    List.find?_isSome.2 ⟨e, List.mem_of_getElem? hi, husable⟩
  obtain ⟨e', hfound⟩ := Option.isSome_iff_exists.1 hfound
  obtain ⟨j, hj⟩ := find?_usable_eq_some_iff.1 hfound
  exact ⟨j, e', hj.le hi husable, hj⟩

/-! ## Two situations -/

/-- If a lone enemy stays alone, a choice is not made later than before. -/
lemma FirstUsableAt.mono (hlone : q.onlyEnemyEngaged = true → q'.onlyEnemyEngaged = true)
    (h : FirstUsableAt es q i e) : ∃ j e', j ≤ i ∧ FirstUsableAt es q' j e' :=
  exists_firstUsableAt_le h.getElem? (usable_mono hlone h.usable)

/-- The choice depends on the effects of the timing and on the lone enemy only. -/
lemma firstUsable_congr (hlone : q.onlyEnemyEngaged = q'.onlyEnemyEngaged)
    (hlists : lists.get timing = lists'.get timing) :
    firstUsable lists timing q = firstUsable lists' timing q' := by
  rw [firstUsable, firstUsable, hlists]
  congr 1
  funext e
  exact usable_congr hlone e

/-- **The first effect that may be used is found**, whatever the effects of a card are.

* Nothing is found exactly if no effect of the timing may be used in the situation.
* Otherwise it is the effect at the least index of those that may be used.
* In a second situation in which the enemy is alone if it is in the first one, something is found if
  it is in the first one, at the same index or an earlier one.
* A second situation that agrees with the first one on the lone enemy leads to the same effect, even
  if it has other clues and the card has other effects for the other timings. -/
theorem firstUsable_at_least_index (lists : ByTiming Effect) (timing : Timing) (q : Situation) :
    (firstUsable lists timing q = none ↔ ∀ e ∈ lists.get timing, e.usable q = false) ∧
    (∀ e, firstUsable lists timing q = some e ↔ ∃ i, FirstUsableAt (lists.get timing) q i e) ∧
    (∀ q' : Situation, (q.onlyEnemyEngaged = true → q'.onlyEnemyEngaged = true) →
      ∀ i e, FirstUsableAt (lists.get timing) q i e →
        ∃ j e', j ≤ i ∧ FirstUsableAt (lists.get timing) q' j e' ∧
          firstUsable lists timing q' = some e') ∧
    ∀ (q' : Situation) (lists' : ByTiming Effect), q.onlyEnemyEngaged = q'.onlyEnemyEngaged →
      lists.get timing = lists'.get timing →
        firstUsable lists timing q = firstUsable lists' timing q' := by
  refine ⟨?_, fun e => find?_usable_eq_some_iff, fun q' hlone i e hfirst => ?_,
    fun q' lists' hlone hlists => firstUsable_congr hlone hlists⟩
  · rw [firstUsable, List.find?_eq_none]
    simp only [Bool.not_eq_true]
  · obtain ⟨j, e', hle, hfirst'⟩ := hfirst.mono hlone
    exact ⟨j, e', hle, hfirst', find?_usable_eq_some_iff.2 ⟨j, hfirst'⟩⟩

/-- A blade that hits harder while the enemy is alone, and helps with another test. -/
def blade : ByTiming Effect where
  activate := [.conditionalFight {} 2 (some .onlyEnemyEngaged), .fight {} 1]
  trigger := [.skillBonus { skill := { willpower := 1 } }]

/-- Among several enemies the second effect of the blade is the first that may be used, also where
there are clues and without the help in tests.  Against a lone enemy one is found that does not
stand behind it. -/
theorem firstUsable_at_least_index_blade :
    FirstUsableAt blade.activate {} 1 (.fight {} 1) ∧
      firstUsable blade .activate {} = some (.fight {} 1) ∧
      firstUsable { blade with trigger := [] } .activate { undiscoveredClues := true } =
        some (.fight {} 1) ∧
      ∃ j e', j ≤ 1 ∧ FirstUsableAt blade.activate { onlyEnemyEngaged := true } j e' ∧
        firstUsable blade .activate { onlyEnemyEngaged := true } = some e' := by
  obtain ⟨-, hsome, hmono, hcongr⟩ := firstUsable_at_least_index blade .activate {}
  have hfirst : FirstUsableAt blade.activate {} 1 (.fight {} 1) := by
    refine ⟨rfl, rfl, fun j e' hj hj' => ?_⟩
    obtain rfl : j = 0 := Nat.lt_one_iff.1 hj
    obtain rfl := Option.some.inj hj'
    rfl
  have hchosen := (hsome _).2 ⟨1, hfirst⟩
  exact ⟨hfirst, hchosen,
    (hcongr { undiscoveredClues := true } { blade with trigger := [] } rfl rfl).symm.trans hchosen,
    hmono { onlyEnemyEngaged := true } (fun _ => rfl) 1 _ hfirst⟩

end Effect

end CardRules
