import CardRules.Timing
import Mathlib.Data.List.Basic
import Mathlib.Tactic.Lemma

/-!
# Values that a function leaves as they are

A function leaves a list, an option or lists by timing as they are if it leaves all values in them
as they are.  If what it does to a value depends only on the parts of the value, the parts of all
values decide (`map_eq_self_iff_of_parts`).
-/

namespace CardRules

variable {α β : Type}

/-! ## Lists and options -/

/-- A list stays as it is if its elements do. -/
lemma list_map_eq_self_iff {g : α → α} {as : List α} : as.map g = as ↔ ∀ a ∈ as, g a = a := by
  induction as with
  | nil => simp
  | cons a as ih => simp [ih]

/-- An option stays as it is if its value does. -/
lemma option_map_eq_self_iff {g : α → α} {a? : Option α} :
    a?.map g = a? ↔ ∀ a ∈ a?.toList, g a = a := by
  cases a? <;> simp

/-- If a value stays as it is whenever its parts do, a list stays as it is whenever the parts of its
elements do. -/
lemma map_eq_self_iff_of_parts {g : α → α} {h : β → β} {parts : α → List β}
    (hparts : ∀ a, g a = a ↔ ∀ b ∈ parts a, h b = b) {as : List α} :
    as.map g = as ↔ ∀ b ∈ as.flatMap parts, h b = b := by
  rw [list_map_eq_self_iff]
  constructor
  · intro has b hb
    obtain ⟨a, ha, hb⟩ := List.mem_flatMap.1 hb
    exact (hparts a).1 (has a ha) b hb
  · intro hbs a ha
    exact (hparts a).2 fun b hb => hbs b (List.mem_flatMap.2 ⟨a, ha, hb⟩)

/-! ## Lists by timing -/

namespace ByTiming

/-- The values of all timings. -/
def values (lists : ByTiming α) : List α :=
  lists.activate ++ lists.trigger ++ lists.passive ++ lists.discard

/-- Mapping all values. -/
lemma values_map (f : α → β) (lists : ByTiming α) :
    (lists.map f).values = lists.values.map f := by
  simp [values, map]

/-- Lists by timing stay as they are if all their values do. -/
lemma map_eq_self_iff {g : α → α} {lists : ByTiming α} :
    lists.map g = lists ↔ ∀ a ∈ lists.values, g a = a := by
  obtain ⟨activate, trigger, passive, discard⟩ := lists
  simp [values, map, list_map_eq_self_iff, or_imp, forall_and]

end ByTiming

end CardRules
