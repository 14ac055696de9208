import CardRules.CardFile.Basic
import CardRules.Compile
import CardRules.Proofs.KeyMap.Layers

/-!
# Modifiers in card files

In a card file the modifiers of an action are a list of maps.  `ActionEntry.modifier?` reads a key
in the last map that has it, and this is what the action of the entry finds under the key
(`get?_toAction_modifiers`).  The maps are layers, and how the modifiers are distributed over them
makes no difference (`last_modifier_counts`).

A condition is compared by its written form, which only a text can share with a keyword
(`written_eq_iff`).
-/

namespace CardRules

/-! ## The last map that has a key -/

/-- The value of a key in the last map of modifiers that has it. -/
def ActionEntry.modifier? (e : ActionEntry) (key : String) : Option Modifier :=
  e.modifiers.findSomeRev? (·.get? key)

/-- The action of an entry finds under a key what the last map that has the key says. -/
theorem ActionEntry.get?_toAction_modifiers (e : ActionEntry) (key : String) :
    e.toAction.modifiers.get? key = e.modifier? key :=
  KeyMap.get?_ofList_flatMap e.modifiers key

/-- **Of several modifiers with one name the last one counts.**

* The action of an entry has a modifier exactly if one of the maps has it.
* Its value is the one in the last of these maps.
* Other maps that are alike, with the entries grouped in another way or changed where a later map
  covers them, give the same action, and it compiles to the same. -/
theorem ActionEntry.last_modifier_counts (e : ActionEntry) :
    (∀ key, (e.toAction.modifiers.get? key).isSome ↔ ∃ m ∈ e.modifiers, (m.get? key).isSome) ∧
    (∀ key value, e.toAction.modifiers.get? key = some value ↔
      ∃ before m after, e.modifiers = before ++ m :: after ∧ m.get? key = some value ∧
        ∀ n ∈ after, n.get? key = none) ∧
    ∀ maps, KeyMap.Alike e.modifiers maps →
      { e with modifiers := maps }.toAction = e.toAction ∧
        { e with modifiers := maps }.toAction.effect = e.toAction.effect := by
  have hvalue (key : String) : e.toAction.modifiers.get? key = KeyMap.top? e.modifiers key :=
    KeyMap.get?_flatten e.modifiers key
  refine ⟨fun key => ?_, fun key value => ?_, fun maps halike => ?_⟩
  · rw [hvalue, KeyMap.isSome_top?_iff]
  · rw [hvalue, KeyMap.top?_eq_some_iff]
  · have hmodifiers : { e with modifiers := maps }.allModifiers = e.allModifiers :=
      halike.flatten_eq.symm
    have haction : { e with modifiers := maps }.toAction = e.toAction := by
      rw [toAction, toAction, hmodifiers]
    exact ⟨haction, congrArg Action.effect haction⟩

/-- A shot with a damage that is lowered by a second map. -/
def ActionEntry.shot : ActionEntry where
  tag := "fight"
  modifiers :=
    [.ofList [("condition", .text "only_enemy_engaged"), ("damage", .amount 3)],
      .ofList [("damage", .amount 1)]]

/-- The damage in the first map of the shot does not count.  It may be left out, and the two maps
that remain may be merged. -/
theorem ActionEntry.last_modifier_counts_shot :
    shot.toAction.modifiers.get? "damage" = some (.amount 1) ∧
      { shot with
        modifiers := [.ofList [("damage", .amount 1), ("condition", .text "only_enemy_engaged")]]
      }.toAction = shot.toAction := by
  obtain ⟨-, hvalue, halike⟩ := shot.last_modifier_counts
  refine ⟨(hvalue _ _).2 ⟨[_], _, [], rfl, rfl, by simp⟩, (halike _ ?_).1⟩
  have hcover : KeyMap.Alike shot.modifiers
      [.ofList [("condition", .text "only_enemy_engaged")], .ofList [("damage", .amount 1)]] := by
    refine .cover _ _ _ fun key => ?_
    by_cases hdamage : key = "damage"
    · exact .inr ⟨_, List.mem_singleton_self _, by rw [hdamage]; rfl⟩
    · refine .inl ?_
      rw [KeyMap.get?_ofList, KeyMap.get?_ofList]
      simp [KeyMap.lookup, Ne.symm hdamage]
  exact hcover.trans (.merge _ _)

/-! ## The written form of a modifier -/

namespace Modifier

/-- A number is written with digits and a sign. -/
lemma isDigit_of_mem_toString {n : Int} {c : Char} (h : c ∈ (toString n).toList) :
    c = '-' ∨ c.isDigit := by
  rw [Int.toString_eq_repr] at h
  cases n with
  | ofNat n =>
    rw [Int.repr, Nat.toList_repr] at h
    exact .inr (Nat.isDigit_of_mem_toDigits (by decide) (by decide) h)
  | negSucc n =>
    have hchars : c ∈ "-".toList ++ Nat.toDigits 10 (n + 1) := by
      rw [← Nat.toList_repr, ← String.toList_append]
      exact h
    rcases List.mem_append.1 hchars with hsign | hdigit
    · exact .inl (List.mem_singleton.1 hsign)
    · exact .inr (Nat.isDigit_of_mem_toDigits (by decide) (by decide) hdigit)

/-- No number is written like a text that has another character. -/
lemma toString_ne {s : String} {c : Char} (hc : c ∈ s.toList) (hsign : c ≠ '-')
    (hdigit : c.isDigit = false) (n : Int) : toString n ≠ s := by
  rintro rfl
  rcases isDigit_of_mem_toString hc with h | h
  · exact hsign h
  · rw [hdigit] at h
    cases h

/-- Only a text is written like a text that is not made of digits and a sign. -/
theorem written_eq_iff {s : String} {c : Char} (hc : c ∈ s.toList) (hsign : c ≠ '-')
    (hdigit : c.isDigit = false) (m : Modifier) : m.written = s ↔ m = .text s := by
  cases m with
  | amount n => exact iff_of_false (toString_ne hc hsign hdigit n.toInt) (by simp)
  | number n => exact iff_of_false (toString_ne hc hsign hdigit n.toInt) (by simp)
  | text t => simp [written]

end Modifier

end CardRules
