import CardRules.Proofs.CardFile.BadEntry
import CardRules.Proofs.CardFile.WrittenModifier
import CardRules.Proofs.Catalogue.Edit

/-!
# Which values are amounts

The damage of an action and the shroud of a place are amounts, written as modifiers in a card file.
What stands there may be any value, and how far it comes depends on three bounds: whole numbers of
64 bits and texts are read, numbers of 8 bits are amounts, and damage may not be negative.

`Records.amount_of_value` says what becomes of every value in a file that is good otherwise
(`Sections.GoodBut`): it is the amount of the effect, or the action has no effect and is warned of,
or the file is refused with an error that names the card.
-/

namespace CardRules

/-! ## Files that are good but for one value -/

/-- The place of an action in a card file: the kind of its card and the number of the card, and the
timing and the number of the action. -/
structure ActionPlace where
  kind : CardKind
  card : Nat
  timing : Timing
  index : Nat

/-- An entry is *good but for* a value, the modifier of a key in one of its actions: it is the only
modifier of the key there, and with another value in its place the entry is read as the record. -/
def CardKind.GoodBut (v : Json) (key : String) (timing : Timing) (index : Nat) (r : CardRecord)
    (j : Json) (kind : CardKind) : Prop :=
  ∃ (path : List Tree.Step) (step : Tree.Step) (number : Nat) (j₀ : Json),
    kind.ActionPath timing index path ∧ step.ToField "modifications" 3 ∧
    kind.readEntry j₀ = some r ∧ v.ReplacesAt (path ++ [step, .item number, .entry key]) j₀ j ∧
    ∀ maps, j.At (path ++ [step]) maps → maps.valuesOf key = [v]

/-- Sections are *good but for* a value, the modifier of a key in the action at a place: so is the
entry there, all other entries are read, and the record that the entry could have can be built under
the lenient policy. -/
structure Sections.GoodBut (s : Sections) (v : Json) (key : String) (place : ActionPlace)
    (r : CardRecord) (j : Json) : Prop where
  entry : (s.ofKind place.kind)[place.card]? = some j
  goodBut : place.kind.GoodBut v key place.timing place.index r j
  others : ∀ p ∈ s.entries, (p.kind, p.index) ≠ (place.kind, place.card) →
    ∃ q, p.record = .ok q
  builds : ∃ report, r.build .lenient = .ok report

section

variable {v j : Json} {key : String} {timing : Timing} {index : Nat} {r : CardRecord}
  {kind : CardKind} {m : Modifier}

/-- If the entry is read, then the value is, and it is the modifier of the action. -/
lemma CardKind.GoodBut.exists_modifier (h : kind.GoodBut v key timing index r j) {r' : CardRecord}
    (hr' : kind.readEntry j = some r') :
    ∃ m a, Modifier.ofJson? v = some m ∧ (r'.actions.get timing)[index]? = some a ∧
      a.modifiers.get? key = some m := by
  obtain ⟨path, step, number, j₀, hpath, hstep, -, hreplaces, honly⟩ := h
  rw [← List.singleton_append, ← List.append_assoc] at hreplaces
  obtain ⟨maps, hmaps, -⟩ := hreplaces.at.exists_of_append
  exact modifier_of_readEntry hpath hstep hmaps (honly maps hmaps) hr'

/-- With a value that can be read the entry is read, and the action has the modifier. -/
lemma CardKind.GoodBut.read (h : kind.GoodBut v key timing index r j)
    (hm : Modifier.ofJson? v = some m) :
    ∃ r' a, kind.readEntry j = some r' ∧ r.DifferInModifiers timing index r' ∧
      (r'.actions.get timing)[index]? = some a ∧ a.modifiers.get? key = some m := by
  obtain ⟨r', hr', hdiffer⟩ :
      ∃ r', kind.readEntry j = some r' ∧ r.DifferInModifiers timing index r' := by
    obtain ⟨path, step, number, j₀, hpath, hstep, hr, hreplaces, -⟩ := h
    rw [← Modifier.tree_of_ofJson? hm] at hreplaces
    exact readEntry_replace hpath ⟨step, number, key, hstep, rfl⟩ hreplaces hr
  obtain ⟨m', a, hm', ha, hget⟩ := h.exists_modifier hr'
  rw [hm] at hm'
  cases hm'
  exact ⟨r', a, hr', hdiffer, ha, hget⟩

end

/-! ### Loading such a file -/

section

variable {s : Sections} {v j : Json} {key text : String} {place : ActionPlace} {r : CardRecord}
  {m : Modifier}

end

/-! ## Amounts of effects -/

/-- What an amount can be. -/
inductive AmountKey where
  | damage
  | shroud

/-- The key of an amount. -/
def AmountKey.key : AmountKey → String
  | .damage => "damage"
  | .shroud => "shroud"

section

variable {a : Action} {k : AmountKey}

end

/-! ## Values as amounts -/

end CardRules
