import CardRules.Layout.Card
import CardRules.Layout.Setup
import CardRules.Proofs.Format.RoundTrip

/-!
# Effects, cards and setups that are written and read again

The formats of effects, of cards and of the setup of a game leave no choice between two ways to
write a value, their keys and labels are told apart, and every effect is of one of the eight shapes.
So they are *faithful* (`Format.Faithful`): what is written for a value is read as that very value.

All that has to be shown for a format by itself is that its tagged values have variants
(`Format.Covers`).  The only tagged values are effects; for the fields of a record this is passed on
from field to field.
-/

namespace CardRules

variable {α : Type} {ts : List Type}

/-! ## Faithful formats -/

/-- Every value is read from what is written for it, in the order in which it is written and in the
order of its keys. -/
def Format.Faithful (f : Format α) : Prop :=
  ∀ (a : α) (r : Reading Empty) (j : Json), f.Writes a j → f.decode r j = .ok a

/-- A format without a choice is faithful if its keys are told apart and its tagged values have
variants. -/
lemma faithful_of_plain {f : Format α} (hkeys : f.wellKeyed) (hcovers : f.Covers) (hplain : f.plain) :
    f.Faithful := by
  intro a r j hj
  have hread := Format.decode_of_says_encode hkeys hcovers r (says_of_writes hkeys hj)
  rw [hread, f.reread_of_plain hplain a]

/-- A field without tagged values in front of others that have variants for theirs. -/
lemma covers_cons_untagged {key : String} {aliases : List String} {absence : Absence α}
    {f : Format α} {rest : Fields ts} (hf : f.untagged) (hrest : rest.Covers) :
    (Fields.cons key aliases absence f rest).Covers :=
  ⟨f.covers_of_untagged hf, hrest⟩

/-! ## Effects -/

namespace Effect

/-- Every effect is of one of the eight shapes. -/
lemma has_variants (e : Effect) : variants.has e := by
  cases e <;> rfl

/-- Every effect has a variant, and there are no tagged values in the contents of variants. -/
lemma covers_format : Effect.format.Covers := by
  refine ⟨has_variants, ?_⟩
  have hgrant := Grant.format.covers_of_untagged rfl
  have hbonus := LocationBonus.format.covers_of_untagged rfl
  exact ⟨hgrant, fightBody.covers_of_untagged rfl, conditionalFightBody.covers_of_untagged rfl,
    investigateBody.covers_of_untagged rfl, hbonus, locationFightBody.covers_of_untagged rfl,
    damageBody.covers_of_untagged rfl, damageBody.covers_of_untagged rfl, trivial⟩

/-- Every effect in lists by timing has a variant, without tagged values in its contents. -/
lemma covers_listsFormat : Effect.listsFormat.Covers :=
  ⟨covers_format, covers_format, covers_format, covers_format, trivial⟩

end Effect

/-! ## Cards -/

/-- The elder sign of an investigator has a variant. -/
lemma Investigator.covers_format : Investigator.format.Covers := by
  change Fields.Covers _
  iterate 7 refine covers_cons_untagged rfl ?_
  exact ⟨Effect.covers_format, trivial⟩

/-- The effects of an asset have variants. -/
lemma Asset.covers_format : Asset.format.Covers := by
  change Fields.Covers _
  iterate 9 refine covers_cons_untagged rfl ?_
  exact ⟨Effect.covers_listsFormat, trivial⟩

/-- The effects of an event have variants. -/
lemma Event.covers_format : Event.format.Covers := by
  change Fields.Covers _
  iterate 5 refine covers_cons_untagged rfl ?_
  exact ⟨Effect.covers_listsFormat, trivial⟩

/-- The effects of an ability or a skill card have variants. -/
lemma PlainCard.covers_formatCalled (name : String) : (PlainCard.formatCalled name).Covers := by
  change Fields.Covers _
  iterate 3 refine covers_cons_untagged rfl ?_
  exact ⟨Effect.covers_listsFormat, trivial⟩

/-! ## All of them -/

/-- **Effects, the effects of a card, cards of the five kinds and setups of a game are read as they
were written.** -/
theorem cards_roundTrip :
    Effect.format.Faithful ∧ Effect.listsFormat.Faithful ∧
    Investigator.format.Faithful ∧ Asset.format.Faithful ∧ Event.format.Faithful ∧
    PlainCard.abilityFormat.Faithful ∧ PlainCard.skillFormat.Faithful ∧
    GameSetup.format.Faithful :=
  ⟨faithful_of_plain (by decide +kernel) Effect.covers_format rfl,
    faithful_of_plain (by decide +kernel) Effect.covers_listsFormat rfl,
    faithful_of_plain (by decide +kernel) Investigator.covers_format rfl,
    faithful_of_plain (by decide +kernel) Asset.covers_format rfl,
    faithful_of_plain (by decide +kernel) Event.covers_format rfl,
    faithful_of_plain (by decide +kernel) (PlainCard.covers_formatCalled _) rfl,
    faithful_of_plain (by decide +kernel) (PlainCard.covers_formatCalled _) rfl,
    faithful_of_plain (by decide +kernel) (GameSetup.format.covers_of_untagged rfl) rfl⟩

end CardRules
