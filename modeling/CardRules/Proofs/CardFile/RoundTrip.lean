import CardRules.CardFile.Layout
import CardRules.Proofs.Layout.Modifier
import CardRules.Proofs.Timing

/-!
# Card files that are written and read again

A card file mixes several records in one map: the lists of actions stand beside the keys of a card,
and the components of a skill vector beside the optional skill and beside its location.  All keys
are told apart, so that a card file comes back from what is written for it (`cardFile_roundTrip`).

The only exception are small numbers as modifiers, which come back as amounts.  A card file
that was read has none of them.
-/

namespace CardRules

/-! ## Actions -/

namespace ActionEntry

/-- One of the modifiers is a small number. -/
def HasSmallNumber (e : ActionEntry) : Prop :=
  ∃ m ∈ e.modifiers, ∃ entry ∈ m.entries, entry.2.IsSmallNumber

/-- Of an action only the modifiers may come back as others, map by map. -/
lemma reread_format (e : ActionEntry) :
    ActionEntry.format.reread e =
      { e with modifiers := e.modifiers.map (·.map Modifier.narrowed) } := by
  have hmodifiers : Modifier.format.reread = Modifier.narrowed := funext Modifier.reread_format
  refine reread_via_eq ?_
  refine reread_cons_plain rfl (reread_cons_plain rfl (reread_cons_plain rfl ?_))
  refine reread_cons ?_ (reread_cons_plain rfl rfl)
  rw [← hmodifiers]
  rfl

instance : DecidablePred HasSmallNumber := fun e =>
  inferInstanceAs (Decidable (∃ m ∈ e.modifiers, ∃ entry ∈ m.entries, entry.2.IsSmallNumber))

/-- An action comes back unchanged unless one of its modifiers is a small number. -/
theorem reread_eq_self_iff {e : ActionEntry} :
    ActionEntry.format.reread e = e ↔ ¬ e.HasSmallNumber := by
  have hmodifiers : { e with modifiers := e.modifiers.map (·.map Modifier.narrowed) } = e ↔
      e.modifiers.map (·.map Modifier.narrowed) = e.modifiers := by
    cases e
    simp
  rw [reread_format, hmodifiers, list_map_eq_self_iff]
  simp only [KeyMap.map_eq_self_iff, Modifier.narrowed_eq_self_iff, HasSmallNumber, not_exists,
    not_and]

/-- Actions that were read come back unchanged. -/
lemma settled_format : ActionEntry.format.Settled := by
  have hmodifiers := settled_list (settled_dictionary Modifier.settled_format)
  refine settled_via (fun _ => rfl) (settled_record _ ?_)
  iterate 3 refine settled_cons_plain rfl ?_
  exact settled_opt _ hmodifiers rfl (settled_cons_plain rfl trivial)

/-- Lists of actions that were read come back unchanged. -/
lemma settled_listFields : ActionEntry.listFields.Settled := by
  have hlist := settled_list settled_format
  exact settled_opt _ hlist rfl <| settled_opt _ hlist rfl <|
    ⟨hlist, fun a ha => by cases ha; rfl, settled_opt _ hlist rfl trivial⟩

end ActionEntry

/-! ## Cards -/

/-- Of an investigator only the elder sign may come back as another one. -/
lemma InvestigatorEntry.reread_format (e : InvestigatorEntry) :
    InvestigatorEntry.format.reread e =
      { e with elderSign := e.elderSign.map ActionEntry.format.reread } := by
  refine reread_via_eq ?_
  iterate 10 refine reread_cons_plain rfl ?_
  exact reread_cons rfl rfl

/-- Of an asset only the actions may come back as others. -/
lemma AssetEntry.reread_format (e : AssetEntry) :
    AssetEntry.format.reread e = { e with actions := e.actions.map ActionEntry.format.reread } :=
  reread_via_eq (Prod.ext (Fields.reread_of_plain _ rfl _) rfl)

/-- Of an event only the actions may come back as others. -/
lemma EventEntry.reread_format (e : EventEntry) :
    EventEntry.format.reread e = { e with actions := e.actions.map ActionEntry.format.reread } :=
  reread_via_eq (Prod.ext (Fields.reread_of_plain _ rfl _) rfl)

/-- Of an ability or a skill card only the actions may come back as others. -/
lemma PlainEntry.reread_format (e : PlainEntry) :
    PlainEntry.format.reread e = { e with actions := e.actions.map ActionEntry.format.reread } :=
  reread_via_eq (Prod.ext (Fields.reread_of_plain _ rfl _) rfl)

/-- Investigators that were read come back unchanged. -/
lemma InvestigatorEntry.settled_format : InvestigatorEntry.format.Settled := by
  refine settled_via (fun _ => rfl) (settled_record _ ?_)
  iterate 10 refine settled_cons_plain rfl ?_
  exact settled_maybe _ ActionEntry.settled_format trivial

/-- Assets that were read come back unchanged. -/
lemma AssetEntry.settled_format : AssetEntry.format.Settled :=
  settled_via (fun _ => rfl)
    (settled_flat _ (settled_fields_of_plain rfl) ActionEntry.settled_listFields)

/-- Events that were read come back unchanged. -/
lemma EventEntry.settled_format : EventEntry.format.Settled :=
  settled_via (fun _ => rfl)
    (settled_flat _ (settled_fields_of_plain rfl) ActionEntry.settled_listFields)

/-- Abilities and skill cards that were read come back unchanged. -/
lemma PlainEntry.settled_format : PlainEntry.format.Settled :=
  settled_via (fun _ => rfl)
    (settled_flat _ (settled_fields_of_plain rfl) ActionEntry.settled_listFields)

/-! ## Card files -/

namespace CardFile

/-- All actions of a card file. -/
def allActions (file : CardFile) : List ActionEntry :=
  file.investigators.flatMap (·.elderSign.toList) ++
  file.assets.flatMap (·.actions.values) ++
  file.events.flatMap (·.actions.values) ++
  file.abilities.flatMap (·.actions.values) ++
  file.skills.flatMap (·.actions.values)

/-- One of the modifiers in a card file is a small number. -/
def HasSmallNumber (file : CardFile) : Prop :=
  ∃ e ∈ file.allActions, e.HasSmallNumber

instance : DecidablePred HasSmallNumber := fun file =>
  inferInstanceAs (Decidable (∃ e ∈ file.allActions, e.HasSmallNumber))

/-- A card file comes back card by card. -/
lemma reread_format (file : CardFile) :
    CardFile.format.reread file =
      { investigators := file.investigators.map InvestigatorEntry.format.reread
        assets := file.assets.map AssetEntry.format.reread
        events := file.events.map EventEntry.format.reread
        abilities := file.abilities.map PlainEntry.format.reread
        skills := file.skills.map PlainEntry.format.reread } :=
  rfl

/-- A card file comes back unchanged if all its actions do. -/
lemma reread_eq_self_iff_allActions {file : CardFile} :
    CardFile.format.reread file = file ↔
      ∀ e ∈ file.allActions, ActionEntry.format.reread e = e := by
  have hinvestigator (e : InvestigatorEntry) : InvestigatorEntry.format.reread e = e ↔
      ∀ a ∈ e.elderSign.toList, ActionEntry.format.reread a = a := by
    rw [InvestigatorEntry.reread_format, ← option_map_eq_self_iff]
    cases e
    simp
  have hasset (e : AssetEntry) : AssetEntry.format.reread e = e ↔
      ∀ a ∈ e.actions.values, ActionEntry.format.reread a = a := by
    rw [AssetEntry.reread_format, ← ByTiming.map_eq_self_iff]
    cases e
    simp
  have hevent (e : EventEntry) : EventEntry.format.reread e = e ↔
      ∀ a ∈ e.actions.values, ActionEntry.format.reread a = a := by
    rw [EventEntry.reread_format, ← ByTiming.map_eq_self_iff]
    cases e
    simp
  have hplain (e : PlainEntry) : PlainEntry.format.reread e = e ↔
      ∀ a ∈ e.actions.values, ActionEntry.format.reread a = a := by
    rw [PlainEntry.reread_format, ← ByTiming.map_eq_self_iff]
    cases e
    simp
  obtain ⟨investigators, assets, events, abilities, skills⟩ := file
  rw [reread_format, CardFile.mk.injEq, map_eq_self_iff_of_parts hinvestigator,
    map_eq_self_iff_of_parts hasset, map_eq_self_iff_of_parts hevent,
    map_eq_self_iff_of_parts hplain, map_eq_self_iff_of_parts hplain]
  simp only [allActions, List.mem_append, or_imp, forall_and, and_assoc]

/-- A card file comes back unchanged unless one of its modifiers is a small number. -/
theorem reread_eq_self_iff {file : CardFile} :
    CardFile.format.reread file = file ↔ ¬ file.HasSmallNumber := by
  rw [reread_eq_self_iff_allActions, HasSmallNumber]
  simp only [ActionEntry.reread_eq_self_iff, not_exists, not_and]

/-- Card files that were read come back unchanged. -/
lemma settled_format : CardFile.format.Settled := by
  refine settled_via (fun _ => rfl) (settled_record _ ?_)
  exact settled_opt _ (settled_list InvestigatorEntry.settled_format) rfl <|
    settled_opt _ (settled_list AssetEntry.settled_format) rfl <|
    settled_opt _ (settled_list EventEntry.settled_format) rfl <|
    settled_opt _ (settled_list PlainEntry.settled_format) rfl <|
    settled_opt _ (settled_list PlainEntry.settled_format) rfl trivial

/-- All keys of a card file are told apart. -/
lemma wellKeyed_format : CardFile.format.wellKeyed := by
  decide +kernel

/-- There is no tagged value in a card file. -/
lemma covers_format : CardFile.format.Covers :=
  CardFile.format.covers_of_untagged rfl

/-- **A card file comes back from every tree that says what is written for it.** -/
theorem decode_of_says_encode {φ : Type} (r : Reading φ) {t : Tree φ} {file : CardFile}
    (h : ¬ file.HasSmallNumber) (ht : t.Says (CardFile.format.encode file)) :
    CardFile.format.decode r t = .ok file := by
  rw [Format.decode_of_says_encode wellKeyed_format covers_format r ht, reread_eq_self_iff.2 h]

/-- **No card file that was read has a small number.** -/
theorem not_hasSmallNumber_of_decode {φ : Type} {r : Reading φ} {t : Tree φ} {file : CardFile}
    (h : CardFile.format.decode r t = .ok file) : ¬ file.HasSmallNumber :=
  reread_eq_self_iff.1 (settled_format r t file h)

end CardFile

/-- The passive actions are written under the key that card files use for them, and not under the
one that is also accepted. -/
def WritesPassive (j : Json) (actions : ByTiming ActionEntry) : Prop :=
  j.get? Timing.passive.keyword = some (ActionEntry.format.list.encode actions.passive) ∧
    j.get? "passive" = none

/-- **What is written for a card file is read as that card file**, in the order in which it is
written and in the order of its keys, if none of its modifiers is a small number; of the modifiers
of a card file that was read none is. -/
theorem cardFile_roundTrip (file : CardFile) :
    (∀ {φ : Type} (r : Reading φ) (t : Tree φ),
      CardFile.format.decode r t = .ok file → ¬ file.HasSmallNumber) ∧
    (¬ file.HasSmallNumber → ∀ (r : Reading Empty) (j : Json), CardFile.format.Writes file j →
      CardFile.format.decode r j = .ok file ∧
      ∀ file', CardFile.format.decode r j = .ok file' → file'.toRecords = file.toRecords) ∧
    (∀ e ∈ file.assets, WritesPassive (AssetEntry.format.encode e) e.actions) ∧
    (∀ e ∈ file.events, WritesPassive (EventEntry.format.encode e) e.actions) ∧
    ∀ e ∈ file.abilities ++ file.skills, WritesPassive (PlainEntry.format.encode e) e.actions := by
  refine ⟨fun r t h => CardFile.not_hasSmallNumber_of_decode h, fun h r j hj => ?_, ?_, ?_, ?_⟩
  · have hread := CardFile.decode_of_says_encode r h (says_of_writes CardFile.wellKeyed_format hj)
    refine ⟨hread, fun file' hfile' => ?_⟩
    rw [hread] at hfile'
    cases hfile'
    rfl
  · exact fun e _ => ⟨rfl, rfl⟩
  · exact fun e _ => ⟨rfl, rfl⟩
  · exact fun e _ => ⟨rfl, rfl⟩

/-- A card file with an asset whose skill, optional skill and modifiers are all there. -/
def knifeFile : CardFile where
  assets :=
    [{ name := "Knife", faction := "Neutral", cost := 1, slot := some "Hand"
       actions :=
        { activate :=
            [{ tag := "fight"
               skills :=
                { skill := { combat := 1 }
                  optional :=
                    some { skill := { combat := 1 }, location := some "undiscovered_clues" } }
               modifiers :=
                [.ofList [("damage", .amount 1), ("price", .number 300)],
                  .ofList [("condition", .text "only_enemy_engaged")]] }]
          passive := [{ tag := "fight" }] } }]

/-- The knife comes back. -/
theorem knifeFile_roundTrip :
    ¬ knifeFile.HasSmallNumber ∧
    CardFile.format.decode .value (CardFile.format.encode knifeFile) = .ok knifeFile := by
  have hnumbers : ¬ knifeFile.HasSmallNumber := by decide +kernel
  have hread := ((cardFile_roundTrip knifeFile).2.1 hnumbers .value _ (.inl rfl)).1
  exact ⟨(cardFile_roundTrip knifeFile).1 .value _ hread, hread⟩

end CardRules
