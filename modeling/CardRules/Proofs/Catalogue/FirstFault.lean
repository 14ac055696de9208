import CardRules.Proofs.Catalogue.Index
import CardRules.Proofs.Catalogue.Policies
import CardRules.Proofs.Vocabulary

/-!
# Which fault of a record is reported

A record may have several faults at once: its faction and its slot may be words that are not
registered, and its actions may be at fault too.  `CardRecord.FirstFault` says which of them comes
first, without regard to how a card is built, and `CardRecord.Faultless` says that there is none.
Every record has a first fault or is faultless, the building of the card fails with the first fault,
and it succeeds if there is none.

The main statement, `Catalogue.report_firstFault`, says so for the cards of a catalogue, where all
errors and all cards have the name that was looked up.
-/

namespace CardRules

/-! ## Actions at fault -/

/-- An action is at fault under a policy: it has a word that is not registered or, under the strict
policy, a warning. -/
inductive Placed.Faulty (policy : Policy) (p : Placed) : CompileError → Prop
  | unknownWord (e : UnknownWord) : p.action.effect = .error e → Faulty policy p (.unknownWord e)
  | rejected (w : Warning) : policy = .strict → p.action.warning? = some w →
      Faulty policy p (.rejected p.timing p.index w)

/-- A fault of some actions is the *first* one if no action in front is at fault. -/
def FirstFaulty (policy : Policy) (ps : List Placed) (e : CompileError) : Prop :=
  ∃ before p after, ps = before ++ p :: after ∧ p.Faulty policy e ∧
    ∀ q ∈ before, ∀ e', ¬ q.Faulty policy e'

namespace Policy

variable {policy : Policy}

/-- What a policy objects to in an action is its fault. -/
lemma fault?_eq_some_iff {p : Placed} {e : CompileError} :
    policy.fault? p = some e ↔ p.Faulty policy e := by
  constructor
  · intro h
    cases ha : p.action.effect with
    | error e' =>
      rw [fault?_of_error ha] at h
      cases h
      exact .unknownWord e' ha
    | ok compiled =>
      cases policy with
      | lenient => rw [lenient_fault?_of_ok ha] at h; cases h
      | strict =>
        rw [strict_fault?_of_ok ha] at h
        obtain ⟨w, hw, rfl⟩ := Option.map_eq_some_iff.1 h
        exact .rejected w rfl ((Action.warning?_of_ok ha).trans hw)
  · intro h
    cases h with
    | unknownWord e' ha => exact fault?_of_error ha
    | rejected w hstrict hw =>
      subst hstrict
      cases ha : p.action.effect with
      | error e' => simp only [Action.warning?, ha, reduceCtorEq] at hw
      | ok compiled =>
        rw [Action.warning?_of_ok ha] at hw
        rw [strict_fault?_of_ok ha, hw]
        rfl

/-- A policy does not object to an action that is not at fault. -/
lemma fault?_eq_none_iff {p : Placed} :
    policy.fault? p = none ↔ ∀ e, ¬ p.Faulty policy e := by
  simp only [Option.eq_none_iff_forall_ne_some, ne_eq, fault?_eq_some_iff]

/-- A search for what a policy objects to finds the first fault. -/
lemma findSome?_eq_some_iff {ps : List Placed} {e : CompileError} :
    ps.findSome? policy.fault? = some e ↔ FirstFaulty policy ps e := by
  simp only [List.findSome?_eq_some_iff, FirstFaulty, fault?_eq_some_iff, fault?_eq_none_iff]

/-- A search for what a policy objects to finds nothing if no action is at fault. -/
lemma findSome?_eq_none_iff {ps : List Placed} :
    ps.findSome? policy.fault? = none ↔ ∀ p ∈ ps, ∀ e, ¬ p.Faulty policy e := by
  simp only [List.findSome?_eq_none_iff, fault?_eq_none_iff]

end Policy

/-! ## Faults of a record -/

namespace CardRecord

open Registered (IsWord)

/-- The first fault of a record, in the order in which faults are looked for: the word for the
faction, the word for the slot, which only an asset can have, and the actions by their places.  The
elder sign of an investigator is its first trigger. -/
inductive FirstFault (policy : Policy) (r : CardRecord) : BuildError → Prop
  | faction : ¬ IsWord Faction r.factionWord →
      FirstFault policy r (.unknownWord r.name ⟨r.factionWord, .factions⟩)
  | slot (w : String) : IsWord Faction r.factionWord → r.slotWord? = some w → ¬ IsWord Slot w →
      FirstFault policy r (.unknownWord r.name ⟨w, .slots⟩)
  | action (e : CompileError) : IsWord Faction r.factionWord →
      (∀ w, r.slotWord? = some w → IsWord Slot w) → FirstFaulty policy r.actions.placed e →
      FirstFault policy r (.compile r.name e)

/-- A record without any fault. -/
structure Faultless (policy : Policy) (r : CardRecord) : Prop where
  faction : IsWord Faction r.factionWord
  slot : ∀ w, r.slotWord? = some w → IsWord Slot w
  actions : ∀ p ∈ r.actions.placed, ∀ e, ¬ p.Faulty policy e

variable {r : CardRecord} {policy : Policy}

/-- The words of a record with an unknown faction. -/
lemma words_of_unknown_faction (h : ¬ IsWord Faction r.factionWord) :
    r.words = .error ⟨r.factionWord, .factions⟩ := by
  unfold words
  rw [Registered.ofWord_of_not_isWord h]
  rfl

/-- The words of a record with a known faction and an unknown slot. -/
lemma words_of_unknown_slot {w : String} (hfaction : IsWord Faction r.factionWord)
    (hw : r.slotWord? = some w) (h : ¬ IsWord Slot w) : r.words = .error ⟨w, .slots⟩ := by
  obtain ⟨faction, hfaction⟩ := hfaction
  unfold words
  rw [Registered.ofWord_eq_ok_iff.2 hfaction, hw]
  simp only [Registered.ofWord_of_not_isWord h]
  rfl

/-- The words of a record with a known faction and no unknown slot. -/
lemma exists_words (hfaction : IsWord Faction r.factionWord)
    (hslot : ∀ w, r.slotWord? = some w → IsWord Slot w) :
    ∃ faction slot, r.words = .ok (faction, slot) := by
  obtain ⟨faction, hfaction⟩ := hfaction
  unfold words
  rw [Registered.ofWord_eq_ok_iff.2 hfaction]
  cases hw : r.slotWord? with
  | none => exact ⟨faction, none, rfl⟩
  | some w =>
    obtain ⟨slot, hslot⟩ := hslot w hw
    simp only [Registered.ofWord_eq_ok_iff.2 hslot]
    exact ⟨faction, some slot, rfl⟩

/-- Building the card of a record fails with its first fault. -/
lemma FirstFault.build_eq {e : BuildError} (h : r.FirstFault policy e) :
    r.build policy = .error e := by
  rw [r.build_eq policy]
  cases h with
  | faction hfaction => rw [words_of_unknown_faction hfaction]
  | slot w hfaction hw hslot => rw [words_of_unknown_slot hfaction hw hslot]
  | action e hfaction hslot hactions =>
    obtain ⟨faction, slot, hwords⟩ := exists_words hfaction hslot
    rw [hwords, Policy.findSome?_eq_some_iff.2 hactions]
    rfl

/-- Building the card of a faultless record succeeds. -/
lemma Faultless.exists_build (h : r.Faultless policy) : ∃ report, r.build policy = .ok report := by
  obtain ⟨faction, slot, hwords⟩ := exists_words h.faction h.slot
  rw [r.build_eq policy, hwords, Policy.findSome?_eq_none_iff.2 h.actions]
  exact ⟨_, rfl⟩

/-- A record has a first fault or none. -/
lemma exists_firstFault_or_faultless (r : CardRecord) (policy : Policy) :
    (∃ e, r.FirstFault policy e) ∨ r.Faultless policy := by
  by_cases hfaction : IsWord Faction r.factionWord
  · by_cases hslot : ∀ w, r.slotWord? = some w → IsWord Slot w
    · cases hfault : r.actions.placed.findSome? policy.fault? with
      | some e =>
        exact .inl ⟨_, .action e hfaction hslot (Policy.findSome?_eq_some_iff.1 hfault)⟩
      | none => exact .inr ⟨hfaction, hslot, Policy.findSome?_eq_none_iff.1 hfault⟩
    · push Not at hslot
      obtain ⟨w, hw, hslot⟩ := hslot
      exact .inl ⟨_, .slot w hfaction hw hslot⟩
  · exact .inl ⟨_, .faction hfaction⟩

/-- **Building a card fails exactly with the first fault of its record.** -/
lemma build_eq_error_iff {e : BuildError} : r.build policy = .error e ↔ r.FirstFault policy e := by
  constructor
  · intro hbuild
    rcases r.exists_firstFault_or_faultless policy with ⟨e', hfault⟩ | hfaultless
    · have heq : e' = e := Except.error.inj (hfault.build_eq.symm.trans hbuild)
      exact heq ▸ hfault
    · obtain ⟨report, hreport⟩ := hfaultless.exists_build
      rw [hreport] at hbuild
      cases hbuild
  · exact FirstFault.build_eq

/-- **Building a card succeeds exactly if its record is faultless.** -/
lemma exists_build_iff : (∃ report, r.build policy = .ok report) ↔ r.Faultless policy := by
  constructor
  · rintro ⟨report, hbuild⟩
    rcases r.exists_firstFault_or_faultless policy with ⟨e, hfault⟩ | hfaultless
    · rw [hfault.build_eq] at hbuild
      cases hbuild
    · exact hfaultless
  · exact Faultless.exists_build

end CardRecord

/-! ## Reports of a catalogue -/

/-- The card that an error is about. -/
def BuildError.card : BuildError → String
  | .unknownWord card _ => card
  | .compile card _ => card

/-- The first fault of a record is about its card. -/
lemma CardRecord.FirstFault.card_eq {policy : Policy} {r : CardRecord} {e : BuildError}
    (h : r.FirstFault policy e) : e.card = r.name := by
  cases h <;> rfl

/-- The record of a name has the name. -/
lemma Index.name_of_find? {rs : Records} {kind : CardKind} {name : String} {r : CardRecord}
    (h : (Index.ofRecords rs).find? kind name = some r) : r.name = name := by
  rw [find?_ofRecords] at h
  obtain ⟨-, -, -, hname, -⟩ := find?_name_eq_some_iff.1 h
  exact hname

/-- **Of several faults the first one is reported.**  For a card that has a record in the collection
of a catalogue

* the report fails exactly with the first fault of the record: the faction if its word is not
  registered, else the slot if there is one and its word is not registered, else the first action
  that is at fault under the policy;
* the card is built exactly if there is no such fault;
* each error is about the card that was asked for, and no card is given with it;
* the card that is built has the name that was asked for. -/
theorem Catalogue.report_firstFault (rs : Records) (policy : Policy) (kind : CardKind)
    (name : String) (r : CardRecord)
    (hr : (Index.ofRecords rs).find? kind name = some r) :
    let c := Catalogue.ofRecords rs policy
    (∀ e, c.report kind name = .error e ↔ r.FirstFault policy e) ∧
    ((∃ report, c.report kind name = .ok (some report)) ↔ r.Faultless policy) ∧
    (∀ e, c.report kind name = .error e → e.card = name ∧ c.card kind name = .error e) ∧
    ∀ report, c.report kind name = .ok (some report) →
      report.card.name = name ∧ c.card kind name = .ok (some report.card) := by
  intro c
  have hname : r.name = name := Index.name_of_find? hr
  have hbuilt (report : Report) :
      c.report kind name = .ok (some report) ↔ r.build policy = .ok report :=
    report_eq_map_iff hr (.ok report)
  have hfault (e : BuildError) : c.report kind name = .error e ↔ r.FirstFault policy e :=
    (report_eq_map_iff hr (.error e)).trans CardRecord.build_eq_error_iff
  refine ⟨hfault, ?_, ?_, ?_⟩
  · rw [← CardRecord.exists_build_iff]
    exact exists_congr hbuilt
  · intro e he
    have hcard : e.card = r.name := ((hfault e).1 he).card_eq
    refine ⟨hcard.trans hname, ?_⟩
    rw [card, he]
    rfl
  · intro report hreport
    obtain ⟨-, -, hcard⟩ := CardRecord.words_of_build_ok ((hbuilt report).1 hreport)
    refine ⟨hcard.trans hname, ?_⟩
    rw [card, hreport]
    rfl

/-- A ring that is worn at a slot, with three actions.  Nobody knows the tag of the second action or
the location of the third one. -/
def ring (slot : String) : AssetRecord where
  name := "Ring"
  faction := "seeker"
  cost := 2
  skill := {}
  slot := some slot
  actions :=
    { trigger := [.ofTag "skill_test", .ofTag "sing"]
      discard := [{ tag := "fight", optional := some ⟨{}, "location", "by_the_sea"⟩ }] }

/-- Nobody knows a slot for fingers, so the actions of a ring worn there do not matter.  Of a ring worn
at the hand the second action is reported under the strict policy, and the third one under the
lenient policy. -/
theorem Catalogue.report_firstFault_ring :
    (ofRecords { assets := [ring "finger"] } .strict).report .asset "Ring" =
        .error (.unknownWord "Ring" ⟨"finger", .slots⟩) ∧
      (ofRecords { assets := [ring "hand"] } .strict).report .asset "Ring" =
        .error (.compile "Ring" (.rejected .trigger 1 (.unknownAction "sing"))) ∧
      (ofRecords { assets := [ring "hand"] } .lenient).report .asset "Ring" =
        .error (.compile "Ring" (.unknownWord ⟨"by_the_sea", .locationConditions⟩)) := by
  have hslot (w : String) (hw : (CardRecord.asset (ring "hand")).slotWord? = some w) :
      Registered.IsWord Slot w := by
    cases hw
    decide
  refine ⟨?_, ?_, ?_⟩
  · have hreport := (report_firstFault { assets := [ring "finger"] } .strict .asset "Ring" _ rfl).1
    exact (hreport _).2 (.slot "finger" (by decide) rfl (by decide))
  · have hreport := (report_firstFault { assets := [ring "hand"] } .strict .asset "Ring" _ rfl).1
    exact (hreport _).2 (.action _ (by decide) hslot (Policy.findSome?_eq_some_iff.1 rfl))
  · have hreport := (report_firstFault { assets := [ring "hand"] } .lenient .asset "Ring" _ rfl).1
    exact (hreport _).2 (.action _ (by decide) hslot (Policy.findSome?_eq_some_iff.1 rfl))

end CardRules
