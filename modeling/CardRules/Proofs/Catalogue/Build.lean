import CardRules.Catalogue
import CardRules.Proofs.Compile.Faults

/-!
# What building a card comes to

A card is built in two parts.  Its words are looked up first, `CardRecord.words`, and this part does
not depend on the policy.  Its actions are compiled afterwards, and what that comes to is known from
the list of its actions with their places.  `CardRecord.build_cases` puts the two together: it lists
the three ways in which building a card can end.  Later modules know of `CardRecord.build` what is
said here: from a card that was built back to its record by `exists_of_build_eq_ok`, and from an
action that did not compile by `of_build_eq_compile`.
-/

namespace CardRules

namespace CardRecord

/-- The faction and the slot that the words of a record stand for; the faction is looked up
first. -/
def words (r : CardRecord) : Except UnknownWord (Faction × Option Slot) := do
  let faction ← Registered.ofWord Faction r.factionWord
  let slot ← match r.slotWord? with
    | none => pure none
    | some w => some <$> Registered.ofWord Slot w
  return (faction, slot)

/-- The report of a record whose words are known and whose actions all compile. -/
def reportWith (r : CardRecord) (policy : Policy) (faction : Faction) (slot : Option Slot) :
    Report :=
  ⟨r.assemble faction slot (r.actions.filterMap Action.effect?), policy.notes r.actions.placed⟩

/-- The card of a record has its name. -/
lemma name_assemble (r : CardRecord) (faction : Faction) (slot : Option Slot)
    (effects : ByTiming Effect) : (r.assemble faction slot effects).name = r.name := by
  cases r <;> rfl

/-- The building of a card, its words first and its actions afterwards. -/
lemma build_eq (r : CardRecord) (policy : Policy) :
    r.build policy = match r.words with
      | .error e => .error (.unknownWord r.name e)
      | .ok (faction, slot) =>
        (r.actions.placed.findSome? policy.fault?).elim (.ok (r.reportWith policy faction slot))
          fun e => .error (.compile r.name e) := by
  have hrun := compileAll_worksThrough policy r.actions []
  rw [List.nil_append] at hrun
  unfold build words
  rw [hrun]
  cases Registered.ofWord Faction r.factionWord with
  | error e => rfl
  | ok faction =>
    cases r.slotWord? with
    | none => cases r.actions.placed.findSome? policy.fault? <;> rfl
    | some w =>
      cases hslot : Registered.ofWord Slot w with
      | error e => simp only [hslot]; rfl
      | ok slot =>
        simp only [hslot]
        cases r.actions.placed.findSome? policy.fault? <;> rfl

/-- **The three ends of building a card.**  A word is not registered; or the words are known and an
action is at fault; or the card is built. -/
theorem build_cases (r : CardRecord) (policy : Policy) :
    (∃ e, r.words = .error e ∧ r.build policy = .error (.unknownWord r.name e)) ∨
    (∃ words e, r.words = .ok words ∧ r.actions.placed.findSome? policy.fault? = some e ∧
      r.build policy = .error (.compile r.name e)) ∨
    (∃ faction slot, r.words = .ok (faction, slot) ∧
      r.actions.placed.findSome? policy.fault? = none ∧
      r.build policy = .ok (r.reportWith policy faction slot)) := by
  have hbuild := r.build_eq policy
  cases hwords : r.words with
  | error e =>
    rw [hwords] at hbuild
    exact .inl ⟨e, rfl, hbuild⟩
  | ok words =>
    obtain ⟨faction, slot⟩ := words
    rw [hwords] at hbuild
    cases hfault : r.actions.placed.findSome? policy.fault? with
    | some e =>
      rw [hfault] at hbuild
      exact .inr (.inl ⟨_, e, rfl, rfl, hbuild⟩)
    | none =>
      rw [hfault] at hbuild
      exact .inr (.inr ⟨faction, slot, rfl, rfl, hbuild⟩)

/-- A card is only built from known words and actions that are not at fault. -/
lemma exists_of_build_eq_ok {r : CardRecord} {policy : Policy} {report : Report}
    (h : r.build policy = .ok report) :
    ∃ faction slot, r.words = .ok (faction, slot) ∧
      r.actions.placed.findSome? policy.fault? = none ∧
      report = r.reportWith policy faction slot := by
  rcases r.build_cases policy with
    ⟨e, -, hbuild⟩ | ⟨words, e, -, -, hbuild⟩ | ⟨faction, slot, hwords, hclean, hbuild⟩
  · rw [hbuild] at h; cases h
  · rw [hbuild] at h; cases h
  · have hreport : r.reportWith policy faction slot = report :=
      Except.ok.inj (hbuild.symm.trans h)
    exact ⟨faction, slot, hwords, hclean, hreport.symm⟩

/-- Where the actions of a card do not compile, its words are known. -/
lemma of_build_eq_compile {r : CardRecord} {policy : Policy} {card : String} {e : CompileError}
    (h : r.build policy = .error (.compile card e)) :
    card = r.name ∧ (∃ words, r.words = .ok words) ∧
      r.actions.placed.findSome? policy.fault? = some e := by
  rcases r.build_cases policy with
    ⟨e', -, hbuild⟩ | ⟨words, e', hwords, hfault, hbuild⟩ | ⟨_, _, -, -, hbuild⟩
  · rw [hbuild] at h; cases h
  · rw [hbuild] at h
    cases h
    exact ⟨rfl, ⟨words, hwords⟩, hfault⟩
  · rw [hbuild] at h; cases h

end CardRecord

/-! ## Reports of a catalogue -/

namespace Catalogue

variable {c : Catalogue} {kind : CardKind} {name : String}

/-- Nothing is reported about a card without a record, and only about such a card. -/
lemma report_eq_none_iff : c.report kind name = .ok none ↔ c.index.find? kind name = none := by
  unfold report
  cases c.index.find? kind name with
  | none => simp
  | some r => cases hbuild : r.build c.policy <;> simp [hbuild, Functor.map, Except.map]

/-- A report is that of the record of the card. -/
lemma report_eq_some_iff {report : Report} :
    c.report kind name = .ok (some report) ↔
      ∃ r, c.index.find? kind name = some r ∧ r.build c.policy = .ok report := by
  unfold Catalogue.report
  cases c.index.find? kind name with
  | none => simp
  | some r => cases hbuild : r.build c.policy <;> simp [hbuild, Functor.map, Except.map]

/-- An error is that of the record of the card. -/
lemma report_eq_error_iff {e : BuildError} :
    c.report kind name = .error e ↔
      ∃ r, c.index.find? kind name = some r ∧ r.build c.policy = .error e := by
  unfold report
  cases c.index.find? kind name with
  | none => simp
  | some r => cases hbuild : r.build c.policy <;> simp [hbuild, Functor.map, Except.map]

/-- The report on the record of a card. -/
lemma report_of_find? {r : CardRecord} (h : c.index.find? kind name = some r) :
    c.report kind name = some <$> r.build c.policy := by
  rw [report, h]

/-- The report on a card, or the error in place of it, is what building its record comes to. -/
lemma report_eq_map_iff {r : CardRecord} (h : c.index.find? kind name = some r)
    (result : Except BuildError Report) :
    c.report kind name = some <$> result ↔ r.build c.policy = result := by
  rw [report_of_find? h]
  cases r.build c.policy <;> cases result <;> simp [Functor.map, Except.map]

end Catalogue

end CardRules
