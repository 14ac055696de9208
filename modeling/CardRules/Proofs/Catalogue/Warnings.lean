import CardRules.Proofs.Catalogue.Policies

/-!
# A report has the warnings of its own card

The warnings noted so far go from action to action while a card is compiled, and they are kept when
the compilation fails half way.  Still, what a compilation adds to them is settled by its own
policy and its own actions (`Policy.warnings`), and so is its outcome.  As a report starts without
warnings, it has none of another card.  The main statement is `warnings_of_own_actions`.
-/

namespace CardRules

/-- The warnings that a policy leaves about the actions of a card.  The strict policy leaves none; the
lenient one leaves those of the actions in front of the first with a word that is not registered,
and those of all actions if there is no such word. -/
def Policy.warnings : Policy → ByTiming Action → List Warning
  | .strict, _ => []
  | .lenient, actions =>
    (actions.placed.takeWhile fun p => p.action.effect.isOk).filterMap fun p => p.action.warning?

/-- The lenient policy objects to an action exactly if it does not compile. -/
lemma Policy.isNone_lenient_fault? (p : Placed) :
    (Policy.lenient.fault? p).isNone = p.action.effect.isOk := by
  cases h : p.action.effect with
  | error e =>
    rw [fault?_of_error h]
    rfl
  | ok compiled =>
    rw [lenient_fault?_of_ok h]
    rfl

/-- What is noted on the way through the actions of a card are the warnings that the policy leaves. -/
lemma Policy.notes_placed (policy : Policy) (actions : ByTiming Action) :
    policy.notes actions.placed = policy.warnings actions := by
  cases policy with
  | strict => exact strict_notes actions.placed
  | lenient => simp only [notes, warnings, isNone_lenient_fault?]

/-- Every warning is one of an action of the card. -/
lemma Policy.exists_of_mem_warnings {policy : Policy} {actions : ByTiming Action} {w : Warning}
    (h : w ∈ policy.warnings actions) : ∃ p ∈ actions.placed, p.action.warning? = some w := by
  cases policy with
  | strict => exact absurd h List.not_mem_nil
  | lenient =>
    obtain ⟨p, hp, hw⟩ := List.mem_filterMap.1 h
    have hplaced : p ∈ actions.placed := (List.takeWhile_prefix _).subset hp
    exact ⟨p, hplaced, hw⟩

/-- **A report has the warnings of its own card.**

* A compilation comes to the same result whatever was noted before, and whether it succeeds or fails
  it puts the warnings that its policy leaves about its own actions behind the earlier ones.
* The warnings of a report are those that the policy leaves about the actions of the record of the
  card, so that each of them is the warning of one of these actions. -/
theorem warnings_of_own_actions :
    (∀ (policy : Policy) (actions : ByTiming Action),
      ∃ result : Except CompileError (ByTiming Effect), ∀ ws,
        (compileAll policy actions).runFrom ws = (result, ws ++ policy.warnings actions)) ∧
    ∀ (c : Catalogue) (kind : CardKind) (name : String) (report : Report),
      c.report kind name = .ok (some report) →
        ∃ r, c.index.find? kind name = some r ∧ report.warnings = c.policy.warnings r.actions ∧
          ∀ w ∈ report.warnings, ∃ p ∈ r.actions.placed, p.action.warning? = some w := by
  constructor
  · intro policy actions
    have hrun := compileAll_worksThrough policy actions
    rw [Compiling.WorksThrough, policy.notes_placed] at hrun
    exact ⟨_, hrun⟩
  · intro c kind name report hreport
    obtain ⟨r, hr, hbuild⟩ := Catalogue.report_eq_some_iff.1 hreport
    obtain ⟨-, hnotes, -⟩ := CardRecord.words_of_build_ok hbuild
    have hwarnings : report.warnings = c.policy.warnings r.actions := by
      rw [hnotes, Policy.notes_placed]
    refine ⟨r, hr, hwarnings, ?_⟩
    intro w hw
    rw [hwarnings] at hw
    exact Policy.exists_of_mem_warnings hw

/-- An event that is not built: there is a fight at a location that nobody knows, and in front of it an
action that nobody knows either. -/
def chant : EventRecord where
  name := "Chant"
  faction := "mystic"
  cost := 0
  skill := {}
  actions :=
    { activate := [.ofTag "chant"]
      discard := [{ tag := "fight", optional := some ⟨{}, "location", "by_the_sea"⟩ }] }

/-- An event with one action that nobody knows. -/
def dance : EventRecord where
  name := "Dance"
  faction := "rogue"
  cost := 1
  skill := {}
  actions := { passive := [.ofTag "dance"] }

/-- The chant leaves a warning and is not built.  The report on the dance does not have that
warning. -/
theorem warnings_of_own_actions_dance :
    let c := Catalogue.ofRecords { events := [chant, dance] } .lenient
    (∀ ws, ((compileAll .lenient chant.actions).runFrom ws).2 = ws ++ [.unknownAction "chant"]) ∧
      ∃ error report, c.report .event "Chant" = .error error ∧
        c.report .event "Dance" = .ok (some report) ∧
        report.warnings = [.unknownAction "dance"] := by
  intro c
  constructor
  · intro ws
    obtain ⟨result, hrun⟩ := warnings_of_own_actions.1 .lenient chant.actions
    rw [hrun]
    rfl
  · obtain ⟨r, hr, hwarnings, -⟩ := warnings_of_own_actions.2 c .event "Dance" _ rfl
    refine ⟨_, _, rfl, rfl, hwarnings.trans ?_⟩
    cases hr
    rfl

end CardRules
