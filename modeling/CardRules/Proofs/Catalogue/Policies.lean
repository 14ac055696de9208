import CardRules.Proofs.Catalogue.Build

/-!
# The strict policy against the lenient one

Both policies look at the actions of a card in the same order and object to the same words.  The
strict one also objects to the first warning, so the two part at the first action that compiles with
a warning, if it comes before every word that is not registered.

The lists of actions are compared first.  The comparison of two lenient and strict reports,
`strict_report_of_lenient`, then follows from the way a card is built.
-/

namespace CardRules

/-! ## Lists of actions under both policies -/

/-- The first of some actions that compiles with a warning stands at the given place. -/
def FirstWarned (ps : List Placed) (timing : Timing) (index : Nat) (w : Warning) : Prop :=
  ∃ before a after, ps = before ++ ⟨timing, index, a⟩ :: after ∧ a.warning? = some w ∧
    ∀ q ∈ before, q.action.warning? = none

/-- The first action of a list is the first one with a warning if it has one. -/
lemma firstWarned_head {p : Placed} {w : Warning} (h : p.action.warning? = some w)
    (ps : List Placed) : FirstWarned (p :: ps) p.timing p.index w :=
  ⟨[], p.action, ps, rfl, h, fun _ hq => absurd hq List.not_mem_nil⟩

/-- An action without a warning in front does not change which one is the first with a warning. -/
lemma FirstWarned.cons {p : Placed} {ps : List Placed} {timing : Timing} {index : Nat} {w : Warning}
    (hp : p.action.warning? = none) (h : FirstWarned ps timing index w) :
    FirstWarned (p :: ps) timing index w := by
  obtain ⟨before, a, after, rfl, ha, hbefore⟩ := h
  refine ⟨p :: before, a, after, rfl, ha, fun q hq => ?_⟩
  rcases List.mem_cons.1 hq with rfl | hq
  · exact hp
  · exact hbefore q hq

namespace Policy

variable {ps : List Placed}

/-- The strict policy notes nothing: it stops where it would have to. -/
lemma strict_notes (ps : List Placed) : Policy.strict.notes ps = [] := by
  induction ps with
  | nil => rfl
  | cons p ps ih =>
    cases hp : Policy.strict.fault? p with
    | some e => exact notes_cons_of_fault hp
    | none =>
      rw [notes_cons_of_clean hp, ih, List.append_nil]
      cases ha : p.action.effect with
      | error e => rw [fault?_of_error ha] at hp; simp at hp
      | ok compiled =>
        rw [strict_fault?_of_ok ha] at hp
        rw [Action.warning?_of_ok ha, Option.map_eq_none_iff.1 hp]
        rfl

/-- Without notes the two policies find the same first fault. -/
lemma strict_findSome?_of_notes_nil (h : Policy.lenient.notes ps = []) :
    ps.findSome? Policy.strict.fault? = ps.findSome? Policy.lenient.fault? := by
  induction ps with
  | nil => rfl
  | cons p ps ih =>
    rw [List.findSome?_cons, List.findSome?_cons]
    cases ha : p.action.effect with
    | error e => rw [fault?_of_error ha, fault?_of_error ha]
    | ok compiled =>
      have hp := lenient_fault?_of_ok ha
      rw [notes_cons_of_clean hp, Action.warning?_of_ok ha] at h
      obtain ⟨hw, hps⟩ := List.append_eq_nil_iff.1 h
      rw [Option.toList_eq_nil_iff] at hw
      rw [hp, strict_fault?_of_ok ha, hw, ih hps]
      rfl

/-- The first note is where the strict policy stops. -/
lemma strict_findSome?_of_notes_cons {w : Warning} {ws : List Warning}
    (h : Policy.lenient.notes ps = w :: ws) :
    ∃ timing index, FirstWarned ps timing index w ∧
      ps.findSome? Policy.strict.fault? = some (.rejected timing index w) := by
  induction ps with
  | nil => simp at h
  | cons p ps ih =>
    cases ha : p.action.effect with
    | error e =>
      rw [notes_cons_of_fault (fault?_of_error ha)] at h
      simp at h
    | ok compiled =>
      have hwarning := Action.warning?_of_ok ha
      have hstrict := strict_fault?_of_ok ha
      rw [notes_cons_of_clean (lenient_fault?_of_ok ha), hwarning] at h
      rw [List.findSome?_cons]
      cases hw : compiled.warning with
      | none =>
        rw [hw] at h hwarning hstrict
        obtain ⟨timing, index, hfirst, hfault⟩ := ih h
        refine ⟨timing, index, hfirst.cons hwarning, ?_⟩
        rw [hstrict]
        exact hfault
      | some w' =>
        rw [hw] at h hwarning hstrict
        obtain rfl : w' = w := List.head_eq_of_cons_eq h
        refine ⟨p.timing, p.index, firstWarned_head hwarning ps, ?_⟩
        rw [hstrict]
        rfl

/-- Where the lenient policy stops, a word is not registered, every action before compiles, and the
notes are the warnings of those actions. -/
lemma lenient_findSome?_eq_some {e : CompileError}
    (h : ps.findSome? Policy.lenient.fault? = some e) :
    ∃ before p after e', ps = before ++ p :: after ∧ p.action.effect = .error e' ∧
      e = .unknownWord e' ∧ (∀ q ∈ before, ∃ compiled, q.action.effect = .ok compiled) ∧
      Policy.lenient.notes ps = before.filterMap fun q => q.action.warning? := by
  obtain ⟨before, p, after, rfl, hp, hbefore⟩ := List.findSome?_eq_some_iff.1 h
  have hclean : before.findSome? Policy.lenient.fault? = none :=
    List.findSome?_eq_none_iff.2 hbefore
  cases ha : p.action.effect with
  | ok compiled => rw [lenient_fault?_of_ok ha] at hp; simp at hp
  | error e' =>
    refine ⟨before, p, after, e', rfl, ha, ?_, fun q hq => ?_, ?_⟩
    · rw [fault?_of_error ha] at hp
      exact (Option.some_inj.1 hp).symm
    · cases hq' : q.action.effect with
      | error e'' => have := hbefore q hq; rw [fault?_of_error hq'] at this; simp at this
      | ok compiled => exact ⟨compiled, rfl⟩
    · rw [notes_append_of_clean hclean, notes_cons_of_fault hp, List.append_nil,
        notes_of_clean hclean]

/-- Only the strict policy rejects, and it does so at the first warning. -/
lemma firstWarned_of_rejected {policy : Policy} {timing : Timing} {index : Nat} {w : Warning}
    (h : ps.findSome? policy.fault? = some (.rejected timing index w)) :
    policy = .strict ∧ FirstWarned ps timing index w := by
  cases policy with
  | lenient =>
    obtain ⟨_, _, _, e', _, _, he, _⟩ := lenient_findSome?_eq_some h
    simp at he
  | strict =>
    refine ⟨rfl, ?_⟩
    cases hnotes : Policy.lenient.notes ps with
    | nil =>
      rw [strict_findSome?_of_notes_nil hnotes] at h
      obtain ⟨_, _, _, e', _, _, he, _⟩ := lenient_findSome?_eq_some h
      simp at he
    | cons w' ws =>
      obtain ⟨t, i, hfirst, hfault⟩ := strict_findSome?_of_notes_cons hnotes
      rw [h] at hfault
      cases hfault
      exact hfirst

end Policy

/-! ## One record under both policies -/

namespace CardRecord

/-- Either the strict policy does with a record what the lenient one does, and then nothing is
noted; or it rejects the first action with a warning, which is the first thing that the lenient one
notes. -/
lemma build_strict_cases (r : CardRecord) :
    (r.build .strict = r.build .lenient ∧
      ∀ words, r.words = .ok words → Policy.lenient.notes r.actions.placed = []) ∨
    (∃ words timing index w ws, r.words = .ok words ∧
      Policy.lenient.notes r.actions.placed = w :: ws ∧
      FirstWarned r.actions.placed timing index w ∧
      r.build .strict = .error (.compile r.name (.rejected timing index w))) := by
  have hstrict := r.build_eq .strict
  have hlenient := r.build_eq .lenient
  cases hwords : r.words with
  | error e =>
    rw [hwords] at hstrict hlenient
    exact .inl ⟨hstrict.trans hlenient.symm, fun _ h => by simp at h⟩
  | ok words =>
    obtain ⟨faction, slot⟩ := words
    rw [hwords] at hstrict hlenient
    cases hnotes : Policy.lenient.notes r.actions.placed with
    | nil =>
      refine .inl ⟨?_, fun _ _ => rfl⟩
      have hreport : r.reportWith .strict faction slot = r.reportWith .lenient faction slot := by
        rw [reportWith, reportWith, Policy.strict_notes, hnotes]
      rw [hstrict, hlenient, Policy.strict_findSome?_of_notes_nil hnotes]
      simp only [hreport]
    | cons w ws =>
      obtain ⟨timing, index, hfirst, hfault⟩ := Policy.strict_findSome?_of_notes_cons hnotes
      refine .inr ⟨(faction, slot), timing, index, w, ws, rfl, rfl, hfirst, ?_⟩
      rw [hstrict, hfault]
      rfl

/-- The words of a card that is not refused for its words are known. -/
lemma words_of_build_ok {r : CardRecord} {policy : Policy} {report : Report}
    (h : r.build policy = .ok report) :
    (∃ words, r.words = .ok words) ∧ report.warnings = policy.notes r.actions.placed ∧
      report.card.name = r.name := by
  obtain ⟨faction, slot, hwords, -, rfl⟩ := exists_of_build_eq_ok h
  exact ⟨⟨_, hwords⟩, rfl, r.name_assemble ..⟩

/-- A card is built strictly exactly if it is built leniently without a warning. -/
lemma build_strict_eq_ok_iff (r : CardRecord) (report : Report) :
    r.build .strict = .ok report ↔ r.build .lenient = .ok report ∧ report.warnings = [] := by
  rcases r.build_strict_cases with ⟨heq, hnotes⟩ | ⟨_, _, _, w, ws, -, hnotes, -, hstrict⟩
  · rw [heq]
    constructor
    · intro h
      obtain ⟨⟨words, hwords⟩, hwarnings, -⟩ := words_of_build_ok h
      exact ⟨h, hwarnings.trans (hnotes words hwords)⟩
    · exact fun h => h.1
  · rw [hstrict]
    constructor
    · intro h
      cases h
    · rintro ⟨h, hnil⟩
      obtain ⟨-, hwarnings, -⟩ := words_of_build_ok h
      rw [hnil, hnotes] at hwarnings
      cases hwarnings

/-- A card that is built leniently with warnings is rejected strictly for the first of them. -/
lemma build_strict_of_warned {r : CardRecord} {report : Report} {w : Warning} {ws : List Warning}
    (h : r.build .lenient = .ok report) (hw : report.warnings = w :: ws) :
    ∃ timing index,
      r.build .strict = .error (.compile report.card.name (.rejected timing index w)) := by
  obtain ⟨⟨words, hwords⟩, hwarnings, hname⟩ := words_of_build_ok h
  rcases r.build_strict_cases with ⟨-, hnotes⟩ | ⟨_, timing, index, w', ws', -, hnotes, -, hstrict⟩
  · rw [hnotes words hwords, hw] at hwarnings
    cases hwarnings
  · rw [hnotes, hw] at hwarnings
    cases hwarnings
    exact ⟨timing, index, by rw [hname, hstrict]⟩

/-- A word for the faction or the slot is refused under both policies. -/
lemma build_strict_of_unknownWord {r : CardRecord} {card : String} {e : UnknownWord}
    (h : r.build .lenient = .error (.unknownWord card e)) :
    r.build .strict = .error (.unknownWord card e) := by
  rcases r.build_strict_cases with ⟨heq, -⟩ | ⟨words, _, _, _, _, hwords, -, -, -⟩
  · rw [heq, h]
  · have hlenient := r.build_eq .lenient
    rw [hwords, h] at hlenient
    cases hfault : r.actions.placed.findSome? Policy.lenient.fault? with
    | none => rw [hfault] at hlenient; cases hlenient
    | some e' => rw [hfault] at hlenient; cases hlenient

/-- Where the lenient building fails at an action, a word of that action is not registered, and the
strict building fails there too unless an action before it has a warning. -/
lemma build_strict_of_compile {r : CardRecord} {card : String} {e : CompileError}
    (h : r.build .lenient = .error (.compile card e)) :
    ∃ before p after e', r.actions.placed = before ++ p :: after ∧ p.action.effect = .error e' ∧
      e = .unknownWord e' ∧ (∀ q ∈ before, ∃ compiled, q.action.effect = .ok compiled) ∧
      (before.findSome? (fun q => q.action.warning?) = none →
        r.build .strict = .error (.compile card e)) ∧
      ∀ w, before.findSome? (fun q => q.action.warning?) = some w →
        ∃ timing index, r.build .strict = .error (.compile card (.rejected timing index w)) := by
  obtain ⟨rfl, ⟨words, hwords⟩, hfault⟩ := of_build_eq_compile h
  obtain ⟨before, p, after, e', hsplit, hp, rfl, hbefore, hnotes⟩ :=
    Policy.lenient_findSome?_eq_some hfault
  refine ⟨before, p, after, e', hsplit, hp, rfl, hbefore, fun hnone => ?_, fun w hw => ?_⟩
  · -- Nothing before the failing action is noted, so the policies agree.
    rcases r.build_strict_cases with ⟨heq, -⟩ | ⟨_, _, _, w, ws, -, hcons, -, -⟩
    · rw [heq, h]
    · rw [hnotes] at hcons
      rw [← List.head?_filterMap, hcons] at hnone
      cases hnone
  · rcases r.build_strict_cases with ⟨-, hnil⟩ | ⟨_, timing, index, w', ws, -, hcons, -, hstrict⟩
    · rw [← List.head?_filterMap, ← hnotes, hnil words hwords] at hw
      cases hw
    · rw [← List.head?_filterMap, ← hnotes, hcons] at hw
      cases hw
      exact ⟨timing, index, hstrict⟩

/-- A card is only rejected under the strict policy, and for its first action with a warning. -/
lemma firstWarned_of_build_rejected {r : CardRecord} {policy : Policy} {card : String}
    {timing : Timing} {index : Nat} {w : Warning}
    (h : r.build policy = .error (.compile card (.rejected timing index w))) :
    policy = .strict ∧ card = r.name ∧ FirstWarned r.actions.placed timing index w := by
  obtain ⟨hcard, -, hfault⟩ := of_build_eq_compile h
  obtain ⟨hpolicy, hfirst⟩ := Policy.firstWarned_of_rejected hfault
  exact ⟨hpolicy, hcard, hfirst⟩

/-- The elder sign is the only action of an investigator, the first trigger. -/
lemma place_of_investigator {r : InvestigatorRecord} {timing : Timing} {index : Nat} {w : Warning}
    (h : FirstWarned (CardRecord.investigator r).actions.placed timing index w) :
    timing = .trigger ∧ index = 0 := by
  obtain ⟨before, a, after, hsplit, -, -⟩ := h
  have hmem : (⟨timing, index, a⟩ : Placed) ∈ (CardRecord.investigator r).actions.placed := by
    rw [hsplit]
    exact List.mem_append_right _ List.mem_cons_self
  have hget := ByTiming.mem_placed.1 hmem
  cases hsign : r.elderSign with
  | none => cases timing <;> simp [actions, ByTiming.get, hsign] at hget
  | some sign =>
    cases timing with
    | trigger =>
      simp only [actions, ByTiming.get, hsign, Option.toList_some] at hget
      obtain ⟨hindex, -⟩ := List.getElem?_eq_some_iff.1 hget
      exact ⟨rfl, by simpa using hindex⟩
    | activate => simp [actions, ByTiming.get] at hget
    | passive => simp [actions, ByTiming.get] at hget
    | discard => simp [actions, ByTiming.get] at hget

end CardRecord

/-! ## The catalogue under both policies -/

/-- **A strict report is a lenient report without warnings.**  Of two catalogues over the same
index, one for each policy:

* they miss the same cards;
* a card is reported strictly exactly if it is reported leniently without a warning, and the reports
  are the same;
* a card that is reported leniently with warnings is rejected strictly for the first of them;
* a word for the faction or the slot that is not registered is the error under both policies;
* a word of an action that is not registered is the error of both if no action before it has a
  warning, and otherwise the card is rejected strictly for the first of those warnings;
* a card is only rejected strictly, at the place of the first of its actions that compiles with a
  warning, and an investigator at its first trigger. -/
theorem strict_report_of_lenient (index : Index) (kind : CardKind) (name : String) :
    let strict := Catalogue.report ⟨index, .strict⟩ kind name
    let lenient := Catalogue.report ⟨index, .lenient⟩ kind name
    (strict = .ok none ↔ lenient = .ok none) ∧
    (∀ report, strict = .ok (some report) ↔ lenient = .ok (some report) ∧ report.warnings = []) ∧
    (∀ report w ws, lenient = .ok (some report) → report.warnings = w :: ws →
      ∃ timing i, strict = .error (.compile report.card.name (.rejected timing i w))) ∧
    (∀ card e, lenient = .error (.unknownWord card e) → strict = .error (.unknownWord card e)) ∧
    (∀ card e, lenient = .error (.compile card (.unknownWord e)) →
      ∃ record before p after, index.find? kind name = some record ∧
        record.actions.placed = before ++ p :: after ∧ p.action.effect = .error e ∧
        (∀ q ∈ before, ∃ compiled, q.action.effect = .ok compiled) ∧
        (before.findSome? (fun q => q.action.warning?) = none →
          strict = .error (.compile card (.unknownWord e))) ∧
        ∀ w, before.findSome? (fun q => q.action.warning?) = some w →
          ∃ timing i, strict = .error (.compile card (.rejected timing i w))) ∧
    (∀ policy card timing i w,
      Catalogue.report ⟨index, policy⟩ kind name = .error (.compile card (.rejected timing i w)) →
      policy = .strict ∧ ∃ record, index.find? kind name = some record ∧ card = record.name ∧
        FirstWarned record.actions.placed timing i w ∧
        ∀ r, record = .investigator r → timing = .trigger ∧ i = 0) := by
  intro strict lenient
  refine ⟨?_, ?_, ?_, ?_, ?_, ?_⟩
  · rw [Catalogue.report_eq_none_iff, Catalogue.report_eq_none_iff]
  · intro report
    rw [Catalogue.report_eq_some_iff, Catalogue.report_eq_some_iff]
    constructor
    · rintro ⟨r, hr, hbuild⟩
      obtain ⟨hlenient, hnil⟩ := (r.build_strict_eq_ok_iff report).1 hbuild
      exact ⟨⟨r, hr, hlenient⟩, hnil⟩
    · rintro ⟨⟨r, hr, hlenient⟩, hnil⟩
      exact ⟨r, hr, (r.build_strict_eq_ok_iff report).2 ⟨hlenient, hnil⟩⟩
  · intro report w ws h hw
    obtain ⟨r, hr, hbuild⟩ := Catalogue.report_eq_some_iff.1 h
    obtain ⟨timing, i, hstrict⟩ := CardRecord.build_strict_of_warned hbuild hw
    exact ⟨timing, i, Catalogue.report_eq_error_iff.2 ⟨r, hr, hstrict⟩⟩
  · intro card e h
    obtain ⟨r, hr, hbuild⟩ := Catalogue.report_eq_error_iff.1 h
    exact Catalogue.report_eq_error_iff.2 ⟨r, hr, CardRecord.build_strict_of_unknownWord hbuild⟩
  · intro card e h
    obtain ⟨r, hr, hbuild⟩ := Catalogue.report_eq_error_iff.1 h
    obtain ⟨before, p, after, e', hsplit, hp, he, hbefore, hnone, hsome⟩ :=
      CardRecord.build_strict_of_compile hbuild
    cases he
    refine ⟨r, before, p, after, hr, hsplit, hp, hbefore, fun h' => ?_, fun w hw => ?_⟩
    · exact Catalogue.report_eq_error_iff.2 ⟨r, hr, hnone h'⟩
    · obtain ⟨timing, i, hstrict⟩ := hsome w hw
      exact ⟨timing, i, Catalogue.report_eq_error_iff.2 ⟨r, hr, hstrict⟩⟩
  · intro policy card timing i w h
    obtain ⟨r, hr, hbuild⟩ := Catalogue.report_eq_error_iff.1 h
    obtain ⟨hpolicy, hcard, hfirst⟩ := CardRecord.firstWarned_of_build_rejected hbuild
    refine ⟨hpolicy, r, hr, hcard, hfirst, fun investigator hinv => ?_⟩
    subst hinv
    exact CardRecord.place_of_investigator hfirst

/-- A gun with two ways to use it, of which the second lacks its damage. -/
def brokenGun : AssetRecord where
  name := "Broken Gun"
  faction := "neutral"
  cost := 3
  skill := {}
  slot := some "hand"
  actions := { activate := [.ofTag "skill_test", .ofTag "fight"] }

/-- The index of the gun alone. -/
def brokenGunIndex : Index := { assets := .ofList [(brokenGun.name, .asset brokenGun)] }

/-- The gun is reported leniently with a warning, so it is rejected strictly for that warning. -/
theorem strict_report_of_brokenGun :
    ∃ report timing i,
      Catalogue.report ⟨brokenGunIndex, .lenient⟩ .asset "Broken Gun" = .ok (some report) ∧
        report.warnings = [.missingModifier "fight" "damage"] ∧
          Catalogue.report ⟨brokenGunIndex, .strict⟩ .asset "Broken Gun" =
            .error (.compile report.card.name
              (.rejected timing i (.missingModifier "fight" "damage"))) := by
  obtain ⟨timing, i, hstrict⟩ :=
    (strict_report_of_lenient brokenGunIndex .asset "Broken Gun").2.2.1 _ _ _ rfl rfl
  exact ⟨_, timing, i, rfl, rfl, hstrict⟩

end CardRules
