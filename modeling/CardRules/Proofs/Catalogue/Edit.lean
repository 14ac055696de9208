import CardRules.Proofs.CardFile.EditFile
import CardRules.Proofs.Catalogue.Index
import CardRules.Proofs.Compile.DecisionTable

/-!
# One modifier counts for its action only

A modifier of a card file is changed to any other one.  `Catalogue.report_edit` says how far this
reaches under the lenient policy: to the report on the card it belongs to, and there to the effect
and the warning of its action.

The reason is that a modifier never makes an action fail to compile (`Action.effect_error_congr`), so
that what can be built stays so, and that the effects and warnings of a card follow one another as
its actions do (`CardRecord.comesOf_of_build`).
-/

namespace CardRules

variable {timing : Timing} {index : Nat}

/-! ## Actions with other modifiers -/

/-- An action fails to compile for the word of its location condition, whatever its modifiers are. -/
lemma Action.effect_error_congr {a a' : Action} (h : a.DifferInModifiers a') {e : UnknownWord}
    (ha : a.effect = .error e) : a'.effect = .error e := by
  have hrow := decisionTable_effect a
  rw [ha] at hrow
  cases hrow with
  | unknownLocation o hfight hword =>
    have hfight' : a'.FightsAtLocation o := by
      rw [h]
      exact hfight
    exact (DecisionTable.unknownLocation o hfight' hword).effect_eq

/-- Modifiers can be changed back. -/
lemma Action.DifferInModifiers.symm {a a' : Action} (h : a.DifferInModifiers a') :
    a'.DifferInModifiers a := by
  rw [DifferInModifiers, h]

/-- The lenient policy objects to an action whatever its modifiers are. -/
lemma Policy.lenient_fault?_congr {a a' : Action} (h : a.DifferInModifiers a') :
    Policy.lenient.fault? ⟨timing, index, a'⟩ = Policy.lenient.fault? ⟨timing, index, a⟩ := by
  cases ha : a.effect with
  | error e =>
    have ha' := Action.effect_error_congr h ha
    rw [fault?_of_error (p := ⟨timing, index, a⟩) ha, fault?_of_error (p := ⟨timing, index, a'⟩) ha']
  | ok compiled =>
    cases ha' : a'.effect with
    | error e =>
      rw [Action.effect_error_congr h.symm ha'] at ha
      cases ha
    | ok compiled' =>
      rw [lenient_fault?_of_ok (p := ⟨timing, index, a⟩) ha,
        lenient_fault?_of_ok (p := ⟨timing, index, a'⟩) ha']

/-! ## Lists of actions -/

/-- The timings before one of them, and those behind it. -/
lemma Timing.exists_all_split (timing : Timing) :
    ∃ front back, Timing.all = front ++ timing :: back ∧ timing ∉ front ∧ timing ∉ back := by
  cases timing with
  | activate => exact ⟨[], [.trigger, .passive, .discard], rfl, by decide, by decide⟩
  | trigger => exact ⟨[.activate], [.passive, .discard], rfl, by decide, by decide⟩
  | passive => exact ⟨[.activate, .trigger], [.discard], rfl, by decide, by decide⟩
  | discard => exact ⟨[.activate, .trigger, .passive], [], rfl, by decide, by decide⟩

/-- The place of an action of a timing. -/
lemma placedFrom_split (before : List Action) (a : Action) (after : List Action) (start : Nat) :
    placedFrom timing start (before ++ a :: after) =
      placedFrom timing start before ++
        ⟨timing, start + before.length, a⟩ ::
          placedFrom timing (start + before.length + 1) after := by
  rw [placedFrom, List.zipIdx_append, List.zipIdx_cons, List.map_append, List.map_cons, placedFrom,
    placedFrom]

/-- Actions that differ in one of them differ in one place. -/
lemma ByTiming.OneDiffers.exists_placed {R : Action → Action → Prop}
    {actions actions' : ByTiming Action} (h : actions.OneDiffers timing index R actions') :
    ∃ before a a' after, actions.placed = before ++ ⟨timing, index, a⟩ :: after ∧
      actions'.placed = before ++ ⟨timing, index, a'⟩ :: after ∧ R a a' := by
  obtain ⟨⟨before, a, a', after, hget, hget', rfl, hR⟩, hothers⟩ := h
  obtain ⟨front, back, hall, hfront, hback⟩ := timing.exists_all_split
  have hplaces (ts : List Timing) (hts : timing ∉ ts) :
      (ts.flatMap fun t => placedFrom t 0 (actions'.get t)) =
        ts.flatMap fun t => placedFrom t 0 (actions.get t) := by
    refine List.flatMap_congr fun t ht => ?_
    rw [hothers t (ne_of_mem_of_not_mem ht hts)]
  refine ⟨(front.flatMap fun t => placedFrom t 0 (actions.get t)) ++ placedFrom timing 0 before, a,
    a', placedFrom timing (before.length + 1) after ++
      back.flatMap fun t => placedFrom t 0 (actions.get t), ?_, ?_, hR⟩
  · rw [placed, hall, List.flatMap_append, List.flatMap_cons, hget, placedFrom_split]
    simp only [Nat.zero_add, List.append_assoc, List.cons_append]
  · rw [placed, hall, List.flatMap_append, List.flatMap_cons, hget', placedFrom_split,
      hplaces front hfront, hplaces back hback]
    simp only [Nat.zero_add, List.append_assoc, List.cons_append]

/-! ## Cards and their effects -/

/-- The effects of a card by timing.  The elder sign of an investigator counts as its only trigger. -/
def Card.filed : Card → ByTiming Effect
  | .investigator c => { trigger := c.elderSign.toList }
  | .asset c => c.effects
  | .event c => c.effects
  | .ability c => c.effects
  | .skill c => c.effects

/-- What is printed on a card, without the effects. -/
def Card.printed : Card → Card
  | .investigator c => .investigator { c with elderSign := none }
  | .asset c => .asset { c with effects := {} }
  | .event c => .event { c with effects := {} }
  | .ability c => .ability { c with effects := {} }
  | .skill c => .skill { c with effects := {} }

/-- A report *comes of* some actions: its card has their effects, each at the timing of its action,
and it has their warnings, both in the order of the actions. -/
structure Report.ComesOf (report : Report) (ps : List Placed) : Prop where
  effects : report.card.filed.toList = ps.filterMap fun p => p.action.effect?.map (p.timing, ·)
  warnings : report.warnings = ps.filterMap fun p => p.action.warning?

/-- Effects that come of the actions of a timing. -/
lemma filterMap_placedFrom (f : Action → Option Effect) (timing : Timing) (start : Nat)
    (actions : List Action) :
    ((placedFrom timing start actions).filterMap fun p => (f p.action).map (p.timing, ·)) =
      (actions.filterMap f).map (timing, ·) := by
  induction actions generalizing start with
  | nil => rfl
  | cons a rest ih =>
    rw [placedFrom_cons, List.filterMap_cons, List.filterMap_cons, ih]
    cases f a <;> rfl

/-- Effects that come of the actions of all timings. -/
lemma ByTiming.toList_filterMap (f : Action → Option Effect) (actions : ByTiming Action) :
    (actions.filterMap f).toList =
      actions.placed.filterMap fun p => (f p.action).map (p.timing, ·) := by
  rw [toList, placed, List.filterMap_flatMap]
  refine List.flatMap_congr fun timing _ => ?_
  rw [filterMap_placedFrom]
  cases timing <;> rfl

namespace CardRecord

/-- What is printed on a card does not depend on the effects. -/
lemma printed_assemble (r : CardRecord) (faction : Faction) (slot : Option Slot)
    (effects : ByTiming Effect) :
    (r.assemble faction slot effects).printed = r.assemble faction slot {} := by
  cases r <;> rfl

/-- A card has the effects of the actions of its record. -/
lemma filed_assemble (r : CardRecord) (faction : Faction) (slot : Option Slot)
    (f : Action → Option Effect) :
    (r.assemble faction slot (r.actions.filterMap f)).filed = r.actions.filterMap f := by
  cases r with
  | investigator r =>
    -- There is at most one elder sign, so that the first effect is the only one.
    rw [assemble, Card.filed, actions, ByTiming.filterMap]
    cases r.elderSign with
    | none => rfl
    | some sign => cases hsign : f sign <;> simp [hsign]
  | asset r => rfl
  | event r => rfl
  | ability r => rfl
  | skill r => rfl

/-- **A lenient report comes of the actions of its record.** -/
lemma comesOf_of_build {r : CardRecord} {report : Report} (h : r.build .lenient = .ok report) :
    report.ComesOf r.actions.placed := by
  obtain ⟨faction, slot, -, hclean, rfl⟩ := exists_of_build_eq_ok h
  constructor
  · rw [reportWith, filed_assemble]
    exact ByTiming.toList_filterMap Action.effect? r.actions
  · exact Policy.notes_of_clean hclean

/-- The words of a record do not depend on its actions. -/
lemma DifferInModifiers.words {r r' : CardRecord} (h : r.DifferInModifiers timing index r') :
    r'.words = r.words := by
  rw [CardRecord.words, CardRecord.words, h.factionWord, h.slotWord]

/-- The first fault of a record does not depend on modifiers. -/
lemma DifferInModifiers.findSome?_fault {r r' : CardRecord}
    (h : r.DifferInModifiers timing index r') :
    r'.actions.placed.findSome? Policy.lenient.fault? =
      r.actions.placed.findSome? Policy.lenient.fault? := by
  obtain ⟨before, a, a', after, hplaced, hplaced', hdiffer⟩ := h.actions.exists_placed
  rw [hplaced, hplaced', List.findSome?_append, List.findSome?_append, List.findSome?_cons,
    List.findSome?_cons, Policy.lenient_fault?_congr hdiffer]

end CardRecord

/-- Two reports differ in what comes of one action.  What is printed on the card is the same, and so
are the effects and the warnings of the actions before and behind that one, in the same order. -/
structure Report.DifferInAction (timing : Timing) (index : Nat) (actions : List Placed)
    (report report' : Report) : Prop where
  printed : report'.card.printed = report.card.printed
  comesOf : ∃ before a a' after, actions = before ++ ⟨timing, index, a⟩ :: after ∧
    a.DifferInModifiers a' ∧ report.ComesOf (before ++ ⟨timing, index, a⟩ :: after) ∧
    report'.ComesOf (before ++ ⟨timing, index, a'⟩ :: after)

/-- **A record with other modifiers of an action is built with the same outcome.**  Either there is
the same error, or both cards are built and their reports differ in what comes of that action. -/
theorem CardRecord.DifferInModifiers.build {r r' : CardRecord}
    (h : r.DifferInModifiers timing index r') :
    (∃ e, r.build .lenient = .error e ∧ r'.build .lenient = .error e) ∨
    ∃ report report', r.build .lenient = .ok report ∧ r'.build .lenient = .ok report' ∧
      report.DifferInAction timing index r.actions.placed report' := by
  have hbuild := r.build_eq .lenient
  have hbuild' := r'.build_eq .lenient
  rw [h.words, h.findSome?_fault, h.name] at hbuild'
  cases hwords : r.words with
  | error e =>
    rw [hwords] at hbuild hbuild'
    exact .inl ⟨_, hbuild, hbuild'⟩
  | ok words =>
    obtain ⟨faction, slot⟩ := words
    rw [hwords] at hbuild hbuild'
    cases hfault : r.actions.placed.findSome? Policy.lenient.fault? with
    | some e =>
      rw [hfault] at hbuild hbuild'
      exact .inl ⟨_, hbuild, hbuild'⟩
    | none =>
      rw [hfault] at hbuild hbuild'
      refine .inr ⟨_, _, hbuild, hbuild', ?_, ?_⟩
      · rw [reportWith, reportWith, printed_assemble, printed_assemble, h.assemble]
      · obtain ⟨before, a, a', after, hplaced, hplaced', hdiffer⟩ := h.actions.exists_placed
        have hcomes := comesOf_of_build hbuild
        have hcomes' := comesOf_of_build hbuild'
        rw [hplaced] at hcomes
        rw [hplaced'] at hcomes'
        exact ⟨before, a, a', after, hplaced, hdiffer, hcomes, hcomes'⟩

/-! ## Catalogues -/

/-- Where one record of a list is exchanged for another one of its name, a search by name finds what
it found before, or it finds the one in the place of the other. -/
lemma find?_exchange (before after : List CardRecord) {r r' : CardRecord}
    (hname : r'.name = r.name) (name : String) :
    (before ++ r' :: after).find? (·.name == name) =
        (before ++ r :: after).find? (·.name == name) ∨
      (r.name = name ∧ (before ++ r :: after).find? (·.name == name) = some r ∧
        (before ++ r' :: after).find? (·.name == name) = some r') := by
  rw [List.find?_append, List.find?_append, List.find?_cons, List.find?_cons, hname]
  cases before.find? (·.name == name) with
  | some q => exact .inl rfl
  | none =>
    by_cases h : r.name = name
    · rw [h, beq_self_eq_true]
      exact .inr ⟨rfl, rfl, rfl⟩
    · rw [beq_eq_false_iff_ne.2 h]
      exact .inl rfl

/-- If a search by name finds a record in the place of which there is one with other modifiers of an
action, then the lenient report is the same, or both are reports on a card and differ in what comes of
the action. -/
lemma CardRecord.DifferInModifiers.report {r r' : CardRecord}
    (h : r.DifferInModifiers timing index r') {rs rs' : Records} {kind : CardKind} {name : String}
    (hr : (rs.ofKind kind).find? (·.name == name) = some r)
    (hr' : (rs'.ofKind kind).find? (·.name == name) = some r') :
    (Catalogue.ofRecords rs' .lenient).report kind name =
        (Catalogue.ofRecords rs .lenient).report kind name ∨
      ∃ report report', (Catalogue.ofRecords rs .lenient).report kind name = .ok (some report) ∧
        (Catalogue.ofRecords rs' .lenient).report kind name = .ok (some report') ∧
        report.DifferInAction timing index r.actions.placed report' := by
  have hreport := Catalogue.report_of_find? (c := .ofRecords rs .lenient)
    ((Index.find?_ofRecords rs kind name).trans hr)
  have hreport' := Catalogue.report_of_find? (c := .ofRecords rs' .lenient)
    ((Index.find?_ofRecords rs' kind name).trans hr')
  rcases h.build with ⟨e, hbuild, hbuild'⟩ | ⟨report, report', hbuild, hbuild', hdiffer⟩
  · refine .inl ?_
    rw [hreport, hreport']
    exact congrArg _ (hbuild'.trans hbuild.symm)
  · refine .inr ⟨report, report', ?_, ?_, hdiffer⟩
    · exact hreport.trans (congrArg _ hbuild)
    · exact hreport'.trans (congrArg _ hbuild')

/-- **A modifier counts for its action only.**  If a modifier of an action in a card file is changed
to any other modifier and the old file is accepted, then so is the new one, and of the lenient
reports on all cards only the one on the card of the action may change.  If it does, the card is
built from both files, and the reports differ in what comes of the action. -/
theorem Catalogue.report_edit (kind : CardKind) (card : Nat) (timing : Timing) (index : Nat)
    (text text' : String) (rs : Records) (hedit : EditsModifier kind card timing index text text')
    (hrs : Records.parse text = .ok rs) :
    ∃ rs' r, Records.parse text' = .ok rs' ∧ (rs.ofKind kind)[card]? = some r ∧
      (∀ k name, (k, name) ≠ (kind, r.name) →
        (Catalogue.ofRecords rs' .lenient).report k name =
          (Catalogue.ofRecords rs .lenient).report k name) ∧
      ((Catalogue.ofRecords rs' .lenient).report kind r.name =
          (Catalogue.ofRecords rs .lenient).report kind r.name ∨
        ∃ report report', (Catalogue.ofRecords rs .lenient).report kind r.name = .ok (some report) ∧
          (Catalogue.ofRecords rs' .lenient).report kind r.name = .ok (some report') ∧
          report.DifferInAction timing index r.actions.placed report') := by
  obtain ⟨rs', hrs', ⟨before, r, r', after, hrecords, hrecords', hindex, hr⟩, hothers⟩ :=
    Records.parse_edit hedit hrs
  have hcard : (rs.ofKind kind)[card]? = some r := by
    rw [hrecords, ← hindex, List.getElem?_append_right (Nat.le_refl _), Nat.sub_self]
    rfl
  have hname : r'.name = r.name := by
    rcases hr with rfl | hdiffer
    · rfl
    · exact hdiffer.name
  have hfind (name : String) := find?_exchange before after hname name
  rw [← hrecords, ← hrecords'] at hfind
  have hsame {k : CardKind} {name : String}
      (h : (rs'.ofKind k).find? (·.name == name) = (rs.ofKind k).find? (·.name == name)) :
      (Catalogue.ofRecords rs' .lenient).report k name =
        (Catalogue.ofRecords rs .lenient).report k name := by
    refine Catalogue.report_congr rfl ?_
    rw [ofRecords, ofRecords, Index.find?_ofRecords, Index.find?_ofRecords, h]
  refine ⟨rs', r, hrs', hcard, fun k name hne => ?_, ?_⟩
  · by_cases hk : k = kind
    · subst hk
      rcases hfind name with h | ⟨h, -, -⟩
      · exact hsame h
      · exact absurd (by rw [h]) hne
    · exact hsame (by rw [hothers k hk])
  · rcases hfind r.name with h | ⟨-, hold, hnew⟩
    · exact .inl (hsame h)
    · rcases hr with rfl | hdiffer
      · exact .inl (hsame (hnew.trans hold.symm))
      · exact hdiffer.report hold hnew

/-- A card file with one asset, a knife for fights with some damage. -/
def knifeTree {φ : Type} (damage : Tree φ) : Tree φ :=
  .ofEntries [("assets", .ofItems [.ofEntries
    [("name", .text "Knife"), ("faction", .text "neutral"), ("cost", .int 1),
      ("activate", .ofItems [.ofEntries [("action", .text "fight"),
        ("modifications", .ofItems [.ofEntries [("damage", damage)]])]])]])]

/-- The records of that file. -/
def knifeRecords (damage : Modifier) : Records where
  assets :=
    [{ name := "Knife", faction := "neutral", cost := 1, skill := {}
       actions := { activate := [{ tag := "fight", modifiers := .ofList [("damage", damage)] }] } }]

/-- The text of the file says what the file is. -/
lemma read_knifeTree {n : Int} (hn : n = 1 ∨ n = 200) :
    (Document.read (Json.render (knifeTree (.int n)))).tree = knifeTree (.int n) ∧
      (Document.read (Json.render (knifeTree (.int n)))).tail = none := by
  rcases hn with rfl | rfl
  · decide +kernel
  · decide +kernel

/-- The text of the file with a damage of 200 is that of the file with a damage of 1, edited. -/
lemma editsModifier_knife :
    EditsModifier .asset 0 .activate 0 (Json.render (knifeTree (.int 1)))
      (Json.render (knifeTree (.int 200))) := by
  obtain ⟨hold, holdTail⟩ := read_knifeTree (.inl rfl)
  obtain ⟨hnew, hnewTail⟩ := read_knifeTree (.inr rfl)
  refine ⟨.number 200, _, ⟨.entry "assets", [.entry "activate", .item 0],
    [.entry "modifications", .item 0, .entry "damage"], .inl rfl,
    ⟨"activate", List.mem_singleton_self _, rfl⟩, ⟨_, 0, "damage", .inl rfl, rfl⟩, rfl⟩, ?_,
    hnewTail.trans holdTail.symm⟩
  rw [hold, hnew]
  exact .entry "assets" [] [] none <| .item [] [] none <|
    .entry "activate" [("name", .text "Knife"), ("faction", .text "neutral"), ("cost", .int 1)] []
      none <| .item [] [] none <| .entry "modifications" [("action", .text "fight")] [] none <|
        .item [] [] none <| .entry "damage" [] [] none <| .here _

/-- With a damage of 200 the knife loses its fight, and the report warns of it. -/
theorem Catalogue.report_edit_knife :
    ∃ rs' r report report',
      Records.parse (Json.render (knifeTree (.int 1))) = .ok (knifeRecords (.amount 1)) ∧
      ((knifeRecords (.amount 1)).ofKind .asset)[0]? = some r ∧
      Records.parse (Json.render (knifeTree (.int 200))) = .ok rs' ∧
      (Catalogue.ofRecords (knifeRecords (.amount 1)) .lenient).report .asset "Knife" =
        .ok (some report) ∧
      (Catalogue.ofRecords rs' .lenient).report .asset "Knife" = .ok (some report') ∧
      report.warnings = [] ∧ report'.warnings = [.invalidModifier "fight" "damage"] ∧
      report.DifferInAction .activate 0 r.actions.placed report' := by
  have hrs : Records.parse (Json.render (knifeTree (.int 1))) = .ok (knifeRecords (.amount 1)) :=
    Records.parse_of_read (read_knifeTree (.inl rfl)) (by decide +kernel)
  have hnew : Records.parse (Json.render (knifeTree (.int 200))) =
      .ok (knifeRecords (.number 200)) :=
    Records.parse_of_read (read_knifeTree (.inr rfl)) (by decide +kernel)
  obtain ⟨rs', r, hrs', hr, -, hreports⟩ :=
    Catalogue.report_edit .asset 0 .activate 0 _ _ _ editsModifier_knife hrs
  obtain rfl : knifeRecords (.number 200) = rs' := Except.ok.inj (hnew.symm.trans hrs')
  have hname : r.name = "Knife" := by
    cases hr
    rfl
  rw [hname] at hreports
  rcases hreports with hsame | ⟨report, report', hold, hnew, hdiffer⟩
  · cases hsame
  · refine ⟨_, r, report, report', hrs, hr, hrs', hold, hnew, ?_, ?_, hdiffer⟩
    · cases hold
      rfl
    · cases hnew
      rfl

end CardRules
