import CardRules.Layout.Record
import CardRules.Proofs.CardFile.RoundTrip
import CardRules.Proofs.CardFile.Sections

/-!
# Records that are written and read again

Of the records of a collection everything comes back but small numbers as modifiers, which come back
as amounts: `Records.narrowed` (`records_roundTrip`).  Records that were read, as records or as a
card file, have no small numbers, so they come back unchanged.
-/

namespace CardRules

/-! ## Actions -/

namespace Action

/-- One of the modifiers is a small number. -/
def HasSmallNumber (a : Action) : Prop :=
  ∃ entry ∈ a.modifiers.entries, entry.2.IsSmallNumber

instance : DecidablePred HasSmallNumber := fun a =>
  inferInstanceAs (Decidable (∃ entry ∈ a.modifiers.entries, entry.2.IsSmallNumber))

/-- The action with amounts in place of small numbers. -/
def narrowed (a : Action) : Action :=
  { a with modifiers := a.modifiers.map Modifier.narrowed }

/-- What comes back of an action. -/
lemma reread_format (a : Action) : Action.format.reread a = a.narrowed := by
  have hmodifiers : Modifier.format.reread = Modifier.narrowed := funext Modifier.reread_format
  refine reread_via_eq ?_
  refine reread_cons_plain rfl (reread_cons_plain rfl (reread_cons_plain rfl ?_))
  exact reread_cons (congrArg (KeyMap.map · a.modifiers) hmodifiers) (reread_cons_plain rfl rfl)

/-- Narrowing leaves an action as it is unless one of its modifiers is a small number. -/
lemma narrowed_eq_self_iff {a : Action} : a.narrowed = a ↔ ¬ a.HasSmallNumber := by
  have hmodifiers : a.narrowed = a ↔ a.modifiers.map Modifier.narrowed = a.modifiers := by
    cases a
    simp [narrowed]
  rw [hmodifiers, KeyMap.map_eq_self_iff]
  simp only [Modifier.narrowed_eq_self_iff, HasSmallNumber, not_exists, not_and]

/-- Actions that were read come back unchanged. -/
lemma settled_format : Action.format.Settled := by
  have hmodifiers := settled_dictionary Modifier.settled_format
  refine settled_via (fun _ => rfl) (settled_record _ ?_)
  iterate 3 refine settled_cons_plain rfl ?_
  exact settled_opt _ hmodifiers rfl (settled_cons_plain rfl trivial)

/-- What comes back of the actions of a card. -/
lemma reread_listsFormat (lists : ByTiming Action) :
    Action.listsFormat.reread lists = lists.map narrowed := by
  have haction : Action.format.reread = narrowed := funext reread_format
  rw [← haction]
  rfl

/-- The actions of a card that were read come back unchanged. -/
lemma settled_listsFormat : Action.listsFormat.Settled := by
  have hlist := settled_list settled_format
  refine settled_via (fun _ => rfl) (settled_record _ ?_)
  exact settled_opt _ hlist rfl <| settled_opt _ hlist rfl <| settled_opt _ hlist rfl <|
    settled_opt _ hlist rfl trivial

end Action

/-! ## Records of cards -/

/-- The record of an investigator with amounts in place of small numbers. -/
def InvestigatorRecord.narrowed (r : InvestigatorRecord) : InvestigatorRecord :=
  { r with elderSign := r.elderSign.map Action.narrowed }

/-- The record of an asset with amounts in place of small numbers. -/
def AssetRecord.narrowed (r : AssetRecord) : AssetRecord :=
  { r with actions := r.actions.map Action.narrowed }

/-- The record of an event with amounts in place of small numbers. -/
def EventRecord.narrowed (r : EventRecord) : EventRecord :=
  { r with actions := r.actions.map Action.narrowed }

/-- The record of an ability or a skill card with amounts in place of small numbers. -/
def PlainRecord.narrowed (r : PlainRecord) : PlainRecord :=
  { r with actions := r.actions.map Action.narrowed }

/-- What comes back of an investigator. -/
lemma InvestigatorRecord.reread_format (r : InvestigatorRecord) :
    InvestigatorRecord.format.reread r = r.narrowed := by
  have haction : Action.format.reread = Action.narrowed := funext Action.reread_format
  refine reread_via_eq ?_
  iterate 7 refine reread_cons_plain rfl ?_
  exact reread_cons (congrArg (Option.map · r.elderSign) haction) rfl

/-- What comes back of an asset. -/
lemma AssetRecord.reread_format (r : AssetRecord) :
    AssetRecord.format.reread r = r.narrowed := by
  refine reread_via_eq ?_
  iterate 9 refine reread_cons_plain rfl ?_
  exact reread_cons (Action.reread_listsFormat r.actions) rfl

/-- What comes back of an event. -/
lemma EventRecord.reread_format (r : EventRecord) :
    EventRecord.format.reread r = r.narrowed := by
  refine reread_via_eq ?_
  iterate 5 refine reread_cons_plain rfl ?_
  exact reread_cons (Action.reread_listsFormat r.actions) rfl

/-- What comes back of an ability or a skill card. -/
lemma PlainRecord.reread_format (r : PlainRecord) :
    PlainRecord.format.reread r = r.narrowed := by
  refine reread_via_eq ?_
  iterate 3 refine reread_cons_plain rfl ?_
  exact reread_cons (Action.reread_listsFormat r.actions) rfl

/-- Records of investigators that were read come back unchanged. -/
lemma InvestigatorRecord.settled_format : InvestigatorRecord.format.Settled := by
  refine settled_via (fun _ => rfl) (settled_record _ ?_)
  iterate 7 refine settled_cons_plain rfl ?_
  exact settled_maybe _ Action.settled_format trivial

/-- Records of assets that were read come back unchanged. -/
lemma AssetRecord.settled_format : AssetRecord.format.Settled := by
  refine settled_via (fun _ => rfl) (settled_record _ ?_)
  iterate 9 refine settled_cons_plain rfl ?_
  exact settled_opt _ Action.settled_listsFormat rfl trivial

/-- Records of events that were read come back unchanged. -/
lemma EventRecord.settled_format : EventRecord.format.Settled := by
  refine settled_via (fun _ => rfl) (settled_record _ ?_)
  iterate 5 refine settled_cons_plain rfl ?_
  exact settled_opt _ Action.settled_listsFormat rfl trivial

/-- Records of abilities and skill cards that were read come back unchanged. -/
lemma PlainRecord.settled_format : PlainRecord.format.Settled := by
  refine settled_via (fun _ => rfl) (settled_record _ ?_)
  iterate 3 refine settled_cons_plain rfl ?_
  exact settled_opt _ Action.settled_listsFormat rfl trivial

/-! ## Collections -/

namespace Records

/-- All actions of a collection. -/
def allActions (rs : Records) : List Action :=
  rs.investigators.flatMap (·.elderSign.toList) ++
  rs.assets.flatMap (·.actions.values) ++
  rs.events.flatMap (·.actions.values) ++
  rs.abilities.flatMap (·.actions.values) ++
  rs.skills.flatMap (·.actions.values)

/-- One of the modifiers in a collection is a small number. -/
def HasSmallNumber (rs : Records) : Prop :=
  ∃ a ∈ rs.allActions, a.HasSmallNumber

instance : DecidablePred HasSmallNumber := fun rs =>
  inferInstanceAs (Decidable (∃ a ∈ rs.allActions, a.HasSmallNumber))

/-- The collection with amounts in place of small numbers. -/
def narrowed (rs : Records) : Records where
  investigators := rs.investigators.map (·.narrowed)
  assets := rs.assets.map (·.narrowed)
  events := rs.events.map (·.narrowed)
  abilities := rs.abilities.map (·.narrowed)
  skills := rs.skills.map (·.narrowed)

/-- What comes back of a collection. -/
theorem reread_format (rs : Records) : Records.format.reread rs = rs.narrowed := by
  have hinvestigator := funext InvestigatorRecord.reread_format
  have hasset := funext AssetRecord.reread_format
  have hevent := funext EventRecord.reread_format
  have hplain := funext PlainRecord.reread_format
  calc Records.format.reread rs
      = { investigators := rs.investigators.map InvestigatorRecord.format.reread
          assets := rs.assets.map AssetRecord.format.reread
          events := rs.events.map EventRecord.format.reread
          abilities := rs.abilities.map PlainRecord.format.reread
          skills := rs.skills.map PlainRecord.format.reread } := rfl
    _ = rs.narrowed := by rw [hinvestigator, hasset, hevent, hplain]; rfl

/-- Narrowing leaves a collection as it is if it leaves all actions as they are. -/
lemma narrowed_eq_self_iff_allActions {rs : Records} :
    rs.narrowed = rs ↔ ∀ a ∈ rs.allActions, a.narrowed = a := by
  have hinvestigator (r : InvestigatorRecord) :
      r.narrowed = r ↔ ∀ a ∈ r.elderSign.toList, a.narrowed = a := by
    rw [InvestigatorRecord.narrowed, ← option_map_eq_self_iff]
    cases r
    simp
  have hasset (r : AssetRecord) :
      r.narrowed = r ↔ ∀ a ∈ r.actions.values, a.narrowed = a := by
    rw [AssetRecord.narrowed, ← ByTiming.map_eq_self_iff]
    cases r
    simp
  have hevent (r : EventRecord) :
      r.narrowed = r ↔ ∀ a ∈ r.actions.values, a.narrowed = a := by
    rw [EventRecord.narrowed, ← ByTiming.map_eq_self_iff]
    cases r
    simp
  have hplain (r : PlainRecord) :
      r.narrowed = r ↔ ∀ a ∈ r.actions.values, a.narrowed = a := by
    rw [PlainRecord.narrowed, ← ByTiming.map_eq_self_iff]
    cases r
    simp
  obtain ⟨investigators, assets, events, abilities, skills⟩ := rs
  rw [narrowed, Records.mk.injEq, map_eq_self_iff_of_parts hinvestigator,
    map_eq_self_iff_of_parts hasset, map_eq_self_iff_of_parts hevent,
    map_eq_self_iff_of_parts hplain, map_eq_self_iff_of_parts hplain]
  simp only [allActions, List.mem_append, or_imp, forall_and, and_assoc]

/-- Narrowing leaves a collection as it is unless one of its modifiers is a small number. -/
theorem narrowed_eq_self_iff {rs : Records} : rs.narrowed = rs ↔ ¬ rs.HasSmallNumber := by
  rw [narrowed_eq_self_iff_allActions, HasSmallNumber]
  simp only [Action.narrowed_eq_self_iff, not_exists, not_and]

/-- Collections that were read come back unchanged. -/
lemma settled_format : Records.format.Settled := by
  refine settled_via (fun _ => rfl) (settled_record _ ?_)
  exact settled_opt _ (settled_list InvestigatorRecord.settled_format) rfl <|
    settled_opt _ (settled_list AssetRecord.settled_format) rfl <|
    settled_opt _ (settled_list EventRecord.settled_format) rfl <|
    settled_opt _ (settled_list PlainRecord.settled_format) rfl <|
    settled_opt _ (settled_list PlainRecord.settled_format) rfl trivial

/-- All keys of records are told apart. -/
lemma wellKeyed_format : Records.format.wellKeyed := by
  decide +kernel

/-- There is no tagged value in records. -/
lemma covers_format : Records.format.Covers :=
  Records.format.covers_of_untagged rfl

/-- **From every tree that says what is written for a collection, the collection is read with
amounts in place of small numbers.** -/
theorem decode_of_says_encode {φ : Type} (r : Reading φ) {t : Tree φ} {rs : Records}
    (h : t.Says (Records.format.encode rs)) : Records.format.decode r t = .ok rs.narrowed := by
  rw [Format.decode_of_says_encode wellKeyed_format covers_format r h, reread_format]

end Records

/-! ## Records of card files -/

/-- The action of an entry has no small number that the entry does not have. -/
lemma ActionEntry.hasSmallNumber_of_toAction {e : ActionEntry} (h : e.toAction.HasSmallNumber) :
    e.HasSmallNumber := by
  obtain ⟨entry, hentry, hsmall⟩ := h
  obtain ⟨m, hm, hmem⟩ := List.mem_flatMap.1 (KeyMap.mem_of_mem_ofList hentry)
  exact ⟨m, hm, entry, hmem, hsmall⟩

namespace CardFile

/-- The records of a card file have the actions of its entries. -/
lemma allActions_toRecords (file : CardFile) :
    file.toRecords.allActions = file.allActions.map (·.toAction) := by
  simp [Records.allActions, CardFile.allActions, toRecords, List.flatMap_map, List.map_flatMap,
    InvestigatorEntry.toRecord, AssetEntry.toRecord, EventEntry.toRecord, PlainEntry.toRecord,
    ByTiming.values_map, Option.toList_map]

/-- The records of a card file have no small number that the file does not have. -/
lemma hasSmallNumber_of_toRecords {file : CardFile} (h : file.toRecords.HasSmallNumber) :
    file.HasSmallNumber := by
  obtain ⟨a, ha, hsmall⟩ := h
  rw [allActions_toRecords] at ha
  obtain ⟨e, he, rfl⟩ := List.mem_map.1 ha
  exact ⟨e, he, ActionEntry.hasSmallNumber_of_toAction hsmall⟩

end CardFile

/-- What is read for the entries of a section comes back unchanged. -/
lemma map_reread_of_decodeSection {α : Type} {kind : CardKind} {f : Format α} (hf : f.Settled)
    {entries : List Json} {as : List α} (h : decodeSection kind f entries = .ok as) :
    as.map f.reread = as := by
  have hall := toOption_decodeSection kind f entries
  rw [h, Format.decodeAll, ← toOption_mapM] at hall
  refine list_map_eq_self_iff.2 fun a ha => ?_
  obtain ⟨j, -, hj⟩ := exists_of_mapM_eq_ok (toOption_eq_some_iff.1 hall.symm) a ha
  exact hf .value j a hj

/-- A card file that is read entry by entry has no small number. -/
lemma Sections.not_hasSmallNumber_of_decode {s : Sections} {file : CardFile}
    (h : s.decode = .ok file) : ¬ file.HasSmallNumber := by
  obtain ⟨investigators, hinvestigators, h⟩ := exists_of_bind_eq_ok h
  obtain ⟨assets, hassets, h⟩ := exists_of_bind_eq_ok h
  obtain ⟨events, hevents, h⟩ := exists_of_bind_eq_ok h
  obtain ⟨abilities, habilities, h⟩ := exists_of_bind_eq_ok h
  obtain ⟨skills, hskills, h⟩ := exists_of_bind_eq_ok h
  cases h
  rw [← CardFile.reread_eq_self_iff, CardFile.reread_format, CardFile.mk.injEq]
  exact ⟨map_reread_of_decodeSection InvestigatorEntry.settled_format hinvestigators,
    map_reread_of_decodeSection AssetEntry.settled_format hassets,
    map_reread_of_decodeSection EventEntry.settled_format hevents,
    map_reread_of_decodeSection PlainEntry.settled_format habilities,
    map_reread_of_decodeSection PlainEntry.settled_format hskills⟩

namespace Records

/-! ## Records that were read -/

/-- The ways in which records are read. -/
inductive WasRead (rs : Records) : Prop
  /-- The records were read as records, from a tree of any kind. -/
  | tree {φ : Type} (r : Reading φ) (t : Tree φ) (h : Records.format.decode r t = .ok rs)
  /-- The records were read as records, from a text. -/
  | text (text : String) (h : Records.format.decodeText text = .ok rs)
  /-- The records are those of a card file that was read from a text. -/
  | cardFile (text : String) (h : Records.parse text = .ok rs)

/-- Records that were read as records have no small number. -/
lemma not_hasSmallNumber_of_decode {φ : Type} {r : Reading φ} {t : Tree φ} {rs : Records}
    (h : Records.format.decode r t = .ok rs) : ¬ rs.HasSmallNumber := by
  have hsettled := settled_format r t rs h
  rw [reread_format] at hsettled
  exact narrowed_eq_self_iff.1 hsettled

/-- Records of a card file that was read have no small number. -/
lemma not_hasSmallNumber_of_parse {text : String} {rs : Records} (h : Records.parse text = .ok rs) :
    ¬ rs.HasSmallNumber := by
  obtain ⟨sections, -, h⟩ := exists_of_bind_eq_ok h
  obtain ⟨file, hfile, h⟩ := exists_of_bind_eq_ok h
  cases h
  exact fun hsmall => Sections.not_hasSmallNumber_of_decode (of_mapError_eq_ok hfile)
    (CardFile.hasSmallNumber_of_toRecords hsmall)

/-- **Records that were read have no small number.** -/
theorem WasRead.not_hasSmallNumber {rs : Records} (h : rs.WasRead) : ¬ rs.HasSmallNumber := by
  cases h with
  | tree r t h => exact not_hasSmallNumber_of_decode h
  | text text h =>
    obtain ⟨rs', hrs', h⟩ := exists_of_bind_eq_ok h
    cases htail : (Document.read text).tail with
    | some f =>
      rw [htail] at h
      cases h
    | none =>
      rw [htail] at h
      cases h
      exact not_hasSmallNumber_of_decode hrs'
  | cardFile text h => exact not_hasSmallNumber_of_parse h

end Records

/-- **What is written for records is read as the records with amounts in place of small numbers**,
in the order in which it is written and in the order of its keys.  Records that were read have no
small number and come back unchanged. -/
theorem records_roundTrip (rs : Records) :
    (∀ (r : Reading Empty) (j : Json), Records.format.Writes rs j →
      Records.format.decode r j = .ok rs.narrowed) ∧
    (rs.WasRead → ¬ rs.HasSmallNumber ∧ ∀ (r : Reading Empty) (j : Json),
      Records.format.Writes rs j → Records.format.decode r j = .ok rs) := by
  have hread (r : Reading Empty) (j : Json) (hj : Records.format.Writes rs j) :
      Records.format.decode r j = .ok rs.narrowed :=
    Records.decode_of_says_encode r (says_of_writes Records.wellKeyed_format hj)
  refine ⟨hread, fun hwas => ?_⟩
  have hsmall := hwas.not_hasSmallNumber
  have hnarrowed := Records.narrowed_eq_self_iff.2 hsmall
  refine ⟨hsmall, fun r j hj => ?_⟩
  rw [hread r j hj, hnarrowed]

/-- A skill card with a small number as damage. -/
def overpower : Records where
  skills :=
    [{ name := "Overpower", faction := "Guardian", skill := { combat := 2 }
       actions :=
        { activate := [{ tag := "fight", modifiers := .ofList [("damage", .number 1)] }] } }]

/-- The damage comes back as an amount, and what comes back comes back unchanged from then on. -/
theorem overpower_roundTrip :
    overpower.HasSmallNumber ∧
    Records.format.decode .value (Records.format.encode overpower) = .ok overpower.narrowed ∧
    overpower.narrowed.WasRead ∧
    Records.format.decode .value (Records.format.encode overpower.narrowed) =
      .ok overpower.narrowed := by
  have hsmall : overpower.HasSmallNumber := by decide +kernel
  have hfirst := (records_roundTrip overpower).1 .value _ (.inl rfl)
  have hwas : overpower.narrowed.WasRead := .tree .value _ hfirst
  have hsecond := ((records_roundTrip overpower.narrowed).2 hwas).2 .value _ (.inl rfl)
  exact ⟨hsmall, hfirst, hwas, hsecond⟩

end CardRules
