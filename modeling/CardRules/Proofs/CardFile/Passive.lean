import CardRules.Proofs.CardFile.Entries
import CardRules.Proofs.Catalogue.Edit

/-!
# Two spellings of one key

The passive actions of a card are listed under `pasive` or under `passive`.  It makes no difference
which of the two keys is used, no card may use both, and what is listed under either key becomes the
passive actions of the record and the passive effects of its card (`CardFile.passive_spellings`).

Four kinds of cards share one map with their lists of actions (`CardKind.flatReader`), so that the
key is met among those that the card leaves over.  Fields that take two keys alike do not see which
of the two they are given (`gather_respell`), and the keys of passive actions are such keys for all
fields of a card.
-/

namespace CardRules

variable {α φ : Type} {ts us : List Type}

/-! ## Keys that are taken alike -/

/-- Whether each field takes both of two keys or neither. -/
def Fields.alike : {ts : List Type} → Fields ts → String → String → Bool
  | _, .nil, _, _ => true
  | _, .cons name aliases _ _ rest, key, key' =>
    takes name aliases key == takes name aliases key' && rest.alike key key'

/-- A field does not see the key of its entry. -/
lemma single_respell (f : Format α) (absence : Absence α) (r : Reading φ)
    (before after : List (String × Tree φ)) (key key' : String) (t : Tree φ) :
    f.single absence r (before ++ (key, t) :: after) =
      f.single absence r (before ++ (key', t) :: after) := by
  match before, after with
  | [], [] => rfl
  | [], _ :: _ => rfl
  | [_], _ => rfl
  | _ :: _ :: _, _ => rfl

/-- **Fields do not see which of two keys is used if they take them alike.** -/
lemma gather_respell : {ts : List Type} → {fields : Fields ts} → {key key' : String} →
    fields.alike key key' → (r : Reading φ) → (before after : List (String × Tree φ)) →
    (t : Tree φ) →
    fields.gather r (before ++ (key, t) :: after) = fields.gather r (before ++ (key', t) :: after)
  | _, .nil, _, _, _, _, _, _, _ => rfl
  | _, .cons name aliases absence f rest, key, key', h, r, before, after, t => by
    rw [Fields.alike, Bool.and_eq_true, beq_iff_eq] at h
    obtain ⟨htakes, hrest⟩ := h
    cases hkey : Fields.takes name aliases key with
    | true =>
      have hkey' : Fields.takes name aliases key' = true := htakes ▸ hkey
      rw [gather_split_of_takes hkey, gather_split_of_takes hkey',
        single_respell f absence r _ _ key key' t]
    | false =>
      have hkey' : Fields.takes name aliases key' = false := htakes ▸ hkey
      rw [gather_split_of_not_takes hkey, gather_split_of_not_takes hkey',
        gather_respell hrest r _ _ t]

/-- Keys that are taken alike are owned alike. -/
lemma owns_of_alike : {ts : List Type} → {fields : Fields ts} → {key key' : String} →
    fields.alike key key' → fields.owns key = fields.owns key'
  | _, .nil, _, _, _ => rfl
  | _, .cons name aliases _ _ rest, key, key', h => by
    rw [Fields.alike, Bool.and_eq_true, beq_iff_eq] at h
    rw [Fields.owns, Fields.owns, h.1, owns_of_alike h.2]

/-- Two records in one map do not see which of two keys is used if both take them alike. -/
lemma ofJson?_flat_respell (name : String) {own : Fields ts} {inner : Fields us}
    {key key' : String} (hown : own.alike key key') (hinner : inner.alike key key')
    (before after : List (String × Json)) (j : Json) :
    (Format.flat name own inner).ofJson? (.map (before ++ (key, j) :: after) none) =
      (Format.flat name own inner).ofJson? (.map (before ++ (key', j) :: after) none) := by
  rw [ofJson?_flat_map, ofJson?_flat_map, gather_respell hown .value before after j]
  have howns := owns_of_alike hown
  cases hkey : own.owns key with
  | true =>
    have hkey' : own.owns key' = true := howns ▸ hkey
    rw [filter_split_of_neg (p := (!own.owns ·)) (congrArg not hkey),
      filter_split_of_neg (p := (!own.owns ·)) (congrArg not hkey')]
  | false =>
    have hkey' : own.owns key' = false := howns ▸ hkey
    rw [filter_split_of_pos (p := (!own.owns ·)) (congrArg not hkey),
      filter_split_of_pos (p := (!own.owns ·)) (congrArg not hkey'),
      gather_respell hinner .value _ _ j]

/-- Keys that no field owns are taken alike. -/
lemma alike_of_not_owns : {ts : List Type} → {fields : Fields ts} → {key key' : String} →
    fields.owns key = false → fields.owns key' = false → fields.alike key key'
  | _, .nil, _, _, _, _ => rfl
  | _, .cons name aliases _ _ rest, key, key', h, h' => by
    rw [Fields.owns, Bool.or_eq_false_iff] at h h'
    rw [Fields.alike, h.1, h'.1, alike_of_not_owns h.2 h'.2]
    rfl

/-! ## Cards that share one map with their actions -/

/-- The four lists of actions of a card, as a tuple. -/
abbrev ActionEntry.Lists : Type :=
  Tuple [List ActionEntry, List ActionEntry, List ActionEntry, List ActionEntry]

/-- A way to read cards that share one map with their lists of actions.  The own keys of the card are
none of those of its passive actions. -/
structure FlatReader (read : Json → Option CardRecord) where
  {ts : List Type}
  name : String
  own : Fields ts
  make : Tuple ts × ActionEntry.Lists → CardRecord
  not_owns : ∀ key ∈ Timing.passive.keys, own.owns key = false
  actions_make : ∀ x, (make x).actions = (ByTiming.ofTuple x.2).map (·.toAction)
  read_eq : ∀ j, read j = ((Format.flat name own ActionEntry.listFields).ofJson? j).map make

/-- The reader of the records of cards whose format shares one map with their lists of actions. -/
def FlatReader.ofVia {β : Type} {name : String} {own : Fields ts}
    {make : Tuple ts × ActionEntry.Lists → β} {parts : β → Tuple ts × ActionEntry.Lists}
    (make_parts : ∀ b, make (parts b) = b) (record : β → CardRecord)
    (not_owns : ∀ key ∈ Timing.passive.keys, own.owns key = false)
    (actions_make : ∀ x, (record (make x)).actions = (ByTiming.ofTuple x.2).map (·.toAction)) :
    FlatReader fun j =>
      ((Format.via (.flat name own ActionEntry.listFields) make parts make_parts).decode
        .value j).toOption.map record where
  name := name
  own := own
  make := record ∘ make
  not_owns := not_owns
  actions_make := actions_make
  read_eq j := (congrArg (Option.map record) (ofJson?_via _ make parts make_parts j)).trans
    (Option.map_map record make _)

/-- The readers of the four kinds of cards that share one map with their lists of actions. -/
def CardKind.flatReader : (kind : CardKind) → kind ≠ .investigator → FlatReader kind.readEntry
  | .investigator, h => absurd rfl h
  | .asset, _ => .ofVia _ (fun e : AssetEntry => .asset e.toRecord) (by decide) fun _ => rfl
  | .event, _ => .ofVia _ (fun e : EventEntry => .event e.toRecord) (by decide) fun _ => rfl
  | .ability, _ => .ofVia _ (fun e : PlainEntry => .ability e.toRecord) (by decide) fun _ => rfl
  | .skill, _ => .ofVia _ (fun e : PlainEntry => .skill e.toRecord) (by decide) fun _ => rfl

/-! ## Entries of passive actions -/

/-- The entries under the keys of a timing. -/
def Timing.entries (timing : Timing) (es : List (String × Json)) : List (String × Json) :=
  es.filter fun e => decide (e.1 ∈ timing.keys)

/-- The items that are listed under the keys of a timing. -/
def Timing.listed (timing : Timing) (es : List (String × Json)) : List Json :=
  (timing.entries es).flatMap fun e => e.2.items?.getD []

/-- The passive actions are read from the entries under their keys. -/
lemma single_passive {es : List (String × Json)} {x : ActionEntry.Lists}
    (h : ActionEntry.listFields.gather .value es = some x) :
    ActionEntry.format.list.single (.defaulted []) .value (Timing.passive.entries es) =
      some (ByTiming.ofTuple x).passive := by
  rw [ActionEntry.listFields, Fields.opt, Fields.gather] at h
  obtain ⟨activate, y, -, hy, rfl⟩ := bind_cons_eq_some_iff.1 h
  rw [Fields.opt, Fields.gather] at hy
  obtain ⟨trigger, z, -, hz, rfl⟩ := bind_cons_eq_some_iff.1 hy
  rw [Fields.gather] at hz
  obtain ⟨passive, w, hpassive, -, rfl⟩ := bind_cons_eq_some_iff.1 hz
  refine Eq.trans (congrArg _ ?_) hpassive
  rw [List.filter_filter, List.filter_filter]
  refine List.filter_congr fun e _ => ?_
  by_cases hkey : e.1 ∈ Timing.passive.keys
  · rw [takes_passive hkey, not_takes_of_mem_keys hkey (by decide),
      not_takes_of_mem_keys hkey (by decide), decide_eq_true hkey]
    rfl
  · have htakes : Fields.takes "pasive" ["passive"] e.1 = false :=
      decide_eq_false fun hor => hkey (List.mem_cons.2 hor)
    rw [htakes, decide_eq_false hkey]
    rfl

variable {read : Json → Option CardRecord} {reading : FileReading} {es : List (String × Json)}
  {r : CardRecord}

/-- **The passive actions of a record are read from the entries under their keys**, as they are
seen. -/
lemma FlatReader.single_passive (flat : FlatReader read) (hkeys : (es.map (·.1)).Nodup)
    (hr : read (reading.see (.map es none)) = some r) :
    ∃ as, ActionEntry.format.list.single (.defaulted []) .value
        ((Timing.passive.entries es).map fun e => (e.1, reading.see e.2)) = some as ∧
      r.actions.passive = as.map (·.toAction) := by
  obtain ⟨seen, hsee, hperm⟩ := reading.see_map hkeys
  rw [hsee, flat.read_eq, ofJson?_flat_perm flat.name flat.own _ hperm, ofJson?_flat_map] at hr
  obtain ⟨x, hx, rfl⟩ := Option.map_eq_some_iff.1 hr
  obtain ⟨y, -, hy⟩ := Option.bind_eq_some_iff.1 hx
  obtain ⟨lists, hlists, rfl⟩ := Option.map_eq_some_iff.1 hy
  refine ⟨(ByTiming.ofTuple lists).passive, ?_, ?_⟩
  · refine Eq.trans (congrArg _ ?_) (CardRules.single_passive hlists)
    rw [Timing.entries, Timing.entries, List.filter_filter, List.filter_map]
    refine congrArg _ (List.filter_congr fun e _ => ?_)
    by_cases hkey : e.1 ∈ Timing.passive.keys
    · simp only [Function.comp_apply, decide_eq_true hkey, flat.not_owns e.1 hkey, Bool.not_false,
        Bool.and_self]
    · simp only [Function.comp_apply, decide_eq_false hkey, Bool.false_and]
  · rw [flat.actions_make]
    rfl

/-- No card has its passive actions under both keys. -/
lemma FlatReader.read_eq_none_of_both (flat : FlatReader read) (hkeys : (es.map (·.1)).Nodup)
    (hboth : ∀ key ∈ Timing.passive.keys, key ∈ es.map (·.1)) :
    read (reading.see (.map es none)) = none := by
  refine Option.eq_none_iff_forall_ne_some.2 fun r hr => ?_
  obtain ⟨as, has, -⟩ := flat.single_passive hkeys hr
  have hmem (key : String) (hkey : key ∈ Timing.passive.keys) :
      ∃ e ∈ Timing.passive.entries es, e.1 = key := by
    obtain ⟨e, he, rfl⟩ := List.mem_map.1 (hboth key hkey)
    exact ⟨e, List.mem_filter.2 ⟨he, decide_eq_true hkey⟩, rfl⟩
  obtain ⟨e, he, hname⟩ := hmem "pasive" (by decide)
  obtain ⟨e', he', hname'⟩ := hmem "passive" (by decide)
  match hentries : Timing.passive.entries es with
  | [] =>
    rw [hentries] at he
    cases he
  | [_] =>
    rw [hentries, List.mem_singleton] at he he'
    rw [he, ← he', hname'] at hname
    exact absurd hname (by decide)
  | _ :: _ :: _ =>
    rw [hentries] at has
    cases has

/-- What is listed under the keys of passive actions becomes the passive actions of the record. -/
lemma FlatReader.forall₂_listed (flat : FlatReader read) (hkeys : (es.map (·.1)).Nodup)
    (hr : read (reading.see (.map es none)) = some r) :
    List.Forall₂ (fun item a => ∃ e, ActionEntry.format.ofJson? (reading.see item) = some e ∧
      a = e.toAction) (Timing.passive.listed es) r.actions.passive := by
  obtain ⟨as, has, hpassive⟩ := flat.single_passive hkeys hr
  rw [hpassive, Timing.listed]
  match hentries : Timing.passive.entries es with
  | [] =>
    rw [hentries] at has
    cases has
    exact .nil
  | [e] =>
    rw [hentries] at has
    have hitems : ((e.2.items?).map (List.map reading.see)).bind ActionEntry.format.decodeAll =
        some as := by
      rw [← reading.items?_see, ← ofJson?_list_eq]
      exact has
    cases he : e.2.items? with
    | none => rw [he] at hitems; cases hitems
    | some items =>
      rw [he, Option.map_some, Option.bind_some] at hitems
      have hforall := forall₂_of_mapM_eq_some hitems
      rw [List.forall₂_map_left_iff] at hforall
      simp only [List.flatMap_singleton, he, Option.getD_some, List.forall₂_map_right_iff]
      exact hforall.imp fun item e he => ⟨e, he, rfl⟩
  | _ :: _ :: _ =>
    rw [hentries] at has
    cases has

/-! ## Another spelling -/

/-- An entry lists its passive actions under one of their keys, and another entry lists the same
under the other key or the same one; both have the same entries besides, and repeat no key. -/
def Json.RespellsPassive (j j' : Json) : Prop :=
  ∃ (before after : List (String × Json)) (key key' : String) (v : Json),
    key ∈ Timing.passive.keys ∧ key' ∈ Timing.passive.keys ∧
    j = .ofEntries (before ++ (key, v) :: after) ∧ j' = .ofEntries (before ++ (key', v) :: after) ∧
    ((before ++ (key, v) :: after).map (·.1)).Nodup ∧
    ((before ++ (key', v) :: after).map (·.1)).Nodup

/-- The lists of actions take both keys of passive actions alike. -/
lemma alike_listFields : ∀ key ∈ Timing.passive.keys, ∀ key' ∈ Timing.passive.keys,
    ActionEntry.listFields.alike key key' := by
  decide

/-- An entry is read alike under both keys of its passive actions. -/
lemma FlatReader.read_respell (flat : FlatReader read) {j j' : Json} (h : j.RespellsPassive j') :
    read (reading.see j) = read (reading.see j') := by
  obtain ⟨before, after, key, key', v, hkey, hkey', rfl, rfl, hnodup, hnodup'⟩ := h
  obtain ⟨seen, hsee, hperm⟩ := reading.see_map hnodup
  obtain ⟨seen', hsee', hperm'⟩ := reading.see_map hnodup'
  have hown := alike_of_not_owns (flat.not_owns key hkey) (flat.not_owns key' hkey')
  have hlists := alike_listFields key hkey key' hkey'
  rw [Tree.ofEntries, Tree.ofEntries, hsee, hsee', flat.read_eq, flat.read_eq,
    ofJson?_flat_perm flat.name flat.own _ hperm, ofJson?_flat_perm flat.name flat.own _ hperm']
  simp only [List.map_append, List.map_cons]
  rw [ofJson?_flat_respell flat.name hown hlists]

/-! ## Whole card files -/

/-- Files that differ in the spelling of one entry have the same records. -/
lemma Sections.read_respell {s s' : Sections} {kind : CardKind} (hkind : kind ≠ .investigator)
    {card : Nat} (h : s.OneDiffers kind card Json.RespellsPassive s') :
    (s'.map reading.see).read = (s.map reading.see).read := by
  refine Sections.read_congr fun k => ?_
  rw [ofKind_map, ofKind_map]
  by_cases hk : k = kind
  · subst hk
    obtain ⟨before, j, j', after, hj, hj', -, hrespell⟩ := h.1
    rw [hj, hj']
    simp only [List.map_append, List.map_cons, List.mapM_append, List.mapM_cons]
    rw [(k.flatReader hkind).read_respell hrespell]
  · rw [h.2 k hk]

/-- A card has the effects of the passive actions of its record, in their order. -/
lemma CardRecord.passive_filed {policy : Policy} {report : Report}
    (h : r.build policy = .ok report) :
    report.card.filed.passive = r.actions.passive.filterMap Action.effect? := by
  obtain ⟨faction, slot, -, -, rfl⟩ := exists_of_build_eq_ok h
  rw [reportWith, filed_assemble]
  rfl

/-- **The passive actions of a card are listed under either of two keys.**  Of an entry for an asset,
an event, an ability or a skill card, which is a map that repeats no key, and for both ways to read
the file:

* if one of the two keys is changed to the other, which the entry must not have, then the file is
  accepted as before, and has the same records;
* if the entry has both keys, the file is not accepted, whatever stands under them;
* if the file is accepted, then the items under either key, as they are seen, and no others are the
  passive actions of the record, in their order, and the passive effects of a card that is built of
  it come of these actions. -/
theorem CardFile.passive_spellings (kind : CardKind) (hkind : kind ≠ .investigator) (text : String)
    (j : Json) (hj : (Document.read text).value? = some j) (s : Sections)
    (hs : Sections.ofJson? j = some s) (card : Nat) (es : List (String × Json))
    (hes : (s.ofKind kind)[card]? = some (.ofEntries es)) (hkeys : (es.map (·.1)).Nodup)
    (reading : FileReading) :
    (∀ text' j' s', (Document.read text').value? = some j' → Sections.ofJson? j' = some s' →
      s.OneDiffers kind card Json.RespellsPassive s' →
        reading.records? text' = reading.records? text) ∧
    ((∀ key ∈ Timing.passive.keys, key ∈ es.map (·.1)) → reading.records? text = none) ∧
    ∀ rs, reading.records? text = some rs →
      ∃ r, (rs.ofKind kind)[card]? = some r ∧
        List.Forall₂ (fun item a => ∃ e, ActionEntry.format.ofJson? (reading.see item) = some e ∧
          a = e.toAction) (Timing.passive.listed es) r.actions.passive ∧
        ∀ policy report, r.build policy = .ok report →
          report.card.filed.passive = r.actions.passive.filterMap Action.effect? := by
  have hrecords : reading.records? text = (s.map reading.see).read := by
    rw [reading.records?_eq hj, hs, Option.bind_some]
  have hentry : ((s.map reading.see).ofKind kind)[card]? = some (reading.see (.map es none)) := by
    rw [Sections.ofKind_map, List.getElem?_map, hes]
    rfl
  have flat := kind.flatReader hkind
  refine ⟨fun text' j' s' hj' hs' hdiffers => ?_, fun hboth => ?_, fun rs hrs => ?_⟩
  · rw [hrecords, reading.records?_eq hj', hs', Option.bind_some,
      Sections.read_respell hkind hdiffers]
  · rw [hrecords, Option.eq_none_iff_forall_ne_some]
    intro rs hrs
    obtain ⟨r, -, hr⟩ := Sections.exists_record hrs hentry
    rw [flat.read_eq_none_of_both hkeys hboth] at hr
    cases hr
  · rw [hrecords] at hrs
    obtain ⟨r, hr, hread⟩ := Sections.exists_record hrs hentry
    exact ⟨r, hr, flat.forall₂_listed hkeys hread, fun policy report => CardRecord.passive_filed⟩

/-- The entry of a skill card with one passive action, which is listed under some keys. -/
def vigilance (keys : List String) : List (String × Json) :=
  ("name", .text "Vigilance") :: keys.map (·, .ofItems [.ofEntries [("action", .text "skill_test")]])
    ++ [("faction", .text "Seeker")]

/-- The file of that card. -/
def vigilanceFile (keys : List String) : Json :=
  .ofEntries [("skills", .ofItems [.ofEntries (vigilance keys)])]

/-- The action of the card is read under either key, and not under both. -/
theorem CardFile.passive_spellings_vigilance :
    let records? keys := FileReading.byEntry.records? (Json.render (vigilanceFile keys))
    records? ["passive"] = records? ["pasive"] ∧ records? ["pasive", "passive"] = none ∧
      ∃ (rs : Records) (r : CardRecord), records? ["pasive"] = some rs ∧
        (rs.ofKind .skill)[0]? = some r ∧
        List.Forall₂ (fun item a => ∃ e, ActionEntry.format.ofJson? (Tree.arranged item) = some e ∧
          a = e.toAction) [.ofEntries [("action", .text "skill_test")]] r.actions.passive := by
  intro records?
  have hread (keys : List String) (hkeys : keys ∈ [["passive"], ["pasive"], ["pasive", "passive"]]) :
      (Document.read (Json.render (vigilanceFile keys))).value? = some (vigilanceFile keys) := by
    revert keys
    decide +kernel
  have hsections (keys : List String) : Sections.ofJson? (vigilanceFile keys) =
      some { skills := [.ofEntries (vigilance keys)] } := rfl
  have hone := passive_spellings .skill (by decide) _ _ (hread ["pasive"] (by decide)) _
    (hsections _) 0 (vigilance ["pasive"]) rfl (by decide) .byEntry
  have hboth := passive_spellings .skill (by decide) _ _ (hread ["pasive", "passive"] (by decide)) _
    (hsections _) 0 (vigilance ["pasive", "passive"]) rfl (by decide) .byEntry
  refine ⟨?_, hboth.2.1 (by decide), ?_⟩
  · refine hone.1 _ _ _ (hread ["passive"] (by decide)) (hsections _) ⟨?_, ?_⟩
    · exact ⟨[], _, _, [], rfl, rfl, rfl, [("name", .text "Vigilance")],
        [("faction", .text "Seeker")], "pasive", "passive", _, by decide, by decide, rfl, rfl,
        by decide, by decide⟩
    · rintro (_ | _ | _ | _ | _) hk <;> first | exact absurd rfl hk | rfl
  · have hsome : (records? ["pasive"]).isSome := by
      change (FileReading.byEntry.records? _).isSome
      rw [FileReading.records?_eq _ (hread ["pasive"] (by decide))]
      rfl
    obtain ⟨rs, hrs⟩ := Option.isSome_iff_exists.1 hsome
    obtain ⟨r, hr, hpassive, -⟩ := hone.2.2 rs hrs
    exact ⟨rs, r, hrs, hr, hpassive⟩

end CardRules
