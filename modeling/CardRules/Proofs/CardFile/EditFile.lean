import CardRules.Proofs.CardFile.Edit
import CardRules.Proofs.CardFile.Sections

/-!
# Whole card files with another modifier

A card file with another modifier (`EditsModifier`) is accepted if the old one is.  Its records are
those of the old one, but for the record of the card of which an action has been edited: this one is
the same as well, if the edited entry does not count, or it differs in the modifiers of that action
(`Records.parse_edit`).

The file is read in two steps.  The entries of a section are put aside as arranged values, and on the
way an entry that is repeated in its map may be dropped, with the edited modifier in it.  Then the
entries are read one by one.
-/

namespace CardRules

variable {m : Modifier} {timing : Timing} {index : Nat} {path : List Tree.Step}

/-! ## Sections -/

/-- The entries in the section of a kind. -/
def Sections.ofKind (s : Sections) : CardKind → List Json
  | .investigator => s.investigators
  | .asset => s.assets
  | .event => s.events
  | .ability => s.abilities
  | .skill => s.skills

/-- Two card files differ in one entry, the one of a number in the section of a kind. -/
def Sections.OneDiffers (kind : CardKind) (card : Nat) (R : Json → Json → Prop)
    (s s' : Sections) : Prop :=
  CardRules.OneDiffers card R (s.ofKind kind) (s'.ofKind kind) ∧
    ∀ k, k ≠ kind → s'.ofKind k = s.ofKind k

/-- The sections of a file follow in an entry: it is put aside as it was, or differs at the end of the
path. -/
lemma Sections.follows_format {kind : CardKind} {step : Tree.Step} (hstep : kind.SectionStep step)
    (card : Nat) :
    Sections.format.Follows (m.tree : Tree Fault) (step :: .item card :: path)
      (Sections.OneDiffers kind card fun j j' =>
        j' = j ∨ (m.tree : Json).ReplacesAt path j j') := by
  have hentry : Format.anything.Follows (m.tree : Tree Fault) path
      fun j j' => j' = j ∨ (m.tree : Json).ReplacesAt path j j' := by
    rw [← m.arranged_tree]
    exact follows_anything m.value_tree
  have hlist := follows_list hentry card
  have hlater {ts : List Type} {rest : Fields ts} {key : String} {n : Nat}
      {S : Tuple ts → Tuple ts → Prop} {path : List Tree.Step}
      (h : rest.Follows (m.tree : Tree Fault) key n path S) (name : String)
      (hkey : Fields.takes name [] key = false) :=
    follows_later h name [] (.defaulted []) (.list .anything) hkey
  cases kind with
  | investigator =>
    have hinvestigators := follows_first hlist "investigators" [] (.defaulted [])
      (.opt "assets" [] (.list .anything) <|
        .opt "events" [] (.list .anything) <|
        .opt "habilities" [] (.list .anything) <|
        .opt "skills" [] (.list .anything) .nil) (takes_self ..)
    refine follows_via _ (follows_record_field "CardSections" hinvestigators hstep) ?_
    rintro ⟨investigators, assets, events, abilities, skills, _⟩ ⟨_, _⟩ ⟨h, rfl⟩
    exact ⟨h, by rintro (_ | _ | _ | _ | _) hk <;> first | exact absurd rfl hk | rfl⟩
  | asset =>
    have hassets := follows_first hlist "assets" [] (.defaulted [])
      (.opt "events" [] (.list .anything) <|
        .opt "habilities" [] (.list .anything) <|
        .opt "skills" [] (.list .anything) .nil) (takes_self ..)
    have hinvestigators := hlater hassets "investigators" rfl
    refine follows_via _ (follows_record_field "CardSections" hinvestigators hstep) ?_
    rintro ⟨investigators, assets, events, abilities, skills, _⟩ ⟨_, _, _⟩ ⟨rfl, h, rfl⟩
    exact ⟨h, by rintro (_ | _ | _ | _ | _) hk <;> first | exact absurd rfl hk | rfl⟩
  | event =>
    have hevents := follows_first hlist "events" [] (.defaulted [])
      (.opt "habilities" [] (.list .anything) <|
        .opt "skills" [] (.list .anything) .nil) (takes_self ..)
    have hassets := hlater hevents "assets" rfl
    have hinvestigators := hlater hassets "investigators" rfl
    refine follows_via _ (follows_record_field "CardSections" hinvestigators hstep) ?_
    rintro ⟨investigators, assets, events, abilities, skills, _⟩ ⟨_, _, _, _⟩ ⟨rfl, rfl, h, rfl⟩
    exact ⟨h, by rintro (_ | _ | _ | _ | _) hk <;> first | exact absurd rfl hk | rfl⟩
  | ability =>
    have habilities := follows_first hlist "habilities" [] (.defaulted [])
      (.opt "skills" [] (.list .anything) .nil) (takes_self ..)
    have hevents := hlater habilities "events" rfl
    have hassets := hlater hevents "assets" rfl
    have hinvestigators := hlater hassets "investigators" rfl
    refine follows_via _ (follows_record_field "CardSections" hinvestigators hstep) ?_
    rintro ⟨investigators, assets, events, abilities, skills, _⟩ ⟨_, _, _, _, _⟩
      ⟨rfl, rfl, rfl, h, rfl⟩
    exact ⟨h, by rintro (_ | _ | _ | _ | _) hk <;> first | exact absurd rfl hk | rfl⟩
  | skill =>
    have hskills := follows_first hlist "skills" [] (.defaulted []) .nil (takes_self ..)
    have habilities := hlater hskills "habilities" rfl
    have hevents := hlater habilities "events" rfl
    have hassets := hlater hevents "assets" rfl
    have hinvestigators := hlater hassets "investigators" rfl
    refine follows_via _ (follows_record_field "CardSections" hinvestigators hstep) ?_
    rintro ⟨investigators, assets, events, abilities, skills, _⟩ ⟨_, _, _, _, _, _⟩
      ⟨rfl, rfl, rfl, rfl, h, rfl⟩
    exact ⟨h, by rintro (_ | _ | _ | _ | _) hk <;> first | exact absurd rfl hk | rfl⟩

/-! ### Records of sections -/

/-- The records of all sections, if all entries can be read. -/
def Sections.read (s : Sections) : Option Records :=
  s.decode.toOption.map CardFile.toRecords

/-- What is made of the values of a list is made of them one by one. -/
lemma map_mapM {α β γ : Type} (f : α → Option β) (g : β → γ) (as : List α) :
    (as.mapM f).map (List.map g) = as.mapM fun a => (f a).map g := by
  induction as with
  | nil => rfl
  | cons a as ih =>
    rw [List.mapM_cons, List.mapM_cons, ← ih]
    cases f a with
    | none => rfl
    | some b => cases as.mapM f <;> rfl

/-- The records of a section are read from its entries one by one. -/
lemma mapM_readEntry {α : Type} (f : Format α) (g : α → CardRecord) (entries : List Json) :
    (entries.mapM fun j => (f.decode .value j).toOption.map g) =
      (f.decodeAll entries).map (List.map g) :=
  (map_mapM _ g entries).symm

/-- The records of sections are those of their entries. -/
lemma Sections.mapM_of_read {s : Sections} {rs : Records} (h : s.read = some rs) (k : CardKind) :
    (s.ofKind k).mapM k.readEntry = some (rs.ofKind k) := by
  rw [read, toOption_decode_sections] at h
  simp only [Option.map_eq_some_iff, Option.bind_eq_some_iff] at h
  obtain ⟨_, ⟨investigators, hinvestigators, assets, hassets, events, hevents, abilities, habilities,
    skills, hskills, rfl⟩, rfl⟩ := h
  have hread {α ρ : Type} {f : Format α} {entries : List Json} {as : List α}
      (g : ρ → CardRecord) (h : α → ρ) (has : f.decodeAll entries = some as) :
      (entries.mapM fun j => (f.decode .value j).toOption.map fun e => g (h e)) =
        some ((as.map h).map g) := by
    rw [mapM_readEntry f fun e => g (h e), has, Option.map_some, List.map_map]
    rfl
  cases k with
  | investigator => exact hread .investigator (·.toRecord) hinvestigators
  | asset => exact hread .asset (·.toRecord) hassets
  | event => exact hread .event (·.toRecord) hevents
  | ability => exact hread .ability (·.toRecord) habilities
  | skill => exact hread .skill (·.toRecord) hskills

/-- Sections with entries that can be read have records. -/
lemma Sections.exists_read {s : Sections} (h : ∀ k, ∃ l, (s.ofKind k).mapM k.readEntry = some l) :
    ∃ rs, s.read = some rs := by
  have hread {α : Type} (f : Format α) (entries : List Json) {g : α → CardRecord}
      (hl : ∃ l, (entries.mapM fun j => (f.decode .value j).toOption.map g) = some l) :
      ∃ as, f.decodeAll entries = some as := by
    obtain ⟨l, hl⟩ := hl
    rw [mapM_readEntry] at hl
    obtain ⟨as, has, -⟩ := Option.map_eq_some_iff.1 hl
    exact ⟨as, has⟩
  obtain ⟨investigators, hinvestigators⟩ :=
    hread InvestigatorEntry.format s.investigators (h .investigator)
  obtain ⟨assets, hassets⟩ := hread AssetEntry.format s.assets (h .asset)
  obtain ⟨events, hevents⟩ := hread EventEntry.format s.events (h .event)
  obtain ⟨abilities, habilities⟩ := hread PlainEntry.format s.abilities (h .ability)
  obtain ⟨skills, hskills⟩ := hread PlainEntry.format s.skills (h .skill)
  rw [read, toOption_decode_sections, hinvestigators, hassets, hevents, habilities, hskills]
  exact ⟨_, rfl⟩

/-- **Sections that differ in an entry in which a modifier was replaced have records that differ in
the record of that entry**, if they differ at all. -/
lemma Sections.read_replace {kind : CardKind} {card : Nat} {path' : List Tree.Step}
    {s s' : Sections} {rs : Records} (hpath : kind.ActionPath timing index path)
    (hpath' : ActionEntry.ModifierPath path')
    (h : s.OneDiffers kind card
      (fun j j' => j' = j ∨ (m.tree : Json).ReplacesAt (path ++ path') j j') s')
    (hrs : s.read = some rs) :
    ∃ rs', s'.read = some rs' ∧
      CardRules.OneDiffers card (fun r r' => r' = r ∨ r.DifferInModifiers timing index r')
        (rs.ofKind kind) (rs'.ofKind kind) ∧
      ∀ k, k ≠ kind → rs'.ofKind k = rs.ofKind k := by
  have hread := Sections.mapM_of_read hrs
  have hedited : ∃ l, (s'.ofKind kind).mapM kind.readEntry = some l ∧
      CardRules.OneDiffers card (fun r r' => r' = r ∨ r.DifferInModifiers timing index r')
        (rs.ofKind kind) l := by
    refine h.1.exists_mapM (fun j j' r hj hr => ?_) (hread kind)
    rcases hj with rfl | hj
    · exact ⟨r, hr, .inl rfl⟩
    · obtain ⟨r', hr', hdiffer⟩ := CardKind.readEntry_replace hpath hpath' hj hr
      exact ⟨r', hr', .inr hdiffer⟩
  have hothers (k : CardKind) (hk : k ≠ kind) :
      (s'.ofKind k).mapM k.readEntry = some (rs.ofKind k) := by
    rw [h.2 k hk, hread k]
  obtain ⟨l, hl, hdiffers⟩ := hedited
  obtain ⟨rs', hrs'⟩ := Sections.exists_read (s := s') fun k => by
    by_cases hk : k = kind
    · exact hk ▸ ⟨l, hl⟩
    · exact ⟨_, hothers k hk⟩
  have hread' := Sections.mapM_of_read hrs'
  have hkind : l = rs'.ofKind kind := Option.some.inj (hl.symm.trans (hread' kind))
  refine ⟨rs', hrs', hkind ▸ hdiffers, fun k hk => ?_⟩
  exact Option.some.inj ((hread' k).symm.trans (hothers k hk))

/-! ## Texts -/

/-- The paths in a card file to the modifiers of an action, the one of a number at a timing in a
card of a number in the section of a kind. -/
def CardFile.ModifierPath (kind : CardKind) (card : Nat) (timing : Timing) (index : Nat)
    (path : List Tree.Step) : Prop :=
  ∃ (step : Tree.Step) (front back : List Tree.Step), kind.SectionStep step ∧
    kind.ActionPath timing index front ∧ ActionEntry.ModifierPath back ∧
      path = step :: .item card :: (front ++ back)

/-- The second text is the first one with another modifier of an action: what they say differs in
that value only, and the same follows behind it. -/
def EditsModifier (kind : CardKind) (card : Nat) (timing : Timing) (index : Nat)
    (text text' : String) : Prop :=
  ∃ (m : Modifier) (path : List Tree.Step), CardFile.ModifierPath kind card timing index path ∧
    m.tree.ReplacesAt path (Document.read text).tree (Document.read text').tree ∧
    (Document.read text').tail = (Document.read text).tail

/-- The records of a text are those of its sections. -/
lemma toOption_parse_eq (text : String) :
    (Records.parse text).toOption =
      (Sections.format.decode .text (Document.read text).tree).toOption.bind fun s =>
        if (Document.read text).tail.isNone then s.read else none := by
  rw [Records.parse, Records.ofText, toOption_bind, toOption_mapError, toOption_decodeText,
    Option.bind_assoc]
  congr 1
  funext s
  cases (Document.read text).tail with
  | none => simp [Sections.read, Option.map_eq_bind]
  | some f => rfl

/-- A text that says a tree, and nothing behind it, has the records of the tree. -/
lemma Records.parse_of_read {text : String} {tree : Tree Fault} {rs : Records}
    (h : (Document.read text).tree = tree ∧ (Document.read text).tail = none)
    (hrs : (Sections.format.decode .text tree).toOption.bind Sections.read = some rs) :
    Records.parse text = .ok rs := by
  refine toOption_eq_some_iff.1 ?_
  rw [toOption_parse_eq, h.1, h.2]
  exact hrs

/-- **A card file with another modifier is accepted if the old one is.**  Its records differ from the
old ones in the modifiers of the edited action, or they are the same. -/
theorem Records.parse_edit {kind : CardKind} {card : Nat} {text text' : String} {rs : Records}
    (hedit : EditsModifier kind card timing index text text') (hrs : Records.parse text = .ok rs) :
    ∃ rs', Records.parse text' = .ok rs' ∧
      CardRules.OneDiffers card (fun r r' => r' = r ∨ r.DifferInModifiers timing index r')
        (rs.ofKind kind) (rs'.ofKind kind) ∧
      ∀ k, k ≠ kind → rs'.ofKind k = rs.ofKind k := by
  obtain ⟨m, _, ⟨step, front, back, hstep, hfront, hback, rfl⟩, htree, htail⟩ := hedit
  have hparse := toOption_parse_eq text
  rw [hrs] at hparse
  obtain ⟨s, hs, hread⟩ := Option.bind_eq_some_iff.1 hparse.symm
  obtain ⟨s', hs', hdiffers⟩ := Sections.follows_format hstep card htree hs
  split at hread
  · rename_i hnone
    obtain ⟨rs', hrs', hrecords⟩ := Sections.read_replace hfront hback hdiffers hread
    have hparse' : (Records.parse text').toOption = some rs' := by
      rw [toOption_parse_eq, hs', Option.bind_some, htail, if_pos hnone, hrs']
    exact ⟨rs', toOption_eq_some_iff.1 hparse', hrecords⟩
  · cases hread

end CardRules
