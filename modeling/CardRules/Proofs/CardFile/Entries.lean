import CardRules.Proofs.CardFile.BadEntry

/-!
# The entries of a card file

Either way to read a card file goes by its entries as they stand (`Sections.ofJson?`): read at once,
the file has the records of these entries, and read entry by entry it has the records of the same
entries arranged (`FileReading.records?_eq`).  Keys may be repeated.
-/

namespace CardRules

/-- A function is applied to the entries of every kind. -/
lemma Sections.ofKind_map (g : Json → Json) (s : Sections) (kind : CardKind) :
    (s.map g).ofKind kind = (s.ofKind kind).map g := by
  cases kind <;> rfl

/-! ## Two ways to read a file -/

/-- A way to read a card file: at once, or entry by entry. -/
inductive FileReading where
  | atOnce
  | byEntry
deriving DecidableEq

namespace FileReading

/-- The records of a text, if it is accepted. -/
def records? (text : String) : FileReading → Option Records
  | atOnce => (CardFile.format.decodeText text).toOption.map CardFile.toRecords
  | byEntry => (Records.parse text).toOption

/-- How an entry is seen: as it stands, or arranged after it was put aside. -/
def see : FileReading → Json → Json
  | atOnce => id
  | byEntry => Tree.arranged

variable {text : String} {j : Json}

/-- **A text has the records of its entries as they are seen**, whether it is read at once or entry
by entry. -/
theorem records?_eq (reading : FileReading) (h : (Document.read text).value? = some j) :
    reading.records? text = (Sections.ofJson? j).bind fun s => (s.map reading.see).read := by
  obtain ⟨hvalue, htail⟩ := value?_eq_some_iff.1 h
  cases reading with
  | atOnce =>
    have hmap (s : Sections) : s.map id = s := by simp only [Sections.map, List.map_id]
    rw [records?, toOption_decodeText_eq_ofJson? h, CardFile.ofJson?_format, Option.map_bind]
    simp only [see, hmap]
    rfl
  | byEntry =>
    rw [records?, toOption_parse_eq, Sections.format.decode_of_value .text hvalue,
      Sections.ofJson?_format, Option.bind_map, htail]
    rfl

/-- An entry is seen as a map of the entries in it as they are seen, in some order, if no key is
repeated. -/
lemma see_map (reading : FileReading) {es : List (String × Json)}
    (hkeys : (es.map (·.1)).Nodup) :
    ∃ seen, reading.see (.map es none) = .map seen none ∧
      seen.Perm (es.map fun e => (e.1, reading.see e.2)) := by
  cases reading with
  | atOnce => exact ⟨es, rfl, by simp [see]⟩
  | byEntry =>
    have hentries : (es.map fun e => (e.1, byEntry.see e.2)) = Tree.arrangedEntries es :=
      (Tree.arrangedEntries_eq_map es).symm
    exact ⟨_, rfl, hentries ▸ Tree.arranged_map_perm hkeys⟩

/-- The items of a sequence are seen one by one. -/
lemma items?_see (reading : FileReading) (j : Json) :
    (reading.see j).items? = j.items?.map (List.map reading.see) := by
  cases reading with
  | atOnce => cases h : j.items? <;> simp [see, h]
  | byEntry =>
    cases j with
    | sequence items cut => exact congrArg some (Tree.arrangedItems_eq_map items)
    | broken b => exact b.read.elim
    | _ => rfl

end FileReading

/-! ## Records one by one -/

/-- A collection is known by its records of each kind. -/
lemma Records.ext_ofKind {rs rs' : Records} (h : ∀ kind, rs.ofKind kind = rs'.ofKind kind) :
    rs = rs' := by
  have hinj {ρ : Type} {make : ρ → CardRecord} (hmake : Function.Injective make) {as bs : List ρ}
      (hmap : as.map make = bs.map make) : as = bs := List.map_injective_iff.2 hmake hmap
  obtain ⟨investigators, assets, events, abilities, skills⟩ := rs
  obtain ⟨investigators', assets', events', abilities', skills'⟩ := rs'
  obtain rfl := hinj (fun _ _ heq => CardRecord.investigator.inj heq) (h .investigator)
  obtain rfl := hinj (fun _ _ heq => CardRecord.asset.inj heq) (h .asset)
  obtain rfl := hinj (fun _ _ heq => CardRecord.event.inj heq) (h .event)
  obtain rfl := hinj (fun _ _ heq => CardRecord.ability.inj heq) (h .ability)
  obtain rfl := hinj (fun _ _ heq => CardRecord.skill.inj heq) (h .skill)
  rfl

/-- Sections have the records that their entries have, kind by kind. -/
lemma Sections.read_eq_some_iff {s : Sections} {rs : Records} :
    s.read = some rs ↔ ∀ kind, (s.ofKind kind).mapM kind.readEntry = some (rs.ofKind kind) := by
  constructor
  · exact mapM_of_read
  · intro h
    obtain ⟨rs', hrs'⟩ := exists_read fun kind => ⟨_, h kind⟩
    have hsame (kind : CardKind) : rs'.ofKind kind = rs.ofKind kind :=
      Option.some.inj ((mapM_of_read hrs' kind).symm.trans (h kind))
    rw [hrs', Records.ext_ofKind hsame]

/-- Sections are read alike if the entries of every kind are. -/
lemma Sections.read_congr {s s' : Sections}
    (h : ∀ kind, (s.ofKind kind).mapM kind.readEntry = (s'.ofKind kind).mapM kind.readEntry) :
    s.read = s'.read := by
  refine Option.ext fun rs => ?_
  simp only [read_eq_some_iff, h]

/-- The record of an entry is at the place of the entry. -/
lemma Sections.exists_record {s : Sections} {rs : Records} (h : s.read = some rs)
    {kind : CardKind} {card : Nat} {j : Json} (hj : (s.ofKind kind)[card]? = some j) :
    ∃ r, (rs.ofKind kind)[card]? = some r ∧ kind.readEntry j = some r :=
  exists_getElem?_of_forall₂ (forall₂_of_mapM_eq_some (mapM_of_read h kind)) hj

end CardRules
