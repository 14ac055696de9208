import CardRules.Proofs.CardFile.EditFile

/-!
# Which bad entry of a card file is reported

A card file is decoded section by section and entry by entry, and the first entry that does not
decode is the one that is reported.  `Sections.entries` lists all entries with their places, in the
order in which sections are decoded, and `Sections.FirstBad` says which entry is the first bad one
without regard to how a file is decoded.

The main statement is `Records.parse_entries`: a text whose sections can be told apart has records
exactly if all entries decode, and these are the records of the entries one by one; otherwise the
error is that of the first bad entry, under its kind, its number and its name.
-/

namespace CardRules

/-! ## Failures -/

variable {ε ε' α β : Type}

/-- The error of a computation that fails. -/
def failure? : Except ε α → Option ε
  | .ok _ => none
  | .error e => some e

/-- A computation fails with an error exactly if that is its outcome. -/
lemma failure?_eq_some_iff {x : Except ε α} {e : ε} : failure? x = some e ↔ x = .error e := by
  cases x <;> simp [failure?]

/-- A computation that does not fail has a result. -/
lemma failure?_eq_none_iff {x : Except ε α} : failure? x = none ↔ ∃ a, x = .ok a := by
  cases x <;> simp [failure?]

/-- The first of two computations that fails decides, if the second one does not fail for its own
result of the first one. -/
lemma failure?_bind {x : Except ε α} {f : α → Except ε β} {y : Option ε}
    (h : ∀ a, failure? (f a) = y) : failure? (x >>= f) = (failure? x).or y := by
  cases x with
  | ok a => exact h a
  | error e => rfl

/-- A function that is applied to the result does not fail. -/
lemma failure?_map (f : α → β) (x : Except ε α) : failure? (f <$> x) = failure? x := by
  cases x <;> rfl

/-- An error in other words. -/
lemma failure?_mapError (f : ε → ε') (x : Except ε α) :
    failure? (x.mapError f) = (failure? x).map f := by
  cases x <;> rfl

/-! ## Entries and their places -/

/-- The record of an entry in the section of a kind, or what is wrong with the entry. -/
def CardKind.decodeEntry (j : Json) : CardKind → Except (DecodeError Empty) CardRecord
  | .investigator =>
    (fun e => .investigator e.toRecord) <$> InvestigatorEntry.format.decode .value j
  | .asset => (fun e => .asset e.toRecord) <$> AssetEntry.format.decode .value j
  | .event => (fun e => .event e.toRecord) <$> EventEntry.format.decode .value j
  | .ability => (fun e => .ability e.toRecord) <$> PlainEntry.format.decode .value j
  | .skill => (fun e => .skill e.toRecord) <$> PlainEntry.format.decode .value j

/-- Whether there is a record does not depend on what is said of errors. -/
lemma CardKind.toOption_decodeEntry (kind : CardKind) (j : Json) :
    (kind.decodeEntry j).toOption = kind.readEntry j := by
  cases kind <;> exact toOption_map _ _

/-- An entry of a card file: the kind of its section, its number there and what stands there. -/
structure FileEntry where
  kind : CardKind
  index : Nat
  json : Json

namespace FileEntry

/-- The record of the entry, or what is wrong with it. -/
def record (p : FileEntry) : Except (DecodeError Empty) CardRecord :=
  p.kind.decodeEntry p.json

/-- The name by which an entry is reported: the text under its key `name`.  Other entries have no
name: those that are no map, or do not have the key, or have something else than a text there. -/
def Called (p : FileEntry) (name : String) : Prop :=
  p.json.get? "name" = some (.text name) ∨
    (∀ s, p.json.get? "name" ≠ some (.text s)) ∧ name = "<unnamed>"

/-- What is reported of the entry if it is bad. -/
def bad? (p : FileEntry) : Option BadEntry :=
  (failure? p.record).map fun e => ⟨p.kind, p.index, entryName p.json, e⟩

/-- An entry is called by one name only. -/
lemma called_iff {p : FileEntry} {name : String} : p.Called name ↔ name = entryName p.json := by
  unfold Called entryName
  split
  · rename_i s hs
    simp [hs, eq_comm]
  · rename_i hother
    constructor
    · rintro (hname | ⟨-, hname⟩)
      · exact absurd hname (hother name)
      · exact hname
    · exact fun hname => .inr ⟨hother, hname⟩

/-- Nothing is reported of an entry that decodes. -/
lemma bad?_eq_none_iff {p : FileEntry} : p.bad? = none ↔ ∃ r, p.record = .ok r := by
  rw [bad?, Option.map_eq_none_iff, failure?_eq_none_iff]

/-- Of an entry that does not decode an issue is reported, since there are no faults in a value. -/
lemma bad?_eq_some_iff {p : FileEntry} {b : BadEntry} :
    p.bad? = some b ↔ ∃ issue, p.record = .error (.data issue) ∧
      b = ⟨p.kind, p.index, entryName p.json, .data issue⟩ := by
  rw [bad?, Option.map_eq_some_iff]
  simp only [failure?_eq_some_iff]
  constructor
  · rintro ⟨e, he, rfl⟩
    cases e with
    | data issue => exact ⟨issue, he, rfl⟩
    | fault f => exact f.elim
  · rintro ⟨issue, hissue, rfl⟩
    exact ⟨_, hissue, rfl⟩

end FileEntry

/-- Entries of a kind that are numbered in turn. -/
def entriesFrom (kind : CardKind) (index : Nat) (entries : List Json) : List FileEntry :=
  (entries.zipIdx index).map fun e => ⟨kind, e.2, e.1⟩

/-- All entries of a card file, section by section. -/
def Sections.entries (s : Sections) : List FileEntry :=
  CardKind.all.flatMap fun kind => entriesFrom kind 0 (s.ofKind kind)

/-- An entry is the *first bad one* of a card file, for an issue: it does not decode for that issue,
and all entries in front of it decode. -/
def Sections.FirstBad (s : Sections) (p : FileEntry) (issue : Issue) : Prop :=
  ∃ before after, s.entries = before ++ p :: after ∧ p.record = .error (.data issue) ∧
    ∀ q ∈ before, ∃ r, q.record = .ok r

/-- An entry is one of a card file if it stands in the section of its kind. -/
lemma Sections.mem_entries {s : Sections} {p : FileEntry} :
    p ∈ s.entries ↔ (s.ofKind p.kind)[p.index]? = some p.json := by
  obtain ⟨kind, index, json⟩ := p
  simp only [entries, entriesFrom, List.mem_flatMap, List.mem_map, Prod.exists,
    List.mem_zipIdx_iff_getElem?, FileEntry.mk.injEq]
  constructor
  · rintro ⟨k, -, j, i, hj, rfl, rfl, rfl⟩
    exact hj
  · intro hj
    exact ⟨kind, by cases kind <;> decide, json, index, hj, rfl, rfl, rfl⟩

/-! ## Decoding entry by entry -/

/-- The values of a list are those of its elements, one by one. -/
lemma forall₂_of_mapM_eq_some {f : α → Option β} {as : List α} {bs : List β}
    (h : as.mapM f = some bs) : List.Forall₂ (fun a b => f a = some b) as bs := by
  induction as generalizing bs with
  | nil =>
    cases h
    exact .nil
  | cons a as ih =>
    obtain ⟨b, bs', hb, hbs', rfl⟩ := mapM_cons_eq_some_iff.1 h
    exact .cons hb (ih hbs')

/-- Elements that correspond to one another stand at the same place. -/
lemma exists_getElem?_of_forall₂ {R : α → β → Prop} {as : List α} {bs : List β}
    (h : List.Forall₂ R as bs) {index : Nat} {a : α} (ha : as[index]? = some a) :
    ∃ b, bs[index]? = some b ∧ R a b := by
  induction h generalizing index with
  | nil => cases ha
  | cons hab _ ih =>
    cases index with
    | zero =>
      cases ha
      exact ⟨_, rfl, hab⟩
    | succ index => exact ih ha

/-- The entries of a section are decoded up to the first bad one. -/
lemma failure?_decodeFrom (kind : CardKind) {f : Format α} {g : α → CardRecord}
    (hf : ∀ j, kind.decodeEntry j = g <$> f.decode .value j) (index : Nat) (entries : List Json) :
    failure? (decodeFrom kind f index entries) =
      (entriesFrom kind index entries).findSome? FileEntry.bad? := by
  induction entries generalizing index with
  | nil => rfl
  | cons j rest ih =>
    have hbad : (⟨kind, index, j⟩ : FileEntry).bad? =
        (failure? (f.decode .value j)).map fun e => ⟨kind, index, entryName j, e⟩ := by
      rw [FileEntry.bad?, FileEntry.record, hf, failure?_map]
    rw [decodeFrom, entriesFrom, List.zipIdx_cons, List.map_cons, List.findSome?_cons, hbad,
      ← entriesFrom, ← ih]
    cases f.decode .value j with
    | error e => rfl
    | ok a => exact failure?_map _ _

/-- The sections of a card file are decoded up to the first bad entry. -/
lemma Sections.failure?_decode (s : Sections) :
    failure? s.decode = s.entries.findSome? FileEntry.bad? := by
  simp only [entries, CardKind.all, List.flatMap_cons, List.flatMap_nil, List.findSome?_append,
    List.findSome?_nil, ← failure?_decodeFrom .investigator fun _ => rfl,
    ← failure?_decodeFrom .asset fun _ => rfl,
    ← failure?_decodeFrom .event fun _ => rfl,
    ← failure?_decodeFrom .ability fun _ => rfl,
    ← failure?_decodeFrom .skill fun _ => rfl]
  exact failure?_bind fun _ => failure?_bind fun _ => failure?_bind fun _ => failure?_bind fun _ =>
    failure?_bind fun _ => rfl

/-- **The first bad entry is the one that is reported.** -/
lemma Sections.decode_eq_error_iff {s : Sections} {b : BadEntry} :
    s.decode = .error b ↔ ∃ p issue, s.FirstBad p issue ∧
      b = ⟨p.kind, p.index, entryName p.json, .data issue⟩ := by
  rw [← failure?_eq_some_iff, failure?_decode, List.findSome?_eq_some_iff]
  simp only [FileEntry.bad?_eq_some_iff, FileEntry.bad?_eq_none_iff, FirstBad]
  constructor
  · rintro ⟨before, p, after, hentries, ⟨issue, hissue, hb⟩, hbefore⟩
    exact ⟨p, issue, ⟨before, after, hentries, hissue, hbefore⟩, hb⟩
  · rintro ⟨p, issue, ⟨before, after, hentries, hissue, hbefore⟩, hb⟩
    exact ⟨before, p, after, hentries, ⟨issue, hissue, hb⟩, hbefore⟩

/-- A card file is decoded if all of its entries are. -/
lemma Sections.exists_decode_iff {s : Sections} :
    (∃ file, s.decode = .ok file) ↔ ∀ p ∈ s.entries, ∃ r, p.record = .ok r := by
  rw [← failure?_eq_none_iff, failure?_decode, List.findSome?_eq_none_iff]
  simp only [FileEntry.bad?_eq_none_iff]

/-- The records of a card file that is decoded are those of its entries, one by one. -/
lemma Sections.forall₂_decodeEntry {s : Sections} {file : CardFile} (h : s.decode = .ok file)
    (kind : CardKind) :
    List.Forall₂ (fun j r => kind.decodeEntry j = .ok r) (s.ofKind kind)
      (file.toRecords.ofKind kind) := by
  have hread : s.read = some file.toRecords := by
    rw [read, h]
    rfl
  refine (forall₂_of_mapM_eq_some (mapM_of_read hread kind)).imp fun j r hr => ?_
  rw [← CardKind.toOption_decodeEntry] at hr
  exact toOption_eq_some_iff.1 hr

/-! ## Texts -/

/-- The records of a text whose sections are known. -/
lemma Records.parse_of_sections {text : String} {s : Sections}
    (hs : Sections.format.decodeText text = .ok s) :
    Records.parse text =
      CardFile.toRecords <$> s.decode.mapError (LoadError.ofBadEntry .cardRecords) := by
  rw [parse, ofText, hs]
  rfl

/-- A text whose sections are known has records if and only if its sections are decoded. -/
lemma Records.parse_eq_ok_iff {text : String} {s : Sections}
    (hs : Sections.format.decodeText text = .ok s) {rs : Records} :
    Records.parse text = .ok rs ↔ ∃ file, s.decode = .ok file ∧ file.toRecords = rs := by
  rw [parse_of_sections hs]
  cases s.decode <;> simp [Except.mapError, Functor.map, Except.map]

/-- A text whose sections are known has no records if and only if one of its entries is bad, and the
first bad one is reported. -/
lemma Records.parse_eq_error_iff {text : String} {s : Sections}
    (hs : Sections.format.decodeText text = .ok s) {error : LoadError} :
    Records.parse text = .error error ↔ ∃ p issue, s.FirstBad p issue ∧ error =
      ⟨[.cardRecords, .entry p.kind p.index (entryName p.json)], .decode (.data issue)⟩ := by
  rw [← failure?_eq_some_iff, parse_of_sections hs, failure?_map, failure?_mapError,
    Option.map_eq_some_iff]
  simp only [failure?_eq_some_iff, Sections.decode_eq_error_iff]
  constructor
  · rintro ⟨_, ⟨p, issue, hfirst, rfl⟩, rfl⟩
    exact ⟨p, issue, hfirst, rfl⟩
  · rintro ⟨p, issue, hfirst, rfl⟩
    exact ⟨_, ⟨p, issue, hfirst, rfl⟩, rfl⟩

/-- **A card file is read entry by entry, and the first bad entry is reported.**  If the sections of
a text can be told apart, then

* the text has records exactly if every entry of every section decodes;
* the records of each kind are those of the entries in its section, one by one and in their order;
* otherwise the error is that of the first bad entry, in the order of the sections and of the
  entries in them, whatever comes behind; it says the kind, the number and the name of the entry,
  and what is wrong with it. -/
theorem Records.parse_entries (text : String) (s : Sections)
    (hs : Sections.format.decodeText text = .ok s) :
    ((∃ rs, Records.parse text = .ok rs) ↔
      ∀ kind, ∀ j ∈ s.ofKind kind, ∃ r, kind.decodeEntry j = .ok r) ∧
    (∀ rs, Records.parse text = .ok rs → ∀ kind,
      List.Forall₂ (fun j r => kind.decodeEntry j = .ok r) (s.ofKind kind) (rs.ofKind kind)) ∧
    (∀ error, Records.parse text = .error error ↔ ∃ p name issue,
      s.FirstBad p issue ∧ p.Called name ∧
        error = ⟨[.cardRecords, .entry p.kind p.index name], .decode (.data issue)⟩) ∧
    ∀ kind index name issue,
      LoadError.message ⟨[.cardRecords, .entry kind index name], .decode (.data issue)⟩ =
        "parse card records" ++ ": " ++
          ("parse " ++ kind.keyword ++ " #" ++ toString index ++ " '" ++ name ++ "'") ++ ": " ++
            issue.message := by
  refine ⟨?_, fun rs hrs kind => ?_, fun error => ?_, fun kind index name issue => ?_⟩
  · have hfile : (∃ rs, parse text = .ok rs) ↔ ∃ file, s.decode = .ok file := by
      simp only [parse_eq_ok_iff hs]
      exact ⟨fun ⟨_, file, hfile, _⟩ => ⟨file, hfile⟩, fun ⟨file, hfile⟩ => ⟨_, file, hfile, rfl⟩⟩
    rw [hfile, Sections.exists_decode_iff]
    constructor
    · intro h kind j hj
      obtain ⟨index, hindex⟩ := List.mem_iff_getElem?.1 hj
      exact h ⟨kind, index, j⟩ (Sections.mem_entries.2 hindex)
    · intro h p hp
      exact h p.kind p.json (List.mem_of_getElem? (Sections.mem_entries.1 hp))
  · obtain ⟨file, hfile, rfl⟩ := (parse_eq_ok_iff hs).1 hrs
    exact Sections.forall₂_decodeEntry hfile kind
  · rw [parse_eq_error_iff hs]
    simp only [FileEntry.called_iff]
    constructor
    · rintro ⟨p, issue, hfirst, rfl⟩
      exact ⟨p, _, issue, hfirst, rfl, rfl⟩
    · rintro ⟨p, _, issue, hfirst, rfl, rfl⟩
      exact ⟨p, issue, hfirst, rfl⟩
  · rfl

/-- An asset with a cost that is out of range. -/
def lanternTree {φ : Type} : Tree φ :=
  .ofEntries [("cost", .int 300), ("faction", .text "neutral"), ("name", .text "Lantern")]

/-- A card file with two bad entries, the one of the section that is decoded later in front. -/
def tornTree {φ : Type} : Tree φ :=
  .ofEntries
    [("events", .ofItems [.ofEntries [("name", .int 5)]]),
      ("assets", .ofItems
        [.ofEntries [("cost", .int 2), ("faction", .text "neutral"), ("name", .text "Flashlight")],
          lanternTree])]

/-- The sections of that file. -/
def tornSections : Sections where
  assets :=
    [.ofEntries [("cost", .int 2), ("faction", .text "neutral"), ("name", .text "Flashlight")],
      lanternTree]
  events := [.ofEntries [("name", .int 5)]]

/-- The second asset is reported, by its name, and not the event in front of it. -/
theorem Records.parse_tornTree :
    Sections.format.decodeText (Json.render tornTree) = .ok tornSections ∧
    tornSections.FirstBad ⟨.asset, 1, lanternTree⟩ (.outOfRange 300 "u8") ∧
    Records.parse (Json.render tornTree) = .error
      ⟨[.cardRecords, .entry .asset 1 "Lantern"], .decode (.data (.outOfRange 300 "u8"))⟩ := by
  have hread : (Document.read (Json.render tornTree)).tree = tornTree ∧
      (Document.read (Json.render tornTree)).tail = none := by decide +kernel
  have hs : Sections.format.decodeText (Json.render tornTree) = .ok tornSections := by
    refine toOption_eq_some_iff.1 ?_
    rw [toOption_decodeText, hread.1, hread.2]
    rfl
  have hfirst : tornSections.FirstBad ⟨.asset, 1, lanternTree⟩ (.outOfRange 300 "u8") := by
    refine ⟨[⟨.asset, 0, _⟩], [⟨.event, 0, _⟩], rfl, rfl, fun q hq => ?_⟩
    obtain rfl := List.mem_singleton.1 hq
    exact ⟨_, rfl⟩
  exact ⟨hs, hfirst, ((Records.parse_entries _ _ hs).2.2.1 _).2 ⟨_, _, _, hfirst, .inl rfl, rfl⟩⟩

end CardRules
