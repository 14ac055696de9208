import CardRules.Load.Records
import CardRules.Proofs.Format.Order

/-!
# Card files at once and entry by entry

A card file can be read at once by `CardFile.format`, or by `Records.parse`, which first takes out
the sections and then decodes one entry after the other.  The first way meets keys in the order of
the text; the second one puts every entry aside and meets its keys in ascending order.

`Sections.ofJson?` takes out the entries of a card file as they stand.  Both ways go by them: read at
once, the file is decoded from these entries, and read entry by entry it is decoded from the same
entries arranged (`CardFile.ofJson?_format`, `Sections.ofJson?_format`).  So the two ways come to the
same whenever the entries are unambiguous (`toOption_parse`).

`Records.parse_agrees` says that the two ways accept the same texts and come to the same records, as
long as the text has a value in which no key is repeated.
-/

namespace CardRules

variable {α : Type} {ts us : List Type} {j : Json}

/-! ## Lists of entries -/

/-- The values of items that were put aside, if all of them have one. -/
def Format.decodeAll (f : Format α) (items : List Json) : Option (List α) :=
  items.mapM fun j => (f.decode .value j).toOption

/-- Items are put aside as arranged values. -/
lemma decodeAll_anything (items : List Json) :
    Format.anything.decodeAll items = some (items.map Tree.arranged) :=
  mapM_eq_some_map fun j _ => ofJson?_anything j

/-- Unambiguous items have the same values after they have been arranged. -/
lemma decodeAll_arranged {f : Format α} {items : List Json} (h : ∀ j ∈ items, f.Unambiguous j) :
    f.decodeAll (items.map Tree.arranged) = f.decodeAll items := by
  rw [Format.decodeAll, List.mapM_map]
  exact mapM_congr fun j hj => f.ofJson?_arranged (h j hj)

/-- Items that all have a value are unambiguous. -/
lemma unambiguous_of_decodeAll {f : Format α} (hchoices : f.scalarChoices) {items : List Json}
    {as : List α} (h : f.decodeAll items = some as) : ∀ j ∈ items, f.Unambiguous j :=
  fun j hj => .inr ⟨hchoices, isSome_of_mapM h j hj⟩

/-- The steps of a field and of the others after it. -/
def Tuple.stepCons {β : Type} (step : β → Option α) (steps : Tuple us → Option (Tuple ts)) :
    Tuple (β :: us) → Option (Tuple (α :: ts))
  | (b, u) => (step b).bind fun a => (steps u).map (Tuple.cons a)

/-- Two steps for a field and two for the others make two steps for all of them. -/
lemma bind_stepCons {β : Type} (b? : Option β) (u? : Option (Tuple us)) (step : β → Option α)
    (steps : Tuple us → Option (Tuple ts)) :
    ((b?.bind fun b => u?.map (Tuple.cons b)).bind (Tuple.stepCons step steps)) =
      (b?.bind step).bind fun a => (u?.bind steps).map (Tuple.cons a) := by
  cases b? with
  | none => rfl
  | some b =>
    cases u? with
    | some u => rfl
    | none =>
      cases h : step b <;> simp [h]

/-! ## Sections of a file -/

/-- The items of a section, if it is a sequence. -/
def Tree.items? : Json → Option (List Json)
  | .sequence items _ => some items
  | _ => none

/-- The items of the only entry; there are none if there is no entry. -/
def itemsOf : List (String × Json) → Option (List Json)
  | [] => some []
  | [e] => e.2.items?
  | _ => none

/-- The items under a key, which may be missing but not repeated. -/
def itemsUnder (key : String) (es : List (String × Json)) : Option (List Json) :=
  itemsOf (es.filter (·.1 == key))

/-- The items at a number; there are none if the sequence ends before. -/
def itemsAt (number : Nat) (lists : List Json) : Option (List Json) :=
  (lists[number]?).elim (some []) Tree.items?

/-- The entries of a card file as they stand, section by section.  A file is a map from the names of
its sections, or the sequence of its sections; sections at the end may be missing. -/
def Sections.ofJson? : Json → Option Sections
  | .map es _ => do
    let investigators ← itemsUnder "investigators" es
    let assets ← itemsUnder "assets" es
    let events ← itemsUnder "events" es
    let abilities ← itemsUnder "habilities" es
    let skills ← itemsUnder "skills" es
    return { investigators, assets, events, abilities, skills }
  | .sequence lists _ => do
    let investigators ← itemsAt 0 lists
    let assets ← itemsAt 1 lists
    let events ← itemsAt 2 lists
    let abilities ← itemsAt 3 lists
    let skills ← itemsAt 4 lists
    if lists.length ≤ 5 then some { investigators, assets, events, abilities, skills } else none
  | _ => none

/-- The lists of all sections. -/
def Sections.toTuple (s : Sections) :
    Tuple [List Json, List Json, List Json, List Json, List Json] :=
  (s.investigators, s.assets, s.events, s.abilities, s.skills, ())

/-- The sections with a function applied to every entry. -/
def Sections.map (g : Json → Json) (s : Sections) : Sections where
  investigators := s.investigators.map g
  assets := s.assets.map g
  events := s.events.map g
  abilities := s.abilities.map g
  skills := s.skills.map g

/-! ### Fields with lists -/

/-- A list is read item by item, if it has items. -/
lemma ofJson?_list_eq (f : Format α) (j : Json) : f.list.ofJson? j = j.items?.bind f.decodeAll := by
  cases j with
  | sequence items cut =>
    obtain rfl := Tree.cut_eq_none cut
    exact ofJson?_list f items
  | broken b => exact b.read.elim
  | _ => rfl

/-- A field without aliases takes the entries of one key. -/
lemma takes_nil (key k : String) : Fields.takes key [] k = (k == key) := by
  rw [Fields.takes, Bool.beq_eq_decide_eq]
  simp only [List.not_mem_nil, or_false]

/-- A field with a list takes the items under its key, and then reads them. -/
lemma gather_list (key : String) (f : Format α) {rest : Fields ts}
    {lists? : List (String × Json) → Option (Tuple us)} {steps : Tuple us → Option (Tuple ts)}
    (h : ∀ es, rest.gather .value es = (lists? es).bind steps) (es : List (String × Json)) :
    (Fields.opt key [] f.list rest).gather .value es =
      ((itemsUnder key es).bind fun items =>
        (lists? (es.filter fun e => !e.1 == key)).map (Tuple.cons items)).bind
          (Tuple.stepCons f.decodeAll steps) := by
  have hsingle (own : List (String × Json)) :
      f.list.single (.defaulted []) .value own = (itemsOf own).bind f.decodeAll := by
    match own with
    | [] => rfl
    | [e] => exact ofJson?_list_eq f e.2
    | _ :: _ :: _ => rfl
  rw [bind_stepCons, Fields.opt, Fields.gather, hsingle, h]
  simp only [takes_nil]
  rfl

/-- The items under a key do not depend on the entries of another one. -/
lemma itemsUnder_filter {key other : String} (h : key ≠ other) (es : List (String × Json)) :
    itemsUnder key (es.filter fun e => !e.1 == other) = itemsUnder key es := by
  rw [itemsUnder, itemsUnder, List.filter_filter]
  refine congrArg itemsOf (List.filter_congr fun e _ => ?_)
  by_cases hkey : e.1 = key
  · simp [hkey, h]
  · simp [hkey]

/-- In a sequence a field with a list takes the items at its number, and then reads them. -/
lemma inTurn_list (key : String) (f : Format α) {rest : Fields ts}
    {lists? : List Json → Option (Tuple us)} {steps : Tuple us → Option (Tuple ts)}
    (h : ∀ lists, rest.inTurn .value lists = (lists? lists).bind steps) (lists : List Json) :
    (Fields.opt key [] f.list rest).inTurn .value lists =
      ((itemsAt 0 lists).bind fun items => (lists? lists.tail).map (Tuple.cons items)).bind
        (Tuple.stepCons f.decodeAll steps) := by
  rw [bind_stepCons, ← h]
  cases lists with
  | nil => rfl
  | cons j lists => exact congrArg (Option.bind · _) (ofJson?_list_eq f j)

/-- The items at a number are those of the next one if a list is put in front. -/
lemma itemsAt_tail (number : Nat) (lists : List Json) :
    itemsAt number lists.tail = itemsAt (number + 1) lists := by
  rw [itemsAt, itemsAt, List.getElem?_tail]

/-- **A file with five sections is read by its entries**, whatever the formats of the entries are. -/
lemma ofJson?_file {α₁ α₂ α₃ α₄ α₅ : Type} (name : String) (f₁ : Format α₁) (f₂ : Format α₂)
    (f₃ : Format α₃) (f₄ : Format α₄) (f₅ : Format α₅) (j : Json) :
    (Format.record name <| Fields.opt "investigators" [] f₁.list <| .opt "assets" [] f₂.list <|
      .opt "events" [] f₃.list <| .opt "habilities" [] f₄.list <|
      .opt "skills" [] f₅.list .nil).ofJson? j =
    (Sections.ofJson? j).bind fun s =>
      Tuple.stepCons f₁.decodeAll (Tuple.stepCons f₂.decodeAll (Tuple.stepCons f₃.decodeAll
        (Tuple.stepCons f₄.decodeAll (Tuple.stepCons f₅.decodeAll some)))) s.toTuple := by
  cases j with
  | map es cut =>
    obtain rfl := Tree.cut_eq_none cut
    have hnil (es : List (String × Json)) :
        Fields.nil.gather .value es = (some () : Option (Tuple [])).bind some := rfl
    have hlists := gather_list "investigators" f₁ <| gather_list "assets" f₂ <|
      gather_list "events" f₃ <| gather_list "habilities" f₄ <| gather_list "skills" f₅ hnil
    rw [ofJson?_record_map, hlists, Sections.ofJson?]
    repeat rw [itemsUnder_filter (by decide)]
    simp only [Option.bind_eq_bind, Option.pure_def, Option.map_eq_bind, Option.bind_assoc,
      Option.bind_some, Function.comp_def, Sections.toTuple]
    rfl
  | sequence lists cut =>
    obtain rfl := Tree.cut_eq_none cut
    have hnil (lists : List Json) : Fields.nil.inTurn .value lists =
        (if lists.length ≤ 0 then some () else none : Option (Tuple [])).bind some := by
      cases lists <;> rfl
    have hlists := inTurn_list "investigators" f₁ <| inTurn_list "assets" f₂ <|
      inTurn_list "events" f₃ <| inTurn_list "habilities" f₄ <| inTurn_list "skills" f₅ hnil
    rw [ofJson?_record_sequence, hlists, Sections.ofJson?]
    have hlength : lists.length - 1 - 1 - 1 - 1 - 1 ≤ 0 ↔ lists.length ≤ 5 := by omega
    simp only [itemsAt_tail, List.length_tail, hlength, Option.bind_eq_bind, Option.map_eq_bind,
      Option.bind_assoc, Option.bind_some, Function.comp_def, Sections.toTuple]
    by_cases h : lists.length ≤ 5
    · simp only [if_pos h]
      rfl
    · simp only [if_neg h]
      rfl
  | broken b => exact b.read.elim
  | _ => rfl

/-! ## Decoding the sections -/

/-- The entries of a section are decoded one by one. -/
lemma toOption_decodeSection (kind : CardKind) (f : Format α) (entries : List Json) :
    (decodeSection kind f entries).toOption = f.decodeAll entries := by
  suffices h : ∀ index, (decodeFrom kind f index entries).toOption = f.decodeAll entries from h 0
  induction entries with
  | nil => exact fun _ => rfl
  | cons entry rest ih =>
    intro index
    have hrest := ih (index + 1)
    rw [Format.decodeAll] at hrest ⊢
    rw [decodeFrom, List.mapM_cons, ← hrest]
    cases f.decode .value entry with
    | error e => rfl
    | ok a => cases decodeFrom kind f (index + 1) rest <;> rfl

/-- The sections of a card file are decoded one after the other. -/
lemma toOption_decode_sections (s : Sections) :
    s.decode.toOption =
      (InvestigatorEntry.format.decodeAll s.investigators).bind fun investigators =>
      (AssetEntry.format.decodeAll s.assets).bind fun assets =>
      (EventEntry.format.decodeAll s.events).bind fun events =>
      (PlainEntry.format.decodeAll s.abilities).bind fun abilities =>
      (PlainEntry.format.decodeAll s.skills).map fun skills =>
        { investigators, assets, events, abilities, skills } := by
  simp only [Sections.decode, toOption_bind, toOption_decodeSection, toOption_pure,
    Option.map_eq_bind, Function.comp_def]

/-- Read at once, a file is decoded from its entries as they stand. -/
theorem CardFile.ofJson?_format (j : Json) :
    CardFile.format.ofJson? j = (Sections.ofJson? j).bind (·.decode.toOption) := by
  refine (ofJson?_via _ _ _ _ j).trans ?_
  rw [ofJson?_file, Option.map_bind]
  congr 1
  funext s
  simp only [Function.comp_apply, toOption_decode_sections, Sections.toTuple, Tuple.stepCons,
    Option.map_eq_bind, Option.bind_assoc, Option.bind_some]
  rfl

/-- Read entry by entry, the entries of a file are put aside as arranged values. -/
theorem Sections.ofJson?_format (j : Json) :
    Sections.format.ofJson? j = (Sections.ofJson? j).map (·.map Tree.arranged) := by
  refine (ofJson?_via _ _ _ _ j).trans ?_
  rw [ofJson?_file, Option.map_bind, Option.map_eq_bind]
  congr 1
  funext s
  simp only [Function.comp_apply, Sections.toTuple, Tuple.stepCons, decodeAll_anything,
    Option.bind_some]
  rfl

/-! ### Unambiguous sections -/

/-- All entries are unambiguous to the formats of their sections. -/
def Sections.Unambiguous (s : Sections) : Prop :=
  (∀ j ∈ s.investigators, InvestigatorEntry.format.Unambiguous j) ∧
  (∀ j ∈ s.assets, AssetEntry.format.Unambiguous j) ∧
  (∀ j ∈ s.events, EventEntry.format.Unambiguous j) ∧
  (∀ j ∈ s.abilities, PlainEntry.format.Unambiguous j) ∧
  ∀ j ∈ s.skills, PlainEntry.format.Unambiguous j

/-- Unambiguous sections are decoded alike after their entries have been arranged. -/
lemma Sections.decode_arranged {s : Sections} (h : s.Unambiguous) :
    (s.map Tree.arranged).decode.toOption = s.decode.toOption := by
  obtain ⟨hinvestigators, hassets, hevents, habilities, hskills⟩ := h
  rw [toOption_decode_sections, toOption_decode_sections]
  simp only [Sections.map, decodeAll_arranged hinvestigators, decodeAll_arranged hassets,
    decodeAll_arranged hevents, decodeAll_arranged habilities, decodeAll_arranged hskills]

/-- Sections that can be decoded are unambiguous. -/
lemma Sections.unambiguous_of_decode {s : Sections} {file : CardFile}
    (h : s.decode.toOption = some file) : s.Unambiguous := by
  rw [toOption_decode_sections] at h
  simp only [Option.bind_eq_some_iff, Option.map_eq_some_iff] at h
  obtain ⟨_, hinvestigators, _, hassets, _, hevents, _, habilities, _, hskills, -⟩ := h
  exact ⟨unambiguous_of_decodeAll rfl hinvestigators, unambiguous_of_decodeAll rfl hassets,
    unambiguous_of_decodeAll rfl hevents, unambiguous_of_decodeAll rfl habilities,
    unambiguous_of_decodeAll rfl hskills⟩

/-- No key is repeated in the items of a sequence if none is in the sequence. -/
lemma distinctKeys_of_items? {items : List Json} (h : j.items? = some items)
    (hj : j.distinctKeys) : ∀ i ∈ items, i.distinctKeys := by
  cases j with
  | sequence js cut =>
    cases h
    exact Tree.distinctKeysItems_iff.1 hj
  | _ => cases h

/-- No key is repeated in the items of the only entry of a map if none is in its value. -/
lemma distinctKeys_of_itemsOf {es : List (String × Json)} {items : List Json}
    (h : itemsOf es = some items) (hes : ∀ e ∈ es, e.2.distinctKeys) :
    ∀ i ∈ items, i.distinctKeys := by
  match es with
  | [] =>
    cases h
    exact fun _ hi => absurd hi List.not_mem_nil
  | [e] => exact distinctKeys_of_items? h (hes e List.mem_cons_self)
  | _ :: _ :: _ => cases h

/-- No key is repeated in the items under a key if none is in the values of the entries. -/
lemma distinctKeys_of_itemsUnder {key : String} {es : List (String × Json)} {items : List Json}
    (h : itemsUnder key es = some items) (hes : ∀ e ∈ es, e.2.distinctKeys) :
    ∀ i ∈ items, i.distinctKeys :=
  distinctKeys_of_itemsOf h fun e he => hes e (List.mem_filter.1 he).1

/-- No key is repeated in the items of the list at a number if none is in the lists. -/
lemma distinctKeys_of_itemsAt {number : Nat} {lists items : List Json}
    (h : itemsAt number lists = some items) (hlists : ∀ j ∈ lists, j.distinctKeys) :
    ∀ i ∈ items, i.distinctKeys := by
  rw [itemsAt] at h
  cases hlist : lists[number]? with
  | none =>
    rw [hlist] at h
    cases h
    exact fun _ hi => absurd hi List.not_mem_nil
  | some j =>
    rw [hlist] at h
    exact distinctKeys_of_items? h (hlists j (List.mem_of_getElem? hlist))

/-- The sections of a file that repeats no key are unambiguous. -/
lemma Sections.unambiguous_of_distinctKeys {s : Sections} (hs : Sections.ofJson? j = some s)
    (hj : j.distinctKeys) : s.Unambiguous := by
  cases j with
  | map es cut =>
    have hes := (Tree.distinctKeys_map.1 hj).2
    simp only [Sections.ofJson?, Option.bind_eq_bind, Option.bind_eq_some_iff] at hs
    obtain ⟨_, hinvestigators, _, hassets, _, hevents, _, habilities, _, hskills, hsome⟩ := hs
    cases hsome
    exact ⟨fun i hi => .inl (distinctKeys_of_itemsUnder hinvestigators hes i hi),
      fun i hi => .inl (distinctKeys_of_itemsUnder hassets hes i hi),
      fun i hi => .inl (distinctKeys_of_itemsUnder hevents hes i hi),
      fun i hi => .inl (distinctKeys_of_itemsUnder habilities hes i hi),
      fun i hi => .inl (distinctKeys_of_itemsUnder hskills hes i hi)⟩
  | sequence lists cut =>
    have hlists := Tree.distinctKeysItems_iff.1 hj
    simp only [Sections.ofJson?, Option.bind_eq_bind, Option.bind_eq_some_iff] at hs
    obtain ⟨_, hinvestigators, _, hassets, _, hevents, _, habilities, _, hskills, hsome⟩ := hs
    split at hsome
    · cases hsome
      exact ⟨fun i hi => .inl (distinctKeys_of_itemsAt hinvestigators hlists i hi),
        fun i hi => .inl (distinctKeys_of_itemsAt hassets hlists i hi),
        fun i hi => .inl (distinctKeys_of_itemsAt hevents hlists i hi),
        fun i hi => .inl (distinctKeys_of_itemsAt habilities hlists i hi),
        fun i hi => .inl (distinctKeys_of_itemsAt hskills hlists i hi)⟩
    · cases hsome
  | broken b => exact b.read.elim
  | _ => cases hs

/-- The sections of a file that is unambiguous as a whole are unambiguous. -/
lemma Sections.unambiguous_of_file {s : Sections} (hs : Sections.ofJson? j = some s)
    (h : CardFile.format.Unambiguous j) : s.Unambiguous := by
  rcases h with hj | ⟨-, hsome⟩
  · exact unambiguous_of_distinctKeys hs hj
  · rw [CardFile.ofJson?_format, hs, Option.bind_some] at hsome
    obtain ⟨file, hfile⟩ := Option.isSome_iff_exists.1 hsome
    exact unambiguous_of_decode hfile

/-! ## The text of a card file -/

/-- The value that a text says, if it is read without a fault and nothing stands behind it.  Its
entries are in the order of the text, repeated ones included. -/
def Document.value? (document : Document) : Option Json :=
  document.tree.value.toOption.bind fun j => if document.tail.isNone then some j else none

/-- A text says a value if its tree does and nothing stands behind it. -/
lemma value?_eq_some_iff {document : Document} {j : Json} :
    document.value? = some j ↔ document.tree.value = .ok j ∧ document.tail = none := by
  rw [Document.value?]
  cases document.tree.value <;> cases document.tail <;> simp

/-- Whether a format accepts a text depends on its tree and on what stands behind it. -/
lemma toOption_decodeText (f : Format α) (text : String) :
    (f.decodeText text).toOption =
      (f.decode .text (Document.read text).tree).toOption.bind fun a =>
        if (Document.read text).tail.isNone then some a else none := by
  rw [Format.decodeText, toOption_bind]
  cases (Document.read text).tail <;> rfl

/-- The texts that say a value are those that can be read as any value. -/
theorem toOption_decodeText_anything (text : String) :
    (Format.anything.decodeText text).toOption =
      (Document.read text).value?.map Tree.arranged := by
  rw [toOption_decodeText, Document.value?, decode_anything, toOption_map, toOption_mapError,
    Option.bind_map, Option.map_bind]
  congr 1
  funext j
  cases (Document.read text).tail <;> rfl

/-- A text that says a value is accepted if its tree is. -/
lemma toOption_decodeText_of_value? (f : Format α) {text : String} {j : Json}
    (h : (Document.read text).value? = some j) :
    (f.decodeText text).toOption = (f.decode .text (Document.read text).tree).toOption := by
  obtain ⟨-, htail⟩ := value?_eq_some_iff.1 h
  rw [toOption_decodeText, htail]
  exact Option.bind_fun_some _

/-- A text is read as the value that it says. -/
lemma toOption_decodeText_eq_ofJson? {f : Format α} {text : String} {j : Json}
    (h : (Document.read text).value? = some j) : (f.decodeText text).toOption = f.ofJson? j := by
  rw [toOption_decodeText_of_value? f h, f.decode_of_value .text (value?_eq_some_iff.1 h).1]

/-- The records of a text are those of the card file that it says, if the file is unambiguous. -/
lemma toOption_parse {text : String} (h : (Document.read text).value? = some j)
    (hfile : CardFile.format.Unambiguous j) :
    (Records.parse text).toOption =
      (CardFile.format.decodeText text).toOption.map CardFile.toRecords := by
  have hparse : (Records.parse text).toOption =
      (Sections.format.ofJson? j).bind fun s => s.decode.toOption.map CardFile.toRecords := by
    rw [Records.parse, Records.ofText, toOption_bind, toOption_mapError,
      toOption_decodeText_eq_ofJson? h]
    congr 1
    funext s
    rw [toOption_bind, toOption_mapError, Option.map_eq_bind]
    rfl
  rw [hparse, toOption_decodeText_eq_ofJson? h, Sections.ofJson?_format, CardFile.ofJson?_format]
  cases hs : Sections.ofJson? j with
  | none => rfl
  | some s =>
    rw [Option.map_some, Option.bind_some, Option.bind_some,
      Sections.decode_arranged (Sections.unambiguous_of_file hs hfile)]

/-- **Reading a card file at once and entry by entry comes to the same.**  Of a text that says a
value without repeated keys, either both ways come to a result or neither does, and the records of
the card file are the records that are read. -/
theorem Records.parse_agrees {text : String} {j : Json} (h : (Document.read text).value? = some j)
    (hkeys : j.distinctKeys) :
    ((∃ file, CardFile.format.decodeText text = .ok file) ↔
      ∃ rs, Records.parse text = .ok rs) ∧
    ∀ file, CardFile.format.decodeText text = .ok file →
      Records.parse text = .ok file.toRecords := by
  have hparse := toOption_parse h (.inl hkeys)
  refine ⟨⟨?_, ?_⟩, ?_⟩
  · rintro ⟨file, hfile⟩
    rw [hfile] at hparse
    exact ⟨file.toRecords, toOption_eq_some_iff.1 hparse⟩
  · rintro ⟨rs, hrs⟩
    rw [hrs] at hparse
    obtain ⟨file, hfile, -⟩ := Option.map_eq_some_iff.1 hparse.symm
    exact ⟨file, toOption_eq_some_iff.1 hfile⟩
  · intro file hfile
    rw [hfile] at hparse
    exact toOption_eq_some_iff.1 hparse

/-- The text of a card file with one skill card, its keys in no particular order. -/
def gutsText : String :=
  Json.render (.ofEntries [("skills", .ofItems [.ofEntries
    [("pasive", .ofItems []), ("name", .text "Guts"), ("cost", .int 0),
      ("faction", .text "Neutral")]])])

/-- The text of that card file says a value, is accepted, and has the records of the card. -/
theorem Records.parse_gutsText :
    (∃ j, (Document.read gutsText).value? = some j ∧ j.distinctKeys) ∧
    (∃ file, CardFile.format.decodeText gutsText = .ok file) ∧
    Records.parse gutsText =
      .ok { skills := [{ name := "Guts", faction := "Neutral", skill := {} }] } := by
  have hsays : ((Document.read gutsText).value?.any (·.distinctKeys)) := by decide +kernel
  obtain ⟨j, hj, hkeys⟩ := (Option.any_eq_true _ _).1 hsays
  have hfile : CardFile.format.decodeText gutsText =
      .ok { skills := [{ name := "Guts", faction := "Neutral" }] } :=
    toOption_eq_some_iff.1 (by decide +kernel)
  exact ⟨⟨j, hj, hkeys⟩, ⟨_, hfile⟩, (Records.parse_agrees hj hkeys).2 _ hfile⟩

end CardRules
