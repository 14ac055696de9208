import CardRules.Proofs.Format.Value

/-!
# The order of entries does not matter

A text is read in the order in which it is written, a value in the order of its keys.  What is put
aside is arranged: its entries are sorted, and of those with one key the last one stays.

For every format a value is read as it is after it has been arranged, if no key is repeated
(`Format.ofJson?_arranged`).  So readings of a tree and of the arranged value that it says agree
(`Format.orderFree`).  Keys may even be repeated if the format accepts the value as it stands: where
it looks, it has objected to a repeated key, and elsewhere it makes no difference which entry stays.
But a choice between two formats might fall on the other one when a repeated key is gone; so the
first one of two has to be a format without parts (`Format.scalarChoices`).

The comparison is made for each kind of format by itself, on the assumption that it holds for the
formats it is built from.  For records it rests on `Fields.gather`, which takes the entries of each
field out of all others and so does not see how they are mixed.
-/

namespace CardRules

/-! ## Unambiguous values -/

/-- Whether a format reads single values only. -/
def Format.scalar : {α : Type} → Format α → Bool
  | _, .integer _ | _, .text => true
  | _, .nullable f | _, .via f _ _ _ => f.scalar
  | _, .either _ f g => f.scalar && g.scalar
  | _, _ => false

mutual

/-- Whether the first one of any two formats reads single values only. -/
def Format.scalarChoices : {α : Type} → Format α → Bool
  | _, .nullable f | _, .list f | _, .dictionary f | _, .via f _ _ _ => f.scalarChoices
  | _, .either _ f g => f.scalar && g.scalarChoices
  | _, .tagged variants => variants.scalarChoices
  | _, .record _ fields | _, .body fields => fields.scalarChoices
  | _, .flat _ own inner => own.scalarChoices && inner.scalarChoices
  | _, _ => true

/-- Whether the first one of any two formats in the fields of a record reads single values only. -/
def Fields.scalarChoices : {ts : List Type} → Fields ts → Bool
  | _, .nil => true
  | _, .cons _ _ _ f rest => f.scalarChoices && rest.scalarChoices

/-- Whether the first one of any two formats for a variant reads single values only. -/
def Variants.scalarChoices : {α : Type} → Variants α → Bool
  | _, .nil => true
  | _, .cons _ f _ _ _ rest => f.scalarChoices && rest.scalarChoices

end

/-- A value is *unambiguous* to a format if no key is repeated, or if the format accepts the value
as it stands and has no choice that could fall otherwise. -/
def Format.Unambiguous {α : Type} (f : Format α) (j : Json) : Prop :=
  j.distinctKeys ∨ f.scalarChoices ∧ (f.ofJson? j).isSome

/-- The entries of a map are unambiguous to the fields of a record. -/
def Fields.Unambiguous {ts : List Type} (fields : Fields ts) (es : List (String × Json)) : Prop :=
  (Tree.map es none : Json).distinctKeys ∨
    fields.scalarChoices ∧ (fields.gather .value es).isSome

/-! ## Reading arranged values -/

/-- What is unambiguous is read as it is after it has been arranged. -/
def Format.SeesArranged {α : Type} (f : Format α) : Prop :=
  ∀ {j : Json}, f.Unambiguous j → f.ofJson? j.arranged = f.ofJson? j

/-- Every field of a record reads what is unambiguous as it is after it has been arranged. -/
def Fields.SeeArranged : {ts : List Type} → Fields ts → Prop
  | _, .nil => True
  | _, .cons _ _ _ f rest => f.SeesArranged ∧ rest.SeeArranged

/-- The contents of every variant are read, if they are unambiguous, as after they have been
arranged. -/
def Variants.SeeArranged : {α : Type} → Variants α → Prop
  | _, .nil => True
  | _, .cons _ f _ _ _ rest => f.SeesArranged ∧ rest.SeeArranged

variable {α β φ : Type} {ts us : List Type} {j : Json}

/-! ### Values without parts -/

/-- What is found in a value is found in the arranged value. -/
lemma found_arranged (j : Json) : j.arranged.found.toOption = j.found.toOption := by
  cases j with
  | broken b => exact b.read.elim
  | _ => rfl

/-- Integers have no entries. -/
lemma ofJson?_integer_arranged (kind : IntegerKind α) (j : Json) :
    (Format.integer kind).ofJson? j.arranged = (Format.integer kind).ofJson? j := by
  rw [Format.ofJson?, Format.ofJson?, toOption_decode_integer, toOption_decode_integer,
    found_arranged]

/-- Texts have no entries. -/
lemma ofJson?_text_arranged (j : Json) :
    Format.text.ofJson? j.arranged = Format.text.ofJson? j := by
  rw [Format.ofJson?, Format.ofJson?, toOption_decode_text, toOption_decode_text, found_arranged]

/-- Only `null` is arranged to `null`. -/
lemma arranged_eq_null_iff : j.arranged = .null ↔ j = .null := by
  cases j with
  | null => exact Iff.rfl
  | broken b => exact b.read.elim
  | _ => exact ⟨fun h => (by cases h), fun h => (by cases h)⟩

/-- A nullable value is read alike if the other one is. -/
lemma ofJson?_nullable_arranged {f : Format α} (h : j ≠ .null → f.ofJson? j.arranged = f.ofJson? j) :
    f.nullable.ofJson? j.arranged = f.nullable.ofJson? j := by
  by_cases hnull : j = .null
  · rw [hnull]
    rfl
  · rw [ofJson?_nullable f hnull, ofJson?_nullable f (mt arranged_eq_null_iff.1 hnull), h hnull]

/-- What reads single values only does not see that anything is arranged. -/
lemma ofJson?_arranged_of_scalar : {α : Type} → (f : Format α) → f.scalar → (j : Json) →
    f.ofJson? j.arranged = f.ofJson? j
  | _, .integer kind, _, j => ofJson?_integer_arranged kind j
  | _, .text, _, j => ofJson?_text_arranged j
  | _, .nullable f, hf, j => ofJson?_nullable_arranged fun _ => ofJson?_arranged_of_scalar f hf j
  | _, .via f _ _ _, hf, j => by
    rw [ofJson?_via, ofJson?_via, ofJson?_arranged_of_scalar f hf j]
  | _, .either _ f g, hf, j => by
    rw [Format.scalar, Bool.and_eq_true] at hf
    rw [ofJson?_either, ofJson?_either, ofJson?_arranged_of_scalar f hf.1 j,
      ofJson?_arranged_of_scalar g hf.2 j]

/-- A value that is taken as it is gets arranged, once and for all. -/
lemma seesArranged_anything : Format.anything.SeesArranged := by
  intro j _
  rw [ofJson?_anything, ofJson?_anything, Tree.arranged_arranged]

/-! ### Formats around other formats -/

/-- A nullable value sees arranged values if the other one does. -/
lemma seesArranged_nullable {f : Format α} (hf : f.SeesArranged) : f.nullable.SeesArranged := by
  intro j h
  refine ofJson?_nullable_arranged fun hnull => hf (h.imp_right fun ⟨hchoices, hsome⟩ => ?_)
  rw [ofJson?_nullable f hnull, Option.isSome_map] at hsome
  exact ⟨hchoices, hsome⟩

/-- A value of another type sees arranged values if the one that it is made of does. -/
lemma seesArranged_via {f : Format α} {make : α → β} {parts : β → α}
    (make_parts : ∀ b, make (parts b) = b) (hf : f.SeesArranged) :
    (Format.via f make parts make_parts).SeesArranged := by
  intro j h
  rw [ofJson?_via, ofJson?_via, hf (h.imp_right fun ⟨hchoices, hsome⟩ => ⟨hchoices, ?_⟩)]
  rwa [ofJson?_via, Option.isSome_map] at hsome

/-- Two formats see arranged values if each of them does. -/
lemma seesArranged_either (name : String) {f : Format α} {g : Format β} (hf : f.SeesArranged)
    (hg : g.SeesArranged) : (Format.either name f g).SeesArranged := by
  intro j h
  have hfirst : f.ofJson? j.arranged = f.ofJson? j := by
    refine h.elim (fun hj => hf (.inl hj)) fun ⟨hchoices, _⟩ => ?_
    rw [Format.scalarChoices, Bool.and_eq_true] at hchoices
    exact ofJson?_arranged_of_scalar f hchoices.1 j
  rw [ofJson?_either, ofJson?_either, hfirst]
  cases ha : f.ofJson? j with
  | some a => rfl
  | none =>
    have hsecond : g.ofJson? j.arranged = g.ofJson? j := by
      refine hg (h.imp_right fun ⟨hchoices, hsome⟩ => ?_)
      rw [Format.scalarChoices, Bool.and_eq_true] at hchoices
      rw [ofJson?_either, ha, Option.map_none, Option.none_or, Option.isSome_map] at hsome
      exact ⟨hchoices.2, hsome⟩
    rw [hsecond]

/-- The items of an unambiguous list are unambiguous. -/
lemma Format.Unambiguous.item {f : Format α} {items : List Json} {cut : Option (Cut Empty)}
    (h : f.list.Unambiguous (.sequence items cut)) : ∀ j ∈ items, f.Unambiguous j := by
  obtain rfl := Tree.cut_eq_none cut
  intro j hj
  refine h.imp (fun h => Tree.distinctKeysItems_iff.1 h j hj) fun ⟨hchoices, hsome⟩ => ?_
  rw [ofJson?_list] at hsome
  obtain ⟨as, has⟩ := Option.isSome_iff_exists.1 hsome
  exact ⟨hchoices, isSome_of_mapM has j hj⟩

/-- A list sees arranged values if its items do. -/
lemma seesArranged_list {f : Format α} (hf : f.SeesArranged) : f.list.SeesArranged := by
  intro j h
  cases j with
  | sequence items cut =>
    obtain rfl := Tree.cut_eq_none cut
    rw [Tree.arranged, ofJson?_list, ofJson?_list, Tree.arrangedItems_eq_map, List.mapM_map]
    exact mapM_congr fun j hj => hf (h.item j hj)
  | broken b => exact b.read.elim
  | _ => rfl

/-! ### Dictionaries -/

/-- The values in an unambiguous dictionary are unambiguous. -/
lemma Format.Unambiguous.entry {f : Format α} {es : List (String × Json)}
    (h : f.dictionary.Unambiguous (.map es none)) : ∀ e ∈ es, f.Unambiguous e.2 := by
  intro e he
  refine h.imp (fun h => (Tree.distinctKeys_map.1 h).2 e he) fun ⟨hchoices, hsome⟩ => ?_
  rw [ofJson?_dictionary, Option.isSome_map] at hsome
  obtain ⟨as, has⟩ := Option.isSome_iff_exists.1 hsome
  have hentry := isSome_of_mapM has e he
  rw [Option.isSome_map] at hentry
  exact ⟨hchoices, hentry⟩

/-- Entries can be read before or after a map is made of them. -/
lemma readEntries_ofList {f : Format α} {r : Reading φ} {es : List (String × Tree φ)}
    {as : List (String × α)} (h : f.readEntries r es = some as) :
    f.readEntries r (KeyMap.ofList es).entries = some (KeyMap.ofList as).entries := by
  -- All entries can be read, so what they are read as is a function of their values.
  have hsome := isSome_of_mapM h
  cases es with
  | nil =>
    cases h
    rfl
  | cons e es =>
    have hfirst := hsome e List.mem_cons_self
    rw [Option.isSome_map] at hfirst
    obtain ⟨a, -⟩ := Option.isSome_iff_exists.1 hfirst
    let g (t : Tree φ) : α := (f.decode r t).toOption.getD a
    have hread (x : String × Tree φ) (hx : x ∈ e :: es) :
        (f.decode r x.2).toOption.map (x.1, ·) = some (x.1, g x.2) := by
      have hvalue := hsome x hx
      rw [Option.isSome_map] at hvalue
      obtain ⟨b, hb⟩ := Option.isSome_iff_exists.1 hvalue
      simp only [g, hb, Option.map_some, Option.getD_some]
    obtain rfl := Option.some.inj (h.symm.trans (mapM_eq_some_map hread))
    rw [KeyMap.ofList_map]
    exact mapM_eq_some_map fun x hx => hread x (KeyMap.mem_of_mem_ofList hx)

/-- A dictionary sees arranged values if its values do. -/
lemma seesArranged_dictionary {f : Format α} (hf : f.SeesArranged) : f.dictionary.SeesArranged := by
  intro j h
  cases j with
  | map es cut =>
    obtain rfl := Tree.cut_eq_none cut
    have hvalues : f.readEntries .value (KeyMap.ofList (Tree.arrangedEntries es)).entries =
        f.readEntries .value (KeyMap.ofList es).entries := by
      rw [Tree.arrangedEntries_eq_map, KeyMap.ofList_map]
      refine List.mapM_map.trans (mapM_congr fun e he => ?_)
      exact congrArg (Option.map _) (hf (h.entry e (KeyMap.mem_of_mem_ofList he)))
    rw [Tree.arranged, ofJson?_dictionary, ofJson?_dictionary, hvalues]
    rcases h with h | ⟨-, hsome⟩
    · have hkeys := (Tree.distinctKeys_map.1 h).1
      exact readEntries_perm f .value (KeyMap.entries_ofList_perm hkeys) (KeyMap.nodup_keys _)
    · rw [ofJson?_dictionary, Option.isSome_map] at hsome
      obtain ⟨as, has⟩ := Option.isSome_iff_exists.1 hsome
      rw [readEntries_ofList has, has, Option.map_some, Option.map_some, KeyMap.ofList_entries]
  | broken b => exact b.read.elim
  | _ => rfl

/-! ### Records -/

/-- Filtering entries by their keys and arranging their values go together. -/
lemma arrangedEntries_filter (p : String → Bool) (js : List (String × Json)) :
    (Tree.arrangedEntries js).filter (p ·.1) = Tree.arrangedEntries (js.filter (p ·.1)) := by
  rw [Tree.arrangedEntries_eq_map, Tree.arrangedEntries_eq_map, List.filter_map]
  rfl

/-- Filtering entries by their keys and arranging the map go together. -/
lemma entries_arranged_filter (p : String → Bool) (js : List (String × Json)) :
    (KeyMap.ofList (Tree.arrangedEntries js)).entries.filter (p ·.1) =
      (KeyMap.ofList (Tree.arrangedEntries (js.filter (p ·.1)))).entries := by
  rw [KeyMap.entries_ofList_filter, arrangedEntries_filter]

/-- A map of some of the entries has distinct keys if the map of all has. -/
lemma distinctKeys_filter (p : String → Bool) {js : List (String × Json)}
    (h : (Tree.map js none : Json).distinctKeys) :
    (Tree.map (js.filter (p ·.1)) none : Json).distinctKeys := by
  obtain ⟨hkeys, hvalues⟩ := Tree.distinctKeys_map.1 h
  refine Tree.distinctKeys_map.2 ⟨?_, fun e he => hvalues e (List.mem_filter.1 he).1⟩
  exact hkeys.sublist (List.filter_sublist.map _)

/-- A field sees arranged values if its format does. -/
lemma single_arranged {f : Format α} (hf : f.SeesArranged) (absence : Absence α)
    {es : List (String × Json)} (h : (Tree.map es none : Json).distinctKeys ∨
      f.scalarChoices ∧ (f.single absence .value es).isSome) :
    f.single absence .value (KeyMap.ofList (Tree.arrangedEntries es)).entries =
      f.single absence .value es := by
  match es with
  | [] => rfl
  | [e] => exact hf (h.imp_left fun h => (Tree.distinctKeys_map.1 h).2 e List.mem_cons_self)
  | e :: e' :: rest =>
    rcases h with h | ⟨-, hsome⟩
    · have hkeys := (Tree.distinctKeys_map.1 h).1
      exact (single_perm f absence .value (Tree.arranged_map_perm hkeys)).trans rfl
    · cases hsome

/-- What is unambiguous to a record is so to its first field and to the other ones. -/
lemma Fields.Unambiguous.cons {name : String} {aliases : List String} {absence : Absence α}
    {f : Format α} {rest : Fields ts} {es : List (String × Json)}
    (h : (Fields.cons name aliases absence f rest).Unambiguous es) :
    ((Tree.map (es.filter (Fields.takes name aliases ·.1)) none : Json).distinctKeys ∨
      f.scalarChoices ∧
        (f.single absence .value (es.filter (Fields.takes name aliases ·.1))).isSome) ∧
      rest.Unambiguous (es.filter (!Fields.takes name aliases ·.1)) := by
  rcases h with h | ⟨hchoices, hsome⟩
  · exact ⟨.inl (distinctKeys_filter (Fields.takes name aliases) h),
      .inl (distinctKeys_filter (!Fields.takes name aliases ·) h)⟩
  · rw [Fields.scalarChoices, Bool.and_eq_true] at hchoices
    obtain ⟨x, hx⟩ := Option.isSome_iff_exists.1 hsome
    obtain ⟨a, y, ha, hy, -⟩ := bind_cons_eq_some_iff.1 hx
    exact ⟨.inr ⟨hchoices.1, by rw [ha]; rfl⟩, .inr ⟨hchoices.2, by rw [hy]; rfl⟩⟩

/-- The fields of a record see arranged values if their formats do. -/
lemma gather_arranged : {ts : List Type} → {fields : Fields ts} → fields.SeeArranged →
    {es : List (String × Json)} → fields.Unambiguous es →
    fields.gather .value (KeyMap.ofList (Tree.arrangedEntries es)).entries =
      fields.gather .value es
  | _, .nil, _, _, _ => rfl
  | _, .cons name aliases absence f rest, hf, es, h => by
    rw [Fields.gather, Fields.gather, entries_arranged_filter (Fields.takes name aliases),
      entries_arranged_filter (!Fields.takes name aliases ·), single_arranged hf.1 absence h.cons.1,
      gather_arranged hf.2 h.cons.2]

/-- Fields in their order see arranged values if their formats do. -/
lemma inTurn_arranged : {ts : List Type} → {fields : Fields ts} → fields.SeeArranged →
    {items : List Json} → Tree.distinctKeysItems items ∨
      fields.scalarChoices ∧ (fields.inTurn .value items).isSome →
    fields.inTurn .value (Tree.arrangedItems items) = fields.inTurn .value items
  | _, .nil, _, [], _ | _, .nil, _, _ :: _, _ | _, .cons .., _, [], _ => rfl
  | _, .cons _ _ absence f rest, hf, j :: items, h => by
    have hparts : f.Unambiguous j ∧ (Tree.distinctKeysItems items ∨
        rest.scalarChoices ∧ (rest.inTurn .value items).isSome) := by
      rcases h with h | ⟨hchoices, hsome⟩
      · rw [Tree.distinctKeysItems, Bool.and_eq_true] at h
        exact ⟨.inl h.1, .inl h.2⟩
      · rw [Fields.scalarChoices, Bool.and_eq_true] at hchoices
        obtain ⟨x, hx⟩ := Option.isSome_iff_exists.1 hsome
        obtain ⟨a, y, ha, hy, -⟩ := bind_cons_eq_some_iff.1 hx
        exact ⟨.inr ⟨hchoices.1, by rw [Format.ofJson?, ha]; rfl⟩,
          .inr ⟨hchoices.2, by rw [hy]; rfl⟩⟩
    have hfirst : (f.decode .value j.arranged).toOption = (f.decode .value j).toOption :=
      hf.1 hparts.1
    rw [Tree.arrangedItems, Fields.inTurn, Fields.inTurn, hfirst, inTurn_arranged hf.2 hparts.2]

/-- A record sees arranged values, given as a map or as a sequence. -/
lemma seesArranged_record (name : String) {fields : Fields ts} (hf : fields.SeeArranged) :
    (Format.record name fields).SeesArranged := by
  intro j h
  cases j with
  | map es cut =>
    obtain rfl := Tree.cut_eq_none cut
    rw [Format.Unambiguous, ofJson?_record_map] at h
    rw [Tree.arranged, ofJson?_record_map, ofJson?_record_map, gather_arranged hf h]
  | sequence items cut =>
    obtain rfl := Tree.cut_eq_none cut
    rw [Format.Unambiguous, ofJson?_record_sequence] at h
    rw [Tree.arranged, ofJson?_record_sequence, ofJson?_record_sequence, inTurn_arranged hf h]
  | broken b => exact b.read.elim
  | _ => rfl

/-- The contents of a variant see arranged values. -/
lemma seesArranged_body {fields : Fields ts} (hf : fields.SeeArranged) :
    (Format.body fields).SeesArranged := by
  intro j h
  cases j with
  | map es cut =>
    obtain rfl := Tree.cut_eq_none cut
    rw [Format.Unambiguous, ofJson?_body] at h
    rw [Tree.arranged, ofJson?_body, ofJson?_body, gather_arranged hf h]
  | broken b => exact b.read.elim
  | _ => rfl

/-- Two records in one map see arranged values. -/
lemma seesArranged_flat (name : String) {own : Fields ts} {inner : Fields us}
    (hown : own.SeeArranged) (hinner : inner.SeeArranged) :
    (Format.flat name own inner).SeesArranged := by
  intro j h
  cases j with
  | map es cut =>
    obtain rfl := Tree.cut_eq_none cut
    have hparts : own.Unambiguous es ∧ inner.Unambiguous (es.filter (!own.owns ·.1)) := by
      rcases h with h | ⟨hchoices, hsome⟩
      · exact ⟨.inl h, .inl (distinctKeys_filter (!own.owns ·) h)⟩
      · rw [Format.scalarChoices, Bool.and_eq_true] at hchoices
        rw [ofJson?_flat_map] at hsome
        obtain ⟨x, hx⟩ := Option.isSome_iff_exists.1 hsome
        obtain ⟨y, hy, hothers⟩ := Option.bind_eq_some_iff.1 hx
        obtain ⟨z, hz, -⟩ := Option.map_eq_some_iff.1 hothers
        exact ⟨.inr ⟨hchoices.1, by rw [hy]; rfl⟩, .inr ⟨hchoices.2, by rw [hz]; rfl⟩⟩
    rw [Tree.arranged, ofJson?_flat_map, ofJson?_flat_map, entries_arranged_filter (!own.owns ·),
      gather_arranged hown hparts.1, gather_arranged hinner hparts.2]
  | broken b => exact b.read.elim
  | _ => rfl

/-! ### Labels -/

/-- An arranged value names the label that the value names. -/
lemma label?_arranged {c : String × Option Json} (h : j.label? = some c) :
    j.arranged.label? = some (c.1, c.2.map Tree.arranged) := by
  cases j with
  | text s =>
    cases h
    rfl
  | map es cut =>
    match es with
    | [] => cases h
    | [e] =>
      cases h
      rfl
    | _ :: _ :: _ => cases h
  | broken b => exact b.read.elim
  | _ => cases h

/-- An arranged value names no label if the value names none and repeats no key. -/
lemma label?_arranged_eq_none (hj : j.distinctKeys) (h : j.label? = none) :
    j.arranged.label? = none := by
  cases j with
  | text s => cases h
  | map es cut =>
    match es with
    | [] => rfl
    | [e] => cases h
    | _ :: _ :: _ =>
      have hlength := (Tree.arranged_map_perm (Tree.distinctKeys_map.1 hj).1).length_eq
      rw [Tree.arrangedEntries_eq_map, List.length_map, List.length_cons, List.length_cons]
        at hlength
      refine label?_of_two_le ?_ none
      rw [Tree.arrangedEntries_eq_map]
      omega
  | broken b => exact b.read.elim
  | _ => rfl

/-- What stands beside the label repeats no key if the value does not. -/
lemma distinctKeys_of_label? (hj : j.distinctKeys) {label : String} {i : Json}
    (h : j.label? = some (label, some i)) : i.distinctKeys := by
  cases j with
  | map es cut =>
    match es with
    | [] => cases h
    | [e] =>
      cases h
      exact (Tree.distinctKeys_map.1 hj).2 _ List.mem_cons_self
    | _ :: _ :: _ => cases h
  | _ => cases h

/-- A label sees arranged values. -/
lemma seesArranged_labels (table : LabelTable α) : (Format.labels table).SeesArranged := by
  intro j h
  rw [Format.Unambiguous, ofJson?_labels] at h
  rw [ofJson?_labels, ofJson?_labels]
  cases hlabel : j.label? with
  | none =>
    rcases h with h | ⟨-, hsome⟩
    · rw [label?_arranged_eq_none h hlabel]
    · rw [hlabel] at hsome
      cases hsome
  | some c =>
    obtain ⟨label, contents⟩ := c
    rw [label?_arranged hlabel]
    cases contents with
    | none => rfl
    | some t =>
      simp only [Option.bind_some, LabelTable.pick, Option.map_some, Option.elim_some,
        found_arranged]

/-- What is picked by a label sees the arranged contents. -/
lemma pick_arranged : {α : Type} → {variants : Variants α} → variants.SeeArranged →
    (named : String) → {j : Json} → j.distinctKeys ∨
      variants.scalarChoices ∧ (variants.pick .value named (some j)).isSome →
    variants.pick .value named (some j.arranged) = variants.pick .value named (some j)
  | _, .nil, _, _, _, _ => rfl
  | _, .cons label f make _ _ rest, hf, named, j, h => by
    rw [Variants.scalarChoices, Bool.and_eq_true, Variants.pick] at h
    rw [Variants.pick, Variants.pick]
    split
    · rw [if_pos ‹_›, Option.bind_some, Option.isSome_map] at h
      have hcontents : (f.decode .value j.arranged).toOption = (f.decode .value j).toOption :=
        hf.1 (h.imp_right fun h => ⟨h.1.1, h.2⟩)
      rw [Option.bind_some, Option.bind_some, hcontents]
    · rw [if_neg ‹_›] at h
      exact pick_arranged hf.2 named (h.imp_right fun h => ⟨h.1.2, h.2⟩)

/-- A tagged value sees arranged values if the contents of the variants do. -/
lemma seesArranged_tagged {variants : Variants α} (hf : variants.SeeArranged) :
    (Format.tagged variants).SeesArranged := by
  intro j h
  rw [Format.Unambiguous, ofJson?_tagged] at h
  rw [ofJson?_tagged, ofJson?_tagged]
  cases hlabel : j.label? with
  | none =>
    rcases h with h | ⟨-, hsome⟩
    · rw [label?_arranged_eq_none h hlabel]
    · rw [hlabel] at hsome
      cases hsome
  | some c =>
    obtain ⟨label, contents⟩ := c
    rw [hlabel] at h
    rw [label?_arranged hlabel]
    cases contents with
    | none => rfl
    | some i =>
      refine pick_arranged hf label (h.imp_left fun hj => ?_)
      exact distinctKeys_of_label? hj hlabel

/-! ### All formats -/

mutual

/-- All formats see arranged values. -/
theorem Format.seesArranged : {α : Type} → (f : Format α) → f.SeesArranged
  | _, .integer kind => fun _ => ofJson?_integer_arranged kind _
  | _, .text => fun _ => ofJson?_text_arranged _
  | _, .nullable f => seesArranged_nullable f.seesArranged
  | _, .list f => seesArranged_list f.seesArranged
  | _, .dictionary f => seesArranged_dictionary f.seesArranged
  | _, .anything => seesArranged_anything
  | _, .either name f g => seesArranged_either name f.seesArranged g.seesArranged
  | _, .labels table => seesArranged_labels table
  | _, .tagged variants => seesArranged_tagged variants.seeArranged
  | _, .record name fields => seesArranged_record name fields.seeArranged
  | _, .body fields => seesArranged_body fields.seeArranged
  | _, .flat name own inner => seesArranged_flat name own.seeArranged inner.seeArranged
  | _, .via f _ _ make_parts => seesArranged_via make_parts f.seesArranged

/-- All fields see arranged values. -/
theorem Fields.seeArranged : {ts : List Type} → (fields : Fields ts) → fields.SeeArranged
  | _, .nil => trivial
  | _, .cons _ _ _ f rest => ⟨f.seesArranged, rest.seeArranged⟩

/-- All variants see arranged values. -/
theorem Variants.seeArranged : {α : Type} → (variants : Variants α) → variants.SeeArranged
  | _, .nil => trivial
  | _, .cons _ f _ _ _ rest => ⟨f.seesArranged, rest.seeArranged⟩

end

/-- **An unambiguous value is read as it is after it has been arranged.** -/
theorem Format.ofJson?_arranged (f : Format α) (h : f.Unambiguous j) :
    f.ofJson? j.arranged = f.ofJson? j :=
  f.seesArranged h

/-! ## Readings of trees that say the same -/

/-- Whatever a tree says is accepted, and read, as the arranged value is. -/
def Format.OrderFree {α : Type} (f : Format α) : Prop :=
  ∀ {φ : Type} (r : Reading φ) (r' : Reading Empty) {t : Tree φ} {j : Json},
    t.value = .ok j → j.distinctKeys →
      (f.decode r' j.arranged).toOption = (f.decode r t).toOption

/-- **No format depends on the order of entries.** -/
theorem Format.orderFree (f : Format α) : f.OrderFree := by
  intro φ r r' t j ht hj
  rw [f.decode_of_value r ht, f.decode_of_value r' (Tree.value_json _),
    f.ofJson?_arranged (.inl hj)]

/-- All trees that say the same value are read alike. -/
theorem Format.decode_of_says (f : Format α) (r : Reading φ) {ψ : Type} (r' : Reading ψ)
    {t : Tree φ} {t' : Tree ψ} {j : Json} (ht : t.Says j) (ht' : t'.Says j) :
    (f.decode r t).toOption = (f.decode r' t').toOption := by
  obtain ⟨i, hi, hkeys, harranged⟩ := ht
  obtain ⟨i', hi', hkeys', harranged'⟩ := ht'
  rw [← f.orderFree r .value hi hkeys, ← f.orderFree r' .value hi' hkeys', harranged, harranged']

end CardRules
