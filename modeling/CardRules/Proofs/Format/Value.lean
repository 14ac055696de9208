import CardRules.Proofs.Format.Accepted

/-!
# A tree is read as the value that it says

If a tree says a value, then every format reads from the tree what it reads from the value, in every
reading (`Format.decode_of_value`).  Keys may be repeated: whatever a format makes of them, it makes
the same of them in both.

So what comes of a tree with a value can be said by `Format.ofJson?`, which takes values only.
-/

namespace CardRules

/-! ## Reading a tree and its value -/

/-- Whatever a tree says is accepted, and read, as the value is. -/
def Format.SeesValue {α : Type} (f : Format α) : Prop :=
  ∀ {φ : Type} (r : Reading φ) (r' : Reading Empty) {t : Tree φ} {j : Json},
    t.value = .ok j → (f.decode r' j).toOption = (f.decode r t).toOption

/-- Every field of a record reads whatever a tree says as it reads the value. -/
def Fields.SeeValue : {ts : List Type} → Fields ts → Prop
  | _, .nil => True
  | _, .cons _ _ _ f rest => f.SeesValue ∧ rest.SeeValue

/-- The contents of every variant are read, whatever a tree says, as the value is. -/
def Variants.SeeValue : {α : Type} → Variants α → Prop
  | _, .nil => True
  | _, .cons _ f _ _ _ rest => f.SeesValue ∧ rest.SeeValue

variable {α β φ : Type} {ts us : List Type} {t : Tree φ} {j : Json}

/-! ### Values without parts -/

/-- Integers are found. -/
lemma seesValue_integer (kind : IntegerKind α) : (Format.integer kind).SeesValue := by
  intro φ r r' t j ht
  rw [toOption_decode_integer, toOption_decode_integer, found_value ht]

/-- Texts are found. -/
lemma seesValue_text : Format.text.SeesValue := by
  intro φ r r' t j ht
  rw [toOption_decode_text, toOption_decode_text, found_value ht]

/-- A value that is taken as it is is the value that the tree says. -/
lemma seesValue_anything : Format.anything.SeesValue := by
  intro φ r r' t j ht
  rw [decode_anything, decode_anything, ht, Tree.value_json]
  rfl

/-- Two formats are tried on the value anyway. -/
lemma seesValue_either (name : String) (f : Format α) (g : Format β) :
    (Format.either name f g).SeesValue := by
  intro φ r r' t j ht
  rw [toOption_decode_either, toOption_decode_either, ht, Tree.value_json, toOption_ok, toOption_ok]

/-! ### Formats around one other format -/

/-- Only `null` says `null`. -/
lemma eq_null_iff_of_value (h : t.value = .ok j) : j = .null ↔ t = .null := by
  constructor
  · rintro rfl
    have hfound := found_value h
    cases t with
    | null => rfl
    | broken b => cases h
    | _ => cases hfound
  · rintro rfl
    cases h
    rfl

/-- A nullable value sees the value if the other one does. -/
lemma seesValue_nullable {f : Format α} (hf : f.SeesValue) : f.nullable.SeesValue := by
  intro φ r r' t j ht
  by_cases hnull : t = .null
  · subst hnull
    cases ht
    rfl
  · have hnull' : j ≠ .null := fun hj => hnull ((eq_null_iff_of_value ht).1 hj)
    rw [toOption_decode_nullable f r hnull, toOption_decode_nullable f r' hnull', hf r r' ht]

/-- A value of another type sees the value if the one that it is made of does. -/
lemma seesValue_via {f : Format α} {make : α → β} {parts : β → α}
    (make_parts : ∀ b, make (parts b) = b) (hf : f.SeesValue) :
    (Format.via f make parts make_parts).SeesValue := by
  intro φ r r' t j ht
  rw [toOption_decode_via, toOption_decode_via, hf r r' ht]

/-- Items one by one see their values. -/
lemma mapM_decode_value {f : Format α} (hf : f.SeesValue) (r : Reading φ) (r' : Reading Empty)
    {items : List (Tree φ)} {js : List Json} (h : Tree.valueItems items = .ok js) :
    (js.mapM fun j => (f.decode r' j).toOption) = items.mapM fun t => (f.decode r t).toOption := by
  induction items generalizing js with
  | nil =>
    cases h
    rfl
  | cons t items ih =>
    obtain ⟨j, js', ht, hitems, rfl⟩ := Tree.valueItems_cons_iff.1 h
    rw [List.mapM_cons, List.mapM_cons, hf r r' ht, ih hitems]

/-- A list sees the value if its items do. -/
lemma seesValue_list {f : Format α} (hf : f.SeesValue) : f.list.SeesValue := by
  intro φ r r' t j ht
  by_cases hfound : t.found.toOption = some .sequence
  · cases t with
    | sequence items cut =>
      obtain ⟨rfl, js, hjs, rfl⟩ := Tree.value_sequence_iff.1 ht
      rw [toOption_decode_list, toOption_decode_list]
      exact mapM_decode_value hf r r' hjs
    | _ => cases hfound
  · rw [toOption_decode_list_of_found f r hfound, toOption_decode_list_of_found]
    rwa [found_value ht]

/-! ### Formats of maps -/

/-- A format that reads maps only sees the value if it does so for maps. -/
lemma seesValue_of_maps {f : Format α}
    (hmaps : ∀ ⦃φ : Type⦄ (r : Reading φ) (t : Tree φ), t.found.toOption ≠ some .map →
      (f.decode r t).toOption = none)
    (h : ∀ ⦃φ : Type⦄ (r : Reading φ) (r' : Reading Empty) {es : List (String × Tree φ)}
      {js : List (String × Json)}, Tree.valueEntries es = .ok js →
        (f.decode r' (.map js none)).toOption = (f.decode r (.map es none)).toOption) :
    f.SeesValue := by
  intro φ r r' t j ht
  by_cases hfound : t.found.toOption = some .map
  · cases t with
    | map es cut =>
      obtain ⟨rfl, js, hjs, rfl⟩ := Tree.value_map_iff.1 ht
      exact h r r' hjs
    | _ => cases hfound
  · rw [hmaps r t hfound, hmaps r' j]
    rwa [found_value ht]

/-- Entries one by one see their values. -/
lemma readEntries_value {f : Format α} (hf : f.SeesValue) (r : Reading φ) (r' : Reading Empty)
    {es : List (String × Tree φ)} {js : List (String × Json)}
    (h : Tree.valueEntries es = .ok js) : f.readEntries r' js = f.readEntries r es := by
  induction es generalizing js with
  | nil =>
    cases h
    rfl
  | cons e es ih =>
    obtain ⟨key, t⟩ := e
    obtain ⟨j, js', ht, hes, rfl⟩ := Tree.valueEntries_cons_iff.1 h
    have hrest := ih hes
    rw [Format.readEntries, Format.readEntries] at hrest
    rw [Format.readEntries, Format.readEntries, List.mapM_cons, List.mapM_cons, hf r r' ht, hrest]

/-- A dictionary sees the value if its values do. -/
lemma seesValue_dictionary {f : Format α} (hf : f.SeesValue) : f.dictionary.SeesValue := by
  refine seesValue_of_maps (fun φ r t hfound => ?_) fun φ r r' es js hjs => ?_
  · cases t with
    | map es cut => exact absurd rfl hfound
    | _ => rfl
  · rw [toOption_decode_dictionary, toOption_decode_dictionary, readEntries_value hf r r' hjs]

/-- A field sees the value of its entry. -/
lemma single_value {f : Format α} (hf : f.SeesValue) (absence : Absence α) (r : Reading φ)
    (r' : Reading Empty) {es : List (String × Tree φ)} {js : List (String × Json)}
    (h : Tree.valueEntries es = .ok js) : f.single absence r' js = f.single absence r es := by
  match es, h with
  | [], h =>
    cases h
    rfl
  | [(key, t)], h =>
    obtain ⟨j, js', ht, hnil, rfl⟩ := Tree.valueEntries_cons_iff.1 h
    cases hnil
    exact hf r r' ht
  | (key, t) :: (key', t') :: rest, h =>
    obtain ⟨j, js', -, htail, rfl⟩ := Tree.valueEntries_cons_iff.1 h
    obtain ⟨j', js'', -, -, rfl⟩ := Tree.valueEntries_cons_iff.1 htail
    rfl

/-- The fields of a record see the values of their entries. -/
lemma gather_value : {ts : List Type} → {fields : Fields ts} → fields.SeeValue → (r : Reading φ) →
    (r' : Reading Empty) → {es : List (String × Tree φ)} → {js : List (String × Json)} →
    Tree.valueEntries es = .ok js → fields.gather r' js = fields.gather r es
  | _, .nil, _, _, _, _, _, _ => rfl
  | _, .cons name aliases absence f rest, hf, r, r', es, js, h => by
    have hown := single_value hf.1 absence r r'
      (Tree.valueEntries_filter (Fields.takes name aliases) h)
    have hothers := gather_value hf.2 r r'
      (Tree.valueEntries_filter (!Fields.takes name aliases ·) h)
    rw [Fields.gather, Fields.gather, hown, hothers]

/-- Fields in their order see the values of their items. -/
lemma inTurn_value : {ts : List Type} → {fields : Fields ts} → fields.SeeValue → (r : Reading φ) →
    (r' : Reading Empty) → {items : List (Tree φ)} → {js : List Json} →
    Tree.valueItems items = .ok js → fields.inTurn r' js = fields.inTurn r items
  | _, .nil, _, _, _, [], _, h => by
    cases h
    rfl
  | _, .nil, _, _, _, t :: items, _, h => by
    obtain ⟨j, js', -, -, rfl⟩ := Tree.valueItems_cons_iff.1 h
    rfl
  | _, .cons _ _ absence f rest, hf, r, r', [], _, h => by
    have hrest := inTurn_value hf.2 r r' h
    cases h
    rw [Fields.inTurn, Fields.inTurn, hrest]
  | _, .cons _ _ absence f rest, hf, r, r', t :: items, _, h => by
    obtain ⟨j, js', ht, hitems, rfl⟩ := Tree.valueItems_cons_iff.1 h
    rw [Fields.inTurn, Fields.inTurn, hf.1 r r' ht, inTurn_value hf.2 r r' hitems]

/-- A record sees the value, given as a map or as a sequence. -/
lemma seesValue_record (name : String) {fields : Fields ts} (hf : fields.SeeValue) :
    (Format.record name fields).SeesValue := by
  intro φ r r' t j ht
  cases t with
  | map es cut =>
    obtain ⟨rfl, js, hjs, rfl⟩ := Tree.value_map_iff.1 ht
    rw [decode_record_map name fields r' (Tree.valueEntries_json js),
      decode_record_map name fields r hjs, gather_value hf r r' hjs]
  | sequence items cut =>
    obtain ⟨rfl, js, hjs, rfl⟩ := Tree.value_sequence_iff.1 ht
    rw [decode_record_sequence, decode_record_sequence, inTurn_value hf r r' hjs]
  | broken b => cases ht
  | _ =>
    cases ht
    rfl

/-- The contents of a variant see the value. -/
lemma seesValue_body {fields : Fields ts} (hf : fields.SeeValue) :
    (Format.body fields).SeesValue := by
  refine seesValue_of_maps (fun φ r t hfound => ?_) fun φ r r' es js hjs => ?_
  · cases t with
    | map es cut => exact absurd rfl hfound
    | _ => rfl
  · rw [decode_body_map fields r' (Tree.valueEntries_json js), decode_body_map fields r hjs,
      gather_value hf r r' hjs]

/-- Two records in one map see the value; what is left over for the other one are values anyway. -/
lemma seesValue_flat (name : String) {own : Fields ts} (inner : Fields us) (hown : own.SeeValue) :
    (Format.flat name own inner).SeesValue := by
  refine seesValue_of_maps (fun φ r t hfound => ?_) fun φ r r' es js hjs => ?_
  · cases t with
    | map es cut => exact absurd rfl hfound
    | _ => rfl
  · rw [decode_flat_map name own inner r' (Tree.valueEntries_json js),
      decode_flat_map name own inner r hjs, gather_value hown r r' hjs]

/-! ### Labels -/

/-- The ways in which a tree and its value name the same label. -/
inductive Tree.NamesSame (t : Tree φ) (j : Json) : Prop
  | bare (label : String) (ht : t.label? = some (label, none)) (hj : j.label? = some (label, none))
  | beside (label : String) (t' : Tree φ) (j' : Json) (ht : t.label? = some (label, some t'))
      (hj : j.label? = some (label, some j')) (hvalue : t'.value = .ok j')
  | without (ht : t.label? = none) (hj : j.label? = none)

/-- A tree names the label that its value names. -/
lemma namesSame_of_value (ht : t.value = .ok j) : t.NamesSame j := by
  cases t with
  | text s =>
    cases ht
    exact .bare s rfl rfl
  | sequence items cut =>
    obtain ⟨-, js, -, rfl⟩ := Tree.value_sequence_iff.1 ht
    exact .without rfl rfl
  | map es cut =>
    obtain ⟨rfl, js, hjs, rfl⟩ := Tree.value_map_iff.1 ht
    match es with
    | [] =>
      cases hjs
      exact .without rfl rfl
    | [(label, t')] =>
      obtain ⟨j', js', ht', hnil, rfl⟩ := Tree.valueEntries_cons_iff.1 hjs
      cases hnil
      exact .beside label t' j' rfl rfl ht'
    | (label, t') :: (label', t'') :: rest =>
      have hlength := congrArg List.length (keys_valueEntries hjs)
      simp only [List.length_map, List.length_cons] at hlength
      exact .without rfl (label?_of_two_le (by omega) _)
  | broken b => cases ht
  | _ =>
    cases ht
    exact .without rfl rfl

/-- A label is the same in the value. -/
lemma seesValue_labels (table : LabelTable α) : (Format.labels table).SeesValue := by
  intro φ r r' t j ht
  rw [toOption_decode_labels table r ht, toOption_decode_labels table r' (Tree.value_json j)]
  cases namesSame_of_value ht with
  | bare label ht hj => rw [ht, hj]; rfl
  | beside label t' j' ht hj hvalue =>
    simp only [ht, hj, Option.bind_some, LabelTable.pick, Option.elim_some, found_value hvalue]
  | without ht hj => rw [ht, hj]; rfl

/-- What is picked by a label sees the value of the contents. -/
lemma pick_value : {α : Type} → {variants : Variants α} → variants.SeeValue → (r : Reading φ) →
    (r' : Reading Empty) → (named : String) → {t : Tree φ} → {j : Json} → t.value = .ok j →
    variants.pick r' named (some j) = variants.pick r named (some t)
  | _, .nil, _, _, _, _, _, _, _ => rfl
  | _, .cons label f make _ _ rest, hf, r, r', named, _, _, ht => by
    rw [Variants.pick, Variants.pick, Option.bind_some, Option.bind_some, hf.1 r r' ht,
      pick_value hf.2 r r' named ht]

/-- A tagged value sees the value if the contents of the variants do. -/
lemma seesValue_tagged {variants : Variants α} (hf : variants.SeeValue) :
    (Format.tagged variants).SeesValue := by
  intro φ r r' t j ht
  rw [toOption_decode_tagged variants r ht, toOption_decode_tagged variants r' (Tree.value_json j)]
  cases namesSame_of_value ht with
  | bare label ht hj => rw [ht, hj, Option.bind_some, Option.bind_some, pick_none, pick_none]
  | beside label t' j' ht hj hvalue =>
    rw [ht, hj]
    exact pick_value hf r r' label hvalue
  | without ht hj =>
    rw [ht, hj]
    rfl

/-! ### All formats -/

mutual

/-- All formats see the value. -/
theorem Format.seesValue : {α : Type} → (f : Format α) → f.SeesValue
  | _, .integer kind => seesValue_integer kind
  | _, .text => seesValue_text
  | _, .nullable f => seesValue_nullable f.seesValue
  | _, .list f => seesValue_list f.seesValue
  | _, .dictionary f => seesValue_dictionary f.seesValue
  | _, .anything => seesValue_anything
  | _, .either name f g => seesValue_either name f g
  | _, .labels table => seesValue_labels table
  | _, .tagged variants => seesValue_tagged variants.seeValue
  | _, .record name fields => seesValue_record name fields.seeValue
  | _, .body fields => seesValue_body fields.seeValue
  | _, .flat name own inner => seesValue_flat name inner own.seeValue
  | _, .via f _ _ make_parts => seesValue_via make_parts f.seesValue

/-- All fields see the value. -/
theorem Fields.seeValue : {ts : List Type} → (fields : Fields ts) → fields.SeeValue
  | _, .nil => trivial
  | _, .cons _ _ _ f rest => ⟨f.seesValue, rest.seeValue⟩

/-- All variants see the value. -/
theorem Variants.seeValue : {α : Type} → (variants : Variants α) → variants.SeeValue
  | _, .nil => trivial
  | _, .cons _ f _ _ _ rest => ⟨f.seesValue, rest.seeValue⟩

end

/-! ## What values are read as -/

/-- What a format reads from a value, if it accepts it. -/
def Format.ofJson? (f : Format α) (j : Json) : Option α :=
  (f.decode .value j).toOption

/-- **A tree is read as the value that it says**, in every reading. -/
theorem Format.decode_of_value (f : Format α) (r : Reading φ) (ht : t.value = .ok j) :
    (f.decode r t).toOption = f.ofJson? j :=
  (f.seesValue r .value ht).symm

/-- A value of another type is made of the one that is read. -/
lemma ofJson?_via (f : Format α) (make : α → β) (parts : β → α)
    (make_parts : ∀ b, make (parts b) = b) (j : Json) :
    (Format.via f make parts make_parts).ofJson? j = (f.ofJson? j).map make :=
  toOption_decode_via f make parts make_parts .value j

/-- What is not `null` is read as a value. -/
lemma ofJson?_nullable (f : Format α) (h : j ≠ .null) :
    f.nullable.ofJson? j = (f.ofJson? j).map some :=
  toOption_decode_nullable f .value h

/-- Any value is taken, and arranged. -/
lemma ofJson?_anything (j : Json) : Format.anything.ofJson? j = some j.arranged := by
  rw [Format.ofJson?, decode_anything, Tree.value_json]
  rfl

/-- Of two formats the first one that accepts the value reads it. -/
lemma ofJson?_either (name : String) (f : Format α) (g : Format β) (j : Json) :
    (Format.either name f g).ofJson? j =
      ((f.ofJson? j).map .inl).or ((g.ofJson? j).map .inr) := by
  rw [Format.ofJson?, toOption_decode_either, Tree.value_json, toOption_ok, Option.bind_some,
    f.decode_of_value .buffer (Tree.value_json j), g.decode_of_value .buffer (Tree.value_json j)]

/-- The items of a sequence are read one by one. -/
lemma ofJson?_list (f : Format α) (items : List Json) :
    f.list.ofJson? (.sequence items none) = items.mapM f.ofJson? :=
  toOption_decode_list f .value items

/-- The entries of a map are read one by one. -/
lemma ofJson?_dictionary (f : Format α) (es : List (String × Json)) :
    f.dictionary.ofJson? (.map es none) = (f.readEntries .value es).map KeyMap.ofList :=
  toOption_decode_dictionary f .value es

/-- The label that a value names, and what stands beside it, make a value of a table. -/
lemma ofJson?_labels (table : LabelTable α) (j : Json) :
    (Format.labels table).ofJson? j = j.label?.bind fun c => table.pick c.1 c.2 :=
  toOption_decode_labels table .value (Tree.value_json j)

/-- The label that a value names, and what stands beside it, make a value of a variant. -/
lemma ofJson?_tagged (variants : Variants α) (j : Json) :
    (Format.tagged variants).ofJson? j = j.label?.bind fun c => variants.pick .value c.1 c.2 :=
  toOption_decode_tagged variants .value (Tree.value_json j)

/-- The entries of a map are read as the contents of a variant field by field. -/
lemma ofJson?_body (fields : Fields ts) (es : List (String × Json)) :
    (Format.body fields).ofJson? (.map es none) = fields.gather .value es :=
  decode_body_map fields .value (Tree.valueEntries_json es)

/-- The entries of a map are read as a record field by field. -/
lemma ofJson?_record_map (name : String) (fields : Fields ts) (es : List (String × Json)) :
    (Format.record name fields).ofJson? (.map es none) = fields.gather .value es :=
  decode_record_map name fields .value (Tree.valueEntries_json es)

/-- The items of a sequence are read as a record field by field. -/
lemma ofJson?_record_sequence (name : String) (fields : Fields ts) (items : List Json) :
    (Format.record name fields).ofJson? (.sequence items none) = fields.inTurn .value items :=
  decode_record_sequence name fields .value items

/-- What one record leaves of the entries of a map is read by the other one. -/
lemma ofJson?_flat_map (name : String) (own : Fields ts) (inner : Fields us)
    (es : List (String × Json)) :
    (Format.flat name own inner).ofJson? (.map es none) =
      (own.gather .value es).bind fun x =>
        (inner.gather .value (es.filter (!own.owns ·.1))).map (x, ·) := by
  rw [Format.ofJson?, decode_flat_map name own inner .value (Tree.valueEntries_json es),
    gather_value inner.seeValue .buffer .value (Tree.valueEntries_json _)]

/-- A record does not see the order of the entries of a map. -/
lemma ofJson?_record_perm (name : String) (fields : Fields ts) {es es' : List (String × Json)}
    (h : es.Perm es') : (Format.record name fields).ofJson? (.map es none) =
      (Format.record name fields).ofJson? (.map es' none) := by
  rw [ofJson?_record_map, ofJson?_record_map, gather_perm fields .value h]

/-- Two records that share a map do not see the order of its entries. -/
lemma ofJson?_flat_perm (name : String) (own : Fields ts) (inner : Fields us)
    {es es' : List (String × Json)} (h : es.Perm es') :
    (Format.flat name own inner).ofJson? (.map es none) =
      (Format.flat name own inner).ofJson? (.map es' none) := by
  rw [ofJson?_flat_map, ofJson?_flat_map, gather_perm own .value h,
    gather_perm inner .value (h.filter _)]

end CardRules
