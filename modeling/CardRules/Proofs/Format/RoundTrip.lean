import CardRules.Proofs.Format.Order

/-!
# Reading what was written

A value that is written and read again comes back, but for one thing: where a value may be written
in one of two formats, the first one that accepts it is taken, also if it was written in the second
one.  `Format.reread` says what comes back.

`Format.decode_encode` says that it does come back, for every format whose keys are told apart
(`Format.wellKeyed`) and in which every tagged value has a variant (`Format.Covers`).  It comes back
from every tree that says what was written, whatever the order of its entries
(`Format.decode_of_says_encode`).

A format without such a choice gives the very value back (`Format.reread_of_plain`).
-/

namespace CardRules

/-! ## What comes back -/

mutual

/-- The value that is read from what is written for a value. -/
def Format.reread : {α : Type} → Format α → α → α
  | _, .integer _, a => a
  | _, .text, s => s
  | _, .nullable f, a => a.map f.reread
  | _, .list f, as => as.map f.reread
  | _, .dictionary f, m => m.map f.reread
  | _, .anything, j => j
  | _, .either _ f _, .inl a => .inl (f.reread a)
  | _, .either _ f g, .inr b =>
    match f.decode .buffer (g.encode b) with
    | .ok a => .inl a
    | .error _ => .inr (g.reread b)
  | _, .labels _, a => a
  | _, .tagged variants, a => variants.reread a
  | _, .record _ fields, t => fields.reread t
  | _, .body fields, t => fields.reread t
  | _, .flat _ own inner, (t, u) => (own.reread t, inner.reread u)
  | _, .via f make parts _, b => make (f.reread (parts b))

/-- The fields that are read from what is written for fields. -/
def Fields.reread : {ts : List Type} → Fields ts → Tuple ts → Tuple ts
  | _, .nil, _ => ()
  | _, .cons _ _ _ f rest, (a, t) => (f.reread a, rest.reread t)

/-- The value that is read from what is written for a value of one of the variants. -/
def Variants.reread : {α : Type} → Variants α → α → α
  | _, .nil, a => a
  | _, .cons _ f make get? _ rest, a =>
    match get? a with
    | some b => make (f.reread b)
    | none => rest.reread a

end

/-! ## Formats whose keys are told apart -/

/-- The keys of fields. -/
def Fields.keys : {ts : List Type} → Fields ts → List String
  | _, .nil => []
  | _, .cons key _ _ _ rest => key :: rest.keys

/-- Whether no value is written as `null`. -/
def Format.neverNull : {α : Type} → Format α → Bool
  | _, .nullable _ => false
  | _, .anything => false
  | _, .either _ f g => f.neverNull && g.neverNull
  | _, .via f _ _ _ => f.neverNull
  | _, _ => true

mutual

/-- Whether a written key is taken by the field or variant that wrote it, and `null` is written for
nothing only. -/
def Format.wellKeyed : {α : Type} → Format α → Bool
  | _, .integer _ => true
  | _, .text => true
  | _, .nullable f => f.neverNull && f.wellKeyed
  | _, .list f => f.wellKeyed
  | _, .dictionary f => f.wellKeyed
  | _, .anything => false
  | _, .either _ f g => f.wellKeyed && g.wellKeyed
  | _, .labels _ => true
  | _, .tagged variants => variants.wellKeyed
  | _, .record _ fields => fields.wellKeyed
  | _, .body fields => fields.wellKeyed
  | _, .flat _ own inner =>
    inner.keys.all (!own.owns ·) && own.wellKeyed && inner.wellKeyed
  | _, .via f _ _ _ => f.wellKeyed

/-- Whether no field takes the key of a later one. -/
def Fields.wellKeyed : {ts : List Type} → Fields ts → Bool
  | _, .nil => true
  | _, .cons key aliases _ f rest =>
    rest.keys.all (!Fields.takes key aliases ·) && f.wellKeyed && rest.wellKeyed

/-- Whether no label is that of a later variant. -/
def Variants.wellKeyed : {α : Type} → Variants α → Bool
  | _, .nil => true
  | _, .cons label f _ _ _ rest =>
    !rest.labels.contains label && f.wellKeyed && rest.wellKeyed

end

/-- Whether a value is one of the variants. -/
def Variants.has : {α : Type} → Variants α → α → Bool
  | _, .nil, _ => false
  | _, .cons _ _ _ get? _ rest, a => (get? a).isSome || rest.has a

mutual

/-- Every tagged value has a variant. -/
def Format.Covers : {α : Type} → Format α → Prop
  | _, .nullable f => f.Covers
  | _, .list f => f.Covers
  | _, .dictionary f => f.Covers
  | _, .either _ f g => f.Covers ∧ g.Covers
  | _, .tagged variants => (∀ a, variants.has a) ∧ variants.Covers
  | _, .record _ fields => fields.Covers
  | _, .body fields => fields.Covers
  | _, .flat _ own inner => own.Covers ∧ inner.Covers
  | _, .via f _ _ _ => f.Covers
  | _, _ => True

/-- Every tagged value in a field has a variant. -/
def Fields.Covers : {ts : List Type} → Fields ts → Prop
  | _, .nil => True
  | _, .cons _ _ _ f rest => f.Covers ∧ rest.Covers

/-- Every tagged value in the contents of a variant has a variant. -/
def Variants.Covers : {α : Type} → Variants α → Prop
  | _, .nil => True
  | _, .cons _ f _ _ _ rest => f.Covers ∧ rest.Covers

end

mutual

/-- Whether there is no tagged value in a format. -/
def Format.untagged : {α : Type} → Format α → Bool
  | _, .nullable f => f.untagged
  | _, .list f => f.untagged
  | _, .dictionary f => f.untagged
  | _, .either _ f g => f.untagged && g.untagged
  | _, .tagged _ => false
  | _, .record _ fields => fields.untagged
  | _, .body fields => fields.untagged
  | _, .flat _ own inner => own.untagged && inner.untagged
  | _, .via f _ _ _ => f.untagged
  | _, _ => true

/-- Whether there is no tagged value in a field. -/
def Fields.untagged : {ts : List Type} → Fields ts → Bool
  | _, .nil => true
  | _, .cons _ _ _ f rest => f.untagged && rest.untagged

end

mutual

/-- Where there are no tagged values, every one of them has a variant. -/
theorem Format.covers_of_untagged : {α : Type} → (f : Format α) → f.untagged → f.Covers
  | _, .integer _, _ => trivial
  | _, .text, _ => trivial
  | _, .nullable f, h => Format.covers_of_untagged f h
  | _, .list f, h => Format.covers_of_untagged f h
  | _, .dictionary f, h => Format.covers_of_untagged f h
  | _, .anything, _ => trivial
  | _, .either _ f g, h => by
    obtain ⟨hf, hg⟩ := Bool.and_eq_true_iff.1 h
    exact ⟨Format.covers_of_untagged f hf, Format.covers_of_untagged g hg⟩
  | _, .labels _, _ => trivial
  | _, .record _ fields, h => Fields.covers_of_untagged fields h
  | _, .body fields, h => Fields.covers_of_untagged fields h
  | _, .flat _ own inner, h => by
    obtain ⟨hown, hinner⟩ := Bool.and_eq_true_iff.1 h
    exact ⟨Fields.covers_of_untagged own hown, Fields.covers_of_untagged inner hinner⟩
  | _, .via f _ _ _, h => Format.covers_of_untagged f h

/-- Where there are no tagged values in fields, every one of them has a variant. -/
theorem Fields.covers_of_untagged : {ts : List Type} → (fields : Fields ts) → fields.untagged →
    fields.Covers
  | _, .nil, _ => trivial
  | _, .cons _ _ _ f rest, h => by
    obtain ⟨hf, hrest⟩ := Bool.and_eq_true_iff.1 h
    exact ⟨Format.covers_of_untagged f hf, Fields.covers_of_untagged rest hrest⟩

end

variable {α β : Type} {ts us : List Type}

/-! ## Values without parts -/

/-- What is written for a value is read as the value that comes back. -/
def Format.RoundTrips (f : Format α) : Prop :=
  ∀ (r : Reading Empty) (a : α), (f.decode r (f.encode a)).toOption = some (f.reread a)

/-- An integer is read from its own digits. -/
lemma roundTrips_integer (kind : IntegerKind α) : (Format.integer kind).RoundTrips := by
  intro r a
  have hkind := kind.ofInt?_toInt a
  rw [toOption_decode_integer]
  exact hkind

/-- A text is read as it stands. -/
lemma roundTrips_text : Format.text.RoundTrips :=
  fun _ _ => rfl

/-- A label is looked up in its table. -/
lemma roundTrips_labels (table : LabelTable α) : (Format.labels table).RoundTrips := by
  intro r a
  have hlabel := table.lookup_label a
  have htext : (Tree.text (table.label a) : Json).value = .ok (.text (table.label a)) := rfl
  refine (toOption_decode_labels table r htext).trans ?_
  change table.pick (table.label a) none = some a
  rw [LabelTable.pick, hlabel]
  rfl

/-! ## Formats around one other format -/

/-- A value that is never written as `null` is told apart from nothing. -/
lemma roundTrips_nullable {f : Format α} (hnull : ∀ a, f.encode a ≠ .null) (hf : f.RoundTrips) :
    f.nullable.RoundTrips := by
  intro r a
  cases a with
  | none => rfl
  | some a =>
    have hread := toOption_decode_nullable f r (hnull a)
    rw [hf r a] at hread
    exact hread

/-- A computation that succeeds on each element of a list succeeds on the list. -/
lemma mapM_map_eq_some {γ : Type} (g : α → β) (f : β → Option γ) (h : α → γ)
    (hf : ∀ a, f (g a) = some (h a)) (as : List α) : (as.map g).mapM f = some (as.map h) := by
  rw [List.mapM_map]
  exact mapM_eq_some_map fun a _ => hf a

/-- A list is read item by item. -/
lemma roundTrips_list {f : Format α} (hf : f.RoundTrips) : f.list.RoundTrips := by
  intro r as
  exact (toOption_decode_list f r _).trans (mapM_map_eq_some f.encode _ f.reread (hf r) as)

/-- A dictionary is read entry by entry, and its keys are in order already. -/
lemma roundTrips_dictionary {f : Format α} (hf : f.RoundTrips) : f.dictionary.RoundTrips := by
  intro r m
  have hentry (e : String × α) :
      (f.decode r (f.encode e.2)).toOption.map (e.1, ·) = some (e.1, f.reread e.2) := by
    rw [hf r e.2]
    rfl
  have hentries := mapM_map_eq_some (fun e : String × α => (e.1, f.encode e.2))
    (fun e => (f.decode r e.2).toOption.map (e.1, ·)) (fun e => (e.1, f.reread e.2)) hentry
    m.entries
  refine (toOption_decode_dictionary f r _).trans ?_
  rw [Format.readEntries, hentries]
  exact congrArg some (KeyMap.ofList_entries (m.map f.reread))

/-- What was written in the second of two formats comes back as the first one reads it. -/
lemma reread_inr_of_ok (name : String) {f : Format α} {g : Format β} {a : α} {b : β}
    (h : f.decode .buffer (g.encode b) = .ok a) :
    (Format.either name f g).reread (.inr b) = .inl a := by
  rw [Format.reread, h]

/-- If the first format does not accept it, it comes back as the second one gives it back. -/
lemma reread_inr_of_error (name : String) {f : Format α} {g : Format β} {b : β}
    {e : DecodeError Empty} (h : f.decode .buffer (g.encode b) = .error e) :
    (Format.either name f g).reread (.inr b) = .inr (g.reread b) := by
  rw [Format.reread, h]

/-- Of two formats the first one that accepts what was written is taken. -/
lemma roundTrips_either (name : String) {f : Format α} {g : Format β} (hf : f.RoundTrips)
    (hg : g.RoundTrips) : (Format.either name f g).RoundTrips := by
  intro r x
  rw [toOption_decode_either, Tree.value_json, toOption_ok, Option.bind_some]
  cases x with
  | inl a =>
    have hread := hf .buffer a
    change ((f.decode .buffer (f.encode a)).toOption.map Sum.inl).or _ = some (.inl (f.reread a))
    rw [hread]
    rfl
  | inr b =>
    have hread := hg .buffer b
    change ((f.decode .buffer (g.encode b)).toOption.map Sum.inl).or
      ((g.decode .buffer (g.encode b)).toOption.map Sum.inr) = _
    cases hfirst : f.decode .buffer (g.encode b) with
    | ok a =>
      rw [reread_inr_of_ok name hfirst]
      rfl
    | error e =>
      rw [reread_inr_of_error name hfirst, hread]
      rfl

/-- A value of another type is made of what comes back of its parts. -/
lemma roundTrips_via {f : Format α} {make : α → β} {parts : β → α}
    (make_parts : ∀ b, make (parts b) = b) (hf : f.RoundTrips) :
    (Format.via f make parts make_parts).RoundTrips := by
  intro r b
  have hread := hf r (parts b)
  exact (toOption_decode_via f make parts make_parts r _).trans (congrArg (Option.map make) hread)

/-! ## Records -/

/-- The keys of what is written for fields are the keys of the fields. -/
lemma keys_encode : {ts : List Type} → (fields : Fields ts) → (t : Tuple ts) →
    (fields.encode t).map (·.1) = fields.keys
  | _, .nil, _ => rfl
  | _, .cons key _ _ _ rest, (_, t) => congrArg (key :: ·) (keys_encode rest t)

/-- No entry is kept if none of the keys is. -/
lemma filter_eq_nil_of_keys (p : String → Bool) {es : List (String × α)}
    (h : ∀ key ∈ es.map (·.1), p key = false) : es.filter (p ·.1) = [] := by
  rw [List.filter_eq_nil_iff]
  intro e he
  rw [h e.1 (List.mem_map_of_mem he)]
  exact Bool.false_ne_true

/-- All entries are kept if all keys are. -/
lemma filter_eq_self_of_keys (p : String → Bool) {es : List (String × α)}
    (h : ∀ key ∈ es.map (·.1), p key = true) : es.filter (p ·.1) = es :=
  List.filter_eq_self.2 fun e he => h e.1 (List.mem_map_of_mem he)

/-- A field takes its own key. -/
lemma takes_self (key : String) (aliases : List String) : Fields.takes key aliases key = true :=
  decide_eq_true (.inl rfl)

/-- Well-keyed fields do not take the keys of later ones. -/
lemma wellKeyed_cons {key : String} {aliases : List String} {absence : Absence α} {f : Format α}
    {rest : Fields ts} (h : (Fields.cons key aliases absence f rest).wellKeyed) :
    (∀ key' ∈ rest.keys, Fields.takes key aliases key' = false) ∧ f.wellKeyed ∧
      rest.wellKeyed := by
  obtain ⟨h, hrest⟩ := Bool.and_eq_true_iff.1 h
  obtain ⟨hkeys, hf⟩ := Bool.and_eq_true_iff.1 h
  refine ⟨fun key' hkey' => ?_, hf, hrest⟩
  exact (Bool.not_eq_true' _).mp (List.all_eq_true.1 hkeys key' hkey')

/-- In a well-keyed map of two records the first one does not take the keys of the other. -/
lemma wellKeyed_flat {name : String} {own : Fields ts} {inner : Fields us}
    (h : (Format.flat name own inner).wellKeyed) :
    (∀ key ∈ inner.keys, own.owns key = false) ∧ own.wellKeyed ∧ inner.wellKeyed := by
  obtain ⟨h, hinner⟩ := Bool.and_eq_true_iff.1 h
  obtain ⟨hkeys, hown⟩ := Bool.and_eq_true_iff.1 h
  refine ⟨fun key hkey => ?_, hown, hinner⟩
  exact (Bool.not_eq_true' _).mp (List.all_eq_true.1 hkeys key hkey)

/-- What all fields read from what was written for them. -/
def Fields.RoundTrips (fields : Fields ts) : Prop :=
  ∀ (r : Reading Empty) (t : Tuple ts), fields.gather r (fields.encode t) = some (fields.reread t)

/-- Each field reads what was written for it if no field takes the key of a later one. -/
lemma roundTrips_cons {key : String} {aliases : List String} {absence : Absence α} {f : Format α}
    {rest : Fields ts} (hkeys : ∀ key' ∈ rest.keys, Fields.takes key aliases key' = false)
    (hf : f.RoundTrips) (hrest : rest.RoundTrips) :
    (Fields.cons key aliases absence f rest).RoundTrips := by
  rintro r ⟨a, t⟩
  have hread := hf r a
  have hself := takes_self key aliases
  have hother : ∀ key' ∈ (rest.encode t).map (·.1), Fields.takes key aliases key' = false := by
    rwa [keys_encode]
  have hown : ((key, f.encode a) :: rest.encode t).filter (Fields.takes key aliases ·.1) =
      [(key, f.encode a)] := by
    rw [List.filter_cons, if_pos hself, filter_eq_nil_of_keys (Fields.takes key aliases) hother]
  have hothers : ((key, f.encode a) :: rest.encode t).filter (!Fields.takes key aliases ·.1) =
      rest.encode t := by
    have hall := filter_eq_self_of_keys (!Fields.takes key aliases ·) fun key' hkey' => by
      rw [hother key' hkey', Bool.not_false]
    rw [List.filter_cons, hself, Bool.not_true, if_neg Bool.false_ne_true, hall]
  have hencode : (Fields.cons key aliases absence f rest).encode (a, t) =
      (key, f.encode a) :: rest.encode t := rfl
  rw [hencode, Fields.gather, hown, hothers, hrest r t, Format.single, hread]
  rfl

/-- A record is read field by field. -/
lemma roundTrips_record (name : String) {fields : Fields ts} (hf : fields.RoundTrips) :
    (Format.record name fields).RoundTrips := by
  intro r t
  exact (decode_record_map name fields r (Tree.valueEntries_json _)).trans (hf r t)

/-- The contents of a variant are read field by field. -/
lemma roundTrips_body {fields : Fields ts} (hf : fields.RoundTrips) :
    (Format.body fields).RoundTrips := by
  intro r t
  exact (decode_body_map fields r (Tree.valueEntries_json _)).trans (hf r t)

/-- The fields of a record see no entries but their own. -/
lemma gather_filter_owns {φ : Type} : {ts : List Type} → (fields : Fields ts) →
    (r : Reading φ) → (es : List (String × Tree φ)) →
    fields.gather r (es.filter (fields.owns ·.1)) = fields.gather r es
  | _, .nil, _, _ => rfl
  | _, .cons key aliases _ f rest, r, es => by
    have hown : (es.filter fun e => Fields.takes key aliases e.1 || rest.owns e.1).filter
        (Fields.takes key aliases ·.1) = es.filter (Fields.takes key aliases ·.1) := by
      rw [List.filter_filter]
      refine List.filter_congr fun e _ => ?_
      cases Fields.takes key aliases e.1 <;> rfl
    have hothers : (es.filter fun e => Fields.takes key aliases e.1 || rest.owns e.1).filter
        (!Fields.takes key aliases ·.1) =
          (es.filter (!Fields.takes key aliases ·.1)).filter (rest.owns ·.1) := by
      rw [List.filter_filter, List.filter_filter]
      refine List.filter_congr fun e _ => ?_
      cases Fields.takes key aliases e.1 <;> cases rest.owns e.1 <;> rfl
    simp only [Fields.owns, Fields.gather, hown, hothers, gather_filter_owns rest]

/-- Fields own their keys. -/
lemma owns_of_mem_keys : {ts : List Type} → (fields : Fields ts) → {key : String} →
    key ∈ fields.keys → fields.owns key = true
  | _, .cons key' aliases _ _ rest, key, h => by
    rw [Fields.owns, Bool.or_eq_true]
    rcases List.mem_cons.1 h with rfl | h
    · exact .inl (takes_self _ aliases)
    · exact .inr (owns_of_mem_keys rest h)

/-- Two records in one map are told apart by their keys. -/
lemma roundTrips_flat (name : String) {own : Fields ts} {inner : Fields us}
    (hkeys : ∀ key ∈ inner.keys, own.owns key = false) (hown : own.RoundTrips)
    (hinner : inner.RoundTrips) : (Format.flat name own inner).RoundTrips := by
  rintro r ⟨t, u⟩
  have hmine : ∀ key ∈ (own.encode t).map (·.1), own.owns key = true := by
    rw [keys_encode]
    exact fun _ => owns_of_mem_keys own
  have htheirs : ∀ key ∈ (inner.encode u).map (·.1), own.owns key = false := by
    rwa [keys_encode]
  have hfirst : (own.encode t ++ inner.encode u).filter (own.owns ·.1) = own.encode t := by
    rw [List.filter_append, filter_eq_self_of_keys own.owns hmine,
      filter_eq_nil_of_keys own.owns htheirs, List.append_nil]
  have hsecond : (own.encode t ++ inner.encode u).filter (!own.owns ·.1) = inner.encode u := by
    rw [List.filter_append, filter_eq_nil_of_keys (!own.owns ·),
      filter_eq_self_of_keys (!own.owns ·), List.nil_append]
    · exact fun key hkey => by rw [htheirs key hkey, Bool.not_false]
    · exact fun key hkey => by rw [hmine key hkey, Bool.not_true]
  refine (decode_flat_map name own inner r (Tree.valueEntries_json _)).trans ?_
  rw [← gather_filter_owns own, hfirst, hsecond, hown r t, hinner .buffer u]
  rfl

/-! ## Variants -/

/-- A value of a variant is written under the label of the variant, and read from under it. -/
def Variants.RoundTrips (variants : Variants α) : Prop :=
  ∀ (r : Reading Empty) (a : α), variants.has a → ∃ label j, label ∈ variants.labels ∧
    variants.encode a = .ofEntries [(label, j)] ∧
    variants.pick r label (some j) = some (variants.reread a)

/-- A well-keyed variant does not have the label of a later one. -/
lemma wellKeyed_variant {label : String} {f : Format β} {make : β → α} {get? : α → Option β}
    {make_get? : ∀ a b, get? a = some b → make b = a} {rest : Variants α}
    (h : (Variants.cons label f make get? make_get? rest).wellKeyed) :
    label ∉ rest.labels ∧ f.wellKeyed ∧ rest.wellKeyed := by
  obtain ⟨h, hrest⟩ := Bool.and_eq_true_iff.1 h
  obtain ⟨hlabel, hf⟩ := Bool.and_eq_true_iff.1 h
  refine ⟨fun hmem => ?_, hf, hrest⟩
  have hcontains : rest.labels.contains label = true := List.contains_iff_mem.2 hmem
  rw [hcontains] at hlabel
  exact Bool.noConfusion hlabel

/-- A value is read by the variant that wrote it if no other one has the same label. -/
lemma roundTrips_variant {label : String} {f : Format β} {make : β → α} {get? : α → Option β}
    (make_get? : ∀ a b, get? a = some b → make b = a) {rest : Variants α}
    (hlabel : label ∉ rest.labels) (hf : f.RoundTrips) (hrest : rest.RoundTrips) :
    (Variants.cons label f make get? make_get? rest).RoundTrips := by
  intro r a hhas
  rw [Variants.has] at hhas
  cases hget : get? a with
  | some b =>
    have hread := hf r b
    refine ⟨label, f.encode b, List.mem_cons_self, ?_, ?_⟩
    · rw [Variants.encode, hget]
    · rw [Variants.pick, if_pos rfl, Variants.reread, hget, Option.bind_some, hread]
      rfl
  | none =>
    rw [hget, Option.isSome_none, Bool.false_or] at hhas
    obtain ⟨label', j, hmem, hencode, hpick⟩ := hrest r a hhas
    have hne : label' ≠ label := fun heq => hlabel (heq ▸ hmem)
    refine ⟨label', j, List.mem_cons_of_mem _ hmem, ?_, ?_⟩
    · rw [Variants.encode, hget, hencode]
    · rw [Variants.pick, if_neg hne, Variants.reread, hget, hpick]

/-- A tagged value is read by its variant. -/
lemma roundTrips_tagged {variants : Variants α} (hhas : ∀ a, variants.has a)
    (h : variants.RoundTrips) : (Format.tagged variants).RoundTrips := by
  intro r a
  obtain ⟨label, j, -, hencode, hpick⟩ := h r a (hhas a)
  change ((Format.tagged variants).decode r (variants.encode a)).toOption = _
  rw [hencode, toOption_decode_tagged variants r (Tree.value_json _)]
  exact hpick

/-- A map is not `null`. -/
lemma ofEntries_ne_null (es : List (String × Json)) : Tree.ofEntries es ≠ .null := by
  rintro ⟨⟩

/-- A tagged value that has a variant is not written as `null`. -/
lemma encode_variants_ne_null : {α : Type} → (variants : Variants α) → (a : α) →
    variants.has a → variants.encode a ≠ .null
  | _, .cons label f make get? _ rest, a, hhas => by
    rw [Variants.has] at hhas
    rw [Variants.encode]
    cases hget : get? a with
    | some b => exact ofEntries_ne_null _
    | none =>
      rw [hget, Option.isSome_none, Bool.false_or] at hhas
      exact encode_variants_ne_null rest a hhas

/-- What is never written as `null` is not. -/
lemma encode_ne_null : {α : Type} → (f : Format α) → f.neverNull → f.Covers → (a : α) →
    f.encode a ≠ .null
  | _, .either _ f g, hnull, hcovers, x => by
    obtain ⟨hf, hg⟩ := Bool.and_eq_true_iff.1 hnull
    cases x with
    | inl a => exact encode_ne_null f hf hcovers.1 a
    | inr b => exact encode_ne_null g hg hcovers.2 b
  | _, .tagged variants, _, hcovers, a => encode_variants_ne_null variants a (hcovers.1 a)
  | _, .via f _ parts _, hnull, hcovers, b => encode_ne_null f hnull hcovers (parts b)
  | _, .integer _, _, _, _ => by rintro ⟨⟩
  | _, .text, _, _, _ => by rintro ⟨⟩
  | _, .list _, _, _, _ => by rintro ⟨⟩
  | _, .dictionary _, _, _, _ => ofEntries_ne_null _
  | _, .labels _, _, _, _ => by rintro ⟨⟩
  | _, .record _ fields, _, _, t => ofEntries_ne_null (fields.encode t)
  | _, .body fields, _, _, t => ofEntries_ne_null (fields.encode t)
  | _, .flat _ own inner, _, _, (t, u) =>
    ofEntries_ne_null (own.encode t ++ inner.encode u)

/-! ## All formats -/

mutual

/-- **What is written is read again.** -/
theorem Format.roundTrips : {α : Type} → (f : Format α) → f.wellKeyed → f.Covers → f.RoundTrips
  | _, .integer kind, _, _ => roundTrips_integer kind
  | _, .text, _, _ => roundTrips_text
  | _, .nullable f, hkeys, hcovers => by
    obtain ⟨hnull, hf⟩ := Bool.and_eq_true_iff.1 hkeys
    exact roundTrips_nullable (encode_ne_null f hnull hcovers) (Format.roundTrips f hf hcovers)
  | _, .list f, hkeys, hcovers => roundTrips_list (Format.roundTrips f hkeys hcovers)
  | _, .dictionary f, hkeys, hcovers => roundTrips_dictionary (Format.roundTrips f hkeys hcovers)
  | _, .either name f g, hkeys, hcovers => by
    obtain ⟨hf, hg⟩ := Bool.and_eq_true_iff.1 hkeys
    exact roundTrips_either name (Format.roundTrips f hf hcovers.1)
      (Format.roundTrips g hg hcovers.2)
  | _, .labels table, _, _ => roundTrips_labels table
  | _, .tagged variants, hkeys, hcovers =>
    roundTrips_tagged hcovers.1 (Variants.roundTrips variants hkeys hcovers.2)
  | _, .record name fields, hkeys, hcovers =>
    roundTrips_record name (Fields.roundTrips fields hkeys hcovers)
  | _, .body fields, hkeys, hcovers => roundTrips_body (Fields.roundTrips fields hkeys hcovers)
  | _, .flat name own inner, hkeys, hcovers => by
    obtain ⟨hapart, hown, hinner⟩ := wellKeyed_flat hkeys
    exact roundTrips_flat name hapart (Fields.roundTrips own hown hcovers.1)
      (Fields.roundTrips inner hinner hcovers.2)
  | _, .via f _ _ make_parts, hkeys, hcovers =>
    roundTrips_via make_parts (Format.roundTrips f hkeys hcovers)

/-- What is written for fields is read again. -/
theorem Fields.roundTrips : {ts : List Type} → (fields : Fields ts) → fields.wellKeyed →
    fields.Covers → fields.RoundTrips
  | _, .nil, _, _ => fun _ _ => rfl
  | _, .cons _ _ _ f rest, hkeys, hcovers => by
    obtain ⟨hapart, hf, hrest⟩ := wellKeyed_cons hkeys
    exact roundTrips_cons hapart (Format.roundTrips f hf hcovers.1)
      (Fields.roundTrips rest hrest hcovers.2)

/-- What is written for the contents of variants is read again. -/
theorem Variants.roundTrips : {α : Type} → (variants : Variants α) → variants.wellKeyed →
    variants.Covers → variants.RoundTrips
  | _, .nil, _, _ => fun _ _ hhas => nomatch hhas
  | _, .cons label f _ _ make_get? rest, hkeys, hcovers => by
    obtain ⟨hlabel, hf, hrest⟩ := wellKeyed_variant hkeys
    exact roundTrips_variant make_get? hlabel (Format.roundTrips f hf hcovers.1)
      (Variants.roundTrips rest hrest hcovers.2)

end

/-! ## Any order of entries -/

/-- No two fields have the same key. -/
lemma nodup_keys_of_wellKeyed : {ts : List Type} → (fields : Fields ts) → fields.wellKeyed →
    fields.keys.Nodup
  | _, .nil, _ => List.nodup_nil
  | _, .cons key aliases _ _ rest, hkeys => by
    obtain ⟨hapart, -, hrest⟩ := wellKeyed_cons hkeys
    refine List.nodup_cons.2 ⟨fun hmem => ?_, nodup_keys_of_wellKeyed rest hrest⟩
    have htakes := hapart key hmem
    rw [takes_self] at htakes
    exact Bool.noConfusion htakes

/-- Two records in one map have no key in common. -/
lemma nodup_keys_append {own : Fields ts} {inner : Fields us}
    (hkeys : ∀ key ∈ inner.keys, own.owns key = false) (hown : own.wellKeyed)
    (hinner : inner.wellKeyed) : (own.keys ++ inner.keys).Nodup := by
  refine List.nodup_append.2
    ⟨nodup_keys_of_wellKeyed own hown, nodup_keys_of_wellKeyed inner hinner, ?_⟩
  rintro key hkey key' hkey' rfl
  have howns := owns_of_mem_keys own hkey
  rw [hkeys key hkey'] at howns
  exact Bool.noConfusion howns

mutual

/-- No map that is written repeats a key. -/
theorem Format.distinctKeys_encode : {α : Type} → (f : Format α) → f.wellKeyed → (a : α) →
    (f.encode a).distinctKeys
  | _, .integer _, _, _ => rfl
  | _, .text, _, _ => rfl
  | _, .nullable _, _, none => rfl
  | _, .nullable f, hkeys, some a => by
    exact Format.distinctKeys_encode f (Bool.and_eq_true_iff.1 hkeys).2 a
  | _, .list f, hkeys, as => by
    refine Tree.distinctKeysItems_iff.2 fun j hj => ?_
    obtain ⟨a, -, rfl⟩ := List.mem_map.1 hj
    exact Format.distinctKeys_encode f hkeys a
  | _, .dictionary f, hkeys, m => by
    refine Tree.distinctKeys_map.2 ⟨?_, fun e he => ?_⟩
    · rw [List.map_map]
      exact m.nodup_keys
    · obtain ⟨e', -, rfl⟩ := List.mem_map.1 he
      exact Format.distinctKeys_encode f hkeys e'.2
  | _, .either _ f g, hkeys, x => by
    obtain ⟨hf, hg⟩ := Bool.and_eq_true_iff.1 hkeys
    cases x with
    | inl a => exact Format.distinctKeys_encode f hf a
    | inr b => exact Format.distinctKeys_encode g hg b
  | _, .labels _, _, _ => rfl
  | _, .tagged variants, hkeys, a => Variants.distinctKeys_encode variants hkeys a
  | _, .record _ fields, hkeys, t => by
    refine Tree.distinctKeys_map.2 ⟨?_, Fields.distinctKeys_encode fields hkeys t⟩
    rw [keys_encode]
    exact nodup_keys_of_wellKeyed fields hkeys
  | _, .body fields, hkeys, t => by
    refine Tree.distinctKeys_map.2 ⟨?_, Fields.distinctKeys_encode fields hkeys t⟩
    rw [keys_encode]
    exact nodup_keys_of_wellKeyed fields hkeys
  | _, .flat _ own inner, hkeys, (t, u) => by
    obtain ⟨hapart, hown, hinner⟩ := wellKeyed_flat hkeys
    refine Tree.distinctKeys_map.2 ⟨?_, fun e he => ?_⟩
    · rw [List.map_append, keys_encode, keys_encode]
      exact nodup_keys_append hapart hown hinner
    · rcases List.mem_append.1 he with he | he
      · exact Fields.distinctKeys_encode own hown t e he
      · exact Fields.distinctKeys_encode inner hinner u e he
  | _, .via f _ parts _, hkeys, b => Format.distinctKeys_encode f hkeys (parts b)

/-- No map that is written for a field repeats a key. -/
theorem Fields.distinctKeys_encode : {ts : List Type} → (fields : Fields ts) →
    fields.wellKeyed → (t : Tuple ts) → ∀ e ∈ fields.encode t, e.2.distinctKeys
  | _, .nil, _, _, _, he => nomatch he
  | _, .cons _ _ _ f rest, hkeys, (a, t), e, he => by
    obtain ⟨-, hf, hrest⟩ := wellKeyed_cons hkeys
    rcases List.mem_cons.1 he with rfl | he
    · exact Format.distinctKeys_encode f hf a
    · exact Fields.distinctKeys_encode rest hrest t e he

/-- No map that is written for a variant repeats a key. -/
theorem Variants.distinctKeys_encode : {α : Type} → (variants : Variants α) →
    variants.wellKeyed → (a : α) → (variants.encode a).distinctKeys
  | _, .nil, _, _ => rfl
  | _, .cons label f _ get? _ rest, hkeys, a => by
    obtain ⟨-, hf, hrest⟩ := wellKeyed_variant hkeys
    rw [Variants.encode]
    cases get? a with
    | none => exact Variants.distinctKeys_encode rest hrest a
    | some b =>
      have hnodup : [label].Nodup := List.nodup_cons.2 ⟨List.not_mem_nil, List.nodup_nil⟩
      refine Tree.distinctKeys_map.2 ⟨hnodup, fun e he => ?_⟩
      rw [List.mem_singleton.1 he]
      exact Format.distinctKeys_encode f hf b

end

/-- A value says what is written for it. -/
theorem Format.says_encode {f : Format α} (hkeys : f.wellKeyed) (a : α) :
    (f.encode a).Says (f.encode a) :=
  Tree.says_self (f.distinctKeys_encode hkeys a)

/-- The two values that are written for a value of a type: with the entries of records in the order
of their fields, and in the order of their keys. -/
def Format.Writes (f : Format α) (a : α) (j : Json) : Prop :=
  j = f.encode a ∨ j = (f.encode a).arranged

/-- Both values that are written for a value say what is written. -/
lemma says_of_writes {f : Format α} (hkeys : f.wellKeyed) {a : α} {j : Json} (h : f.Writes a j) :
    j.Says (f.encode a) := by
  rcases h with rfl | rfl
  · exact f.says_encode hkeys a
  · exact Tree.says_arranged (f.distinctKeys_encode hkeys a)

/-- **A value comes back from every tree that says what is written for it.** -/
theorem Format.decode_of_says_encode {φ : Type} {f : Format α} (hkeys : f.wellKeyed)
    (hcovers : f.Covers) (r : Reading φ) {t : Tree φ} {a : α} (h : t.Says (f.encode a)) :
    f.decode r t = .ok (f.reread a) := by
  have hread := f.roundTrips hkeys hcovers .value a
  rw [f.decode_of_says .value r (f.says_encode hkeys a) h] at hread
  exact toOption_eq_some_iff.1 hread

/-! ## Formats without a choice -/

mutual

/-- Whether a format leaves no choice between two ways to write a value. -/
def Format.plain : {α : Type} → Format α → Bool
  | _, .nullable f => f.plain
  | _, .list f => f.plain
  | _, .dictionary f => f.plain
  | _, .either _ _ _ => false
  | _, .tagged variants => variants.plain
  | _, .record _ fields => fields.plain
  | _, .body fields => fields.plain
  | _, .flat _ own inner => own.plain && inner.plain
  | _, .via f _ _ _ => f.plain
  | _, _ => true

/-- Whether no field leaves a choice. -/
def Fields.plain : {ts : List Type} → Fields ts → Bool
  | _, .nil => true
  | _, .cons _ _ _ f rest => f.plain && rest.plain

/-- Whether the contents of no variant leave a choice. -/
def Variants.plain : {α : Type} → Variants α → Bool
  | _, .nil => true
  | _, .cons _ f _ _ _ rest => f.plain && rest.plain

end

mutual

/-- **Without a choice the very value comes back.** -/
theorem Format.reread_of_plain : {α : Type} → (f : Format α) → f.plain → (a : α) → f.reread a = a
  | _, .integer _, _, _ => rfl
  | _, .text, _, _ => rfl
  | _, .nullable _, _, none => rfl
  | _, .nullable f, hplain, some a => congrArg some (Format.reread_of_plain f hplain a)
  | _, .list f, hplain, as =>
    (List.map_congr_left fun a _ => Format.reread_of_plain f hplain a).trans (List.map_id as)
  | _, .dictionary f, hplain, _ =>
    KeyMap.map_eq_self_iff.2 fun e _ => Format.reread_of_plain f hplain e.2
  | _, .anything, _, _ => rfl
  | _, .labels _, _, _ => rfl
  | _, .tagged variants, hplain, a => Variants.reread_of_plain variants hplain a
  | _, .record _ fields, hplain, t => Fields.reread_of_plain fields hplain t
  | _, .body fields, hplain, t => Fields.reread_of_plain fields hplain t
  | _, .flat _ own inner, hplain, (t, u) => by
    obtain ⟨hown, hinner⟩ := Bool.and_eq_true_iff.1 hplain
    exact Prod.ext (Fields.reread_of_plain own hown t) (Fields.reread_of_plain inner hinner u)
  | _, .via f make parts make_parts, hplain, b =>
    (congrArg make (Format.reread_of_plain f hplain (parts b))).trans (make_parts b)

/-- Without a choice the very fields come back. -/
theorem Fields.reread_of_plain : {ts : List Type} → (fields : Fields ts) → fields.plain →
    (t : Tuple ts) → fields.reread t = t
  | _, .nil, _, _ => rfl
  | _, .cons _ _ _ f rest, hplain, (a, t) => by
    obtain ⟨hf, hrest⟩ := Bool.and_eq_true_iff.1 hplain
    exact Prod.ext (Format.reread_of_plain f hf a) (Fields.reread_of_plain rest hrest t)

/-- Without a choice the very value of a variant comes back. -/
theorem Variants.reread_of_plain : {α : Type} → (variants : Variants α) → variants.plain →
    (a : α) → variants.reread a = a
  | _, .nil, _, _ => rfl
  | _, .cons _ f make get? make_get? rest, hplain, a => by
    obtain ⟨hf, hrest⟩ := Bool.and_eq_true_iff.1 hplain
    rw [Variants.reread]
    cases hget : get? a with
    | some b => exact (congrArg make (Format.reread_of_plain f hf b)).trans (make_get? a b hget)
    | none => exact Variants.reread_of_plain rest hrest a

end

/-! ## What comes back of a record -/

variable {f : Format α} {fields : Fields ts}

/-- What comes back of a value of another type is given by what comes back of its parts. -/
lemma reread_via_eq {make : α → β} {parts : β → α} {make_parts : ∀ b, make (parts b) = b} {b b' : β}
    (h : f.reread (parts b) = parts b') : (Format.via f make parts make_parts).reread b = b' :=
  (congrArg make h).trans (make_parts b')

/-- What comes back of fields is given field by field. -/
lemma reread_cons {key : String} {aliases : List String} {absence : Absence α} {a a' : α}
    {t t' : Tuple ts} (ha : f.reread a = a') (ht : fields.reread t = t') :
    (Fields.cons key aliases absence f fields).reread (Tuple.cons a t) = Tuple.cons a' t' :=
  Prod.ext ha ht

/-- A field that leaves no choice comes back unchanged. -/
lemma reread_cons_plain {key : String} {aliases : List String} {absence : Absence α} {a : α}
    {t t' : Tuple ts} (hf : f.plain) (ht : fields.reread t = t') :
    (Fields.cons key aliases absence f fields).reread (Tuple.cons a t) = Tuple.cons a t' :=
  reread_cons (f.reread_of_plain hf a) ht

end CardRules
