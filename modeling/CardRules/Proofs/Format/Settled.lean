import CardRules.Proofs.Format.RoundTrip

/-!
# What was read comes back unchanged

A value in memory can be written in a way that is read as another one, where two formats compete for
it.  A value that was read by the formats itself is not like that: the format that gave it would
have been passed over if an earlier one accepted it.  So what is read comes back unchanged when it
is written and read again; such formats are *settled* (`Format.Settled`).

This holds for whatever is read, of any text, also of one in which keys are repeated or that is
broken in a place that is skipped.  For a record it is an invariant of the slots that are filled
entry by entry (`settled_store` for one entry, `storeEntries_preserves` and
`sortEntries_preserves` for all of them).
-/

namespace CardRules

variable {α β φ : Type} {ts us : List Type}

/-- What is read by a format comes back unchanged. -/
def Format.Settled (f : Format α) : Prop :=
  ∀ ⦃φ : Type⦄ (r : Reading φ) (t : Tree φ) (a : α), f.decode r t = .ok a → f.reread a = a

/-- A format that leaves no choice gives everything back. -/
lemma settled_of_plain {f : Format α} (h : f.plain) : f.Settled :=
  fun _ _ _ a _ => f.reread_of_plain h a

/-! ## Formats around one other format -/

/-- Nothing comes back as nothing, and a value as itself. -/
lemma settled_nullable {f : Format α} (hf : f.Settled) : f.nullable.Settled := by
  intro φ r t a? h
  cases a? with
  | none => rfl
  | some a =>
    by_cases hnull : t = .null
    · subst hnull
      cases h
    · have hread := toOption_decode_nullable f r hnull
      rw [h] at hread
      obtain ⟨a', ha', heq⟩ := Option.map_eq_some_iff.1 hread.symm
      cases heq
      exact congrArg some (hf r t a (toOption_eq_some_iff.1 ha'))

/-- Every item of a list comes back unchanged. -/
lemma settled_list {f : Format α} (hf : f.Settled) : f.list.Settled := by
  intro φ r t as h
  cases t with
  | sequence items cut =>
    obtain ⟨as', has', hrest⟩ := exists_of_bind_eq_ok h
    obtain ⟨_, -, heq⟩ := exists_of_bind_eq_ok hrest
    cases heq
    refine (List.map_congr_left fun a ha => ?_).trans (List.map_id _)
    obtain ⟨item, -, hitem⟩ := exists_of_mapM_eq_ok has' a ha
    exact hf r item a hitem
  | _ => cases h

/-- Every value of a dictionary comes back unchanged. -/
lemma settled_dictionary {f : Format α} (hf : f.Settled) : f.dictionary.Settled := by
  intro φ r t m h
  cases t with
  | map es cut =>
    obtain ⟨as, has, hrest⟩ := exists_of_bind_eq_ok h
    obtain ⟨_, -, heq⟩ := exists_of_bind_eq_ok hrest
    cases heq
    refine KeyMap.map_eq_self_iff.2 fun e he => ?_
    obtain ⟨entry, -, hentry⟩ := exists_of_mapM_eq_ok has e (KeyMap.mem_of_mem_ofList he)
    obtain ⟨a, ha, rfl⟩ := exists_of_map_eq_ok hentry
    exact hf r entry.2 a ha
  | _ => cases h

/-- A value of another type comes back unchanged if its parts do. -/
lemma settled_via {f : Format α} {make : α → β} {parts : β → α}
    {make_parts : ∀ b, make (parts b) = b} (parts_make : ∀ a, parts (make a) = a)
    (hf : f.Settled) : (Format.via f make parts make_parts).Settled := by
  intro φ r t b h
  obtain ⟨a, ha, rfl⟩ := exists_of_map_eq_ok h
  have hsettled := hf r t a ha
  change make (f.reread (parts (make a))) = make a
  rw [parts_make, hsettled]

/-! ## Two formats for one value -/

/-- What a format reads from a value in memory is written as that value. -/
def Format.Exact (f : Format α) : Prop :=
  ∀ (j : Json) (a : α), f.decode .buffer j = .ok a → f.encode a = j

/-- An integer is written with the digits from which it was read. -/
lemma exact_integer {kind : IntegerKind α}
    (hkind : ∀ n a, kind.ofInt? n = some a → kind.toInt a = n) : (Format.integer kind).Exact := by
  intro j a h
  have hread := toOption_eq_some_iff.2 h
  rw [toOption_decode_integer] at hread
  cases j with
  | number n =>
    cases n with
    | int n =>
      have hn : kind.toInt a = n := hkind n a hread
      exact congrArg Tree.int hn
    | fraction x => cases hread
  | broken b => exact b.read.elim
  | _ => cases hread

/-- A text is written as it was read. -/
lemma exact_text : Format.text.Exact := by
  intro j s h
  cases j with
  | text s' =>
    cases h
    rfl
  | broken b => exact b.read.elim
  | _ => cases h

/-- A value of either of two formats is written as it was read if both formats write it so. -/
lemma exact_either (name : String) {f : Format α} {g : Format β} (hf : f.Exact) (hg : g.Exact) :
    (Format.either name f g).Exact := by
  intro j x h
  have hread := toOption_eq_some_iff.2 h
  rw [toOption_decode_either, Tree.value_json, toOption_ok, Option.bind_some] at hread
  cases ha : f.decode .buffer j with
  | ok a =>
    rw [ha] at hread
    cases hread
    exact hf j a ha
  | error e =>
    rw [ha] at hread
    obtain ⟨b, hb, rfl⟩ := Option.map_eq_some_iff.1 hread
    exact hg j b (toOption_eq_some_iff.1 hb)

/-- What was read by the second of two formats is not accepted by the first one, provided that it
is written as it was read. -/
lemma settled_either (name : String) {f : Format α} {g : Format β} (hf : f.Settled)
    (hg : g.Settled) (hexact : g.Exact) : (Format.either name f g).Settled := by
  intro φ r t x h
  have hread := toOption_eq_some_iff.2 h
  rw [toOption_decode_either] at hread
  obtain ⟨j, -, hread⟩ := Option.bind_eq_some_iff.1 hread
  cases ha : f.decode .buffer j with
  | ok a =>
    rw [ha] at hread
    cases hread
    exact congrArg Sum.inl (hf .buffer j a ha)
  | error e =>
    rw [ha] at hread
    obtain ⟨b, hb, rfl⟩ := Option.map_eq_some_iff.1 hread
    have hdecode := toOption_eq_some_iff.1 hb
    have hrejected : f.decode .buffer (g.encode b) = .error e := by
      rw [hexact j b hdecode, ha]
    rw [reread_inr_of_error name hrejected, hg .buffer j b hdecode]

/-! ## Records -/

/-- What is read for the fields of a record, and what stands for missing ones, comes back
unchanged. -/
def Fields.Settled : {ts : List Type} → Fields ts → Prop
  | _, .nil => True
  | _, .cons _ _ absence f rest =>
    f.Settled ∧ (∀ a, absence.value? = some a → f.reread a = a) ∧ rest.Settled

/-- All values in slots come back unchanged. -/
def Slots.Settled : {ts : List Type} → Fields ts → Slots ts → Prop
  | _, .nil, _ => True
  | _, .cons _ _ _ f rest, (slot, slots) =>
    (∀ a, slot = some a → f.reread a = a) ∧ Slots.Settled rest slots

/-- There is no value in empty slots. -/
lemma settled_empty (fields : Fields ts) : Slots.Settled fields (Slots.empty ts) := by
  induction ts with
  | nil =>
    cases fields
    trivial
  | cons α ts ih =>
    cases fields with
    | cons name aliases absence f rest => exact ⟨by rintro _ ⟨⟩, ih rest⟩

/-- Storing an entry keeps the values in the slots settled. -/
lemma settled_store : {ts : List Type} → {fields : Fields ts} → fields.Settled →
    (r : Reading φ) → {key : String} → {t : Tree φ} → {slots slots' : Slots ts} →
    Slots.Settled fields slots → fields.store r key t slots = .ok (some slots') →
    Slots.Settled fields slots'
  | _, .nil, _, _, _, _, _, _, _, h => nomatch h
  | _, .cons name aliases absence f rest, hf, r, key, t, (slot, slots), slots', hslots, h => by
    change (Fields.cons name aliases absence f rest).store r key t (.cons slot slots) = _ at h
    rw [store_cons] at h
    split at h
    · cases slot with
      | some a => cases h
      | none =>
        obtain ⟨a, ha, heq⟩ := exists_of_bind_eq_ok h
        cases heq
        refine ⟨fun a' ha' => ?_, hslots.2⟩
        cases ha'
        exact hf.1 r t a ha
    · obtain ⟨stored, hstored, heq⟩ := exists_of_bind_eq_ok h
      cases stored with
      | none => cases heq
      | some slots'' =>
        cases heq
        exact ⟨hslots.1, settled_store hf.2.2 r hslots.2 hstored⟩

/-- What each entry preserves, all entries that are stored preserve. -/
lemma storeEntries_preserves {σ : Type} {P : σ → Prop}
    {store : String → Tree φ → σ → Except (DecodeError φ) (Option σ)}
    (hstore : ∀ key t s s', P s → store key t s = .ok (some s') → P s')
    {es : List (String × Tree φ)} {s s' : σ} (hs : P s) (h : storeEntries store es s = .ok s') :
    P s' := by
  induction es generalizing s with
  | nil =>
    cases h
    exact hs
  | cons e rest ih =>
    obtain ⟨key, t⟩ := e
    obtain ⟨stored, hstored, hrest⟩ := exists_of_bind_eq_ok h
    cases stored with
    | some s'' => exact ih (hstore key t s s'' hs hstored) hrest
    | none =>
      cases hskip : t.skip with
      | none =>
        rw [hskip] at hrest
        exact ih hs hrest
      | some f =>
        rw [hskip] at hrest
        cases hrest

/-- What each entry preserves, all entries that are sorted preserve. -/
lemma sortEntries_preserves {σ : Type} {P : σ → Prop}
    {store : String → Tree φ → σ → Except (DecodeError φ) (Option σ)}
    (hstore : ∀ key t s s', P s → store key t s = .ok (some s') → P s')
    {es : List (String × Tree φ)} {s s' : σ} {others : List (String × Json)} (hs : P s)
    (h : sortEntries store es s = .ok (s', others)) : P s' := by
  induction es generalizing s others with
  | nil =>
    cases h
    exact hs
  | cons e rest ih =>
    obtain ⟨key, t⟩ := e
    obtain ⟨stored, hstored, hrest⟩ := exists_of_bind_eq_ok h
    cases stored with
    | some s'' => exact ih (hstore key t s s'' hs hstored) hrest
    | none =>
      obtain ⟨j, -, hrest⟩ := exists_of_bind_eq_ok hrest
      obtain ⟨⟨s'', others'⟩, hsorted, heq⟩ := exists_of_bind_eq_ok hrest
      cases heq
      exact ih hs hsorted

/-- A record that is made of settled values comes back unchanged. -/
lemma settled_finish : {ts : List Type} → {fields : Fields ts} → fields.Settled →
    {slots : Slots ts} → {t : Tuple ts} → Slots.Settled fields slots →
    fields.finish slots = .ok t → fields.reread t = t
  | _, .nil, _, _, _, _, _ => rfl
  | _, .cons name aliases absence f rest, hf, (slot, slots), t, hslots, h => by
    have hfinish := finish_cons name aliases absence f rest slot slots
    change (Fields.finish (.cons name aliases absence f rest) (slot, slots)).toOption = _ at hfinish
    rw [h] at hfinish
    obtain ⟨a, ha, hrest⟩ := Option.bind_eq_some_iff.1 hfinish.symm
    obtain ⟨u, hu, rfl⟩ := Option.map_eq_some_iff.1 hrest
    have hothers := settled_finish hf.2.2 hslots.2 (toOption_eq_some_iff.1 hu)
    have hown : f.reread a = a := by
      cases slot with
      | some a' =>
        cases ha
        exact hslots.1 a rfl
      | none => exact hf.2.1 a ha
    exact Prod.ext hown hothers

/-- A record that is read from items comes back unchanged. -/
lemma settled_inOrder : {ts : List Type} → {fields : Fields ts} → fields.Settled →
    (r : Reading φ) → {wanted : String} → {index : Nat} → {items : List (Tree φ)} →
    {cut : Option (Cut φ)} → {t : Tuple ts} → {left : List (Tree φ)} →
    fields.inOrder r wanted index items cut = .ok (t, left) → fields.reread t = t
  | _, .nil, _, _, _, _, _, _, _, _, _ => rfl
  | _, .cons _ _ absence f rest, hf, r, _, _, item :: items, cut, _, _, h => by
    obtain ⟨a, ha, hrest⟩ := exists_of_bind_eq_ok h
    obtain ⟨⟨u, left'⟩, hu, heq⟩ := exists_of_bind_eq_ok hrest
    cases heq
    exact Prod.ext (hf.1 r item a ha) (settled_inOrder hf.2.2 r hu)
  | _, .cons _ _ absence f rest, hf, r, _, _, [], cut, _, _, h => by
    obtain ⟨_, -, hrest⟩ := exists_of_bind_eq_ok h
    cases absence with
    | required => cases hrest
    | tolerated a => cases hrest
    | defaulted a =>
      obtain ⟨⟨u, left'⟩, hu, heq⟩ := exists_of_bind_eq_ok hrest
      cases heq
      exact Prod.ext (hf.2.1 a rfl) (settled_inOrder hf.2.2 r hu)

/-- Storing entries fills slots with settled values. -/
lemma settled_storeEntries {fields : Fields ts} (hf : fields.Settled) (r : Reading φ)
    {es : List (String × Tree φ)} {slots : Slots ts}
    (h : storeEntries (fields.store r) es (Slots.empty ts) = .ok slots) :
    Slots.Settled fields slots :=
  storeEntries_preserves (fun _ _ _ _ hs hstore => settled_store hf r hs hstore)
    (settled_empty fields) h

/-- A record comes back unchanged if what is read for its fields does. -/
lemma settled_record (name : String) {fields : Fields ts} (hf : fields.Settled) :
    (Format.record name fields).Settled := by
  intro φ r t a h
  cases t with
  | map es cut =>
    obtain ⟨slots, hslots, hrest⟩ := exists_of_bind_eq_ok h
    obtain ⟨_, -, hfinish⟩ := exists_of_bind_eq_ok hrest
    exact settled_finish hf (settled_storeEntries hf r hslots) (of_mapError_eq_ok hfinish)
  | sequence items cut =>
    obtain ⟨⟨u, left⟩, hu, hrest⟩ := exists_of_bind_eq_ok h
    obtain ⟨_, -, heq⟩ := exists_of_bind_eq_ok hrest
    cases heq
    exact settled_inOrder hf r hu
  | _ => cases h

/-- Two records in one map come back unchanged if what is read for their fields does. -/
lemma settled_flat (name : String) {own : Fields ts} {inner : Fields us} (hown : own.Settled)
    (hinner : inner.Settled) : (Format.flat name own inner).Settled := by
  intro φ r t a h
  cases t with
  | map es cut =>
    obtain ⟨⟨slots, others⟩, hslots, h⟩ := exists_of_bind_eq_ok h
    obtain ⟨_, -, h⟩ := exists_of_bind_eq_ok h
    obtain ⟨u, hu, h⟩ := exists_of_bind_eq_ok h
    obtain ⟨slots', hslots', h⟩ := exists_of_bind_eq_ok h
    obtain ⟨v, hv, heq⟩ := exists_of_bind_eq_ok h
    cases heq
    have hslots_settled : Slots.Settled own slots :=
      sortEntries_preserves (fun _ _ _ _ hs hstore => settled_store hown r hs hstore)
        (settled_empty own) hslots
    have hslots'_settled := settled_storeEntries hinner .buffer (of_mapError_eq_ok hslots')
    exact Prod.ext (settled_finish hown hslots_settled (of_mapError_eq_ok hu))
      (settled_finish hinner hslots'_settled (of_mapError_eq_ok hv))
  | _ => cases h

/-! ### Kinds of fields -/

/-- A field that leaves no choice. -/
lemma settled_cons_plain {key : String} {aliases : List String} {absence : Absence α} {f : Format α}
    {rest : Fields ts} (hf : f.plain) (hrest : rest.Settled) :
    (Fields.cons key aliases absence f rest).Settled :=
  ⟨settled_of_plain hf, fun a _ => f.reread_of_plain hf a, hrest⟩

/-- Fields that leave no choice are settled. -/
lemma settled_fields_of_plain : {ts : List Type} → {fields : Fields ts} → fields.plain →
    fields.Settled
  | _, .nil, _ => trivial
  | _, .cons _ _ _ f rest, h => by
    obtain ⟨hf, hrest⟩ := Bool.and_eq_true_iff.1 h
    exact settled_cons_plain hf (settled_fields_of_plain hrest)

/-- A field that may be missing. -/
lemma settled_opt (key : String) {a : α} {f : Format α} {rest : Fields ts} (hf : f.Settled)
    (ha : f.reread a = a) (hrest : rest.Settled) : (Fields.opt key a f rest).Settled := by
  refine ⟨hf, fun a' ha' => ?_, hrest⟩
  cases ha'
  exact ha

/-- A nullable field that may be missing. -/
lemma settled_maybe (key : String) {f : Format α} {rest : Fields ts} (hf : f.Settled)
    (hrest : rest.Settled) : (Fields.maybe key f rest).Settled :=
  settled_opt key (settled_nullable hf) rfl hrest

end CardRules
