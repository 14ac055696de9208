import CardRules.Proofs.Format.Record

/-!
# What formats accept

Whether a format accepts a tree, and what it then reads, can be said for each kind of format by what
the formats in it accept.  The report of an error is left out, and so most readings agree.

A record, or a dictionary in which no key is repeated, does not see in which order the entries stand
(`gather_perm`, `readEntries_perm`).
-/

namespace CardRules

variable {α β φ : Type} {ts us : List Type} {t : Tree φ} {j : Json}

/-! ## Values without parts -/

/-- What is found in a tree is found in the value that it says. -/
lemma found_value (h : t.value = .ok j) : j.found.toOption = t.found.toOption := by
  cases t with
  | null | bool _ | number _ | text _ =>
    cases h
    rfl
  | sequence items cut =>
    obtain ⟨-, js, -, rfl⟩ := Tree.value_sequence_iff.1 h
    rfl
  | map entries cut =>
    obtain ⟨-, js, -, rfl⟩ := Tree.value_map_iff.1 h
    rfl
  | broken b => cases h

/-- Whether an integer is accepted depends only on what is found. -/
lemma toOption_decode_integer (kind : IntegerKind α) (r : Reading φ) (t : Tree φ) :
    ((Format.integer kind).decode r t).toOption = t.found.toOption.bind fun
      | .number (.int n) => kind.ofInt? n
      | _ => none := by
  cases t with
  | number n =>
    cases n with
    | int n =>
      rw [decode_integer_int]
      cases h : kind.ofInt? n <;> simp [Tree.found, h]
    | fraction x => rfl
  | _ => rfl

/-- Whether a text is accepted depends only on what is found. -/
lemma toOption_decode_text (r : Reading φ) (t : Tree φ) :
    (Format.text.decode r t).toOption = t.found.toOption.bind fun
      | .text s => some s
      | _ => none := by
  cases t <;> rfl

/-! ## Formats around one other format -/

/-- Apart from `null` a nullable value is read like one that is not. -/
lemma toOption_decode_nullable (f : Format α) (r : Reading φ) (h : t ≠ .null) :
    (f.nullable.decode r t).toOption = (f.decode r t).toOption.map some := by
  rw [decode_nullable_of_ne_null f r h, toOption_map]

/-- A value of another type is made of the one that is read. -/
lemma toOption_decode_via (f : Format α) (make : α → β) (parts : β → α)
    (make_parts : ∀ b, make (parts b) = b) (r : Reading φ) (t : Tree φ) :
    ((Format.via f make parts make_parts).decode r t).toOption =
      (f.decode r t).toOption.map make := by
  rw [decode_via, toOption_map]

/-- Of two formats both are tried on the same value. -/
lemma toOption_decode_either (name : String) (f : Format α) (g : Format β) (r : Reading φ)
    (t : Tree φ) :
    ((Format.either name f g).decode r t).toOption = t.value.toOption.bind fun j =>
      ((f.decode .buffer j).toOption.map .inl).or ((g.decode .buffer j).toOption.map .inr) := by
  rw [decode_either, toOption_bind, toOption_mapError]
  congr 1
  funext j
  cases hf : f.decode .buffer j with
  | ok a => rfl
  | error e => cases hg : g.decode .buffer j <;> rfl

/-! ## Lists -/

/-- The items of a sequence are read one by one. -/
lemma toOption_decode_list (f : Format α) (r : Reading φ) (items : List (Tree φ)) :
    (f.list.decode r (.sequence items none)).toOption =
      items.mapM fun t => (f.decode r t).toOption := by
  rw [decode_list_sequence]
  simp

/-- Only sequences are read as lists. -/
lemma toOption_decode_list_of_found (f : Format α) (r : Reading φ)
    (h : t.found.toOption ≠ some .sequence) : (f.list.decode r t).toOption = none := by
  cases t with
  | sequence items cut => exact absurd rfl h
  | _ => rfl

/-! ## Dictionaries -/

/-- The entries of a dictionary, read one by one. -/
def Format.readEntries (f : Format α) (r : Reading φ) (es : List (String × Tree φ)) :
    Option (List (String × α)) :=
  es.mapM fun e => (f.decode r e.2).toOption.map (e.1, ·)

/-- The entries of a map are read one by one. -/
lemma toOption_decode_dictionary (f : Format α) (r : Reading φ) (es : List (String × Tree φ)) :
    (f.dictionary.decode r (.map es none)).toOption =
      (f.readEntries r es).map KeyMap.ofList := by
  rw [decode_dictionary_map, Format.readEntries]
  simp only [toOption_bind, toOption_mapM, toOption_map, toOption_atEnd_none, toOption_pure,
    Option.bind_some, Option.map_eq_bind, Function.comp_def]

/-- Reading entries keeps their keys. -/
lemma keys_readEntries (f : Format α) (r : Reading φ) {es : List (String × Tree φ)}
    {as : List (String × α)} (h : f.readEntries r es = some as) : as.map (·.1) = es.map (·.1) := by
  induction es generalizing as with
  | nil =>
    cases h
    rfl
  | cons e es ih =>
    obtain ⟨_, as', ha, has', rfl⟩ := mapM_cons_eq_some_iff.1 h
    obtain ⟨_, _, rfl⟩ := Option.map_eq_some_iff.1 ha
    rw [List.map_cons, List.map_cons, ih has']

/-- What a function gives for the elements of a list it gives, in another order, for the elements of
the list in another order. -/
lemma mapM_perm {f : α → Option β} {xs ys : List α} (h : xs.Perm ys) {as : List β}
    (hx : xs.mapM f = some as) : ∃ bs, ys.mapM f = some bs ∧ as.Perm bs := by
  induction h generalizing as with
  | nil => exact ⟨as, hx, .refl as⟩
  | cons x _ ih =>
    obtain ⟨a, as', ha, has', rfl⟩ := mapM_cons_eq_some_iff.1 hx
    obtain ⟨bs, hbs, hperm⟩ := ih has'
    exact ⟨a :: bs, mapM_cons_eq_some_iff.2 ⟨a, bs, ha, hbs, rfl⟩, hperm.cons a⟩
  | swap x y l =>
    obtain ⟨b, _, hb, hrest, rfl⟩ := mapM_cons_eq_some_iff.1 hx
    obtain ⟨a, cs, ha, hcs, rfl⟩ := mapM_cons_eq_some_iff.1 hrest
    have hrest' := mapM_cons_eq_some_iff.2 ⟨b, cs, hb, hcs, rfl⟩
    exact ⟨a :: b :: cs, mapM_cons_eq_some_iff.2 ⟨a, _, ha, hrest', rfl⟩, List.Perm.swap ..⟩
  | trans _ _ ih ih' =>
    obtain ⟨bs, hbs, hperm⟩ := ih hx
    obtain ⟨cs, hcs, hperm'⟩ := ih' hbs
    exact ⟨cs, hcs, hperm.trans hperm'⟩

/-- A dictionary of entries in another order is the same dictionary. -/
lemma readEntries_perm (f : Format α) (r : Reading φ) {es es' : List (String × Tree φ)}
    (h : es.Perm es') (hkeys : (es.map (·.1)).Nodup) :
    (f.readEntries r es).map KeyMap.ofList = (f.readEntries r es').map KeyMap.ofList := by
  cases has : f.readEntries r es with
  | some as =>
    obtain ⟨bs, hbs, hperm⟩ := mapM_perm h has
    have hnodup : (as.map (·.1)).Nodup := by rwa [keys_readEntries f r has]
    rw [Format.readEntries, hbs]
    exact congrArg some (KeyMap.ofList_eq_of_perm hperm hnodup)
  | none =>
    cases hbs : f.readEntries r es' with
    | none => rfl
    | some bs =>
      obtain ⟨as, has', -⟩ := mapM_perm h.symm hbs
      exact absurd (has.symm.trans has') (by simp)

/-! ## Records -/

/-- The values of fields are that of the first one and those of the others. -/
lemma bind_cons_eq_some_iff {a? : Option α} {x? : Option (Tuple ts)} {x : Tuple (α :: ts)} :
    (a?.bind fun a => x?.map (Tuple.cons a)) = some x ↔
      ∃ a y, a? = some a ∧ x? = some y ∧ x = Tuple.cons a y := by
  cases a? with
  | none => simp
  | some a =>
    cases x? with
    | none => simp
    | some y => simp [eq_comm]

/-- A field does not see the order of its entries: if there are several, it has no value. -/
lemma single_perm (f : Format α) (absence : Absence α) (r : Reading φ)
    {es es' : List (String × Tree φ)} (h : es.Perm es') :
    f.single absence r es = f.single absence r es' := by
  match es, es' with
  | [], es' => rw [List.nil_perm.1 h]
  | [e], es' => rw [List.singleton_perm.1 h]
  | es, [] => rw [List.perm_nil.1 h]
  | es, [e] => rw [List.perm_singleton.1 h]
  | _ :: _ :: _, _ :: _ :: _ => rfl

/-- The fields of a record do not see the order of the entries. -/
lemma gather_perm : {ts : List Type} → (fields : Fields ts) → (r : Reading φ) →
    {es es' : List (String × Tree φ)} → es.Perm es' → fields.gather r es = fields.gather r es'
  | _, .nil, _, _, _, _ => rfl
  | _, .cons name aliases absence f rest, r, _, _, h => by
    rw [Fields.gather, Fields.gather, single_perm f absence r (h.filter _),
      gather_perm rest r (h.filter _)]

/-! ### One entry among others -/

/-- An entry stays among those whose keys are chosen if its key is chosen. -/
lemma filter_split_of_pos {p : String → Bool} {key : String} (hkey : p key = true)
    (before after : List (String × α)) (a : α) :
    (before ++ (key, a) :: after).filter (p ·.1) =
      before.filter (p ·.1) ++ (key, a) :: after.filter (p ·.1) := by
  rw [List.filter_append, List.filter_cons, if_pos hkey]

/-- An entry is not among those whose keys are chosen if its key is not chosen. -/
lemma filter_split_of_neg {p : String → Bool} {key : String} (hkey : p key = false)
    (before after : List (String × α)) (a : α) :
    (before ++ (key, a) :: after).filter (p ·.1) =
      before.filter (p ·.1) ++ after.filter (p ·.1) := by
  rw [List.filter_append, List.filter_cons, if_neg (by rw [hkey]; decide)]

section

variable {name : String} {aliases : List String} {absence : Absence α} {f : Format α}
  {rest : Fields ts} {key : String} {r : Reading φ}

/-- An entry that the first field takes is read for this field only. -/
lemma gather_split_of_takes (h : Fields.takes name aliases key = true)
    (before after : List (String × Tree φ)) :
    (Fields.cons name aliases absence f rest).gather r (before ++ (key, t) :: after) =
      (f.single absence r (before.filter (Fields.takes name aliases ·.1) ++
        (key, t) :: after.filter (Fields.takes name aliases ·.1))).bind fun a =>
        (rest.gather r (before.filter (!Fields.takes name aliases ·.1) ++
          after.filter (!Fields.takes name aliases ·.1))).map (Tuple.cons a) := by
  rw [Fields.gather, filter_split_of_pos h,
    filter_split_of_neg (p := (!Fields.takes name aliases ·)) (congrArg not h)]

/-- An entry that it does not take is read for the other fields. -/
lemma gather_split_of_not_takes (h : Fields.takes name aliases key = false)
    (before after : List (String × Tree φ)) :
    (Fields.cons name aliases absence f rest).gather r (before ++ (key, t) :: after) =
      (f.single absence r (before.filter (Fields.takes name aliases ·.1) ++
        after.filter (Fields.takes name aliases ·.1))).bind fun a =>
        (rest.gather r (before.filter (!Fields.takes name aliases ·.1) ++
          (key, t) :: after.filter (!Fields.takes name aliases ·.1))).map (Tuple.cons a) := by
  rw [Fields.gather, filter_split_of_neg h,
    filter_split_of_pos (p := (!Fields.takes name aliases ·)) (congrArg not h)]

end

/-- An entry that no field takes makes no difference. -/
lemma gather_split_of_not_owns : {ts : List Type} → {fields : Fields ts} → {key : String} →
    fields.owns key = false → {r : Reading φ} → {t : Tree φ} →
    (before after : List (String × Tree φ)) →
    fields.gather r (before ++ (key, t) :: after) = fields.gather r (before ++ after)
  | _, .nil, _, _, _, _, _, _ => rfl
  | _, .cons name aliases absence f rest, key, h, r, t, before, after => by
    rw [Fields.owns, Bool.or_eq_false_iff] at h
    rw [gather_split_of_not_takes h.1, gather_split_of_not_owns h.2, Fields.gather,
      List.filter_append, List.filter_append]

/-! ### Values of entries -/

/-- The keys of entries are those of their values. -/
lemma keys_valueEntries {es : List (String × Tree φ)} {js : List (String × Json)}
    (h : Tree.valueEntries es = .ok js) : js.map (·.1) = es.map (·.1) := by
  induction es generalizing js with
  | nil =>
    cases h
    rfl
  | cons e es ih =>
    obtain ⟨key, t⟩ := e
    obtain ⟨j, js', -, hes, rfl⟩ := Tree.valueEntries_cons_iff.1 h
    rw [List.map_cons, List.map_cons, ih hes]

/-! ## Labels -/

/-- The label that a value names, and what stands beside it. -/
def Tree.label? : Tree φ → Option (String × Option (Tree φ))
  | .text s => some (s, none)
  | .map [(label, t)] _ => some (label, some t)
  | _ => none

/-- A map with several entries names no label. -/
lemma label?_of_two_le {es : List (String × Tree φ)} (h : 2 ≤ es.length) (cut : Option (Cut φ)) :
    (Tree.map es cut).label? = none := by
  match es with
  | _ :: _ :: _ => rfl

/-- All readings take the label that a value names.  If it names none, a text may still go on after
a label and its contents, and something is behind them. -/
lemma choice_of_value (r : Reading φ) (ht : t.value = .ok j) :
    (∃ label contents, t.label? = some (label, contents) ∧
      r.choice t = .ok ⟨label, contents, none⟩) ∨
    (t.label? = none ∧ ∀ c, r.choice t = .ok c →
      ∃ t' f, c.contents = some t' ∧ c.behind = some f) := by
  cases t with
  | text s => exact .inl ⟨s, none, rfl, by cases r <;> rfl⟩
  | map es cut =>
    obtain ⟨rfl, -⟩ := Tree.value_map_iff.1 ht
    match es with
    | [] => exact .inr ⟨rfl, by cases r <;> rintro c ⟨⟩⟩
    | [(label, t')] => exact .inl ⟨label, some t', rfl, by cases r <;> rfl⟩
    | (label, t') :: _ :: _ =>
      refine .inr ⟨rfl, fun c hc => ?_⟩
      cases r with
      | text =>
        cases hc
        exact ⟨t', _, rfl, rfl⟩
      | value | buffer => cases hc
  | broken b => cases ht
  | _ => exact .inr ⟨rfl, by cases r <;> rintro c ⟨⟩⟩

/-- The value of a label, beside which nothing but `null` may stand. -/
def LabelTable.pick (table : LabelTable α) (label : String) (contents : Option (Tree φ)) :
    Option α :=
  (KeyMap.lookup label table.labels).bind fun a =>
    contents.elim (some a) fun t => if t.found.toOption = some .null then some a else none

/-- Which label of a table is read. -/
lemma toOption_decode_labels (table : LabelTable α) (r : Reading φ) (ht : t.value = .ok j) :
    ((Format.labels table).decode r t).toOption = t.label?.bind fun c => table.pick c.1 c.2 := by
  rw [decode_labels, LabelTable.decode, toOption_bind]
  obtain ⟨label, contents, hlabel, hchoice⟩ | ⟨hlabel, hchoice⟩ := choice_of_value r ht
  · rw [hlabel, hchoice, toOption_ok, Option.bind_some, Option.bind_some, LabelTable.pick]
    cases KeyMap.lookup label table.labels with
    | none => rfl
    | some a =>
      cases contents with
      | none => rfl
      | some t' => cases t' <;> rfl
  · rw [hlabel]
    cases hc : r.choice t with
    | error e => rfl
    | ok c =>
      obtain ⟨t', f, hcontents, hbehind⟩ := hchoice c hc
      rw [toOption_ok, Option.bind_some, hcontents]
      cases KeyMap.lookup c.label table.labels with
      | none => rfl
      | some a =>
        cases t' with
        | null => simp [Choice.finish, hbehind]
        | _ => rfl

/-- The value of the variant with a label, from what stands beside it. -/
def Variants.pick : {α : Type} → Variants α → Reading φ → String → Option (Tree φ) → Option α
  | _, .nil, _, _, _ => none
  | _, .cons label f make _ _ rest, r, named, contents =>
    if named = label then contents.bind fun t => (f.decode r t).toOption.map make
    else rest.pick r named contents

/-- The variant with the label of a choice is read from the contents beside it. -/
lemma toOption_decode_variants : {α : Type} → (variants : Variants α) → (r : Reading φ) →
    (known : List String) → (c : Choice φ) →
    (variants.decode r known c).toOption = variants.pick r c.label c.contents
  | _, .nil, _, _, _ => rfl
  | _, .cons label f make _ _ rest, r, known, c => by
    rw [Variants.decode, Variants.pick, ← toOption_decode_variants rest r known c]
    split
    · cases c.contents with
      | none => rfl
      | some t => exact toOption_map ..
    · rfl

/-- Which variant is read. -/
lemma toOption_decode_tagged (variants : Variants α) (r : Reading φ) (ht : t.value = .ok j) :
    ((Format.tagged variants).decode r t).toOption = t.label?.bind fun c =>
      variants.pick r c.1 c.2 := by
  rw [decode_tagged]
  obtain ⟨label, contents, hlabel, hchoice⟩ | ⟨hlabel, hchoice⟩ := choice_of_value r ht
  · have hpick := toOption_decode_variants variants r variants.labels ⟨label, contents, none⟩
    rw [hlabel, hchoice, Option.bind_some, ← hpick]
    simp [Choice.finish]
  · rw [hlabel]
    cases hc : r.choice t with
    | error e => rfl
    | ok c =>
      obtain ⟨t', f, hcontents, hbehind⟩ := hchoice c hc
      simp [Choice.finish, hbehind]

/-- A label alone is no value of a variant. -/
lemma pick_none : {α : Type} → (variants : Variants α) → (r : Reading φ) → (named : String) →
    variants.pick r named none = none
  | _, .nil, _, _ => rfl
  | _, .cons label f make _ _ rest, r, named => by
    rw [Variants.pick, pick_none rest r named]
    exact ite_self none

end CardRules
