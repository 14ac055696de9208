import CardRules.Proofs.Format.Decode
import CardRules.Proofs.Json.Value
import CardRules.Proofs.Success

/-!
# What a record is read as

The decoder goes over the entries of a map one by one.  What comes of it can be said field by field:
each field has at most one entry under its keys and is read from it, or takes what stands for a
field that is not there (`Fields.gather`).  The entries of no field are left over.

`decode_record_map`, `decode_body_map` and `decode_flat_map` say this of the three kinds of records
that are written as maps, and `decode_record_sequence` of records that are given as a sequence.
-/

namespace CardRules

/-! ## Tuples and slots -/

/-- A tuple with one more component in front. -/
def Tuple.cons {α : Type} {ts : List Type} (a : α) (t : Tuple ts) : Tuple (α :: ts) := (a, t)

/-- Slots with one more in front. -/
def Slots.cons {α : Type} {ts : List Type} (slot : Option α) (slots : Slots ts) :
    Slots (α :: ts) := (slot, slots)

/-! ## Fields and their entries -/

/-- The value that stands for a field that is not in a map. -/
def Absence.value? {α : Type} : Absence α → Option α
  | .required => none
  | .tolerated a => some a
  | .defaulted a => some a

/-- The value that stands for a field that is not in a sequence. -/
def Absence.itemValue? {α : Type} : Absence α → Option α
  | .defaulted a => some a
  | _ => none

namespace Fields

/-- Whether a field with a name and aliases takes the entries of a key. -/
def takes (name : String) (aliases : List String) (key : String) : Bool :=
  decide (key = name ∨ key ∈ aliases)

/-- Whether one of the fields takes the entries of a key. -/
def owns : {ts : List Type} → Fields ts → String → Bool
  | _, .nil, _ => false
  | _, .cons name aliases _ _ rest, key => takes name aliases key || rest.owns key

end Fields

variable {φ : Type}

/-- The value of a field, from its entries: there may be no more than one. -/
def Format.single {α : Type} (f : Format α) (absence : Absence α) (r : Reading φ) :
    List (String × Tree φ) → Option α
  | [] => absence.value?
  | [e] => (f.decode r e.2).toOption
  | _ => none

/-- The values of all fields of a record, from the entries of a map. -/
def Fields.gather : {ts : List Type} → Fields ts → Reading φ → List (String × Tree φ) →
    Option (Tuple ts)
  | _, .nil, _, _ => some ()
  | _, .cons name aliases absence f rest, r, es =>
    (f.single absence r (es.filter (takes name aliases ·.1))).bind fun a =>
      (rest.gather r (es.filter (!takes name aliases ·.1))).map (Tuple.cons a)

/-- The values of all fields of a record, from the items of a sequence. -/
def Fields.inTurn : {ts : List Type} → Fields ts → Reading φ → List (Tree φ) → Option (Tuple ts)
  | _, .nil, _, [] => some ()
  | _, .nil, _, _ :: _ => none
  | _, .cons _ _ _ f rest, r, t :: items =>
    (f.decode r t).toOption.bind fun a => (rest.inTurn r items).map (Tuple.cons a)
  | _, .cons _ _ absence _ rest, r, [] =>
    absence.itemValue?.bind fun a => (rest.inTurn r []).map (Tuple.cons a)

/-! ## Sorting entries -/

/-- A slot after the entries of its field were stored in it. -/
def Format.fill {α : Type} (f : Format α) (r : Reading φ) :
    Option α → List (String × Tree φ) → Option (Option α)
  | slot, [] => some slot
  | none, e :: rest => (f.decode r e.2).toOption.bind fun a => f.fill r (some a) rest
  | some _, _ :: _ => none

/-- A field has the value in its slot, or the one that stands for a field that is not there. -/
lemma Format.single_eq {α : Type} (f : Format α) (absence : Absence α) (r : Reading φ)
    (es : List (String × Tree φ)) :
    f.single absence r es = (f.fill r none es).bind fun slot => slot.or absence.value? := by
  match es with
  | [] => rfl
  | [e] => cases h : (f.decode r e.2).toOption <;> simp [Format.single, Format.fill, h]
  | e :: e' :: rest => cases h : (f.decode r e.2).toOption <;> simp [Format.single, Format.fill, h]

/-- Sorting the first entry, and then the others. -/
lemma toOption_sortEntries_cons {σ : Type}
    (store : String → Tree φ → σ → Except (DecodeError φ) (Option σ)) (key : String) (t : Tree φ)
    (rest : List (String × Tree φ)) (s : σ) :
    (sortEntries store ((key, t) :: rest) s).toOption =
      (store key t s).toOption.bind fun
        | some s => (sortEntries store rest s).toOption
        | none => t.value.toOption.bind fun j =>
          (sortEntries store rest s).toOption.map fun x => (x.1, (key, j) :: x.2) := by
  rw [sortEntries, toOption_bind]
  congr 1
  funext stored
  cases stored with
  | some s => rfl
  | none => simp [Option.map_eq_bind]

variable {α : Type} {ts us : List Type} {es : List (String × Tree φ)} {js : List (String × Json)}

/-- Without fields all entries are left over. -/
lemma sortEntries_nil (r : Reading φ) (slots : Slots []) (h : Tree.valueEntries es = .ok js) :
    (sortEntries (Fields.nil.store r) es slots).toOption = some (slots, js) := by
  induction es generalizing js with
  | nil =>
    cases h
    rfl
  | cons e rest ih =>
    obtain ⟨key, t⟩ := e
    obtain ⟨j, js', ht, hrest, rfl⟩ := Tree.valueEntries_cons_iff.1 h
    rw [toOption_sortEntries_cons, Fields.store, ih hrest, ht]
    rfl

section

variable (name : String) (aliases : List String) (absence : Absence α) (f : Format α)
  (rest : Fields ts) (r : Reading φ)

/-- What a record does with an entry. -/
lemma store_cons (key : String) (t : Tree φ) (slot : Option α) (slots : Slots ts) :
    (Fields.cons name aliases absence f rest).store r key t (.cons slot slots) =
      if key = name ∨ key ∈ aliases then
        match slot with
        | some _ => .error (.data (.repeatedField name))
        | none => do
          let a ← f.decode r t
          return some (.cons (some a) slots)
      else do
        let stored ← rest.store r key t slots
        return stored.map (.cons slot) :=
  rfl

/-- A field takes an entry of its own if its slot is empty. -/
lemma store_of_takes {key : String} (h : Fields.takes name aliases key = true) (t : Tree φ)
    (slot : Option α) (slots : Slots ts) :
    ((Fields.cons name aliases absence f rest).store r key t (.cons slot slots)).toOption =
      match slot with
      | some _ => none
      | none => (f.decode r t).toOption.map fun a => some (.cons (some a) slots) := by
  rw [store_cons, if_pos (of_decide_eq_true h)]
  cases slot with
  | some a => rfl
  | none => exact toOption_map ..

/-- An entry that the first field does not take is for the other fields. -/
lemma store_of_not_takes {key : String} (h : Fields.takes name aliases key = false) (t : Tree φ)
    (slot : Option α) (slots : Slots ts) :
    ((Fields.cons name aliases absence f rest).store r key t (.cons slot slots)).toOption =
      (rest.store r key t slots).toOption.map fun stored => stored.map (.cons slot) := by
  rw [store_cons, if_neg (of_decide_eq_false h)]
  exact toOption_map ..

/-- The first field takes its entries, and the others sort those that it does not take. -/
lemma sortEntries_cons (es : List (String × Tree φ)) (slot : Option α) (slots : Slots ts) :
    (sortEntries ((Fields.cons name aliases absence f rest).store r) es
        (.cons slot slots)).toOption =
      (f.fill r slot (es.filter (Fields.takes name aliases ·.1))).bind fun slot =>
        (sortEntries (rest.store r) (es.filter (!Fields.takes name aliases ·.1))
          slots).toOption.map fun x => (.cons slot x.1, x.2) := by
  induction es generalizing slot slots with
  | nil => rfl
  | cons e es ih =>
    obtain ⟨key, t⟩ := e
    rw [toOption_sortEntries_cons, List.filter_cons, List.filter_cons]
    cases htakes : Fields.takes name aliases key with
    | true =>
      rw [store_of_takes _ _ _ _ _ _ htakes]
      cases slot with
      | some a => rfl
      | none =>
        simp only [if_true, Bool.not_true, Bool.false_eq_true, if_false, Format.fill]
        cases f.decode r t with
        | error e => rfl
        | ok a => exact ih (some a) slots
    | false =>
      rw [store_of_not_takes _ _ _ _ _ _ htakes]
      simp only [Bool.false_eq_true, if_false, Bool.not_false, if_true]
      rw [toOption_sortEntries_cons]
      cases rest.store r key t slots with
      | error e => simp
      | ok stored =>
        cases stored with
        | some slots' => exact ih slot slots'
        | none =>
          -- Both sides still have to read the entry, store the first field and sort the others.
          simp only [ih, toOption_ok, Option.map_some, Option.map_none, Option.bind_some]
          cases t.value <;> cases f.fill r slot _ <;> cases sortEntries (rest.store r) _ slots <;>
            rfl

/-- The first field has the value of its slot, or the one that stands for a missing field. -/
lemma finish_cons (slot : Option α) (slots : Slots ts) :
    ((Fields.cons name aliases absence f rest).finish (.cons slot slots)).toOption =
      (slot.or absence.value?).bind fun a => (rest.finish slots).toOption.map (Tuple.cons a) := by
  change (Fields.finish (.cons name aliases absence f rest) (slot, slots)).toOption = _
  cases slot <;> cases absence <;> cases h : rest.finish slots <;> simp [Fields.finish, h] <;> rfl

end

/-- Sorting the entries of a map fills the fields of a record and leaves the entries of no field. -/
theorem sortEntries_gather : {ts : List Type} → (fields : Fields ts) → (r : Reading φ) →
    {es : List (String × Tree φ)} → {js : List (String × Json)} → Tree.valueEntries es = .ok js →
    ((sortEntries (fields.store r) es (Slots.empty ts)).toOption.bind fun x =>
        (fields.finish x.1).toOption.map (·, x.2)) =
      (fields.gather r es).map (·, js.filter (!fields.owns ·.1))
  | _, .nil, r, es, js, h => by
    have hothers : js.filter (!Fields.nil.owns ·.1) = js := List.filter_eq_self.2 fun _ _ => rfl
    rw [sortEntries_nil r _ h, hothers]
    rfl
  | α :: ts, .cons name aliases absence f rest, r, es, js, h => by
    have hrest := sortEntries_gather rest r
      (Tree.valueEntries_filter (!Fields.takes name aliases ·) h)
    have hothers : (js.filter (!Fields.takes name aliases ·.1)).filter (!rest.owns ·.1) =
        js.filter (!(Fields.cons name aliases absence f rest).owns ·.1) := by
      rw [List.filter_filter]
      refine List.filter_congr fun e _ => ?_
      rw [Fields.owns, Bool.not_or, Bool.and_comm]
    have hslots : Slots.empty (α :: ts) = Slots.cons none (Slots.empty ts) := rfl
    rw [hothers] at hrest
    rw [hslots, sortEntries_cons, Fields.gather, Format.single_eq]
    cases f.fill r none _ with
    | none => rfl
    | some slot =>
      simp only [Option.bind_some, Option.bind_map, Function.comp_def, finish_cons]
      cases slot.or absence.value? with
      | none => simp
      | some a =>
        have hfirst := congrArg (Option.map fun x => (Tuple.cons a x.1, x.2)) hrest
        simpa only [Option.map_bind, Option.map_map, Function.comp_def, Option.bind_some]
          using hfirst

/-! ## Storing entries -/

/-- Whether the entries of no field can be skipped. -/
def Fields.skipsOthers (fields : Fields ts) (es : List (String × Tree φ)) : Bool :=
  es.all fun e => fields.owns e.1 || e.2.skip.isNone

/-- Storing the first entry, and then the others. -/
lemma toOption_storeEntries_cons {σ : Type}
    (store : String → Tree φ → σ → Except (DecodeError φ) (Option σ)) (key : String) (t : Tree φ)
    (rest : List (String × Tree φ)) (s : σ) :
    (storeEntries store ((key, t) :: rest) s).toOption =
      (store key t s).toOption.bind fun
        | some s => (storeEntries store rest s).toOption
        | none => if t.skip.isNone then (storeEntries store rest s).toOption else none := by
  rw [storeEntries, toOption_bind]
  congr 1
  funext stored
  cases stored with
  | some s => rfl
  | none => cases t.skip <;> rfl

/-- Without fields all entries have to be skipped. -/
lemma storeEntries_nil (r : Reading φ) (es : List (String × Tree φ)) (slots : Slots []) :
    (storeEntries (Fields.nil.store r) es slots).toOption =
      if Fields.nil.skipsOthers es then some slots else none := by
  induction es with
  | nil => rfl
  | cons e rest ih =>
    obtain ⟨key, t⟩ := e
    have hskips : Fields.nil.skipsOthers ((key, t) :: rest) =
        (t.skip.isNone && Fields.nil.skipsOthers rest) := by
      rw [Fields.skipsOthers, List.all_cons, Fields.owns, Bool.false_or]
      rfl
    rw [toOption_storeEntries_cons, hskips, Fields.store, toOption_ok, Option.bind_some, ih]
    cases t.skip.isNone <;> rfl

/-- The first field takes its entries, and the others store those that it does not take. -/
lemma storeEntries_cons (name : String) (aliases : List String) (absence : Absence α)
    (f : Format α) (rest : Fields ts) (r : Reading φ) (es : List (String × Tree φ))
    (slot : Option α) (slots : Slots ts) :
    (storeEntries ((Fields.cons name aliases absence f rest).store r) es
        (.cons slot slots)).toOption =
      (f.fill r slot (es.filter (Fields.takes name aliases ·.1))).bind fun slot =>
        (storeEntries (rest.store r) (es.filter (!Fields.takes name aliases ·.1))
          slots).toOption.map (Slots.cons slot) := by
  induction es generalizing slot slots with
  | nil => rfl
  | cons e es ih =>
    obtain ⟨key, t⟩ := e
    rw [toOption_storeEntries_cons, List.filter_cons, List.filter_cons]
    cases htakes : Fields.takes name aliases key with
    | true =>
      rw [store_of_takes _ _ _ _ _ _ htakes]
      cases slot with
      | some a => rfl
      | none =>
        simp only [if_true, Bool.not_true, Bool.false_eq_true, if_false, Format.fill]
        cases f.decode r t with
        | error e => rfl
        | ok a => exact ih (some a) slots
    | false =>
      rw [store_of_not_takes _ _ _ _ _ _ htakes]
      simp only [Bool.false_eq_true, if_false, Bool.not_false, if_true]
      rw [toOption_storeEntries_cons]
      cases rest.store r key t slots with
      | error e => simp
      | ok stored =>
        cases stored with
        | some slots' => exact ih slot slots'
        | none =>
          -- The entry is skipped on both sides, or on neither.
          simp only [ih, toOption_ok, Option.map_some, Option.map_none, Option.bind_some]
          cases t.skip.isNone <;> simp

/-- Storing the entries of a map fills the fields of a record, and the entries of no field are
skipped. -/
theorem storeEntries_gather : {ts : List Type} → (fields : Fields ts) → (r : Reading φ) →
    (es : List (String × Tree φ)) →
    ((storeEntries (fields.store r) es (Slots.empty ts)).toOption.bind fun slots =>
        (fields.finish slots).toOption) =
      if fields.skipsOthers es then fields.gather r es else none
  | _, .nil, r, es => by
    rw [storeEntries_nil]
    split <;> rfl
  | α :: ts, .cons name aliases absence f rest, r, es => by
    have hrest := storeEntries_gather rest r (es.filter (!Fields.takes name aliases ·.1))
    have hskips : (Fields.cons name aliases absence f rest).skipsOthers es =
        rest.skipsOthers (es.filter (!Fields.takes name aliases ·.1)) := by
      rw [Fields.skipsOthers, Fields.skipsOthers, List.all_filter]
      simp only [Fields.owns, Bool.not_not, Bool.or_assoc]
    have hslots : Slots.empty (α :: ts) = Slots.cons none (Slots.empty ts) := rfl
    rw [hslots, storeEntries_cons, hskips, Fields.gather, Format.single_eq]
    cases f.fill r none _ with
    | none => simp
    | some slot =>
      simp only [Option.bind_some, Option.bind_map, Function.comp_def, finish_cons]
      cases slot.or absence.value? with
      | none => simp
      | some a =>
        have hfirst := congrArg (Option.map (Tuple.cons a)) hrest
        rw [Option.map_bind] at hfirst
        simp only [Option.bind_some]
        refine hfirst.trans ?_
        split <;> rfl

/-- Entries with values can be skipped. -/
lemma skipsOthers_of_value (fields : Fields ts) (h : Tree.valueEntries es = .ok js) :
    fields.skipsOthers es := by
  induction es generalizing js with
  | nil => rfl
  | cons e rest ih =>
    obtain ⟨key, t⟩ := e
    obtain ⟨j, js', ht, hrest, -⟩ := Tree.valueEntries_cons_iff.1 h
    have hskip : t.skip = none := Tree.skip_of_value t ht
    have hothers := ih hrest
    rw [Fields.skipsOthers] at hothers ⊢
    rw [List.all_cons, hothers, hskip, Option.isNone_none, Bool.or_true, Bool.and_true]

/-! ## The three kinds of records -/

/-- Nothing is missing at the end of what does not break off. -/
@[simp] lemma toOption_atEnd_none : (atEnd (none : Option (Cut φ))).toOption = some () := rfl

/-- An issue of the data is still an issue. -/
@[simp] lemma toOption_orIssue (x : Except Issue α) :
    (orIssue x : Except (DecodeError φ) α).toOption = x.toOption :=
  toOption_mapError ..

/-- An error on a value is still an error. -/
@[simp] lemma toOption_orValueError (x : Except (DecodeError Empty) α) :
    (orValueError x : Except (DecodeError φ) α).toOption = x.toOption :=
  toOption_mapError ..

/-- A map is read as a record field by field. -/
theorem toOption_decode_record_map (name : String) (fields : Fields ts) (r : Reading φ)
    (es : List (String × Tree φ)) :
    ((Format.record name fields).decode r (.map es none)).toOption =
      if fields.skipsOthers es then fields.gather r es else none := by
  rw [← storeEntries_gather fields r es, decode_record_of_map]
  simp

/-- The map of a value is read as a record field by field. -/
theorem decode_record_map (name : String) (fields : Fields ts) (r : Reading φ)
    (h : Tree.valueEntries es = .ok js) :
    ((Format.record name fields).decode r (.map es none)).toOption = fields.gather r es := by
  rw [toOption_decode_record_map, if_pos (skipsOthers_of_value fields h)]

/-- A map is read as the contents of a variant field by field. -/
theorem decode_body_map (fields : Fields ts) (r : Reading φ) (h : Tree.valueEntries es = .ok js) :
    ((Format.body fields).decode r (.map es none)).toOption = fields.gather r es := by
  have hstore := storeEntries_gather fields r es
  rw [if_pos (skipsOthers_of_value fields h)] at hstore
  rw [← hstore, decode_body_of_map]
  simp

/-- A map that two records share is read by the first one, and what is left over by the other. -/
theorem decode_flat_map (name : String) (own : Fields ts) (inner : Fields us) (r : Reading φ)
    (h : Tree.valueEntries es = .ok js) :
    ((Format.flat name own inner).decode r (.map es none)).toOption =
      (own.gather r es).bind fun t =>
        (inner.gather .buffer (js.filter (!own.owns ·.1))).map (t, ·) := by
  have hinner (t : Tuple ts) (others : List (String × Json)) :
      ((storeEntries (inner.store .buffer) others (Slots.empty us)).toOption.bind fun slots =>
        (inner.finish slots).toOption.bind fun u => some (t, u)) =
          (inner.gather .buffer others).map (t, ·) := by
    have hskips := skipsOthers_of_value inner (Tree.valueEntries_json others)
    have hstore := storeEntries_gather inner .buffer others
    rw [if_pos hskips] at hstore
    rw [← hstore, Option.map_bind]
    simp only [Option.map_eq_bind, Function.comp_def]
  have hsort := congrArg
    (Option.bind · fun x : Tuple ts × List (String × Json) =>
      (inner.gather .buffer x.2).map (x.1, ·))
    (sortEntries_gather own r h)
  rw [decode_flat_of_map]
  simpa only [toOption_bind, toOption_pure, toOption_atEnd_none, toOption_orIssue,
    toOption_orValueError, hinner, Option.bind_assoc, Option.bind_map, Function.comp_def,
    Option.bind_some] using hsort

/-- The items of a sequence are taken by the fields in their order, and none may be left. -/
theorem inOrder_inTurn : {ts : List Type} → (fields : Fields ts) → (r : Reading φ) →
    (wanted : String) → (index taken : Nat) → (items : List (Tree φ)) →
    ((fields.inOrder r wanted index items none).toOption.bind fun x =>
        (r.close taken x.2 none).toOption.map fun _ => x.1) = fields.inTurn r items
  | _, .nil, r, _, _, taken, [] => by cases r <;> rfl
  | _, .nil, r, _, _, taken, _ :: _ => by cases r <;> rfl
  | _, .cons _ _ _ f rest, r, wanted, index, taken, t :: items => by
    rw [Fields.inOrder, Fields.inTurn, ← inOrder_inTurn rest r wanted (index + 1) taken items]
    cases f.decode r t with
    | error e => rfl
    | ok a =>
      cases rest.inOrder r wanted (index + 1) items none with
      | error e => rfl
      | ok x =>
        exact (Option.map_map (Tuple.cons a) (fun _ => x.1) (r.close taken x.2 none).toOption).symm
  | _, .cons _ _ absence f rest, r, wanted, index, taken, [] => by
    rw [Fields.inTurn, ← inOrder_inTurn rest r wanted (index + 1) taken []]
    cases absence with
    | required => rfl
    | tolerated a => rfl
    | defaulted a =>
      rw [Fields.inOrder]
      cases rest.inOrder r wanted (index + 1) [] none with
      | error e => rfl
      | ok x =>
        exact (Option.map_map (Tuple.cons a) (fun _ => x.1) (r.close taken x.2 none).toOption).symm

/-- A sequence is read as a record field by field. -/
theorem decode_record_sequence (name : String) (fields : Fields ts) (r : Reading φ)
    (items : List (Tree φ)) :
    ((Format.record name fields).decode r (.sequence items none)).toOption =
      fields.inTurn r items := by
  rw [← inOrder_inTurn fields r ("struct " ++ name ++ " with " ++ elements fields.count) 0
    fields.count items, decode_record_of_sequence]
  simp

end CardRules
