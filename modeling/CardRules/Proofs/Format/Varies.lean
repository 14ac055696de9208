import CardRules.Proofs.Format.Replace
import CardRules.Proofs.Format.Value

/-!
# Changes to a value that make no difference

The entries of a map that is read as a record may be put in another order, entries that no field
takes may be added, and a field that has its default may be left out or written out.
`Format.Varies` relates two values if one is got from the other by such changes, at any depth that
the format leads to.  They are accepted or rejected alike, and read alike
(`Format.Varies.ofJson?_eq`).

What is written for a default is blank: an empty text, list or map, zero or `null`.  That every
default is what is read of the blank value has to be known of the format (`Format.BlankDefaults`).

There are no changes inside dictionaries, whose keys mean something by themselves.
-/

namespace CardRules

/-! ## Fields of a format -/

/-- A field of a record: its keys, what happens when it is not there, and its format. -/
structure Field (α : Type) where
  spellings : List String
  absence : Absence α
  format : Format α

/-- The field that takes the entries of a key. -/
inductive Fields.FieldAt (key : String) {γ : Type} : {ts : List Type} → Fields ts → Field γ → Prop
  | here {ts : List Type} {name : String} {aliases : List String} {absence : Absence γ}
      {f : Format γ} {rest : Fields ts} : takes name aliases key = true →
      FieldAt key (.cons name aliases absence f rest) ⟨name :: aliases, absence, f⟩
  | there {α : Type} {ts : List Type} {name : String} {aliases : List String} {absence : Absence α}
      {f : Format α} {rest : Fields ts} {field : Field γ} : takes name aliases key = false →
      FieldAt key rest field → FieldAt key (.cons name aliases absence f rest) field

/-- The format of the item with a number in a record that is given as a sequence. -/
inductive Fields.ItemAt {γ : Type} (g : Format γ) : {ts : List Type} → Fields ts → Nat → Prop
  | here {ts : List Type} {name : String} {aliases : List String} {absence : Absence γ}
      {rest : Fields ts} : ItemAt g (.cons name aliases absence g rest) 0
  | there {α : Type} {ts : List Type} {name : String} {aliases : List String} {absence : Absence α}
      {f : Format α} {rest : Fields ts} {number : Nat} : ItemAt g rest number →
      ItemAt g (.cons name aliases absence f rest) (number + 1)

/-- The field of a format that takes the entries of a key.  Of two records in one map the first one
takes what it can. -/
inductive Format.FieldAt (key : String) {γ : Type} (field : Field γ) : {α : Type} → Format α → Prop
  | record {ts : List Type} {name : String} {fields : Fields ts} : fields.FieldAt key field →
      FieldAt key field (.record name fields)
  | own {ts us : List Type} {name : String} {own : Fields ts} {inner : Fields us} :
      own.FieldAt key field → FieldAt key field (.flat name own inner)
  | inner {ts us : List Type} {name : String} {own : Fields ts} {inner : Fields us} :
      own.owns key = false → inner.FieldAt key field → FieldAt key field (.flat name own inner)

/-- A format of records, no field of which takes the entries of a key. -/
inductive Format.Ignores (key : String) : {α : Type} → Format α → Prop
  | record {ts : List Type} {name : String} {fields : Fields ts} : fields.owns key = false →
      Ignores key (.record name fields)
  | flat {ts us : List Type} {name : String} {own : Fields ts} {inner : Fields us} :
      own.owns key = false → inner.owns key = false → Ignores key (.flat name own inner)

/-- A format of records that may be given as maps. -/
inductive Format.Keyed : {α : Type} → Format α → Prop
  | record {ts : List Type} {name : String} {fields : Fields ts} : Keyed (.record name fields)
  | flat {ts us : List Type} {name : String} {own : Fields ts} {inner : Fields us} :
      Keyed (.flat name own inner)

/-! ## Changes -/

/-- What may be written for a default: an empty text, list or map, zero or `null`. -/
def Format.blank : {α : Type} → Format α → Json
  | _, .integer _ => .int 0
  | _, .text => .text ""
  | _, .list _ => .ofItems []
  | _, .dictionary _ | _, .record _ _ | _, .body _ | _, .flat _ _ _ => .ofEntries []
  | _, .via f _ _ _ => f.blank
  | _, .nullable _ | _, .anything | _, .either _ _ _ | _, .labels _ | _, .tagged _ => .null

/-- The second value is got from the first one by changes that should make no difference to what a
format reads, made or undone.  In a map, which is read as a record, a changed entry stands in front;
as entries may be permuted, it can be any entry. -/
inductive Format.Varies : {α : Type} → Format α → Json → Json → Prop
  | refl {α : Type} (f : Format α) (j : Json) : Varies f j j
  | symm {α : Type} {f : Format α} {j j' : Json} : Varies f j j' → Varies f j' j
  | trans {α : Type} {f : Format α} {i j k : Json} : Varies f i j → Varies f j k → Varies f i k
  | permuted {α : Type} {f : Format α} {es es' : List (String × Json)} : f.Keyed → es.Perm es' →
      Varies f (.ofEntries es) (.ofEntries es')
  /-- An entry is added that no field takes. -/
  | unknown {α : Type} {f : Format α} {key : String} (v : Json) (es : List (String × Json)) :
      f.Ignores key → Varies f (.ofEntries es) (.ofEntries ((key, v) :: es))
  /-- What stands for a field that is not there is written out. -/
  | written {α γ : Type} {f : Format α} {key : String} {field : Field γ} {a : γ}
      {es : List (String × Json)} : f.FieldAt key field → field.absence.value? = some a →
      (∀ e ∈ es, e.1 ∉ field.spellings) →
      Varies f (.ofEntries es) (.ofEntries ((key, field.format.blank) :: es))
  /-- There is a change inside a field. -/
  | field {α γ : Type} {f : Format α} {key : String} {field : Field γ} {j j' : Json}
      (es : List (String × Json)) : f.FieldAt key field → Varies field.format j j' →
      Varies f (.ofEntries ((key, j) :: es)) (.ofEntries ((key, j') :: es))
  /-- There is a change inside a field of a record that is given as a sequence. -/
  | position {γ : Type} {ts : List Type} {name : String} {fields : Fields ts} {g : Format γ}
      {j j' : Json} (before after : List Json) : fields.ItemAt g before.length → Varies g j j' →
      Varies (.record name fields) (.ofItems (before ++ j :: after))
        (.ofItems (before ++ j' :: after))
  /-- There is a change inside an item of a list. -/
  | item {α : Type} {f : Format α} {j j' : Json} (before after : List Json) : Varies f j j' →
      Varies f.list (.ofItems (before ++ j :: after)) (.ofItems (before ++ j' :: after))
  | nullable {α : Type} {f : Format α} {j j' : Json} : Varies f j j' → Varies f.nullable j j'
  | via {α β : Type} {f : Format α} {make : α → β} {parts : β → α}
      {make_parts : ∀ b, make (parts b) = b} {j j' : Json} : Varies f j j' →
      Varies (.via f make parts make_parts) j j'

mutual

/-- Every default of a format, at any depth, is what is read of the blank value. -/
def Format.BlankDefaults : {α : Type} → Format α → Prop
  | _, .nullable f | _, .list f | _, .dictionary f | _, .via f _ _ _ => f.BlankDefaults
  | _, .record _ fields | _, .body fields => fields.BlankDefaults
  | _, .flat _ own inner => own.BlankDefaults ∧ inner.BlankDefaults
  | _, _ => True

/-- Every default of some fields, at any depth, is what is read of the blank value. -/
def Fields.BlankDefaults : {ts : List Type} → Fields ts → Prop
  | _, .nil => True
  | _, .cons _ _ absence f rest =>
    (∀ a, absence.value? = some a → f.ofJson? f.blank = some a) ∧ f.BlankDefaults ∧
      rest.BlankDefaults

end

variable {α γ : Type} {ts us : List Type}

/-! ## Fields of a record after a change -/

/-- A first entry that the first field takes is read for this field only. -/
lemma gather_cons_of_takes {name : String} {aliases : List String} {key : String}
    (h : Fields.takes name aliases key = true) (absence : Absence α) (f : Format α)
    (rest : Fields ts) (v : Json) (es : List (String × Json)) :
    (Fields.cons name aliases absence f rest).gather .value ((key, v) :: es) =
      (f.single absence .value ((key, v) :: es.filter (Fields.takes name aliases ·.1))).bind
        fun a => (rest.gather .value (es.filter (!Fields.takes name aliases ·.1))).map
          (Tuple.cons a) :=
  gather_split_of_takes h [] es

/-- A first entry that it does not take is read for the other fields. -/
lemma gather_cons_of_not_takes {name : String} {aliases : List String} {key : String}
    (h : Fields.takes name aliases key = false) (absence : Absence α) (f : Format α)
    (rest : Fields ts) (v : Json) (es : List (String × Json)) :
    (Fields.cons name aliases absence f rest).gather .value ((key, v) :: es) =
      (f.single absence .value (es.filter (Fields.takes name aliases ·.1))).bind fun a =>
        (rest.gather .value ((key, v) :: es.filter (!Fields.takes name aliases ·.1))).map
          (Tuple.cons a) :=
  gather_split_of_not_takes h [] es

/-- A first entry that no field takes makes no difference. -/
lemma gather_cons_of_not_owns {fields : Fields ts} {key : String} (h : fields.owns key = false)
    (v : Json) (es : List (String × Json)) :
    fields.gather .value ((key, v) :: es) = fields.gather .value es :=
  gather_split_of_not_owns h [] es

/-- What stands for a field that is not there makes no difference. -/
lemma Fields.FieldAt.gather_cons_default {fields : Fields ts} {key : String} {field : Field γ}
    (h : fields.FieldAt key field) {v : Json} {a : γ} (ha : field.absence.value? = some a)
    (hv : field.format.ofJson? v = some a) {es : List (String × Json)}
    (hes : ∀ e ∈ es, e.1 ∉ field.spellings) :
    fields.gather .value ((key, v) :: es) = fields.gather .value es := by
  induction h generalizing es with
  | @here ts name aliases absence f rest htakes =>
    have hnone : es.filter (Fields.takes name aliases ·.1) = [] := by
      refine List.filter_eq_nil_iff.2 fun e he htakes => hes e he ?_
      exact List.mem_cons.2 (of_decide_eq_true htakes)
    have hsingle : f.single absence .value [(key, v)] = f.single absence .value [] :=
      hv.trans ha.symm
    rw [gather_cons_of_takes htakes, Fields.gather, hnone, hsingle]
  | there htakes _ ih =>
    rw [gather_cons_of_not_takes htakes, ih ha hv fun e he => hes e (List.mem_filter.1 he).1,
      Fields.gather]

/-- A change inside a field, which is read as before, makes no difference. -/
lemma Fields.FieldAt.gather_cons_congr {fields : Fields ts} {key : String} {field : Field γ}
    (h : fields.FieldAt key field) {j j' : Json}
    (hj : field.format.ofJson? j = field.format.ofJson? j') (es : List (String × Json)) :
    fields.gather .value ((key, j) :: es) = fields.gather .value ((key, j') :: es) := by
  induction h generalizing es with
  | @here ts name aliases absence f rest htakes =>
    have hsingle (others : List (String × Json)) : f.single absence .value ((key, j) :: others) =
        f.single absence .value ((key, j') :: others) := by
      cases others with
      | nil => exact hj
      | cons => rfl
    rw [gather_cons_of_takes htakes, gather_cons_of_takes htakes, hsingle]
  | there htakes _ ih =>
    rw [gather_cons_of_not_takes htakes, gather_cons_of_not_takes htakes, ih hj]

/-- A change inside an item, which is read as before, makes no difference to a record that is given
as a sequence. -/
lemma Fields.ItemAt.inTurn_congr {fields : Fields ts} {number : Nat} {g : Format γ}
    (h : fields.ItemAt g number) {j j' : Json} (hj : g.ofJson? j = g.ofJson? j')
    {before : List Json} (hlength : before.length = number) (after : List Json) :
    fields.inTurn .value (before ++ j :: after) = fields.inTurn .value (before ++ j' :: after) := by
  induction h generalizing before with
  | here =>
    obtain rfl := List.length_eq_zero_iff.1 hlength
    exact congrArg (Option.bind · _) hj
  | there _ ih =>
    obtain ⟨i, before, rfl⟩ := List.exists_cons_of_length_eq_add_one hlength
    rw [List.cons_append, List.cons_append, Fields.inTurn, Fields.inTurn,
      ih (Nat.succ.inj hlength)]

/-! ## Formats of records after a change -/

/-- A field of a record takes the entries of its key. -/
lemma Fields.FieldAt.owns {fields : Fields ts} {key : String} {field : Field γ}
    (h : fields.FieldAt key field) : fields.owns key = true := by
  induction h with
  | here htakes => rw [Fields.owns, htakes, Bool.true_or]
  | there _ _ ih => rw [Fields.owns, ih, Bool.or_true]

variable {f : Format α} {key : String} {field : Field γ} {es : List (String × Json)}

/-- Of two records in one map the first one alone sees an entry whose key it takes. -/
lemma ofJson?_flat_cons_of_owns (name : String) {own : Fields ts} (inner : Fields us)
    (hkey : own.owns key = true) (v : Json) (es : List (String × Json)) :
    (Format.flat name own inner).ofJson? (.ofEntries ((key, v) :: es)) =
      (own.gather .value ((key, v) :: es)).bind fun x =>
        (inner.gather .value (es.filter (!own.owns ·.1))).map (x, ·) := by
  refine (ofJson?_flat_map name own inner _).trans ?_
  rw [List.filter_cons_of_neg (by rw [hkey]; decide)]

/-- Of two records in one map the other one alone sees an entry whose key the first one does not
take. -/
lemma ofJson?_flat_cons_of_not_owns (name : String) {own : Fields ts} (inner : Fields us)
    (hkey : own.owns key = false) (v : Json) (es : List (String × Json)) :
    (Format.flat name own inner).ofJson? (.ofEntries ((key, v) :: es)) =
      (own.gather .value es).bind fun x =>
        (inner.gather .value ((key, v) :: es.filter (!own.owns ·.1))).map (x, ·) := by
  refine (ofJson?_flat_map name own inner _).trans ?_
  rw [List.filter_cons_of_pos (by rw [hkey]; decide), gather_cons_of_not_owns hkey]

/-- Records do not see the order of the entries of a map. -/
lemma Format.Keyed.ofJson?_perm (h : f.Keyed) {es' : List (String × Json)} (hes : es.Perm es') :
    f.ofJson? (.ofEntries es) = f.ofJson? (.ofEntries es') := by
  cases h with
  | record => exact ofJson?_record_perm _ _ hes
  | flat => exact ofJson?_flat_perm _ _ _ hes

/-- Records do not see an entry that they ignore. -/
lemma Format.Ignores.ofJson?_cons (h : f.Ignores key) (v : Json) :
    f.ofJson? (.ofEntries ((key, v) :: es)) = f.ofJson? (.ofEntries es) := by
  cases h with
  | record hkey =>
    refine (ofJson?_record_map _ _ _).trans ?_
    rw [gather_cons_of_not_owns hkey]
    exact (ofJson?_record_map _ _ _).symm
  | flat hown hinner =>
    rw [ofJson?_flat_cons_of_not_owns _ _ hown, gather_cons_of_not_owns hinner]
    exact (ofJson?_flat_map _ _ _ _).symm

/-- What stands for a field that is not there makes no difference to a record. -/
lemma Format.FieldAt.ofJson?_cons_default (h : f.FieldAt key field) {v : Json} {a : γ}
    (ha : field.absence.value? = some a) (hv : field.format.ofJson? v = some a)
    (hes : ∀ e ∈ es, e.1 ∉ field.spellings) :
    f.ofJson? (.ofEntries ((key, v) :: es)) = f.ofJson? (.ofEntries es) := by
  cases h with
  | record h =>
    refine (ofJson?_record_map _ _ _).trans ?_
    rw [h.gather_cons_default ha hv hes]
    exact (ofJson?_record_map _ _ _).symm
  | own h =>
    rw [ofJson?_flat_cons_of_owns _ _ h.owns, h.gather_cons_default ha hv hes]
    exact (ofJson?_flat_map _ _ _ _).symm
  | inner hkey h =>
    rw [ofJson?_flat_cons_of_not_owns _ _ hkey,
      h.gather_cons_default ha hv fun e he => hes e (List.mem_filter.1 he).1]
    exact (ofJson?_flat_map _ _ _ _).symm

/-- A change inside a field, which is read as before, makes no difference to the record. -/
lemma Format.FieldAt.ofJson?_cons_congr (h : f.FieldAt key field) {j j' : Json}
    (hj : field.format.ofJson? j = field.format.ofJson? j') :
    f.ofJson? (.ofEntries ((key, j) :: es)) = f.ofJson? (.ofEntries ((key, j') :: es)) := by
  cases h with
  | record h =>
    refine (ofJson?_record_map _ _ _).trans ?_
    rw [h.gather_cons_congr hj]
    exact (ofJson?_record_map _ _ _).symm
  | own h =>
    rw [ofJson?_flat_cons_of_owns _ _ h.owns, ofJson?_flat_cons_of_owns _ _ h.owns,
      h.gather_cons_congr hj]
  | inner hkey h =>
    rw [ofJson?_flat_cons_of_not_owns _ _ hkey, ofJson?_flat_cons_of_not_owns _ _ hkey,
      h.gather_cons_congr hj]

/-! ## Formats with blank defaults -/

/-- What is known of the defaults of a record is known of each of its fields. -/
lemma Fields.FieldAt.blankDefaults {fields : Fields ts} (h : fields.FieldAt key field)
    (hblank : fields.BlankDefaults) :
    (∀ a, field.absence.value? = some a → field.format.ofJson? field.format.blank = some a) ∧
      field.format.BlankDefaults := by
  induction h with
  | here => exact ⟨hblank.1, hblank.2.1⟩
  | there _ _ ih => exact ih hblank.2.2

/-- What is known of the defaults of a record is known of the item of each field. -/
lemma Fields.ItemAt.blankDefaults {fields : Fields ts} {g : Format γ} {number : Nat}
    (h : fields.ItemAt g number) (hblank : fields.BlankDefaults) : g.BlankDefaults := by
  induction h with
  | here => exact hblank.2.1
  | there _ ih => exact ih hblank.2.2

/-- What is known of the defaults of a format of records is known of each of its fields. -/
lemma Format.FieldAt.blankDefaults (h : f.FieldAt key field) (hblank : f.BlankDefaults) :
    (∀ a, field.absence.value? = some a → field.format.ofJson? field.format.blank = some a) ∧
      field.format.BlankDefaults := by
  cases h with
  | record h => exact h.blankDefaults hblank
  | own h => exact h.blankDefaults hblank.1
  | inner _ h => exact h.blankDefaults hblank.2

/-! ## What is read after the changes -/

/-- There are changes inside maps and sequences only. -/
lemma Format.Varies.eq_null_iff {j j' : Json} (h : f.Varies j j') : j = .null ↔ j' = .null := by
  induction h with
  | refl => exact Iff.rfl
  | symm _ ih => exact ih.symm
  | trans _ _ ih ih' => exact ih.trans ih'
  | nullable _ ih | via _ ih => exact ih
  | permuted | unknown | written | field | position | item =>
    exact ⟨fun h => (by cases h), fun h => (by cases h)⟩

/-- **The changes make no difference** to what is read. -/
theorem Format.Varies.ofJson?_eq {j j' : Json} (h : f.Varies j j') (hblank : f.BlankDefaults) :
    f.ofJson? j = f.ofJson? j' := by
  induction h with
  | refl => rfl
  | symm _ ih => exact (ih hblank).symm
  | trans _ _ ih ih' => exact (ih hblank).trans (ih' hblank)
  | permuted hkeyed hperm => exact hkeyed.ofJson?_perm hperm
  | unknown v es hignores => exact (hignores.ofJson?_cons v).symm
  | written hfield hdefault hes =>
    have hread := (hfield.blankDefaults hblank).1 _ hdefault
    exact (hfield.ofJson?_cons_default hdefault hread hes).symm
  | field es hfield _ ih =>
    exact hfield.ofJson?_cons_congr (ih (hfield.blankDefaults hblank).2)
  | position before after hitem _ ih =>
    have hitems := hitem.inTurn_congr (ih (hitem.blankDefaults hblank)) rfl after
    exact (ofJson?_record_sequence _ _ _).trans
      (hitems.trans (ofJson?_record_sequence _ _ _).symm)
  | @item α f j j' before after _ ih =>
    have hitems : (before ++ j :: after).mapM f.ofJson? = (before ++ j' :: after).mapM f.ofJson? := by
      simp only [List.mapM_append, List.mapM_cons, ih hblank]
    exact (ofJson?_list _ _).trans (hitems.trans (ofJson?_list _ _).symm)
  | @nullable α f j j' hvaries ih =>
    by_cases hnull : j = .null
    · rw [hnull, hvaries.eq_null_iff.1 hnull]
    · rw [ofJson?_nullable f hnull, ih hblank,
        ofJson?_nullable f fun hnull' => hnull (hvaries.eq_null_iff.2 hnull')]
  | via _ ih => rw [ofJson?_via, ofJson?_via, ih hblank]

end CardRules
