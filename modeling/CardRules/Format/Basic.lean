import CardRules.Json.Tree

/-!
# Formats

A `Format α` says how values of type `α` are written as JSON.  It is data, so that one decoder, one
encoder and one set of laws serve all formats of the library.

A record has `Fields`.  It is written as a map from the keys of its fields, and may be given as a
sequence of its fields in their order.  A `flat` record has its own fields and those of another
record in one map.  A closed type without contents is written by `labels`; the values of a `tagged`
type are maps with one key, the label of a variant.
-/

namespace CardRules

/-! ### Tuples -/

/-- One value of each type. -/
def Tuple : List Type → Type
  | [] => Unit
  | α :: ts => α × Tuple ts

/-- At most one value of each type. -/
def Slots : List Type → Type
  | [] => Unit
  | α :: ts => Option α × Slots ts

/-- No value of any type. -/
def Slots.empty : (ts : List Type) → Slots ts
  | [] => ()
  | _ :: ts => (none, Slots.empty ts)

/-! ### Leaves -/

/-- A range of integers. -/
structure IntegerKind (α : Type) where
  /-- What integers of the range are called in issues. -/
  name : String
  ofInt? : Int → Option α
  toInt : α → Int
  ofInt?_toInt : ∀ a, ofInt? (toInt a) = some a

/-- The labels of a closed type. -/
structure LabelTable (α : Type) where
  labels : List (String × α)
  label : α → String
  lookup_label : ∀ a, KeyMap.lookup (label a) labels = some a

/-- What happens when a field is not there. -/
inductive Absence (α : Type) where
  /-- The field has to be there. -/
  | required
  /-- The key may be missing from a map, but a sequence has to have the item. -/
  | tolerated (a : α)
  /-- The field may be missing from a map and from the end of a sequence. -/
  | defaulted (a : α)

/-! ### Formats -/

mutual

/-- How values of a type are written. -/
inductive Format : Type → Type 1 where
  /-- An integer of a range. -/
  | integer {α : Type} (kind : IntegerKind α) : Format α
  /-- A text. -/
  | text : Format String
  /-- `null`, or a value. -/
  | nullable {α : Type} (f : Format α) : Format (Option α)
  /-- A sequence of values. -/
  | list {α : Type} (f : Format α) : Format (List α)
  /-- A map from any keys to values. -/
  | dictionary {α : Type} (f : Format α) : Format (KeyMap α)
  /-- Any value. -/
  | anything : Format Json
  /-- The first of two formats that accepts the value. -/
  | either {α β : Type} (name : String) (f : Format α) (g : Format β) : Format (α ⊕ β)
  /-- One label of a table. -/
  | labels {α : Type} (table : LabelTable α) : Format α
  /-- One of several variants, as a map from its label to its contents. -/
  | tagged {α : Type} (variants : Variants α) : Format α
  /-- A record. -/
  | record {ts : List Type} (name : String) (fields : Fields ts) : Format (Tuple ts)
  /-- The fields of a variant, given as a map.  A value with a sequence in place of the map is not
  accepted.  In a text a sequence could stand for the fields, which is left out here: nothing writes
  one, and the files that are loaded hold no variants with fields. -/
  | body {ts : List Type} (fields : Fields ts) : Format (Tuple ts)
  /-- A record that shares its map with the fields of another one; it is never given as a
  sequence. -/
  | flat {ts us : List Type} (name : String) (own : Fields ts) (inner : Fields us) :
      Format (Tuple ts × Tuple us)
  /-- The form of one type for another type. -/
  | via {α β : Type} (f : Format α) (make : α → β) (parts : β → α)
      (make_parts : ∀ b, make (parts b) = b) : Format β

/-- The fields of a record. -/
inductive Fields : List Type → Type 1 where
  | nil : Fields []
  | cons {α : Type} {ts : List Type} (key : String) (aliases : List String)
      (absence : Absence α) (f : Format α) (rest : Fields ts) : Fields (α :: ts)

/-- The variants of a tagged type; `get?` gives the contents of the values of a variant. -/
inductive Variants : Type → Type 1 where
  | nil {α : Type} : Variants α
  | cons {α β : Type} (label : String) (f : Format β) (make : β → α) (get? : α → Option β)
      (make_get? : ∀ a b, get? a = some b → make b = a) (rest : Variants α) : Variants α

end

namespace Fields

/-- The number of fields. -/
def count : {ts : List Type} → Fields ts → Nat
  | _, .nil => 0
  | _, .cons _ _ _ _ rest => rest.count + 1

/-- A field that has to be there. -/
def need {α : Type} {ts : List Type} (key : String) (f : Format α) (rest : Fields ts) :
    Fields (α :: ts) :=
  .cons key [] .required f rest

/-- A field that may be missing. -/
def opt {α : Type} {ts : List Type} (key : String) (a : α) (f : Format α) (rest : Fields ts) :
    Fields (α :: ts) :=
  .cons key [] (.defaulted a) f rest

/-- A nullable field that may be missing from a map, but not from a sequence. -/
def lax {α : Type} {ts : List Type} (key : String) (f : Format α) (rest : Fields ts) :
    Fields (Option α :: ts) :=
  .cons key [] (.tolerated none) (.nullable f) rest

/-- A nullable field that may be missing. -/
def maybe {α : Type} {ts : List Type} (key : String) (f : Format α) (rest : Fields ts) :
    Fields (Option α :: ts) :=
  opt key none (.nullable f) rest

end Fields

/-- The labels of variants. -/
def Variants.labels : {α : Type} → Variants α → List String
  | _, .nil => []
  | _, .cons label _ _ _ _ rest => label :: rest.labels

/-- What the contents of a variant should have been when there are none. -/
def Format.contentsName : {α : Type} → Format α → String
  | _, .body _ => "struct variant"
  | _, _ => "newtype variant"

/-! ### Encoding -/

mutual

/-- Writes a value. -/
def Format.encode : {α : Type} → Format α → α → Json
  | _, .integer kind, a => .int (kind.toInt a)
  | _, .text, s => .text s
  | _, .nullable _, none => .null
  | _, .nullable f, some a => f.encode a
  | _, .list f, as => .ofItems (as.map f.encode)
  | _, .dictionary f, m => .ofEntries (m.entries.map fun e => (e.1, f.encode e.2))
  | _, .anything, j => j
  | _, .either _ f _, .inl a => f.encode a
  | _, .either _ _ g, .inr b => g.encode b
  | _, .labels table, a => .text (table.label a)
  | _, .tagged variants, a => variants.encode a
  | _, .record _ fields, t => .ofEntries (fields.encode t)
  | _, .body fields, t => .ofEntries (fields.encode t)
  | _, .flat _ own inner, (t, u) => .ofEntries (own.encode t ++ inner.encode u)
  | _, .via f _ parts _, b => f.encode (parts b)

/-- Writes the fields of a record, all of them. -/
def Fields.encode : {ts : List Type} → Fields ts → Tuple ts → List (String × Json)
  | _, .nil, _ => []
  | _, .cons key _ _ f rest, (a, t) => (key, f.encode a) :: rest.encode t

/-- Writes a value of the first variant that has it. -/
def Variants.encode : {α : Type} → Variants α → α → Json
  | _, .nil, _ => .null
  | _, .cons label f _ get? _ rest, a =>
    match get? a with
    | some b => .ofEntries [(label, f.encode b)]
    | none => rest.encode a

end

end CardRules
