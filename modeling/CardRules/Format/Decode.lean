import CardRules.Format.Basic
import CardRules.Format.Issue
import CardRules.Json.Reader

/-!
# Decoding

`Format.decode` reads a tree by a format.  It goes over the tree once, in the order of the text, and
reports the first thing that is wrong: an issue of the data, or a fault where the text is broken.
What is missing from a map is reported when the map is at its end.

How much a format tolerates is the same in every reading.  Readings differ in a few reports only:
what is said of a sequence that is too long, and of a label that is neither a text nor a map.
-/

namespace CardRules

/-- What is being read. -/
inductive Reading : Type → Type where
  /-- A text. -/
  | text : Reading Fault
  /-- A value. -/
  | value : Reading Empty
  /-- A value that was put aside until it was clear what it belongs to. -/
  | buffer : Reading Empty

/-! ### Reports -/

/-- The report of a value of another kind than expected. -/
def mismatch {φ α : Type} (t : Tree φ) (expected : String) : Except (DecodeError φ) α :=
  match t.found with
  | .ok found => .error (.data (.wrongKind found expected))
  | .error f => .error (.fault f)

/-- Asks for no more items or entries. -/
def atEnd {φ : Type} (cut : Option (Cut φ)) : Except (DecodeError φ) Unit :=
  (Tree.cutNext cut).mapError .fault

/-- The number of elements, in words. -/
def elements (n : Nat) : String :=
  toString n ++ " element" ++ (if n = 1 then "" else "s")

/-- The end of a sequence from which a number of items has been taken. -/
def Reading.close {φ : Type} (r : Reading φ) (taken : Nat) (items : List (Tree φ))
    (cut : Option (Cut φ)) : Except (DecodeError φ) Unit :=
  match r, items, cut with
  | .text, _ :: _, _ => .error (.fault .malformed)
  | .text, [], some c => .error (.fault c.close)
  | _, [], _ => .ok ()
  | .value, items, _ =>
    .error (.data (.wrongLength (taken + items.length) "fewer elements in array"))
  | .buffer, items, _ =>
    .error (.data (.wrongLength (taken + items.length) (elements taken ++ " in sequence")))

/-! ### Labels -/

/-- A label, the contents beside it if there are any, and the fault met behind them. -/
structure Choice (φ : Type) where
  label : String
  contents : Option (Tree φ)
  behind : Option φ

/-- The label at the start of a value.  Of a value in memory it is known beforehand that there is only
one; in a text another one would be met behind the contents. -/
def Reading.choice {φ : Type} (r : Reading φ) (t : Tree φ) :
    Except (DecodeError φ) (Choice φ) :=
  match r, t with
  | _, .text s => .ok ⟨s, none, none⟩
  | .text, .map ((label, t) :: rest) cut =>
    .ok ⟨label, some t, if rest.isEmpty then cut.map Cut.close else some .malformed⟩
  | .text, .map [] (some c) => .error (.fault c.label)
  | .text, .broken b => .error (.fault b.label)
  | .text, _ => .error (.fault .malformed)
  | _, .map [(label, t)] _ => .ok ⟨label, some t, none⟩
  | _, .map _ _ => .error (.data .notOneLabel)
  | _, t => mismatch t "string or map"

/-- Nothing may stand behind the contents of a choice. -/
def Choice.finish {φ : Type} (c : Choice φ) : Except (DecodeError φ) Unit :=
  match c.behind with
  | some f => .error (.fault f)
  | none => .ok ()

/-- A label of a table, which has no contents but `null`. -/
def LabelTable.decode {α φ : Type} (table : LabelTable α) (r : Reading φ) (t : Tree φ) :
    Except (DecodeError φ) α := do
  let choice ← r.choice t
  match KeyMap.lookup choice.label table.labels with
  | none => throw (.data (.unknownLabel choice.label (table.labels.map (·.1))))
  | some a =>
    match choice.contents with
    | none => return a
    | some .null =>
      choice.finish
      return a
    | some t => mismatch t "unit"

/-! ### Records -/

/-- The values of fields that have been read, and those of fields that are not there. -/
def Fields.finish : {ts : List Type} → Fields ts → Slots ts → Except Issue (Tuple ts)
  | _, .nil, _ => .ok ()
  | _, .cons key _ absence _ rest, (slot, slots) => do
    let a ← match slot, absence with
      | some a, _ => pure a
      | none, .required => throw (.missingField key)
      | none, .tolerated a => pure a
      | none, .defaulted a => pure a
    let t ← rest.finish slots
    return (a, t)

/-- Stores the entries of a map one by one.  `store` gives nothing for an entry that it does not
know; such an entry is skipped. -/
def storeEntries {φ σ : Type} (store : String → Tree φ → σ → Except (DecodeError φ) (Option σ)) :
    List (String × Tree φ) → σ → Except (DecodeError φ) σ
  | [], s => .ok s
  | (key, t) :: rest, s => do
    match ← store key t s with
    | some s => storeEntries store rest s
    | none =>
      match t.skip with
      | some f => throw (.fault f)
      | none => storeEntries store rest s

/-- Stores the entries of a map one by one and puts aside those that `store` does not know. -/
def sortEntries {φ σ : Type} (store : String → Tree φ → σ → Except (DecodeError φ) (Option σ)) :
    List (String × Tree φ) → σ → Except (DecodeError φ) (σ × List (String × Json))
  | [], s => .ok (s, [])
  | (key, t) :: rest, s => do
    match ← store key t s with
    | some s => sortEntries store rest s
    | none =>
      let j ← t.value.mapError .fault
      let (s, others) ← sortEntries store rest s
      return (s, (key, j) :: others)

/-- Turns an issue into an error. -/
def orIssue {φ α : Type} (x : Except Issue α) : Except (DecodeError φ) α :=
  x.mapError .data

/-- Takes over an error on a value. -/
def orValueError {φ α : Type} (x : Except (DecodeError Empty) α) : Except (DecodeError φ) α :=
  x.mapError .ofValue

/-! ### The decoder -/

mutual

/-- Reads a value by a format. -/
def Format.decode : {α : Type} → Format α → {φ : Type} → Reading φ → Tree φ →
    Except (DecodeError φ) α
  | _, .integer kind, _, _, t =>
    match t with
    | .number (.int n) =>
      match kind.ofInt? n with
      | some a => .ok a
      | none => .error (.data (.outOfRange n kind.name))
    | t => mismatch t kind.name
  | _, .text, _, _, t =>
    match t with
    | .text s => .ok s
    | t => mismatch t "a string"
  | _, .nullable f, _, r, t =>
    match t with
    | .null => .ok none
    | t => some <$> f.decode r t
  | _, .list f, _, r, t =>
    match t with
    | .sequence items cut => do
      let as ← items.mapM (f.decode r)
      atEnd cut
      return as
    | t => mismatch t "a sequence"
  | _, .dictionary f, _, r, t =>
    match t with
    | .map entries cut => do
      let es ← entries.mapM fun e => (e.1, ·) <$> f.decode r e.2
      atEnd cut
      return .ofList es
    | t => mismatch t "a map"
  | _, .anything, _, _, t => Tree.arranged <$> t.value.mapError .fault
  | _, .either name f g, _, _, t => do
    let j ← t.value.mapError .fault
    match f.decode .buffer j with
    | .ok a => return .inl a
    | .error _ =>
      match g.decode .buffer j with
      | .ok b => return .inr b
      | .error _ => throw (.data (.noAlternative name))
  | _, .labels table, _, r, t => table.decode r t
  | _, .tagged variants, _, r, t => do
    let choice ← r.choice t
    let a ← variants.decode r variants.labels choice
    choice.finish
    return a
  | _, .record name fields, _, r, t =>
    match t with
    | .map entries cut => do
      let slots ← storeEntries (fields.store r) entries (Slots.empty _)
      atEnd cut
      orIssue (fields.finish slots)
    | .sequence items cut => do
      let wanted := "struct " ++ name ++ " with " ++ elements fields.count
      let (t, items) ← fields.inOrder r wanted 0 items cut
      r.close fields.count items cut
      return t
    | t => mismatch t ("struct " ++ name)
  | _, .body fields, _, r, t =>
    match t with
    | .map entries cut => do
      let slots ← storeEntries (fields.store r) entries (Slots.empty _)
      atEnd cut
      orIssue (fields.finish slots)
    | t => mismatch t "struct variant"
  | _, .flat name own inner, _, r, t =>
    match t with
    | .map entries cut => do
      let (slots, others) ← sortEntries (own.store r) entries (Slots.empty _)
      atEnd cut
      let t ← orIssue (own.finish slots)
      let slots ← orValueError (storeEntries (inner.store .buffer) others (Slots.empty _))
      let u ← orIssue (inner.finish slots)
      return (t, u)
    | t => mismatch t ("struct " ++ name)
  | _, .via f make _ _, _, r, t => make <$> f.decode r t

/-- Reads the entry of a field into its slot; gives nothing if no field has the key. -/
def Fields.store : {ts : List Type} → Fields ts → {φ : Type} → Reading φ → String → Tree φ →
    Slots ts → Except (DecodeError φ) (Option (Slots ts))
  | _, .nil, _, _, _, _, _ => .ok none
  | _, .cons name aliases _ f rest, _, r, key, t, (slot, slots) =>
    if key = name ∨ key ∈ aliases then
      match slot with
      | some _ => .error (.data (.repeatedField name))
      | none => do
        let a ← f.decode r t
        return some (some a, slots)
    else do
      let stored ← rest.store r key t slots
      return stored.map (slot, ·)

/-- Reads fields from items in their order; gives the items that are left. -/
def Fields.inOrder : {ts : List Type} → Fields ts → {φ : Type} → Reading φ → (wanted : String) →
    (index : Nat) → List (Tree φ) → Option (Cut φ) →
    Except (DecodeError φ) (Tuple ts × List (Tree φ))
  | _, .nil, _, _, _, _, items, _ => .ok ((), items)
  | _, .cons _ _ _ f rest, _, r, wanted, index, t :: items, cut => do
    let a ← f.decode r t
    let (u, items) ← rest.inOrder r wanted (index + 1) items cut
    return ((a, u), items)
  | _, .cons _ _ absence _ rest, _, r, wanted, index, [], cut => do
    atEnd cut
    match absence with
    | .defaulted a => do
      let (u, items) ← rest.inOrder r wanted (index + 1) [] cut
      return ((a, u), items)
    | _ => throw (.data (.wrongLength index wanted))

/-- Reads the contents of the variant with the label of a choice. -/
def Variants.decode : {α : Type} → Variants α → {φ : Type} → Reading φ → (known : List String) →
    Choice φ → Except (DecodeError φ) α
  | _, .nil, _, _, known, choice => .error (.data (.unknownLabel choice.label known))
  | _, .cons label f make _ _ rest, _, r, known, choice =>
    if choice.label = label then
      match choice.contents with
      | some t => make <$> f.decode r t
      | none => .error (.data (.wrongKind .bareLabel f.contentsName))
    else rest.decode r known choice

end

/-- Reads a whole text by a format.  What stands behind the value is looked at last. -/
def Format.decodeText {α : Type} (f : Format α) (text : String) :
    Except (DecodeError Fault) α := do
  let document := Document.read text
  let a ← f.decode .text document.tree
  match document.tail with
  | some fault => throw (.fault fault)
  | none => return a

end CardRules
