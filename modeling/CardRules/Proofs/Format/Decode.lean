import CardRules.Format.Decode
import Mathlib.Tactic.Lemma

/-!
# The decoder, format by format

What `Format.decode` does with a value of the right kind, for each kind of format.  Later proofs go
by these equations and do not open the decoder itself.
-/

namespace CardRules

variable {α β φ : Type} {ts us : List Type}

/-- An integer has to be in the range. -/
lemma decode_integer_int (kind : IntegerKind α) (r : Reading φ) (n : Int) :
    (Format.integer kind).decode r (.number (.int n)) =
      match kind.ofInt? n with
      | some a => .ok a
      | none => .error (.data (.outOfRange n kind.name)) :=
  rfl

/-- What is not `null` is read as a value. -/
lemma decode_nullable_of_ne_null (f : Format α) (r : Reading φ) {t : Tree φ} (h : t ≠ .null) :
    f.nullable.decode r t = some <$> f.decode r t := by
  cases t with
  | null => exact absurd rfl h
  | _ => rfl

/-- The items of a sequence are read one by one. -/
lemma decode_list_sequence (f : Format α) (r : Reading φ) (items : List (Tree φ))
    (cut : Option (Cut φ)) :
    f.list.decode r (.sequence items cut) = (do
      let as ← items.mapM (f.decode r)
      atEnd cut
      return as) :=
  rfl

/-- The entries of a map are read one by one. -/
lemma decode_dictionary_map (f : Format α) (r : Reading φ) (es : List (String × Tree φ))
    (cut : Option (Cut φ)) :
    f.dictionary.decode r (.map es cut) = (do
      let as ← es.mapM fun e => (e.1, ·) <$> f.decode r e.2
      atEnd cut
      return .ofList as) :=
  rfl

/-- Any value is taken as it is, and arranged. -/
lemma decode_anything (r : Reading φ) (t : Tree φ) :
    Format.anything.decode r t = Tree.arranged <$> t.value.mapError .fault :=
  rfl

/-- Two formats are tried one after the other. -/
lemma decode_either (name : String) (f : Format α) (g : Format β) (r : Reading φ) (t : Tree φ) :
    (Format.either name f g).decode r t = (do
      let j ← t.value.mapError .fault
      match f.decode .buffer j with
      | .ok a => return .inl a
      | .error _ =>
        match g.decode .buffer j with
        | .ok b => return .inr b
        | .error _ => throw (.data (.noAlternative name))) :=
  rfl

/-- A label is looked up in its table. -/
lemma decode_labels (table : LabelTable α) (r : Reading φ) (t : Tree φ) :
    (Format.labels table).decode r t = table.decode r t :=
  rfl

/-- A tagged value is read by the variant that its label names. -/
lemma decode_tagged (variants : Variants α) (r : Reading φ) (t : Tree φ) :
    (Format.tagged variants).decode r t = (do
      let choice ← r.choice t
      let a ← variants.decode r variants.labels choice
      choice.finish
      return a) :=
  rfl

/-- A record is read from a map entry by entry. -/
lemma decode_record_of_map (name : String) (fields : Fields ts) (r : Reading φ)
    (es : List (String × Tree φ)) (cut : Option (Cut φ)) :
    (Format.record name fields).decode r (.map es cut) = (do
      let slots ← storeEntries (fields.store r) es (Slots.empty ts)
      atEnd cut
      orIssue (fields.finish slots)) :=
  rfl

/-- A record is read from a sequence field by field. -/
lemma decode_record_of_sequence (name : String) (fields : Fields ts) (r : Reading φ)
    (items : List (Tree φ)) (cut : Option (Cut φ)) :
    (Format.record name fields).decode r (.sequence items cut) = (do
      let wanted := "struct " ++ name ++ " with " ++ elements fields.count
      let (t, items) ← fields.inOrder r wanted 0 items cut
      r.close fields.count items cut
      return t) :=
  rfl

/-- The contents of a variant are read from a map entry by entry. -/
lemma decode_body_of_map (fields : Fields ts) (r : Reading φ) (es : List (String × Tree φ))
    (cut : Option (Cut φ)) :
    (Format.body fields).decode r (.map es cut) = (do
      let slots ← storeEntries (fields.store r) es (Slots.empty ts)
      atEnd cut
      orIssue (fields.finish slots)) :=
  rfl

/-- Two records in one map: the first one takes its entries, the other one reads what is left. -/
lemma decode_flat_of_map (name : String) (own : Fields ts) (inner : Fields us) (r : Reading φ)
    (es : List (String × Tree φ)) (cut : Option (Cut φ)) :
    (Format.flat name own inner).decode r (.map es cut) = (do
      let (slots, others) ← sortEntries (own.store r) es (Slots.empty ts)
      atEnd cut
      let t ← orIssue (own.finish slots)
      let slots ← orValueError (storeEntries (inner.store .buffer) others (Slots.empty us))
      let u ← orIssue (inner.finish slots)
      return (t, u)) :=
  rfl

/-- A value of another type is made of the one that is read. -/
lemma decode_via (f : Format α) (make : α → β) (parts : β → α)
    (make_parts : ∀ b, make (parts b) = b) (r : Reading φ) (t : Tree φ) :
    (Format.via f make parts make_parts).decode r t = make <$> f.decode r t :=
  rfl

end CardRules
