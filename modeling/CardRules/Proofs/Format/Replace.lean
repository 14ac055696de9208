import CardRules.Proofs.Format.Accepted
import CardRules.Proofs.Json.Replace

/-!
# What is read after a replacement

If one part of a tree is replaced by another one that can be read in its place, the whole can still
be read, and the result differs in one part only.  A format *follows* a replacement
(`Format.Follows`) if this is so for the end of a given path; a relation says how the results differ.

The lemmas below lead a path into the parts of a format: into a list, a dictionary or a field of a
record, which may be given as a map or as a sequence.  No law about the order of entries is needed,
and none about repeated keys.
-/

namespace CardRules

variable {α β φ : Type} {ts us : List Type}

/-! ## Lists that differ in one element -/

/-- There is a value for every element. -/
lemma length_of_mapM_eq_some {f : α → Option β} {as : List α} {bs : List β}
    (h : as.mapM f = some bs) : bs.length = as.length := by
  induction as generalizing bs with
  | nil =>
    cases h
    rfl
  | cons a as ih =>
    obtain ⟨b, bs', -, hbs', rfl⟩ := mapM_cons_eq_some_iff.1 h
    rw [List.length_cons, List.length_cons, ih hbs']

/-- The values of a list are those of the elements before one of them, of this one and of those
behind it. -/
lemma mapM_split_iff {f : α → Option β} {before after : List α} {a : α} {bs : List β} :
    (before ++ a :: after).mapM f = some bs ↔
      ∃ front b back, before.mapM f = some front ∧ f a = some b ∧ after.mapM f = some back ∧
        bs = front ++ b :: back := by
  rw [List.mapM_append, List.mapM_cons]
  simp only [Option.bind_eq_bind, Option.bind_eq_some_iff, Option.pure_def, Option.some_inj]
  constructor
  · rintro ⟨front, hfront, _, ⟨b, hb, back, hback, rfl⟩, rfl⟩
    exact ⟨front, b, back, hfront, hb, hback, rfl⟩
  · rintro ⟨front, b, back, hfront, hb, hback, rfl⟩
    exact ⟨front, hfront, _, ⟨b, hb, back, hback, rfl⟩, rfl⟩

/-- If related elements have related values, then so have lists that differ in one element. -/
lemma OneDiffers.exists_mapM {index : Nat} {R : α → α → Prop} {S : β → β → Prop}
    {f : α → Option β} {as as' : List α} {bs : List β} (h : OneDiffers index R as as')
    (hf : ∀ a a' b, R a a' → f a = some b → ∃ b', f a' = some b' ∧ S b b')
    (hbs : as.mapM f = some bs) : ∃ bs', as'.mapM f = some bs' ∧ OneDiffers index S bs bs' := by
  obtain ⟨before, a, a', after, rfl, rfl, hindex, hR⟩ := h
  obtain ⟨front, b, back, hfront, hb, hback, rfl⟩ := mapM_split_iff.1 hbs
  obtain ⟨b', hb', hS⟩ := hf a a' b hR hb
  have hlength : front.length = index := (length_of_mapM_eq_some hfront).trans hindex
  exact ⟨front ++ b' :: back, mapM_split_iff.2 ⟨front, b', back, hfront, hb', hback, rfl⟩,
    front, b, b', back, rfl, rfl, hlength, hS⟩

/-! ## Formats that follow a replacement -/

/-- A format *follows* the replacement of what stands at the end of a path by a new tree: what it
reads from a tree, it also reads after the replacement, with a result that is related to the old
one. -/
def Format.Follows (f : Format α) (new : Tree φ) (path : List Tree.Step) (S : α → α → Prop) :
    Prop :=
  ∀ ⦃r : Reading φ⦄ ⦃t t' : Tree φ⦄ ⦃a : α⦄, new.ReplacesAt path t t' →
    (f.decode r t).toOption = some a → ∃ a', (f.decode r t').toOption = some a' ∧ S a a'

variable {f : Format α} {new : Tree φ} {path : List Tree.Step} {S : α → α → Prop}

/-- What can be read in any place can be read in the place of the whole. -/
lemma follows_here (h : ∀ r : Reading φ, ∃ a, (f.decode r new).toOption = some a) :
    f.Follows new [] fun _ _ => True := by
  intro r t t' a ht _
  cases ht
  obtain ⟨a', ha'⟩ := h r
  exact ⟨a', ha', trivial⟩

/-- A value of another type follows what it is made of. -/
lemma follows_via {make : α → β} {parts : β → α} (make_parts : ∀ b, make (parts b) = b)
    {S' : β → β → Prop} (h : f.Follows new path S) (hS : ∀ a a', S a a' → S' (make a) (make a')) :
    (Format.via f make parts make_parts).Follows new path S' := by
  intro r t t' b ht hb
  rw [toOption_decode_via] at hb
  obtain ⟨a, ha, rfl⟩ := Option.map_eq_some_iff.1 hb
  obtain ⟨a', ha', hSa⟩ := h ht ha
  refine ⟨make a', ?_, hS a a' hSa⟩
  rw [toOption_decode_via, ha']
  rfl

/-- Where a path leads on, there is a value that is not `null`, and it follows. -/
lemma follows_nullable {step : Tree.Step} (h : f.Follows new (step :: path) S) :
    f.nullable.Follows new (step :: path)
      fun a? a?' => ∃ a a', a? = some a ∧ a?' = some a' ∧ S a a' := by
  intro r t t' a? ht ha?
  have hne : t ≠ .null := by
    rintro rfl
    cases ht
  have hne' : t' ≠ .null := by
    rintro rfl
    cases ht
  rw [toOption_decode_nullable f r hne] at ha?
  obtain ⟨a, ha, rfl⟩ := Option.map_eq_some_iff.1 ha?
  obtain ⟨a', ha', hSa⟩ := h ht ha
  refine ⟨some a', ?_, a, a', rfl, rfl, hSa⟩
  rw [toOption_decode_nullable f r hne', ha']
  rfl

/-- A value that is put aside is the same as before, or it differs at the end of the path. -/
lemma follows_anything {n : Json} (hnew : new.value = .ok n) :
    Format.anything.Follows new path fun j j' => j' = j ∨ n.arranged.ReplacesAt path j j' := by
  intro r t t' i ht hi
  rw [decode_anything, toOption_map, toOption_mapError] at hi
  obtain ⟨j, hj, rfl⟩ := Option.map_eq_some_iff.1 hi
  obtain ⟨j', hj', hreplaces⟩ := ht.value hnew (toOption_eq_some_iff.1 hj)
  refine ⟨j'.arranged, ?_, hreplaces.arranged⟩
  rw [decode_anything, hj']
  rfl

/-! ### Lists and dictionaries -/

/-- Something is missing at the end of what breaks off. -/
@[simp] lemma toOption_atEnd_some (c : Cut φ) : (atEnd (some c)).toOption = none := rfl

/-- A sequence that breaks off is not read as a list. -/
lemma cut_eq_none_of_decode_list {r : Reading φ} {items : List (Tree φ)} {cut : Option (Cut φ)}
    {as : List α} (h : (f.list.decode r (.sequence items cut)).toOption = some as) :
    cut = none := by
  cases cut with
  | none => rfl
  | some c =>
    rw [decode_list_sequence] at h
    simp at h

/-- A map that breaks off is not read as a dictionary. -/
lemma cut_eq_none_of_decode_dictionary {r : Reading φ} {es : List (String × Tree φ)}
    {cut : Option (Cut φ)} {m : KeyMap α}
    (h : (f.dictionary.decode r (.map es cut)).toOption = some m) : cut = none := by
  cases cut with
  | none => rfl
  | some c =>
    rw [decode_dictionary_map] at h
    simp at h

/-- A list follows in the item that follows. -/
lemma follows_list (h : f.Follows new path S) (index : Nat) :
    f.list.Follows new (.item index :: path) (OneDiffers index S) := by
  intro r t t' as ht has
  cases ht with
  | @item _ u u' before after cut hu =>
    obtain rfl := cut_eq_none_of_decode_list has
    rw [toOption_decode_list] at has
    have hitems : OneDiffers before.length (new.ReplacesAt path) (before ++ u :: after)
        (before ++ u' :: after) := ⟨before, u, u', after, rfl, rfl, rfl, hu⟩
    obtain ⟨as', has', hdiffers⟩ :=
      hitems.exists_mapM (fun _ _ _ hitem ha => h hitem ha) has
    refine ⟨as', ?_, hdiffers⟩
    rw [toOption_decode_list, has']

/-- A dictionary can still be read if the value of an entry can. -/
lemma follows_dictionary (h : f.Follows new path S) (key : String) :
    f.dictionary.Follows new (.entry key :: path) fun _ _ => True := by
  intro r t t' m ht hm
  cases ht with
  | @entry _ u u' _ before after cut hu =>
    obtain rfl := cut_eq_none_of_decode_dictionary hm
    rw [toOption_decode_dictionary, Format.readEntries] at hm
    obtain ⟨as, has, -⟩ := Option.map_eq_some_iff.1 hm
    obtain ⟨front, e, back, hfront, he, hback, -⟩ := mapM_split_iff.1 has
    obtain ⟨a, ha, -⟩ := Option.map_eq_some_iff.1 he
    obtain ⟨a', ha', -⟩ := h hu ha
    have hentry : ((f.decode r u').toOption.map (key, ·)) = some (key, a') := by
      rw [ha']
      rfl
    have has' : f.readEntries r (before ++ (key, u') :: after) = some (front ++ (key, a') :: back) :=
      mapM_split_iff.2 ⟨front, (key, a'), back, hfront, hentry, hback, rfl⟩
    refine ⟨KeyMap.ofList (front ++ (key, a') :: back), ?_, trivial⟩
    rw [toOption_decode_dictionary, has']
    rfl

/-! ### Records -/

/-- The tuples differ in the first component. -/
def Tuple.FirstDiffers (S : α → α → Prop) : Tuple (α :: ts) → Tuple (α :: ts) → Prop
  | (a, x), (a', x') => S a a' ∧ x' = x

/-- The tuples differ in the other components. -/
def Tuple.OthersDiffer (S : Tuple ts → Tuple ts → Prop) : Tuple (α :: ts) → Tuple (α :: ts) → Prop
  | (a, x), (a', x') => a' = a ∧ S x x'

/-- The fields of a record follow a replacement in the entries of a key, and in the item of a
number if the record is given as a sequence. -/
structure Fields.Follows (fields : Fields ts) (new : Tree φ) (key : String) (index : Nat)
    (path : List Tree.Step) (S : Tuple ts → Tuple ts → Prop) : Prop where
  owns : fields.owns key
  gather {r : Reading φ} {before after : List (String × Tree φ)} {t t' : Tree φ} {x : Tuple ts} :
    new.ReplacesAt path t t' → fields.gather r (before ++ (key, t) :: after) = some x →
      ∃ x', fields.gather r (before ++ (key, t') :: after) = some x' ∧ S x x'
  inTurn {r : Reading φ} {before after : List (Tree φ)} {t t' : Tree φ} {x : Tuple ts} :
    new.ReplacesAt path t t' → before.length = index →
      fields.inTurn r (before ++ t :: after) = some x →
        ∃ x', fields.inTurn r (before ++ t' :: after) = some x' ∧ S x x'

/-- Fields that follow also follow by a weaker relation. -/
lemma Fields.Follows.mono {fields : Fields ts} {key : String} {index : Nat}
    {S S' : Tuple ts → Tuple ts → Prop} (h : fields.Follows new key index path S)
    (hS : ∀ x x', S x x' → S' x x') : fields.Follows new key index path S' where
  owns := h.owns
  gather ht hx := by
    obtain ⟨x', hx', hSx⟩ := h.gather ht hx
    exact ⟨x', hx', hS _ _ hSx⟩
  inTurn ht hindex hx := by
    obtain ⟨x', hx', hSx⟩ := h.inTurn ht hindex hx
    exact ⟨x', hx', hS _ _ hSx⟩

/-- A field that takes an entry has its value from it, and from no other one. -/
lemma single_split {absence : Absence α} {r : Reading φ} {front back : List (String × Tree φ)}
    {e : String × Tree φ} {a : α} (h : f.single absence r (front ++ e :: back) = some a) :
    front = [] ∧ back = [] ∧ (f.decode r e.2).toOption = some a := by
  match front, back, h with
  | [], [], h => exact ⟨rfl, rfl, h⟩
  | [], _ :: _, h => cases h
  | [_], _, h => cases h
  | _ :: _ :: _, _, h => cases h

/-- A record follows in its first field. -/
lemma follows_first (h : f.Follows new path S) (name : String) (aliases : List String)
    (absence : Absence α) (rest : Fields ts) {key : String}
    (hkey : Fields.takes name aliases key = true) :
    (Fields.cons name aliases absence f rest).Follows new key 0 path
      (Tuple.FirstDiffers S) where
  owns := by rw [Fields.owns, hkey, Bool.true_or]
  gather {r before after t t' x} ht hx := by
    rw [gather_split_of_takes hkey] at hx
    obtain ⟨a, y, ha, hy, rfl⟩ := bind_cons_eq_some_iff.1 hx
    obtain ⟨hfront, hback, hdecode⟩ := single_split ha
    obtain ⟨a', ha', hSa⟩ := h ht hdecode
    refine ⟨Tuple.cons a' y, ?_, hSa, rfl⟩
    rw [gather_split_of_takes hkey, hfront, hback]
    exact bind_cons_eq_some_iff.2 ⟨a', y, ha', hy, rfl⟩
  inTurn {r before after t t' x} ht hindex hx := by
    obtain rfl := List.length_eq_zero_iff.1 hindex
    obtain ⟨a, y, ha, hy, rfl⟩ := bind_cons_eq_some_iff.1 hx
    obtain ⟨a', ha', hSa⟩ := h ht ha
    exact ⟨Tuple.cons a' y, bind_cons_eq_some_iff.2 ⟨a', y, ha', hy, rfl⟩, hSa, rfl⟩

/-- A record follows in another field if the other fields follow. -/
lemma follows_later {rest : Fields ts} {S : Tuple ts → Tuple ts → Prop} {key : String}
    {index : Nat} (h : rest.Follows new key index path S) (name : String) (aliases : List String)
    (absence : Absence α) (f : Format α) (hkey : Fields.takes name aliases key = false) :
    (Fields.cons name aliases absence f rest).Follows new key (index + 1) path
      (Tuple.OthersDiffer S) where
  owns := by rw [Fields.owns, hkey, Bool.false_or, h.owns]
  gather {r before after t t' x} ht hx := by
    rw [gather_split_of_not_takes hkey] at hx
    obtain ⟨a, y, ha, hy, rfl⟩ := bind_cons_eq_some_iff.1 hx
    obtain ⟨y', hy', hSy⟩ := h.gather ht hy
    refine ⟨Tuple.cons a y', ?_, rfl, hSy⟩
    rw [gather_split_of_not_takes hkey]
    exact bind_cons_eq_some_iff.2 ⟨a, y', ha, hy', rfl⟩
  inTurn {r before after t t' x} ht hindex hx := by
    obtain ⟨s, before, rfl⟩ := List.exists_cons_of_length_eq_add_one hindex
    obtain ⟨a, y, ha, hy, rfl⟩ := bind_cons_eq_some_iff.1 hx
    obtain ⟨y', hy', hSy⟩ := h.inTurn ht (Nat.succ.inj hindex) hy
    exact ⟨Tuple.cons a y', bind_cons_eq_some_iff.2 ⟨a, y', ha, hy', rfl⟩, rfl, hSy⟩

/-- A map that breaks off is not read as a record. -/
lemma cut_eq_none_of_decode_record_map {name : String} {fields : Fields ts} {r : Reading φ}
    {es : List (String × Tree φ)} {cut : Option (Cut φ)} {x : Tuple ts}
    (h : ((Format.record name fields).decode r (.map es cut)).toOption = some x) :
    cut = none := by
  cases cut with
  | none => rfl
  | some c =>
    rw [decode_record_of_map] at h
    simp at h

/-- A sequence that breaks off has no end. -/
lemma toOption_close_cut (r : Reading φ) (taken : Nat) (items : List (Tree φ)) (c : Cut φ) :
    (r.close taken items (some c)).toOption = none := by
  cases r with
  | text => cases items <;> rfl
  | value => exact c.next.elim
  | buffer => exact c.next.elim

/-- A sequence that breaks off is not read as a record. -/
lemma cut_eq_none_of_decode_record_sequence {name : String} {fields : Fields ts} {r : Reading φ}
    {items : List (Tree φ)} {cut : Option (Cut φ)} {x : Tuple ts}
    (h : ((Format.record name fields).decode r (.sequence items cut)).toOption = some x) :
    cut = none := by
  cases cut with
  | none => rfl
  | some c =>
    rw [decode_record_of_sequence] at h
    simp [toOption_close_cut] at h

/-- Which entries are skipped does not depend on an entry that is not. -/
lemma skipsOthers_split {fields : Fields ts} {key : String} (hkey : fields.owns key)
    (before after : List (String × Tree φ)) (t : Tree φ) :
    fields.skipsOthers (before ++ (key, t) :: after) =
      (fields.skipsOthers before && fields.skipsOthers after) := by
  rw [Fields.skipsOthers, List.all_append, List.all_cons, hkey, Bool.true_or, Bool.true_and]
  rfl

section

variable {fields : Fields ts} {key : String} {index : Nat} {S : Tuple ts → Tuple ts → Prop}

/-- A record that is given as a map follows in the entry of a field. -/
lemma follows_record_entry (name : String) (h : fields.Follows new key index path S) :
    (Format.record name fields).Follows new (.entry key :: path) S := by
  intro r t t' x ht hx
  cases ht with
  | @entry _ u u' _ before after cut hu =>
    obtain rfl := cut_eq_none_of_decode_record_map hx
    rw [toOption_decode_record_map, skipsOthers_split h.owns] at hx
    split at hx
    · rename_i hskips
      obtain ⟨x', hx', hS⟩ := h.gather hu hx
      refine ⟨x', ?_, hS⟩
      rw [toOption_decode_record_map, skipsOthers_split h.owns, if_pos hskips, hx']
    · cases hx

/-- A record that is given as a sequence follows in the item of a field. -/
lemma follows_record_item (name : String) (h : fields.Follows new key index path S) :
    (Format.record name fields).Follows new (.item index :: path) S := by
  intro r t t' x ht hx
  cases ht with
  | @item _ u u' before after cut hu =>
    obtain rfl := cut_eq_none_of_decode_record_sequence hx
    rw [decode_record_sequence] at hx
    obtain ⟨x', hx', hS⟩ := h.inTurn hu rfl hx
    refine ⟨x', ?_, hS⟩
    rw [decode_record_sequence, hx']

end

/-- Two records in one map follow in an entry that the first one leaves to the other. -/
lemma follows_flat {new : Json} (name : String) {own : Fields ts} {inner : Fields us}
    {S : Tuple us → Tuple us → Prop} {key : String} {index : Nat}
    (hkey : own.owns key = false) (h : inner.Follows new key index path S) :
    (Format.flat name own inner).Follows new (.entry key :: path)
      fun x x' => x'.1 = x.1 ∧ S x.2 x'.2 := by
  intro r t t' x ht hx
  cases ht with
  | @entry _ u u' _ before after cut hu =>
    obtain rfl := Tree.cut_eq_none cut
    have hothers := filter_split_of_pos (p := (!own.owns ·)) (congrArg not hkey) before after
    rw [decode_flat_map name own inner r (Tree.valueEntries_json _), hothers,
      gather_split_of_not_owns hkey] at hx
    obtain ⟨y, hy, hx⟩ := Option.bind_eq_some_iff.1 hx
    obtain ⟨z, hz, rfl⟩ := Option.map_eq_some_iff.1 hx
    obtain ⟨z', hz', hS⟩ := h.gather hu hz
    refine ⟨(y, z'), ?_, rfl, hS⟩
    rw [decode_flat_map name own inner r (Tree.valueEntries_json _), hothers,
      gather_split_of_not_owns hkey, hy, hz']
    rfl

end CardRules
