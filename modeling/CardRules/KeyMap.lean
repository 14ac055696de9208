/-!
# Maps keyed by text

A `KeyMap` is a finite map from text to values, kept as a list of entries in ascending order of
their keys.  The order is part of the type, so two maps with the same entries are equal.

`insert` lets the newer value win and `insertNew` the older one; `get?_insert` and
`get?_insertNew` say so.
-/

namespace CardRules

/-- A finite map from text to `α`, its entries in ascending order of their keys. -/
@[ext] structure KeyMap (α : Type) where
  entries : List (String × α)
  ascending : entries.Pairwise fun a b => a.1 < b.1

namespace KeyMap

variable {α : Type}

instance [DecidableEq α] : DecidableEq (KeyMap α) := fun a b =>
  decidable_of_iff (a.entries = b.entries) KeyMap.ext_iff.symm

/-- The map without entries. -/
def empty : KeyMap α := ⟨[], .nil⟩

instance : Inhabited (KeyMap α) := ⟨empty⟩
instance : EmptyCollection (KeyMap α) := ⟨empty⟩

/-! ### Entries in ascending order -/

/-- Puts an entry in its place; `merge` chooses between an older and the newer value of the
same key. -/
def place (merge : α → α → α) (key : String) (value : α) :
    List (String × α) → List (String × α)
  | [] => [(key, value)]
  | (k, v) :: rest =>
    if key < k then (key, value) :: (k, v) :: rest
    else if key = k then (k, merge v value) :: rest
    else (k, v) :: place merge key value rest

/-- The keys after `place` are the keys before it and the new one. -/
theorem mem_place {merge : α → α → α} {key : String} {value : α} {entries : List (String × α)}
    {e : String × α} (h : e ∈ place merge key value entries) :
    e.1 = key ∨ ∃ a ∈ entries, a.1 = e.1 := by
  induction entries with
  | nil => simp_all [place]
  | cons hd tl ih =>
    obtain ⟨k, v⟩ := hd
    rw [place] at h
    split at h
    · rcases List.mem_cons.1 h with rfl | h
      · exact .inl rfl
      · exact .inr ⟨e, h, rfl⟩
    · split at h
      · rcases List.mem_cons.1 h with rfl | h
        · exact .inr ⟨(k, v), by simp, rfl⟩
        · exact .inr ⟨e, by simp [h], rfl⟩
      · rcases List.mem_cons.1 h with rfl | h
        · exact .inr ⟨(k, v), by simp, rfl⟩
        · rcases ih h with h | ⟨a, ha, hk⟩
          · exact .inl h
          · exact .inr ⟨a, by simp [ha], hk⟩

/-- Placing an entry keeps the order. -/
theorem ascending_place (merge : α → α → α) (key : String) (value : α)
    {entries : List (String × α)} (h : entries.Pairwise fun a b => a.1 < b.1) :
    (place merge key value entries).Pairwise fun a b => a.1 < b.1 := by
  induction entries with
  | nil => simp [place]
  | cons hd tl ih =>
    obtain ⟨k, v⟩ := hd
    have htl := List.pairwise_cons.1 h
    rw [place]
    split
    · rename_i hlt
      refine List.pairwise_cons.2 ⟨fun b hb => ?_, h⟩
      rcases List.mem_cons.1 hb with rfl | hb
      · exact hlt
      · exact String.lt_trans hlt (htl.1 b hb)
    · split
      · exact List.pairwise_cons.2 ⟨htl.1, htl.2⟩
      · rename_i hlt hne
        refine List.pairwise_cons.2 ⟨fun b hb => ?_, ih htl.2⟩
        rcases mem_place hb with hb | ⟨a, ha, hb⟩
        · rw [hb]
          exact Decidable.byContradiction fun hk => hne (String.le_antisymm hk hlt)
        · exact hb ▸ htl.1 a ha

/-- The value of a key among entries. -/
def lookup (key : String) : List (String × α) → Option α
  | [] => none
  | (k, v) :: rest => if k = key then some v else lookup key rest

/-- A key before every entry has no value. -/
theorem lookup_eq_none {key : String} {entries : List (String × α)}
    (h : ∀ e ∈ entries, key < e.1) : lookup key entries = none := by
  induction entries with
  | nil => rfl
  | cons hd tl ih =>
    have hne : hd.1 ≠ key := fun e => String.lt_irrefl _ (e ▸ h hd (by simp))
    simpa only [lookup, hne, if_false] using ih fun e he => h e (by simp [he])

/-- What `place` does to the value of each key. -/
theorem lookup_place (merge : α → α → α) (key : String) (value : α) {entries : List (String × α)}
    (h : entries.Pairwise fun a b => a.1 < b.1) (k : String) :
    lookup k (place merge key value entries) =
      if k = key then some ((lookup key entries).elim value (merge · value))
      else lookup k entries := by
  induction entries with
  | nil =>
    by_cases hk : k = key
    · simp [place, lookup, hk]
    · simp [place, lookup, hk, Ne.symm hk]
  | cons hd tl ih =>
    obtain ⟨k', v⟩ := hd
    have htl := List.pairwise_cons.1 h
    rw [place]
    split
    · rename_i hlt
      have hne : k' ≠ key := fun e => String.lt_irrefl _ (e ▸ hlt)
      have hnone : lookup key tl = none :=
        lookup_eq_none fun e he => String.lt_trans hlt (htl.1 e he)
      by_cases hk : k = key
      · subst hk; simp [lookup, hne, hnone]
      · simp [lookup, Ne.symm hk, hk]
    · split
      · rename_i hlt heq
        subst heq
        by_cases hk : k = key
        · subst hk; simp [lookup]
        · simp [lookup, Ne.symm hk, hk]
      · rename_i hlt hne
        have hne' : k' ≠ key := Ne.symm hne
        by_cases hk : k = key
        · subst hk
          simp [lookup, hne', ih htl.2]
        · simp [lookup, ih htl.2, hk]

/-! ### Maps -/

/-- The value of a key. -/
def get? (m : KeyMap α) (key : String) : Option α :=
  lookup key m.entries

/-- Sets the value of a key; the newer value wins. -/
def insert (m : KeyMap α) (key : String) (value : α) : KeyMap α :=
  ⟨place (fun _ new => new) key value m.entries, ascending_place _ _ _ m.ascending⟩

/-- Sets the value of a key that has none yet; the older value wins. -/
def insertNew (m : KeyMap α) (key : String) (value : α) : KeyMap α :=
  ⟨place (fun old _ => old) key value m.entries, ascending_place _ _ _ m.ascending⟩

/-- The map of a list of entries; of several values for a key the last one counts. -/
def ofList (entries : List (String × α)) : KeyMap α :=
  entries.foldl (fun m e => m.insert e.1 e.2) empty

/-- The map of a list of entries; of several values for a key the first one counts. -/
def ofListFirst (entries : List (String × α)) : KeyMap α :=
  entries.foldl (fun m e => m.insertNew e.1 e.2) empty

/-- The number of keys. -/
def size (m : KeyMap α) : Nat :=
  m.entries.length

@[simp] theorem get?_empty (key : String) : (empty : KeyMap α).get? key = none := rfl

/-- After `insert` the key has the new value and every other key its old one. -/
theorem get?_insert (m : KeyMap α) (key : String) (value : α) (k : String) :
    (m.insert key value).get? k = if k = key then some value else m.get? k := by
  unfold get? insert
  rw [lookup_place _ _ _ m.ascending]
  cases lookup key m.entries <;> simp

/-- After `insertNew` the key has its old value if it had one, and the new one otherwise. -/
theorem get?_insertNew (m : KeyMap α) (key : String) (value : α) (k : String) :
    (m.insertNew key value).get? k =
      if k = key then some ((m.get? key).getD value) else m.get? k := by
  unfold get? insertNew
  rw [lookup_place _ _ _ m.ascending]
  cases lookup key m.entries <;> simp

end KeyMap

end CardRules
