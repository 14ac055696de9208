import CardRules.Json.Tree
import CardRules.Proofs.KeyMap

/-!
# What a tree says

A tree is a text as it is written, a value is what it says.  Two texts say the same if they differ
in the order of the entries of their maps only.  `Tree.Says` puts this into one notion: a tree
without faults, in which no map repeats a key, says every value with the same entries.

The main facts are that a value says itself, in any order (`says_self`, `says_arranged`), and that
arranging a value is idempotent (`arranged_arranged`).

Trees can be compared (`same_iff`), so that it can be decided what a given text is read as.
-/

namespace CardRules

namespace Tree

/-! ## Distinct keys -/

mutual

/-- Whether no map in a value repeats a key. -/
def distinctKeys : Json → Bool
  | .null | .bool _ | .number _ | .text _ => true
  | .sequence items _ => distinctKeysItems items
  | .map entries _ => decide (entries.map (·.1)).Nodup && distinctKeysEntries entries
  | .broken b => b.read.elim

/-- Whether no map in some items repeats a key. -/
def distinctKeysItems : List Json → Bool
  | [] => true
  | j :: rest => distinctKeys j && distinctKeysItems rest

/-- Whether no map in the values of some entries repeats a key. -/
def distinctKeysEntries : List (String × Json) → Bool
  | [] => true
  | (_, j) :: rest => distinctKeys j && distinctKeysEntries rest

end

/-- Items repeat no key if none of them does. -/
lemma distinctKeysItems_iff {items : List Json} :
    distinctKeysItems items ↔ ∀ j ∈ items, distinctKeys j := by
  induction items with
  | nil => simp [distinctKeysItems]
  | cons j rest ih => simp [distinctKeysItems, ih]

/-- The values of entries repeat no key if none of them does. -/
lemma distinctKeysEntries_iff {entries : List (String × Json)} :
    distinctKeysEntries entries ↔ ∀ e ∈ entries, distinctKeys e.2 := by
  induction entries with
  | nil => simp [distinctKeysEntries]
  | cons e rest ih => simp [distinctKeysEntries, ih]

/-- A map has distinct keys if its own keys are distinct and its values have distinct keys. -/
lemma distinctKeys_map {entries : List (String × Json)} {cut : Option (Cut Empty)} :
    distinctKeys (.map entries cut) ↔
      (entries.map (·.1)).Nodup ∧ ∀ e ∈ entries, distinctKeys e.2 := by
  rw [distinctKeys, Bool.and_eq_true, decide_eq_true_iff, distinctKeysEntries_iff]

/-! ## Arranged values -/

/-- Items are arranged one by one. -/
lemma arrangedItems_eq_map (items : List Json) : arrangedItems items = items.map arranged := by
  induction items with
  | nil => rfl
  | cons j rest ih => rw [arrangedItems, ih, List.map_cons]

/-- The values of entries are arranged one by one. -/
lemma arrangedEntries_eq_map (entries : List (String × Json)) :
    arrangedEntries entries = entries.map fun e => (e.1, arranged e.2) := by
  induction entries with
  | nil => rfl
  | cons e rest ih => rw [arrangedEntries, ih, List.map_cons]

/-- The keys of entries stay as they are. -/
lemma keys_arrangedEntries (entries : List (String × Json)) :
    (arrangedEntries entries).map (·.1) = entries.map (·.1) := by
  rw [arrangedEntries_eq_map, List.map_map]
  rfl

/-- If no key is repeated, the entries of a map are arranged one by one and put into order. -/
lemma arranged_map_perm {entries : List (String × Json)} (h : (entries.map (·.1)).Nodup) :
    (KeyMap.ofList (arrangedEntries entries)).entries.Perm (arrangedEntries entries) :=
  KeyMap.entries_ofList_perm (by rwa [keys_arrangedEntries])

mutual

/-- Arranging a value keeps its keys distinct. -/
theorem distinctKeys_arranged : (j : Json) → distinctKeys j → distinctKeys j.arranged
  | .null, _ | .bool _, _ | .number _, _ | .text _, _ => rfl
  | .sequence items _, h => distinctKeysItems_arranged items h
  | .map entries _, h => by
    have hvalues := distinctKeysEntries_iff.1
      (distinctKeysEntries_arranged entries (distinctKeysEntries_iff.2 (distinctKeys_map.1 h).2))
    refine distinctKeys_map.2 ⟨KeyMap.nodup_keys _, fun e he => hvalues e ?_⟩
    exact (arranged_map_perm (distinctKeys_map.1 h).1).mem_iff.1 he
  | .broken b, _ => b.read.elim

/-- Arranging items keeps their keys distinct. -/
theorem distinctKeysItems_arranged : (items : List Json) → distinctKeysItems items →
    distinctKeysItems (arrangedItems items)
  | [], _ => rfl
  | j :: rest, h => by
    rw [distinctKeysItems, Bool.and_eq_true] at h
    rw [arrangedItems, distinctKeysItems, Bool.and_eq_true]
    exact ⟨distinctKeys_arranged j h.1, distinctKeysItems_arranged rest h.2⟩

/-- Arranging the values of entries keeps their keys distinct. -/
theorem distinctKeysEntries_arranged : (entries : List (String × Json)) →
    distinctKeysEntries entries → distinctKeysEntries (arrangedEntries entries)
  | [], _ => rfl
  | (key, j) :: rest, h => by
    rw [distinctKeysEntries, Bool.and_eq_true] at h
    rw [arrangedEntries, distinctKeysEntries, Bool.and_eq_true]
    exact ⟨distinctKeys_arranged j h.1, distinctKeysEntries_arranged rest h.2⟩

end

mutual

/-- Arranging an arranged value does nothing. -/
theorem arranged_arranged : (j : Json) → j.arranged.arranged = j.arranged
  | .null | .bool _ | .number _ | .text _ => rfl
  | .sequence items _ => by
    rw [arranged, arranged, arrangedItems_arranged items]
  | .map entries _ => by
    have hfixed := arrangedEntries_arranged entries
    -- Sorting the entries moves or drops them only, so they are still arranged one by one.
    have hsorted : arrangedEntries (KeyMap.ofList (arrangedEntries entries)).entries =
        (KeyMap.ofList (arrangedEntries entries)).entries := by
      rw [arrangedEntries_eq_map] at hfixed ⊢
      refine (List.map_congr_left fun e he => ?_).trans (List.map_id _)
      have hmem := KeyMap.mem_of_mem_ofList he
      exact List.map_inj_left.1 (hfixed.trans (List.map_id _).symm) e hmem
    rw [arranged, arranged, hsorted, KeyMap.ofList_entries]
  | .broken b => b.read.elim

/-- Arranging arranged items does nothing. -/
theorem arrangedItems_arranged : (items : List Json) →
    arrangedItems (arrangedItems items) = arrangedItems items
  | [] => rfl
  | j :: rest => by
    rw [arrangedItems, arrangedItems, arranged_arranged j, arrangedItems_arranged rest]

/-- Arranging arranged entries does nothing. -/
theorem arrangedEntries_arranged : (entries : List (String × Json)) →
    arrangedEntries (arrangedEntries entries) = arrangedEntries entries
  | [] => rfl
  | (key, j) :: rest => by
    rw [arrangedEntries, arrangedEntries, arranged_arranged j, arrangedEntries_arranged rest]

end

/-! ## Trees that have a value -/

variable {φ : Type}

/-- The items of a sequence with a value have values, and the sequence does not break off. -/
lemma value_sequence_iff {items : List (Tree φ)} {cut : Option (Cut φ)} {j : Json} :
    (Tree.sequence items cut).value = .ok j ↔
      cut = none ∧ ∃ js, valueItems items = .ok js ∧ j = .sequence js none := by
  rw [value]
  cases valueItems items with
  | error f => simp [bind, Except.bind]
  | ok js => cases cut <;> simp [bind, Except.bind, cutNext, pure, Except.pure, eq_comm]

/-- The entries of a map with a value have values, and the map does not break off. -/
lemma value_map_iff {entries : List (String × Tree φ)} {cut : Option (Cut φ)} {j : Json} :
    (Tree.map entries cut).value = .ok j ↔
      cut = none ∧ ∃ js, valueEntries entries = .ok js ∧ j = .map js none := by
  rw [value]
  cases valueEntries entries with
  | error f => simp [bind, Except.bind]
  | ok js => cases cut <;> simp [bind, Except.bind, cutNext, pure, Except.pure, eq_comm]

/-- The values of items are those of the first and of the others. -/
lemma valueItems_cons_iff {t : Tree φ} {rest : List (Tree φ)} {js : List Json} :
    valueItems (t :: rest) = .ok js ↔
      ∃ j js', t.value = .ok j ∧ valueItems rest = .ok js' ∧ js = j :: js' := by
  rw [valueItems]
  cases t.value <;> cases valueItems rest <;>
    simp [bind, Except.bind, pure, Except.pure, eq_comm]

/-- The values of entries are those of the first and of the others. -/
lemma valueEntries_cons_iff {key : String} {t : Tree φ} {rest : List (String × Tree φ)}
    {js : List (String × Json)} :
    valueEntries ((key, t) :: rest) = .ok js ↔
      ∃ j js', t.value = .ok j ∧ valueEntries rest = .ok js' ∧ js = (key, j) :: js' := by
  rw [valueEntries]
  cases t.value <;> cases valueEntries rest <;>
    simp [bind, Except.bind, pure, Except.pure, eq_comm]

mutual

/-- What can be read can also be skipped. -/
theorem skip_of_value : (t : Tree φ) → {j : Json} → t.value = .ok j → t.skip = none
  | .null, _, _ | .bool _, _, _ | .number _, _, _ | .text _, _, _ => rfl
  | .sequence items cut, _, h => by
    obtain ⟨rfl, js, hjs, -⟩ := value_sequence_iff.1 h
    rw [skip, skipItems_of_value items hjs]
    rfl
  | .map entries cut, _, h => by
    obtain ⟨rfl, js, hjs, -⟩ := value_map_iff.1 h
    rw [skip, skipEntries_of_value entries hjs]
    rfl
  | .broken b, _, h => nomatch h

/-- Items that can be read can also be skipped. -/
theorem skipItems_of_value : (items : List (Tree φ)) → {js : List Json} →
    valueItems items = .ok js → skipItems items = none
  | [], _, _ => rfl
  | t :: rest, _, h => by
    obtain ⟨j, js', ht, hrest, -⟩ := valueItems_cons_iff.1 h
    rw [skipItems, skip_of_value t ht, skipItems_of_value rest hrest]
    rfl

/-- Entries that can be read can also be skipped. -/
theorem skipEntries_of_value : (entries : List (String × Tree φ)) →
    {js : List (String × Json)} → valueEntries entries = .ok js → skipEntries entries = none
  | [], _, _ => rfl
  | (key, t) :: rest, _, h => by
    obtain ⟨j, js', ht, hrest, -⟩ := valueEntries_cons_iff.1 h
    rw [skipEntries, skip_of_value t ht, skipEntries_of_value rest hrest]
    rfl

end

/-- The values of some of the entries are some of the values. -/
lemma valueEntries_filter (p : String → Bool) {entries : List (String × Tree φ)}
    {js : List (String × Json)} (h : valueEntries entries = .ok js) :
    valueEntries (entries.filter (p ·.1)) = .ok (js.filter (p ·.1)) := by
  induction entries generalizing js with
  | nil =>
    cases h
    rfl
  | cons e rest ih =>
    obtain ⟨key, t⟩ := e
    obtain ⟨j, js', ht, hrest, rfl⟩ := valueEntries_cons_iff.1 h
    rw [List.filter_cons, List.filter_cons]
    split
    · exact valueEntries_cons_iff.2 ⟨j, _, ht, ih hrest, rfl⟩
    · exact ih hrest

/-! ## Values as trees -/

/-- Nothing of a value is broken off. -/
lemma cut_eq_none (cut : Option (Cut Empty)) : cut = none := by
  cases cut with
  | none => rfl
  | some c => exact c.next.elim

mutual

/-- A value says itself, entry by entry. -/
theorem value_json : (j : Json) → j.value = .ok j
  | .null | .bool _ | .number _ | .text _ => rfl
  | .sequence items cut => by
    obtain rfl := cut_eq_none cut
    exact value_sequence_iff.2 ⟨rfl, items, valueItems_json items, rfl⟩
  | .map entries cut => by
    obtain rfl := cut_eq_none cut
    exact value_map_iff.2 ⟨rfl, entries, valueEntries_json entries, rfl⟩
  | .broken b => b.read.elim

/-- Values are their own values. -/
theorem valueItems_json : (items : List Json) → valueItems items = .ok items
  | [] => rfl
  | j :: rest => valueItems_cons_iff.2 ⟨j, rest, value_json j, valueItems_json rest, rfl⟩

/-- Entries with values are their own values. -/
theorem valueEntries_json : (entries : List (String × Json)) → valueEntries entries = .ok entries
  | [] => rfl
  | (_, j) :: rest =>
    valueEntries_cons_iff.2 ⟨j, rest, value_json j, valueEntries_json rest, rfl⟩

end

/-- A tree says a value if it can be read, no map in it repeats a key, and it is read as that value
but for the order of the entries of maps. -/
def Says (t : Tree φ) (j : Json) : Prop :=
  ∃ j', t.value = .ok j' ∧ j'.distinctKeys ∧ j'.arranged = j.arranged

/-- A value with distinct keys says itself. -/
theorem says_self {j : Json} (h : j.distinctKeys) : j.Says j :=
  ⟨j, value_json j, h, rfl⟩

/-- A value with distinct keys is also said by its arranged form. -/
theorem says_arranged {j : Json} (h : j.distinctKeys) : j.arranged.Says j :=
  ⟨j.arranged, value_json _, distinctKeys_arranged j h, arranged_arranged j⟩

/-! ## Comparing trees -/

section

variable [DecidableEq φ]

mutual

/-- Whether two trees are the same. -/
def same : Tree φ → Tree φ → Bool
  | .null, .null => true
  | .bool b, .bool b' => decide (b = b')
  | .number n, .number n' => decide (n = n')
  | .text s, .text s' => decide (s = s')
  | .sequence items cut, .sequence items' cut' => sameItems items items' && decide (cut = cut')
  | .map entries cut, .map entries' cut' => sameEntries entries entries' && decide (cut = cut')
  | .broken b, .broken b' => decide (b = b')
  | _, _ => false

/-- Whether some items are the same. -/
def sameItems : List (Tree φ) → List (Tree φ) → Bool
  | [], [] => true
  | t :: rest, t' :: rest' => same t t' && sameItems rest rest'
  | _, _ => false

/-- Whether some entries are the same. -/
def sameEntries : List (String × Tree φ) → List (String × Tree φ) → Bool
  | [], [] => true
  | (key, t) :: rest, (key', t') :: rest' =>
    decide (key = key') && same t t' && sameEntries rest rest'
  | _, _ => false

end

mutual

/-- Trees that compare as the same are equal. -/
theorem same_iff : (t t' : Tree φ) → (t.same t' ↔ t = t')
  | .null, t' => by cases t' <;> simp [same]
  | .bool b, t' => by cases t' <;> simp [same]
  | .number n, t' => by cases t' <;> simp [same]
  | .text s, t' => by cases t' <;> simp [same]
  | .sequence items cut, t' => by cases t' <;> simp [same, sameItems_iff items]
  | .map entries cut, t' => by cases t' <;> simp [same, sameEntries_iff entries]
  | .broken b, t' => by cases t' <;> simp [same]

/-- Items that compare as the same are equal. -/
theorem sameItems_iff : (items items' : List (Tree φ)) → (sameItems items items' ↔ items = items')
  | [], items' => by cases items' <;> simp [sameItems]
  | t :: rest, items' => by cases items' <;> simp [sameItems, same_iff t, sameItems_iff rest]

/-- Entries that compare as the same are equal. -/
theorem sameEntries_iff : (entries entries' : List (String × Tree φ)) →
    (sameEntries entries entries' ↔ entries = entries')
  | [], entries' => by cases entries' <;> simp [sameEntries]
  | (key, t) :: rest, entries' => by
    cases entries' <;> simp [sameEntries, Prod.ext_iff, same_iff t, sameEntries_iff rest]

end

instance : DecidableEq (Tree φ) := fun t t' => decidable_of_iff _ (same_iff t t')

end

end Tree

end CardRules
