import CardRules.KeyMap
import Mathlib.Data.Finset.Card
import Mathlib.Data.List.Perm.Basic
import Mathlib.Tactic.Lemma

/-!
# Maps built from entries

`KeyMap.ofList` enters the entries of a list one after the other, so that the last value of a key is
the one it has in the end (`get?_ofList`).  In the entries of a map no key is repeated, and it makes
no difference from which side they are searched (`lookup_reverse`).

If no key is repeated, building a map only sorts the entries (`entries_ofList_perm`), so that their
order does not matter (`ofList_eq_of_perm`), and a map is built again from its own entries
(`ofList_entries`).

`KeyMap.ofListFirst` keeps the first value of a key instead (`get?_ofListFirst`), one for each of the
keys (`size_ofListFirst`).

The value of one entry can be changed without a trace, or it changes in the map and nothing else does
(`ofList_split`).  A map is known from the values of its keys (`ext_get?`), so that values may as well
be changed, and keys chosen, before the map is built (`ofList_map`, `entries_ofList_filter`).
-/

namespace CardRules

namespace KeyMap

variable {α : Type}

/-- A key is looked up in the first of two lists, and then in the second. -/
lemma lookup_append (key : String) (xs ys : List (String × α)) :
    lookup key (xs ++ ys) = (lookup key xs).or (lookup key ys) := by
  induction xs with
  | nil => rfl
  | cons x xs ih =>
    obtain ⟨k, v⟩ := x
    rw [List.cons_append, lookup, lookup, ih]
    split <;> rfl

/-- In ascending entries a key is found from the end as from the beginning. -/
lemma lookup_reverse (key : String) {entries : List (String × α)}
    (h : entries.Pairwise fun a b => a.1 < b.1) :
    lookup key entries.reverse = lookup key entries := by
  induction entries with
  | nil => rfl
  | cons hd tl ih =>
    obtain ⟨k, v⟩ := hd
    obtain ⟨hhd, htl⟩ := List.pairwise_cons.1 h
    rw [List.reverse_cons, lookup_append, ih htl, lookup, lookup, lookup]
    by_cases hk : k = key
    · subst hk
      rw [lookup_eq_none hhd, if_pos rfl]
      rfl
    · rw [if_neg hk, if_neg hk, Option.or_none]

/-- Entering more entries into a map: the last value of a key counts, and the value in the map only
if there is none. -/
lemma get?_foldl_insert (m : KeyMap α) (entries : List (String × α)) (key : String) :
    (entries.foldl (fun m e => m.insert e.1 e.2) m).get? key =
      (lookup key entries.reverse).or (m.get? key) := by
  induction entries generalizing m with
  | nil => rfl
  | cons e rest ih =>
    obtain ⟨k, v⟩ := e
    rw [List.foldl_cons, ih, get?_insert, List.reverse_cons, lookup_append, Option.or_assoc]
    congr 1
    rw [lookup, lookup]
    by_cases hk : k = key
    · rw [if_pos hk, if_pos hk.symm]
      rfl
    · rw [if_neg hk, if_neg (Ne.symm hk)]
      rfl

/-- In the map of a list of entries a key has its last value. -/
theorem get?_ofList (entries : List (String × α)) (key : String) :
    (ofList entries).get? key = lookup key entries.reverse := by
  rw [ofList, get?_foldl_insert, get?_empty, Option.or_none]

/-- In the map of the entries of several maps a key has its value in the last map that has it. -/
theorem get?_ofList_flatMap (maps : List (KeyMap α)) (key : String) :
    (ofList (maps.flatMap (·.entries))).get? key = maps.findSomeRev? (·.get? key) := by
  rw [get?_ofList]
  induction maps with
  | nil => rfl
  | cons m maps ih =>
    rw [List.flatMap_cons, List.reverse_append, lookup_append, ih, lookup_reverse key m.ascending,
      List.findSomeRev?]
    cases maps.findSomeRev? (·.get? key) <;> rfl

/-! ## The order of the entries -/

/-- No key of a map is repeated. -/
theorem nodup_keys (m : KeyMap α) : (m.entries.map (·.1)).Nodup := by
  rw [List.Nodup, List.pairwise_map]
  refine m.ascending.imp fun {a b} hlt heq => ?_
  rw [heq] at hlt
  exact String.lt_irrefl _ hlt

/-- Two maps with the same entries in any order are equal. -/
theorem eq_of_perm {m n : KeyMap α} (h : m.entries.Perm n.entries) : m = n := by
  refine KeyMap.ext (h.eq_of_pairwise (fun a b _ _ hab hba => ?_) m.ascending n.ascending)
  exact absurd (String.lt_trans hab hba) (String.lt_irrefl _)

/-- A new key is put somewhere among the entries, which stay as they are. -/
lemma place_perm {merge : α → α → α} {key : String} {value : α} {entries : List (String × α)}
    (h : key ∉ entries.map (·.1)) :
    (place merge key value entries).Perm ((key, value) :: entries) := by
  induction entries with
  | nil => rfl
  | cons e rest ih =>
    obtain ⟨k, v⟩ := e
    rw [List.map_cons, List.mem_cons, not_or] at h
    obtain ⟨hne, hrest⟩ := h
    by_cases hlt : key < k
    · rw [place, if_pos hlt]
    · rw [place, if_neg hlt, if_neg hne]
      exact ((ih hrest).cons (k, v)).trans (List.Perm.swap ..)

/-- Entering new keys into a map adds their entries to those of the map. -/
lemma foldl_insert_perm {entries : List (String × α)} {m : KeyMap α}
    (h : ((m.entries ++ entries).map (·.1)).Nodup) :
    (entries.foldl (fun m e => m.insert e.1 e.2) m).entries.Perm (m.entries ++ entries) := by
  induction entries generalizing m with
  | nil => rw [List.append_nil, List.foldl_nil]
  | cons e rest ih =>
    have hfront : (m.entries ++ e :: rest).Perm (e :: m.entries ++ rest) := List.perm_middle
    have hnodup : ((e :: m.entries ++ rest).map (·.1)).Nodup := (hfront.map _).nodup_iff.1 h
    have hnew : e.1 ∉ m.entries.map (·.1) := by
      rw [List.cons_append, List.map_cons, List.map_append, List.nodup_cons] at hnodup
      exact fun hmem => hnodup.1 (List.mem_append_left _ hmem)
    have hplace : ((m.insert e.1 e.2).entries ++ rest).Perm (e :: m.entries ++ rest) :=
      (place_perm hnew).append_right rest
    rw [List.foldl_cons]
    exact (ih ((hplace.map _).nodup_iff.2 hnodup)).trans (hplace.trans hfront.symm)

/-- If no key is repeated, building a map keeps all entries. -/
theorem entries_ofList_perm {entries : List (String × α)} (h : (entries.map (·.1)).Nodup) :
    (ofList entries).entries.Perm entries :=
  foldl_insert_perm (m := empty) h

/-- If no key is repeated, the order of the entries makes no difference to the map. -/
theorem ofList_eq_of_perm {xs ys : List (String × α)} (h : xs.Perm ys)
    (hx : (xs.map (·.1)).Nodup) : ofList xs = ofList ys := by
  have hy : (ys.map (·.1)).Nodup := (h.map _).nodup_iff.1 hx
  exact eq_of_perm ((entries_ofList_perm hx).trans (h.trans (entries_ofList_perm hy).symm))

/-- A map is built again from its own entries. -/
theorem ofList_entries (m : KeyMap α) : ofList m.entries = m :=
  eq_of_perm (entries_ofList_perm m.nodup_keys)

/-! ## The first value of a key -/

/-- Entering more entries into a map that keeps what it has: the value in the map counts, and the
first value of a key only if there is none. -/
lemma get?_foldl_insertNew (m : KeyMap α) (entries : List (String × α)) (key : String) :
    (entries.foldl (fun m e => m.insertNew e.1 e.2) m).get? key =
      (m.get? key).or (lookup key entries) := by
  induction entries generalizing m with
  | nil => exact (Option.or_none).symm
  | cons e rest ih =>
    obtain ⟨k, v⟩ := e
    rw [List.foldl_cons, ih, get?_insertNew, lookup]
    by_cases hk : key = k
    · subst hk
      rw [if_pos rfl, if_pos rfl]
      cases m.get? key <;> rfl
    · rw [if_neg hk, if_neg (Ne.symm hk)]

/-- In the map of the first entries of a list a key has its first value. -/
theorem get?_ofListFirst (entries : List (String × α)) (key : String) :
    (ofListFirst entries).get? key = lookup key entries := by
  rw [ofListFirst, get?_foldl_insertNew, get?_empty, Option.none_or]

/-- The keys of entries are those under which there is a value. -/
lemma mem_keys_iff {entries : List (String × α)} {key : String} :
    key ∈ entries.map (·.1) ↔ (lookup key entries).isSome := by
  induction entries with
  | nil => simp [lookup]
  | cons e rest ih =>
    obtain ⟨k, v⟩ := e
    rw [List.map_cons, List.mem_cons, ih, lookup]
    by_cases hk : k = key
    · simp [hk]
    · simp [hk, Ne.symm hk]

/-- The map of the first entries of a list has one entry for each key. -/
theorem size_ofListFirst (entries : List (String × α)) :
    (ofListFirst entries).size = (entries.map (·.1)).toFinset.card := by
  have hkeys : ((ofListFirst entries).entries.map (·.1)).toFinset =
      (entries.map (·.1)).toFinset := by
    ext key
    rw [List.mem_toFinset, List.mem_toFinset, mem_keys_iff, mem_keys_iff,
      ← get?_ofListFirst entries key]
    rfl
  rw [← hkeys, List.toFinset_card_of_nodup (nodup_keys _), List.length_map]
  rfl

/-! ## Changing one value -/

/-- A new value is placed among the entries of a map. -/
lemma entries_insert (m : KeyMap α) (key : String) (value : α) :
    (m.insert key value).entries = place (fun _ new => new) key value m.entries :=
  rfl

/-- A key is placed somewhere, and where does not depend on its value. -/
lemma exists_place_split (key : String) (entries : List (String × α)) :
    ∃ before after, ∀ value,
      place (fun _ new => new) key value entries = before ++ (key, value) :: after := by
  induction entries with
  | nil => exact ⟨[], [], fun _ => rfl⟩
  | cons e rest ih =>
    obtain ⟨k, v⟩ := e
    obtain ⟨before, after, hrest⟩ := ih
    by_cases hlt : key < k
    · exact ⟨[], (k, v) :: rest, fun value => by rw [place, if_pos hlt, List.nil_append]⟩
    · by_cases heq : key = k
      · refine ⟨[], rest, fun value => ?_⟩
        rw [place, if_neg hlt, if_pos heq, heq, List.nil_append]
      · refine ⟨(k, v) :: before, after, fun value => ?_⟩
        rw [place, if_neg hlt, if_neg heq, hrest, List.cons_append]

/-- Where another key is placed does not depend on the value of an entry either. -/
lemma exists_place_other (merge : α → α → α) {key k : String} (hne : key ≠ k) (value : α)
    (before after : List (String × α)) :
    ∃ before' after', ∀ v,
      place merge key value (before ++ (k, v) :: after) = before' ++ (k, v) :: after' := by
  induction before with
  | nil =>
    by_cases hlt : key < k
    · exact ⟨[(key, value)], after, fun v => by rw [List.nil_append, place, if_pos hlt]; rfl⟩
    · refine ⟨[], place merge key value after, fun v => ?_⟩
      rw [List.nil_append, place, if_neg hlt, if_neg hne, List.nil_append]
  | cons e rest ih =>
    obtain ⟨k', w⟩ := e
    obtain ⟨before', after', hrest⟩ := ih
    by_cases hlt : key < k'
    · refine ⟨(key, value) :: (k', w) :: rest, after, fun v => ?_⟩
      rw [List.cons_append, place, if_pos hlt]
      rfl
    · by_cases heq : key = k'
      · refine ⟨(k', merge w value) :: rest, after, fun v => ?_⟩
        rw [List.cons_append, place, if_neg hlt, if_pos heq, List.cons_append]
      · refine ⟨(k', w) :: before', after', fun v => ?_⟩
        rw [List.cons_append, place, if_neg hlt, if_neg heq, hrest, List.cons_append]

/-- The newer value of a key takes the place of the older one. -/
lemma place_split {key : String} {value v : α} {before after : List (String × α)}
    (h : (before ++ (key, v) :: after).Pairwise fun a b => a.1 < b.1) :
    place (fun _ new => new) key value (before ++ (key, v) :: after) =
      before ++ (key, value) :: after := by
  induction before with
  | nil =>
    have hirrefl : ¬ key < key := String.lt_irrefl _
    rw [List.nil_append, place, if_neg hirrefl, if_pos rfl, List.nil_append]
  | cons e rest ih =>
    obtain ⟨k, w⟩ := e
    obtain ⟨hfirst, hrest⟩ := List.pairwise_cons.1 h
    have hlt : k < key := hfirst (key, v) (List.mem_append_right _ List.mem_cons_self)
    have hnlt : ¬ key < k := fun hkey => String.lt_irrefl _ (String.lt_trans hlt hkey)
    have hne : key ≠ k := fun heq => String.lt_irrefl _ (heq ▸ hlt)
    rw [List.cons_append, place, if_neg hnlt, if_neg hne, ih hrest, List.cons_append]

/-- Entering more entries into a map: a value that is in the map is overwritten, whatever it is, or
it stays and the other entries do not depend on it. -/
lemma foldl_insert_split {key : String} (entries : List (String × α)) (m : α → KeyMap α)
    {before after : List (String × α)} (h : ∀ v, (m v).entries = before ++ (key, v) :: after) :
    (∀ v v', entries.foldl (fun m e => m.insert e.1 e.2) (m v) =
      entries.foldl (fun m e => m.insert e.1 e.2) (m v')) ∨
    ∃ before' after', ∀ v, (entries.foldl (fun m e => m.insert e.1 e.2) (m v)).entries =
      before' ++ (key, v) :: after' := by
  induction entries generalizing m before after with
  | nil => exact .inr ⟨before, after, h⟩
  | cons e rest ih =>
    obtain ⟨k, w⟩ := e
    by_cases heq : k = key
    · subst heq
      have hinsert (v : α) : ((m v).insert k w).entries = before ++ (k, w) :: after := by
        have hascending := (m v).ascending
        rw [h v] at hascending
        rw [entries_insert, h v, place_split hascending]
      refine .inl fun v v' => ?_
      rw [List.foldl_cons, List.foldl_cons,
        KeyMap.ext ((hinsert v).trans (hinsert v').symm)]
    · obtain ⟨before', after', hplace⟩ :=
        exists_place_other (fun _ new => new) heq w before after
      have hinsert (v : α) : ((m v).insert k w).entries = before' ++ (key, v) :: after' := by
        rw [entries_insert, h v, hplace v]
      exact ih (fun v => (m v).insert k w) hinsert

/-- **What the value of one entry is to a map.**  It does not count, since a later entry has the same
key, or the map has it and everything else in the map does not depend on it. -/
theorem ofList_split (before : List (String × α)) (key : String) (after : List (String × α)) :
    (∀ v v', ofList (before ++ (key, v) :: after) = ofList (before ++ (key, v') :: after)) ∨
    ∃ before' after', ∀ v,
      (ofList (before ++ (key, v) :: after)).entries = before' ++ (key, v) :: after' := by
  obtain ⟨front, back, hplace⟩ := exists_place_split key (ofList before).entries
  have hfold (v : α) : ofList (before ++ (key, v) :: after) =
      after.foldl (fun m e => m.insert e.1 e.2) ((ofList before).insert key v) := by
    rw [ofList, List.foldl_append, List.foldl_cons, ← ofList]
  simp only [hfold]
  exact foldl_insert_split after (fun v => (ofList before).insert key v) hplace

/-! ## Maps and the values of their keys -/

/-- The entries of a map are its keys with their values. -/
lemma mem_entries_iff {m : KeyMap α} {key : String} {value : α} :
    (key, value) ∈ m.entries ↔ m.get? key = some value := by
  obtain ⟨entries, hascending⟩ := m
  change (key, value) ∈ entries ↔ lookup key entries = some value
  induction entries with
  | nil => simp [lookup]
  | cons e rest ih =>
    obtain ⟨k, v⟩ := e
    obtain ⟨hfirst, hrest⟩ := List.pairwise_cons.1 hascending
    rw [List.mem_cons, ih hrest, lookup]
    by_cases hk : k = key
    · subst hk
      have hnone : lookup k rest = none := lookup_eq_none hfirst
      simp [hnone, eq_comm]
    · simp [hk, Ne.symm hk]

/-- Two maps in which every key has the same value are equal. -/
theorem ext_get? {m n : KeyMap α} (h : ∀ key, m.get? key = n.get? key) : m = n := by
  have hnodup (m : KeyMap α) : m.entries.Nodup := (nodup_keys m).of_map _
  refine eq_of_perm ((List.perm_ext_iff_of_nodup (hnodup m) (hnodup n)).2 fun e => ?_)
  obtain ⟨key, value⟩ := e
  rw [mem_entries_iff, mem_entries_iff, h]

/-! ## Maps of changed values -/

variable {β : Type}

/-- The map with a function applied to every value. -/
def map (f : α → β) (m : KeyMap α) : KeyMap β where
  entries := m.entries.map fun e => (e.1, f e.2)
  ascending := List.pairwise_map.2 m.ascending

/-- A map stays as it is if a function leaves all its values as they are. -/
lemma map_eq_self_iff {g : α → α} {m : KeyMap α} :
    m.map g = m ↔ ∀ e ∈ m.entries, g e.2 = e.2 := by
  rw [KeyMap.ext_iff]
  constructor
  · intro h e he
    have hentry := List.map_inj_left.1 (h.trans (List.map_id _).symm) e he
    exact congrArg (·.2) hentry
  · intro h
    refine (List.map_congr_left fun e he => ?_).trans (List.map_id _)
    exact congrArg (e.1, ·) (h e he)

/-- A function applied to the values among entries is applied to what is found. -/
lemma lookup_map (g : α → β) (key : String) (entries : List (String × α)) :
    lookup key (entries.map fun e => (e.1, g e.2)) = (lookup key entries).map g := by
  induction entries with
  | nil => rfl
  | cons e rest ih =>
    obtain ⟨k, v⟩ := e
    rw [List.map_cons, lookup, lookup, ih]
    split <;> rfl

/-- Building a map and applying a function to the values go together. -/
theorem ofList_map (g : α → β) (entries : List (String × α)) :
    ofList (entries.map fun e => (e.1, g e.2)) = (ofList entries).map g := by
  refine ext_get? fun key => ?_
  rw [get?_ofList, ← List.map_reverse, lookup_map, ← get?_ofList]
  exact (lookup_map g key (ofList entries).entries).symm

/-! ## Some of the keys -/

/-- Only chosen keys are found among the entries with chosen keys. -/
lemma lookup_filter (p : String → Bool) (key : String) (entries : List (String × α)) :
    lookup key (entries.filter (p ·.1)) = if p key then lookup key entries else none := by
  induction entries with
  | nil => simp [lookup]
  | cons e rest ih =>
    obtain ⟨k, v⟩ := e
    rw [List.filter_cons]
    by_cases hk : k = key
    · subst hk
      by_cases hp : p k
      · simp [hp, lookup]
      · simp [hp, ih]
    · by_cases hp : p k
      · simp only [hp, if_true, lookup, if_neg hk, ih]
      · simp [hp, lookup, if_neg hk, ih]

/-- Building a map and choosing keys go together. -/
theorem entries_ofList_filter (p : String → Bool) (entries : List (String × α)) :
    (ofList entries).entries.filter (p ·.1) = (ofList (entries.filter (p ·.1))).entries := by
  let chosen : KeyMap α :=
    ⟨(ofList entries).entries.filter (p ·.1), (ofList entries).ascending.filter _⟩
  have hchosen : chosen = ofList (entries.filter (p ·.1)) := by
    refine ext_get? fun key => ?_
    have hget : chosen.get? key = if p key then (ofList entries).get? key else none :=
      lookup_filter p key (ofList entries).entries
    rw [hget, get?_ofList, get?_ofList, ← List.filter_reverse, lookup_filter]
  exact congrArg KeyMap.entries hchosen

/-! ## Where entries come from -/

/-- An entry that is there after another one has been put among the entries is that one, or was
there before. -/
lemma mem_of_mem_place {key : String} {value : α} {entries : List (String × α)} {e : String × α}
    (h : e ∈ place (fun _ new => new) key value entries) : e = (key, value) ∨ e ∈ entries := by
  induction entries with
  | nil => exact .inl (List.mem_singleton.1 h)
  | cons hd tl ih =>
    obtain ⟨k, v⟩ := hd
    rw [place] at h
    split at h
    · exact List.mem_cons.1 h
    · split at h
      · rename_i heq
        rcases List.mem_cons.1 h with h | h
        · exact .inl (heq ▸ h)
        · exact .inr (List.mem_cons_of_mem _ h)
      · rcases List.mem_cons.1 h with h | h
        · exact .inr (h ▸ List.mem_cons_self)
        · exact (ih h).imp_right (List.mem_cons_of_mem _)

/-- The entries of a map that was built from a list are in the list. -/
theorem mem_of_mem_ofList {entries : List (String × α)} {e : String × α}
    (h : e ∈ (ofList entries).entries) : e ∈ entries := by
  suffices hfold : ∀ m : KeyMap α,
      e ∈ (entries.foldl (fun m e => m.insert e.1 e.2) m).entries → e ∈ m.entries ∨ e ∈ entries by
    exact (hfold empty h).resolve_left List.not_mem_nil
  clear h
  induction entries with
  | nil => exact fun _ => .inl
  | cons e' rest ih =>
    intro m h
    rcases ih (m.insert e'.1 e'.2) h with h | h
    · rcases mem_of_mem_place h with h | h
      · exact .inr (h ▸ List.mem_cons_self)
      · exact .inl h
    · exact .inr (List.mem_cons_of_mem _ h)

end KeyMap

end CardRules
