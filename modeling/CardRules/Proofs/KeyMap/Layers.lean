import CardRules.Proofs.KeyMap

/-!
# Layers of maps

Maps may lie one over the other: of the values of a key the one in the last map that has the key
counts.  `KeyMap.top?` finds it, and `KeyMap.flatten` puts all layers into one map, in which every
key has its topmost value (`get?_flatten`).

`KeyMap.Alike` relates two lists of layers if one is got from the other by regrouping the entries or
by changes to entries that a later layer covers.  Layers that are alike are flattened to the same
map (`Alike.flatten_eq`), since a map is known from the values of its keys (`ext_get?`).
-/

namespace CardRules

namespace KeyMap

variable {α : Type}

/-! ## The topmost value -/

/-- The value of a key in the last layer that has it. -/
def top? (layers : List (KeyMap α)) (key : String) : Option α :=
  layers.findSomeRev? (·.get? key)

/-- All layers in one map; the entries of a later layer cover those of an earlier one. -/
def flatten (layers : List (KeyMap α)) : KeyMap α :=
  ofList (layers.flatMap (·.entries))

/-- In the map of all layers a key has its topmost value. -/
theorem get?_flatten (layers : List (KeyMap α)) (key : String) :
    (flatten layers).get? key = top? layers key :=
  get?_ofList_flatMap layers key

/-- Layers are searched from the last one to the first one. -/
lemma top?_eq_findSome? (layers : List (KeyMap α)) (key : String) :
    top? layers key = layers.reverse.findSome? (·.get? key) := by
  induction layers with
  | nil => rfl
  | cons m rest ih =>
    rw [List.reverse_cons, List.findSome?_append, ← ih, top?, List.findSomeRev?, top?]
    cases List.findSomeRev? (·.get? key) rest with
    | some v => rfl
    | none => cases h : m.get? key <;> simp [h]

/-- Of layers over others the upper ones count first. -/
lemma top?_append (lower upper : List (KeyMap α)) (key : String) :
    top? (lower ++ upper) key = (top? upper key).or (top? lower key) := by
  rw [top?_eq_findSome?, List.reverse_append, List.findSome?_append, ← top?_eq_findSome?,
    ← top?_eq_findSome?]

/-- The topmost value of a key stands in a layer, and no layer above has the key. -/
theorem top?_eq_some_iff {layers : List (KeyMap α)} {key : String} {value : α} :
    top? layers key = some value ↔
      ∃ below m above, layers = below ++ m :: above ∧ m.get? key = some value ∧
        ∀ n ∈ above, n.get? key = none := by
  rw [top?_eq_findSome?, List.findSome?_eq_some_iff]
  constructor
  · rintro ⟨above, m, below, hlayers, hm, habove⟩
    refine ⟨below.reverse, m, above.reverse, ?_, hm, fun n hn => habove n (List.mem_reverse.1 hn)⟩
    rw [← List.reverse_reverse layers, hlayers]
    simp
  · rintro ⟨below, m, above, rfl, hm, habove⟩
    refine ⟨above.reverse, m, below.reverse, ?_, hm, fun n hn => habove n (List.mem_reverse.1 hn)⟩
    simp

/-- A key has a topmost value if a layer has the key. -/
theorem isSome_top?_iff {layers : List (KeyMap α)} {key : String} :
    (top? layers key).isSome ↔ ∃ m ∈ layers, (m.get? key).isSome := by
  rw [top?_eq_findSome?, List.findSome?_isSome_iff]
  simp only [List.mem_reverse]

/-! ## Layers that are alike -/

/-- Two lists of layers are *alike* if one is got from the other by such steps:

* the entries one after the other are the same, as when a layer is split into single entries or an
  empty layer is put in between;
* two neighbours are merged;
* a layer is exchanged for one that differs from it only where a later layer has the key. -/
inductive Alike : List (KeyMap α) → List (KeyMap α) → Prop
  | sameEntries {layers layers' : List (KeyMap α)} :
      layers.flatMap (·.entries) = layers'.flatMap (·.entries) → Alike layers layers'
  | merge (m n : KeyMap α) : Alike [m, n] [flatten [m, n]]
  | cover (m m' : KeyMap α) (above : List (KeyMap α)) :
      (∀ key, m.get? key = m'.get? key ∨ ∃ n ∈ above, (n.get? key).isSome) →
      Alike (m :: above) (m' :: above)
  | append {lower lower' upper upper' : List (KeyMap α)} : Alike lower lower' →
      Alike upper upper' → Alike (lower ++ upper) (lower' ++ upper')
  | symm {layers layers' : List (KeyMap α)} : Alike layers layers' → Alike layers' layers
  | trans {layers layers' layers'' : List (KeyMap α)} : Alike layers layers' →
      Alike layers' layers'' → Alike layers layers''

/-- Layers with the same entries have the same topmost values. -/
lemma top?_of_sameEntries {layers layers' : List (KeyMap α)}
    (h : layers.flatMap (·.entries) = layers'.flatMap (·.entries)) (key : String) :
    top? layers key = top? layers' key := by
  rw [← get?_flatten, ← get?_flatten, flatten, flatten, h]

/-- The topmost value of one layer over others. -/
lemma top?_cons (m : KeyMap α) (above : List (KeyMap α)) (key : String) :
    top? (m :: above) key = (top? above key).or (m.get? key) := by
  have hsingle : top? [m] key = m.get? key := by
    rw [top?_eq_findSome?]
    simp
  rw [← List.singleton_append, top?_append, hsingle]

/-- **In layers that are alike every key has the same topmost value.** -/
theorem Alike.top?_eq {layers layers' : List (KeyMap α)} (h : Alike layers layers') :
    ∀ key, top? layers key = top? layers' key := by
  induction h with
  | sameEntries hentries => exact top?_of_sameEntries hentries
  | merge m n =>
    -- Merging sorts the entries, so the layers are compared with their map and not entry by entry.
    intro key
    rw [top?_cons (flatten _), get?_flatten]
    rfl
  | cover m m' above hcover =>
    intro key
    rw [top?_cons, top?_cons]
    rcases hcover key with hsame | hlater
    · rw [hsame]
    · obtain ⟨v, hv⟩ := Option.isSome_iff_exists.1 (isSome_top?_iff.2 hlater)
      rw [hv, Option.some_or, Option.some_or]
  | append _ _ ihlower ihupper =>
    intro key
    rw [top?_append, top?_append, ihlower key, ihupper key]
  | symm _ ih => exact fun key => (ih key).symm
  | trans _ _ ih ih' => exact fun key => (ih key).trans (ih' key)

/-- **Layers that are alike are flattened to the same map.** -/
theorem Alike.flatten_eq {layers layers' : List (KeyMap α)} (h : Alike layers layers') :
    flatten layers = flatten layers' :=
  ext_get? fun key => by rw [get?_flatten, get?_flatten, h.top?_eq key]

end KeyMap

end CardRules
