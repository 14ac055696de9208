import CardRules.Proofs.Json.Value

/-!
# Trees that differ in one part

A path leads into a tree through the entries of its maps and the items of its sequences.
`Tree.ReplacesAt` relates two trees that differ at the end of a path only.  Where a map repeats a key
a path may go through any of the entries, and which one counts is for the reader to decide.

What two such trees say differs in the same part (`ReplacesAt.value`).  When values are arranged, an
entry that does not count is dropped, and the difference with it (`ReplacesAt.arranged`).
-/

namespace CardRules

/-! ## Lists that differ in one element -/

/-- Two lists differ in one element, the elements of that number, which are related. -/
def OneDiffers {α : Type} (index : Nat) (R : α → α → Prop) (as as' : List α) : Prop :=
  ∃ before a a' after, as = before ++ a :: after ∧ as' = before ++ a' :: after ∧
    before.length = index ∧ R a a'

namespace Tree

variable {φ : Type}

/-- A step into a tree. -/
inductive Step where
  | entry (key : String)
  | item (index : Nat)
deriving DecidableEq

/-- A tree takes the place of another one at the end of a path; all else in the first tree stays as it
is in the second. -/
inductive ReplacesAt (new : Tree φ) : List Step → Tree φ → Tree φ → Prop
  | here (t : Tree φ) : ReplacesAt new [] t new
  | entry {path : List Step} {t t' : Tree φ} (key : String) (before after : List (String × Tree φ))
      (cut : Option (Cut φ)) : ReplacesAt new path t t' →
      ReplacesAt new (.entry key :: path) (.map (before ++ (key, t) :: after) cut)
        (.map (before ++ (key, t') :: after) cut)
  | item {path : List Step} {t t' : Tree φ} (before after : List (Tree φ)) (cut : Option (Cut φ)) :
      ReplacesAt new path t t' →
      ReplacesAt new (.item before.length :: path) (.sequence (before ++ t :: after) cut)
        (.sequence (before ++ t' :: after) cut)

/-! ## Values of several items and entries -/

/-- The values of items are those of the items before one of them, of this one and of those
behind it. -/
lemma valueItems_split_iff {before after : List (Tree φ)} {t : Tree φ} {js : List Json} :
    valueItems (before ++ t :: after) = .ok js ↔
      ∃ front j back, valueItems before = .ok front ∧ t.value = .ok j ∧
        valueItems after = .ok back ∧ js = front ++ j :: back := by
  induction before generalizing js with
  | nil =>
    rw [List.nil_append, valueItems_cons_iff]
    constructor
    · rintro ⟨j, back, ht, hback, rfl⟩
      exact ⟨[], j, back, rfl, ht, hback, rfl⟩
    · rintro ⟨front, j, back, hfront, ht, hback, rfl⟩
      cases hfront
      exact ⟨j, back, ht, hback, rfl⟩
  | cons s before ih =>
    rw [List.cons_append, valueItems_cons_iff]
    constructor
    · rintro ⟨i, js', hs, hrest, rfl⟩
      obtain ⟨front, j, back, hfront, ht, hback, rfl⟩ := ih.1 hrest
      exact ⟨i :: front, j, back, valueItems_cons_iff.2 ⟨i, front, hs, hfront, rfl⟩, ht, hback, rfl⟩
    · rintro ⟨_, j, back, hfirst, ht, hback, rfl⟩
      obtain ⟨i, front, hs, hfront, rfl⟩ := valueItems_cons_iff.1 hfirst
      exact ⟨i, _, hs, ih.2 ⟨front, j, back, hfront, ht, hback, rfl⟩, rfl⟩

/-- The values of entries are those of the entries before one of them, of this one and of those
behind it. -/
lemma valueEntries_split_iff {before after : List (String × Tree φ)} {key : String} {t : Tree φ}
    {js : List (String × Json)} :
    valueEntries (before ++ (key, t) :: after) = .ok js ↔
      ∃ front j back, valueEntries before = .ok front ∧ t.value = .ok j ∧
        valueEntries after = .ok back ∧ js = front ++ (key, j) :: back := by
  induction before generalizing js with
  | nil =>
    rw [List.nil_append, valueEntries_cons_iff]
    constructor
    · rintro ⟨j, back, ht, hback, rfl⟩
      exact ⟨[], j, back, rfl, ht, hback, rfl⟩
    · rintro ⟨front, j, back, hfront, ht, hback, rfl⟩
      cases hfront
      exact ⟨j, back, ht, hback, rfl⟩
  | cons e before ih =>
    obtain ⟨k, s⟩ := e
    rw [List.cons_append, valueEntries_cons_iff]
    constructor
    · rintro ⟨i, js', hs, hrest, rfl⟩
      obtain ⟨front, j, back, hfront, ht, hback, rfl⟩ := ih.1 hrest
      exact ⟨(k, i) :: front, j, back, valueEntries_cons_iff.2 ⟨i, front, hs, hfront, rfl⟩, ht,
        hback, rfl⟩
    · rintro ⟨_, j, back, hfirst, ht, hback, rfl⟩
      obtain ⟨i, front, hs, hfront, rfl⟩ := valueEntries_cons_iff.1 hfirst
      exact ⟨i, _, hs, ih.2 ⟨front, j, back, hfront, ht, hback, rfl⟩, rfl⟩

/-- There is a value for every item. -/
lemma length_valueItems {items : List (Tree φ)} {js : List Json} (h : valueItems items = .ok js) :
    js.length = items.length := by
  induction items generalizing js with
  | nil =>
    cases h
    rfl
  | cons t rest ih =>
    obtain ⟨j, js', -, hrest, rfl⟩ := valueItems_cons_iff.1 h
    rw [List.length_cons, List.length_cons, ih hrest]

/-! ## What is said after a replacement -/

/-- **Trees that differ at the end of a path say values that differ there**, and a tree keeps having
a value. -/
theorem ReplacesAt.value {new t t' : Tree φ} {path : List Step} {n j : Json}
    (h : new.ReplacesAt path t t') (hnew : new.value = .ok n) (ht : t.value = .ok j) :
    ∃ j', t'.value = .ok j' ∧ n.ReplacesAt path j j' := by
  induction h generalizing j with
  | here t => exact ⟨n, hnew, .here j⟩
  | entry key before after cut _ ih =>
    obtain ⟨rfl, js, hjs, rfl⟩ := value_map_iff.1 ht
    obtain ⟨front, j, back, hfront, hj, hback, rfl⟩ := valueEntries_split_iff.1 hjs
    obtain ⟨j', hj', hreplaced⟩ := ih hj
    have hjs' : valueEntries (before ++ (key, _) :: after) = .ok (front ++ (key, j') :: back) :=
      valueEntries_split_iff.2 ⟨front, j', back, hfront, hj', hback, rfl⟩
    exact ⟨_, value_map_iff.2 ⟨rfl, _, hjs', rfl⟩, .entry key front back none hreplaced⟩
  | item before after cut _ ih =>
    obtain ⟨rfl, js, hjs, rfl⟩ := value_sequence_iff.1 ht
    obtain ⟨front, j, back, hfront, hj, hback, rfl⟩ := valueItems_split_iff.1 hjs
    obtain ⟨j', hj', hreplaced⟩ := ih hj
    have hjs' := valueItems_split_iff.2 ⟨front, j', back, hfront, hj', hback, rfl⟩
    rw [← length_valueItems hfront]
    exact ⟨_, value_sequence_iff.2 ⟨rfl, _, hjs', rfl⟩, .item front back none hreplaced⟩

/-- **Arranged values differ at the end of the same path, or not at all.** -/
theorem ReplacesAt.arranged {new j j' : Json} {path : List Step} (h : new.ReplacesAt path j j') :
    j'.arranged = j.arranged ∨ new.arranged.ReplacesAt path j.arranged j'.arranged := by
  induction h with
  | here j => exact .inr (.here _)
  | @entry path j j' key before after cut _ ih =>
    have hentries (i : Json) : arrangedEntries (before ++ (key, i) :: after) =
        arrangedEntries before ++ (key, i.arranged) :: arrangedEntries after := by
      rw [arrangedEntries_eq_map, arrangedEntries_eq_map, arrangedEntries_eq_map, List.map_append,
        List.map_cons]
    rw [Tree.arranged, Tree.arranged, hentries, hentries]
    rcases ih with heq | hreplaced
    · exact .inl (by rw [heq])
    · rcases KeyMap.ofList_split (arrangedEntries before) key (arrangedEntries after) with
        hsame | ⟨front, back, hsplit⟩
      · exact .inl (by rw [hsame j'.arranged j.arranged])
      · rw [hsplit, hsplit]
        exact .inr (.entry key front back none hreplaced)
  | @item path j j' before after cut _ ih =>
    have hitems (i : Json) : arrangedItems (before ++ i :: after) =
        before.map Tree.arranged ++ i.arranged :: after.map Tree.arranged := by
      rw [arrangedItems_eq_map, List.map_append, List.map_cons]
    rw [Tree.arranged, Tree.arranged, hitems, hitems]
    rcases ih with heq | hreplaced
    · exact .inl (by rw [heq])
    · have hindex : (before.map Tree.arranged).length = before.length := List.length_map ..
      rw [← hindex]
      exact .inr (.item (before.map Tree.arranged) (after.map Tree.arranged) none hreplaced)

end Tree

end CardRules
