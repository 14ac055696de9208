import CardRules.Proofs.Vocabulary

/-!
# Registers of words

A vocabulary can be kept as a *register*: a list of words, a list of values, and a place for each
value.  The word of a value is then the one at its place, and a word is looked up by its first place
among the words.  Nothing but the contents of the register keeps such a lookup within the lists, so
the lookups of a register have no outcome where a list is too short.

A register is *consistent* if both lists are of equal length, all values are listed in the order of
their places, and no word is listed twice.  In a consistent register no lookup leaves the lists, and
words and values are looked up inversely (`Register.Consistent.lookup?_eq_ok_iff`).

The main statement, `registers_govern`, says that the three vocabularies have consistent registers,
and that looking up words and values in them is what `Registered.ofWord` and `Registered.word` do.
-/

namespace CardRules

/-- The words and the values of a vocabulary in two lists, and the places of the values in them. -/
structure Register (α : Type) where
  words : List String
  values : List α
  place : α → Nat

namespace Register

variable {α : Type} {r : Register α} {s : String} {a : α} {i : Nat}

/-- The word at the place of a value, if the words reach that far. -/
def word? (r : Register α) (a : α) : Option String :=
  r.words[r.place a]?

/-- The value at the place of a word, if the values reach that far, or the error that there is no
such word. -/
def lookup? (r : Register α) (vocabulary : Vocabulary) (s : String) :
    Option (Except UnknownWord α) :=
  match r.words.idxOf? s with
  | some i => r.values[i]?.map .ok
  | none => some (.error ⟨s, vocabulary⟩)

/-- A text that is not listed is an error, and this is the only one. -/
lemma lookup?_eq_error_iff {vocabulary : Vocabulary} {e : UnknownWord} :
    r.lookup? vocabulary s = some (.error e) ↔ s ∉ r.words ∧ e = ⟨s, vocabulary⟩ := by
  rw [← List.idxOf?_eq_none_iff, lookup?]
  cases hs : r.words.idxOf? s with
  | none => simp [eq_comm]
  | some i => simp

/-! ## Consistent registers -/

/-- The lists fit to each other and to the places. -/
structure Consistent (r : Register α) : Prop where
  length_eq : r.words.length = r.values.length
  mem_values : ∀ a, a ∈ r.values
  map_place : r.values.map r.place = List.range r.values.length
  nodup_words : r.words.Nodup

namespace Consistent

/-- A value is listed at its place and nowhere else. -/
lemma getElem?_values_eq_some_iff (h : r.Consistent) : r.values[i]? = some a ↔ r.place a = i := by
  have hplace {j : Nat} {b : α} (hb : r.values[j]? = some b) : r.place b = j := by
    have hlt : j < r.values.length := (List.getElem?_eq_some_iff.1 hb).1
    have hmapped : (r.values.map r.place)[j]? = some (r.place b) := by
      rw [List.getElem?_map, hb, Option.map_some]
    rw [h.map_place, List.getElem?_range hlt] at hmapped
    exact (Option.some.inj hmapped).symm
  refine ⟨hplace, ?_⟩
  rintro rfl
  obtain ⟨j, hj⟩ := List.mem_iff_getElem?.1 (h.mem_values a)
  rw [hplace hj, hj]

/-- A listed word is found at the only place where it stands. -/
lemma idxOf?_eq_some_iff (h : r.Consistent) :
    r.words.idxOf? s = some i ↔ r.words[i]? = some s := by
  rw [List.idxOf?_eq_some_iff, List.getElem?_eq_some_iff]
  refine exists_congr fun hi => and_iff_left_of_imp fun hs j hj hsame => ?_
  have hindex : j = i := h.nodup_words.getElem_inj_iff.1 (hsame.trans hs.symm)
  omega

/-- Looking for the word of a value does not leave the list of words. -/
lemma place_lt (h : r.Consistent) (a : α) : r.place a < r.words.length := by
  have hlisted : r.values[r.place a]? = some a := h.getElem?_values_eq_some_iff.2 rfl
  rw [h.length_eq]
  exact (List.getElem?_eq_some_iff.1 hlisted).1

/-- Looking for the value of a word does not leave the list of values. -/
lemma lt_of_idxOf? (h : r.Consistent) (hs : r.words.idxOf? s = some i) : i < r.values.length := by
  rw [h.idxOf?_eq_some_iff] at hs
  rw [← h.length_eq]
  exact (List.getElem?_eq_some_iff.1 hs).1

/-- **The value that is found for a word is the one with that word.** -/
lemma lookup?_eq_ok_iff (h : r.Consistent) {vocabulary : Vocabulary} :
    r.lookup? vocabulary s = some (.ok a) ↔ r.word? a = some s := by
  rw [word?, ← h.idxOf?_eq_some_iff, lookup?]
  cases hs : r.words.idxOf? s with
  | none => simp
  | some i =>
    simp only [Option.map_eq_some_iff, Except.ok.injEq, exists_eq_right, Option.some.injEq]
    rw [h.getElem?_values_eq_some_iff, eq_comm]

/-- Words are listed as the words of values. -/
lemma mem_words_iff (h : r.Consistent) : s ∈ r.words ↔ ∃ a, r.word? a = some s := by
  constructor
  · intro hs
    obtain ⟨i, hi⟩ := List.mem_iff_getElem?.1 hs
    have hlt : i < r.values.length := h.lt_of_idxOf? (h.idxOf?_eq_some_iff.2 hi)
    have hplace := h.getElem?_values_eq_some_iff.1 (List.getElem?_eq_getElem hlt)
    exact ⟨_, by rwa [word?, hplace]⟩
  · rintro ⟨a, ha⟩
    exact List.mem_of_getElem? ha

end Consistent

/-! ## Registers of vocabularies -/

section Vocabularies

open Registered

variable [Registered α]

/-- If a consistent register lists the values and words of a vocabulary, it has the word of each
value at the place of the value. -/
lemma Consistent.word?_eq (h : r.Consistent) (hvalues : r.values = all)
    (hwords : r.words = (all : List α).map word) (a : α) : r.word? a = some (word a) := by
  have hplace : (all : List α)[r.place a]? = some a := by
    rw [← hvalues, h.getElem?_values_eq_some_iff]
  rw [word?, hwords, List.getElem?_map, hplace, Option.map_some]

variable [LawfulRegistered α]

/-- A consistent register that has the word of each value is looked up as the vocabulary is. -/
lemma Consistent.lookup?_eq (h : r.Consistent) (hword : ∀ a, r.word? a = some (word a))
    (s : String) : r.lookup? (vocabulary α) s = some (ofWord α s) := by
  by_cases hs : IsWord α s
  · obtain ⟨a, rfl⟩ := hs
    rw [ofWord_eq_ok_iff.2 rfl, h.lookup?_eq_ok_iff, hword]
  · rw [ofWord_of_not_isWord hs, lookup?_eq_error_iff]
    refine ⟨fun hmem => hs ?_, rfl⟩
    obtain ⟨a, ha⟩ := h.mem_words_iff.1 hmem
    exact ⟨a, Option.some.inj ((hword a).symm.trans ha)⟩

/-- A register *governs* a vocabulary of some title if

* a text is looked up to a value exactly if it is the word of the value;
* any other text is the error that names the text and the title;
* the word of a value is looked up to the value, and different values have different words;
* the register lists the values and the words of the vocabulary, the places of values stay within
  the words, and the places of words within the values;
* so words and values are looked up in the register as in the vocabulary. -/
structure Governs (r : Register α) (title : String) : Prop where
  ofWord_eq_ok : ∀ s a, ofWord α s = .ok a ↔ s = word a
  ofWord_eq_error : ∀ s, (∀ a : α, s ≠ word a) →
    ∃ e, ofWord α s = .error e ∧ e.word = s ∧ e.vocabulary.title = title
  ofWord_word : ∀ a : α, ofWord α (word a) = .ok a
  word_inj : ∀ a b : α, word a = word b → a = b
  values_eq : r.values = all
  words_eq : r.words = (all : List α).map word
  place_lt : ∀ a, r.place a < r.words.length
  idxOf?_lt : ∀ s i, r.words.idxOf? s = some i → i < r.values.length
  word?_eq : ∀ a, r.word? a = some (word a)
  lookup?_eq : ∀ s, r.lookup? (vocabulary α) s = some (ofWord α s)

/-- A consistent register that lists the values and words of a vocabulary governs it. -/
lemma Consistent.governs (h : r.Consistent) (hvalues : r.values = all)
    (hwords : r.words = (all : List α).map word) : r.Governs (vocabulary α).title where
  ofWord_eq_ok s a := by rw [ofWord_eq_ok_iff, eq_comm]
  ofWord_eq_error s hs := by
    have hnone : ¬ IsWord α s := fun ⟨a, ha⟩ => hs a ha.symm
    exact ⟨_, ofWord_of_not_isWord hnone, rfl, rfl⟩
  ofWord_word _ := ofWord_eq_ok_iff.2 rfl
  word_inj _ _ := word_injective
  values_eq := hvalues
  words_eq := hwords
  place_lt := h.place_lt
  idxOf?_lt _ _ := h.lt_of_idxOf?
  word?_eq := h.word?_eq hvalues hwords
  lookup?_eq := h.lookup?_eq (h.word?_eq hvalues hwords)

end Vocabularies

/-! ## The three registers -/

/-- The register of the factions. -/
def factions : Register Faction where
  words := ["guardian", "seeker", "rogue", "mystic", "survivor", "neutral"]
  values := [.guardian, .seeker, .rogue, .mystic, .survivor, .neutral]
  place := Faction.ctorIdx

/-- The register of the slots. -/
def slots : Register Slot where
  words := ["accessory", "body", "ally", "hand", "arcane", "two_handed"]
  values := [.accessory, .body, .ally, .hand, .arcane, .twoHanded]
  place := Slot.ctorIdx

/-- The register of the location conditions. -/
def locationConditions : Register LocationCondition where
  words := ["undiscovered_clues"]
  values := [.undiscoveredClues]
  place := LocationCondition.ctorIdx

/-- The register of the factions is consistent: its places are those of their declarations. -/
lemma consistent_factions : factions.Consistent where
  length_eq := rfl
  mem_values a := by cases a <;> decide
  map_place := rfl
  nodup_words := by decide

/-- The register of the slots is consistent: its places are those of their declarations. -/
lemma consistent_slots : slots.Consistent where
  length_eq := rfl
  mem_values a := by cases a <;> decide
  map_place := rfl
  nodup_words := by decide

/-- The register of the location conditions is consistent: there is one condition, at the first
place. -/
lemma consistent_locationConditions : locationConditions.Consistent where
  length_eq := rfl
  mem_values a := by cases a; decide
  map_place := rfl
  nodup_words := by decide

/-- **Factions, slots and location conditions are known by their words**, and each of the three
vocabularies is governed by a register, whose lookups never leave its lists. -/
theorem registers_govern :
    factions.Governs "Faction" ∧ slots.Governs "Slot" ∧
      locationConditions.Governs "LocationCondition" :=
  ⟨consistent_factions.governs rfl rfl, consistent_slots.governs rfl rfl,
    consistent_locationConditions.governs rfl rfl⟩

end Register

end CardRules
