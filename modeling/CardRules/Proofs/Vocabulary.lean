import CardRules.Vocabulary
import Mathlib.Data.List.Nodup
import Mathlib.Tactic.Lemma

/-!
# Looking up registered words

A vocabulary is *lawful* if it lists all its values and no two of them have the same word.  Then a
word is looked up successfully exactly if some value has it, and the value that is found is the only
one (`Registered.ofWord_eq_ok_iff`).  The three vocabularies are lawful.
-/

namespace CardRules

/-- All values are registered, under different words. -/
class LawfulRegistered (α : Type) [Registered α] : Prop where
  mem_all : ∀ a : α, a ∈ (Registered.all : List α)
  nodup_words : ((Registered.all : List α).map Registered.word).Nodup

instance : LawfulRegistered Faction where
  mem_all a := by cases a <;> decide
  nodup_words := by decide

instance : LawfulRegistered Slot where
  mem_all a := by cases a <;> decide
  nodup_words := by decide

instance : LawfulRegistered LocationCondition where
  mem_all a := by cases a; decide
  nodup_words := by decide

namespace Registered

variable {α : Type} [Registered α]

/-- A text is a registered word if it is the word of a value. -/
def IsWord (α : Type) [Registered α] (s : String) : Prop :=
  ∃ a : α, word a = s

variable {s : String}

/-- Looking up a text that is no word gives an error that names the text and the vocabulary. -/
lemma ofWord_of_not_isWord (h : ¬ IsWord α s) : ofWord α s = .error ⟨s, vocabulary α⟩ := by
  have hfind : (all : List α).find? (fun a => word a == s) = none := by
    refine List.find?_eq_none.2 fun a _ ha => h ⟨a, ?_⟩
    exact eq_of_beq ha
  unfold ofWord
  rw [hfind]

variable [LawfulRegistered α]

/-- Different values have different words. -/
lemma word_injective {a b : α} (h : word a = word b) : a = b :=
  List.inj_on_of_nodup_map LawfulRegistered.nodup_words (LawfulRegistered.mem_all a)
    (LawfulRegistered.mem_all b) h

/-- A registered word is found among the words of the values. -/
lemma exists_mem_all_iff : (∃ a ∈ (all : List α), word a = s) ↔ IsWord α s := by
  constructor
  · rintro ⟨a, -, ha⟩
    exact ⟨a, ha⟩
  · rintro ⟨a, ha⟩
    exact ⟨a, LawfulRegistered.mem_all a, ha⟩

instance (s : String) : Decidable (IsWord α s) :=
  decidable_of_iff _ exists_mem_all_iff

/-- Looking up a word gives the value with that word. -/
lemma ofWord_eq_ok_iff {a : α} : ofWord α s = .ok a ↔ word a = s := by
  unfold ofWord
  cases hfind : (all : List α).find? fun a => word a == s with
  | none =>
    have hword : word a ≠ s := by
      simpa using List.find?_eq_none.1 hfind a (LawfulRegistered.mem_all a)
    simp [hword]
  | some b =>
    have hb : word b = s := by simpa using List.find?_some hfind
    rw [Except.ok.injEq]
    constructor
    · rintro rfl
      exact hb
    · intro ha
      exact word_injective (hb.trans ha.symm)

end Registered

end CardRules
