import CardRules.Keyword
import Mathlib.Data.List.Basic
import Mathlib.Tactic.SplitIfs

/-!
# Which texts are keywords

Axes and timings are read from keywords in any letter case, and the lower case that is taken for
that is the one of all scripts.  It can turn a character outside ASCII into ASCII letters, and one
character into several, so that it is not clear at once which texts are read.

`LowersTo` says what a text may become in lower case.  For keywords it makes no difference which of
the possible results is taken (`LowersTo.eq_iff_caseVariant`): what becomes a keyword was a keyword
before, up to the case of its ASCII letters.

The main statement, `keywords_up_to_case`, says this of both readers, that no text is read by both,
and that nothing can be added to a keyword.
-/

namespace CardRules

/-! ## ASCII letters -/

/-- The capital letters. -/
lemma isUpper_iff {c : Char} : c.isUpper = true ↔ 65 ≤ c.toNat ∧ c.toNat ≤ 90 :=
  decide_eq_true_iff.trans (and_congr UInt32.le_iff_toNat_le UInt32.le_iff_toNat_le)

/-- The small letters. -/
lemma isLower_iff {c : Char} : c.isLower = true ↔ 97 ≤ c.toNat ∧ c.toNat ≤ 122 := by
  have hbounds : c.isLower = true ↔ 'a'.val ≤ c.val ∧ c.val ≤ 'z'.val :=
    Bool.and_eq_true_iff.trans (and_congr decide_eq_true_iff decide_eq_true_iff)
  exact hbounds.trans (and_congr UInt32.le_iff_toNat_le UInt32.le_iff_toNat_le)

/-- The letters of both cases. -/
lemma isAlpha_iff {c : Char} : c.isAlpha = true ↔ c.isUpper = true ∨ c.isLower = true :=
  Bool.or_eq_true_iff

/-- Letters are ASCII characters. -/
lemma toNat_lt_of_isAlpha {c : Char} (h : c.isAlpha = true) : c.toNat < 128 := by
  rw [isAlpha_iff, isUpper_iff, isLower_iff] at h
  omega

/-- Only capital letters change in lower case. -/
lemma toLower_of_not_isUpper {c : Char} (h : ¬ c.isUpper = true) : c.toLower = c :=
  dif_neg fun hupper => h (decide_eq_true hupper)

/-- A small letter stays as it is. -/
lemma toLower_of_isLower {c : Char} (h : c.isLower = true) : c.toLower = c := by
  refine toLower_of_not_isUpper fun hupper => ?_
  rw [isLower_iff] at h
  rw [isUpper_iff] at hupper
  omega

/-- A character outside ASCII stays as it is. -/
lemma toLower_of_le_toNat {c : Char} (h : 128 ≤ c.toNat) : c.toLower = c := by
  refine toLower_of_not_isUpper fun hupper => ?_
  rw [isUpper_iff] at hupper
  omega

/-- What becomes a small letter is a letter. -/
lemma isAlpha_of_isLower_toLower {c : Char} (h : c.toLower.isLower = true) : c.isAlpha = true := by
  rw [isAlpha_iff]
  by_cases hupper : c.isUpper = true
  · exact .inl hupper
  · rw [toLower_of_not_isUpper hupper] at h
    exact .inr h

/-! ## Texts up to the case of their letters -/

/-- The characters of a text, the ASCII letters among them in lower case. -/
def foldCase (s : String) : List Char :=
  s.toList.map Char.toLower

/-- Texts are folded one after the other. -/
lemma foldCase_append (s t : String) : foldCase (s ++ t) = foldCase s ++ foldCase t := by
  rw [foldCase, String.toList_append, List.map_append, foldCase, foldCase]

/-- One character is folded to one character. -/
lemma foldCase_singleton (c : Char) : foldCase (String.singleton c) = [c.toLower] := by
  rw [foldCase, String.toList_singleton, List.map_singleton]

/-- Two texts that differ at most in the case of ASCII letters. -/
def CaseVariant (s t : String) : Prop :=
  foldCase s = foldCase t

instance (s t : String) : Decidable (CaseVariant s t) :=
  inferInstanceAs (Decidable (foldCase s = foldCase t))

/-- A word of small letters.  There is no `k` in it, the only letter that a character outside ASCII
can become. -/
def PlainWord (w : String) : Prop :=
  ∀ c ∈ w.toList, c.isLower = true ∧ c ≠ 'k'

-- The characters of the word are gone through, and not all characters there are.
instance (w : String) : Decidable (PlainWord w) :=
  List.decidableBAll _ w.toList

/-- In a plain word there is nothing to bring to lower case. -/
lemma PlainWord.foldCase_eq {w : String} (hw : PlainWord w) : foldCase w = w.toList := by
  have hsame : w.toList.map Char.toLower = w.toList.map id :=
    List.map_congr_left fun c hc => toLower_of_isLower (hw c hc).1
  rw [foldCase, hsame, List.map_id]

/-! ## Lower case in all scripts -/

/-- What a text may become in lower case, character by character:

* an ASCII letter becomes the small letter, and any other ASCII character stays as it is;
* a character outside ASCII becomes one or several characters that are not ASCII letters, and which
  ones may depend on where it stands;
* besides, the Kelvin sign may become `k`, and the dotted capital I `i` and a combining dot. -/
inductive LowersTo : List Char → List Char → Prop
  | nil : LowersTo [] []
  | ascii {c : Char} {cs ds : List Char} :
    c.toNat < 128 → LowersTo cs ds → LowersTo (c :: cs) (c.toLower :: ds)
  | kelvin {cs ds : List Char} :
    LowersTo cs ds → LowersTo (Char.ofNat 0x212A :: cs) ('k' :: ds)
  | dottedI {cs ds : List Char} :
    LowersTo cs ds → LowersTo (Char.ofNat 0x130 :: cs) ('i' :: Char.ofNat 0x307 :: ds)
  | other {c : Char} {cs part ds : List Char} : 128 ≤ c.toNat → part ≠ [] →
    (∀ d ∈ part, ¬ d.isAlpha = true) → LowersTo cs ds → LowersTo (c :: cs) (part ++ ds)

namespace LowersTo

variable {cs ds : List Char}

/-- If small letters other than `k` come out, ASCII letters were brought to lower case. -/
lemma map_toLower_eq (h : LowersTo cs ds) (hds : ∀ d ∈ ds, d.isLower = true ∧ d ≠ 'k') :
    cs.map Char.toLower = ds := by
  -- Each way out of ASCII leaves a trace: the `k`, the combining dot, or some other character.
  induction h with
  | nil => rfl
  | ascii hc _ ih => rw [List.map_cons, ih (List.forall_mem_cons.1 hds).2]
  | kelvin => exact absurd rfl (List.forall_mem_cons.1 hds).1.2
  | dottedI =>
    have hdot := (List.forall_mem_cons.1 (List.forall_mem_cons.1 hds).2).1.1
    exact absurd hdot (by decide)
  | @other c cs part ds hc hpart hletters =>
    obtain ⟨d, rest, rfl⟩ := List.exists_cons_of_ne_nil hpart
    have hd : d.isLower = true := (hds d (by simp)).1
    exact absurd (isAlpha_iff.2 (.inr hd)) (hletters d List.mem_cons_self)

/-- If the small letters of a text are all that is in it up to case, they come out. -/
lemma eq_map_toLower (h : LowersTo cs ds)
    (hcs : ∀ d ∈ cs.map Char.toLower, d.isLower = true) : ds = cs.map Char.toLower := by
  induction h with
  | nil => rfl
  | ascii hc _ ih => rw [List.map_cons, ih (List.forall_mem_cons.1 hcs).2]
  | kelvin | dottedI => exact absurd (List.forall_mem_cons.1 hcs).1 (by decide)
  | other hc =>
    have hletter := isAlpha_of_isLower_toLower (List.forall_mem_cons.1 hcs).1
    exact absurd (toNat_lt_of_isAlpha hletter) (by omega)

/-- **A text becomes a plain word exactly if it is the word up to the case of ASCII letters.** -/
lemma eq_iff_caseVariant {s t w : String} (h : LowersTo s.toList t.toList) (hw : PlainWord w) :
    t = w ↔ CaseVariant s w := by
  rw [CaseVariant, hw.foldCase_eq, foldCase]
  constructor
  · rintro rfl
    exact h.map_toLower_eq hw
  · intro hs
    refine String.toList_inj.1 ((h.eq_map_toLower ?_).trans hs)
    rw [hs]
    exact fun c hc => (hw c hc).1

end LowersTo

/-- The lower case that keywords are read from is a possible one. -/
lemma lowersTo_lowerCase (s : String) : LowersTo s.toList (lowerCase s).toList := by
  rw [lowerCase, String.toList_ofList]
  induction s.toList with
  | nil => exact .nil
  | cons c cs ih =>
    rw [List.flatMap_cons, lowerChar]
    split_ifs with hkelvin hdotted
    · obtain rfl : c = Char.ofNat 0x212A := Char.ext hkelvin
      exact .kelvin ih
    · obtain rfl : c = Char.ofNat 0x130 := Char.ext hdotted
      exact .dottedI ih
    · by_cases hascii : c.toNat < 128
      · exact .ascii hascii ih
      · refine .other (Nat.le_of_not_lt hascii) (List.cons_ne_nil _ _) ?_ ih
        rw [List.forall_mem_singleton, toLower_of_le_toNat (Nat.le_of_not_lt hascii)]
        exact fun hletter => hascii (toNat_lt_of_isAlpha hletter)

/-! ## Readers of keywords -/

/-- The keywords of an axis. -/
def Axis.keywords : Axis → List String
  | .willpower => ["willpower", "wil"]
  | .intellect => ["intellect", "int"]
  | .combat => ["combat", "com"]
  | .agility => ["agility", "agi"]

/-- The keywords of a timing. -/
def Timing.keywords : Timing → List String
  | .activate => ["activate", "activation"]
  | .trigger => ["trigger"]
  | .passive => ["pasive", "passive"]
  | .discard => ["discard"]

/-- An axis is read from a text whose lower case is one of the keywords of the axis. -/
lemma Axis.ofKeyword?_eq_some_iff (s : String) (axis : Axis) :
    Axis.ofKeyword? s = some axis ↔ lowerCase s ∈ axis.keywords := by
  unfold Axis.ofKeyword?
  split <;> cases axis <;> simp_all [keywords]

/-- A timing is read from a text whose lower case is one of the keywords of the timing. -/
lemma Timing.ofKeyword?_eq_some_iff (s : String) (timing : Timing) :
    Timing.ofKeyword? s = some timing ↔ lowerCase s ∈ timing.keywords := by
  unfold Timing.ofKeyword?
  split <;> cases timing <;> simp_all [keywords]

section Readers

variable {α : Type} {read : String → Option α} {keywords : α → List String}

/-- A reader of keywords *reads up to case* if

* it gives a value for the case variants of the keywords of the value and for no other text;
* case variants of a text are read like the text, also if it is not a keyword;
* it reads texts of ASCII letters only;
* whatever a text may become in lower case, a value is read from it if that is a keyword of the
  value. -/
structure ReadsUpToCase (read : String → Option α) (keywords : α → List String) : Prop where
  eq_some_iff : ∀ s a, read s = some a ↔ ∃ w ∈ keywords a, CaseVariant s w
  eq_of_caseVariant : ∀ s t, CaseVariant s t → read s = read t
  letters : ∀ s, (read s).isSome → ∀ c ∈ s.toList, c.toNat < 128 ∧ c.isAlpha = true
  eq_some_iff_of_lowersTo : ∀ s t, LowersTo s.toList t.toList → ∀ a,
    read s = some a ↔ t ∈ keywords a

/-- A keyword comes out of a text if the text is a case variant of it. -/
lemma mem_iff_exists_caseVariant {s t : String} {ws : List String} (h : LowersTo s.toList t.toList)
    (hplain : ∀ w ∈ ws, PlainWord w) : t ∈ ws ↔ ∃ w ∈ ws, CaseVariant s w := by
  constructor
  · intro ht
    exact ⟨t, ht, (h.eq_iff_caseVariant (hplain t ht)).1 rfl⟩
  · rintro ⟨w, hw, hs⟩
    rwa [(h.eq_iff_caseVariant (hplain w hw)).2 hs]

/-- There are only letters in a case variant of a plain word. -/
lemma CaseVariant.isAlpha {s w : String} (h : CaseVariant s w) (hw : PlainWord w) {c : Char}
    (hc : c ∈ s.toList) : c.isAlpha = true := by
  have hfold : foldCase s = w.toList := h.trans hw.foldCase_eq
  have hmem : c.toLower ∈ w.toList := by
    rw [← hfold]
    exact List.mem_map_of_mem hc
  exact isAlpha_of_isLower_toLower (hw _ hmem).1

/-- A reader that looks for the lower case among plain words reads up to case. -/
lemma readsUpToCase (hplain : ∀ a, ∀ w ∈ keywords a, PlainWord w)
    (hread : ∀ s a, read s = some a ↔ lowerCase s ∈ keywords a) :
    ReadsUpToCase read keywords := by
  have heq (s : String) (a : α) : read s = some a ↔ ∃ w ∈ keywords a, CaseVariant s w := by
    rw [hread, mem_iff_exists_caseVariant (lowersTo_lowerCase s) (hplain a)]
  constructor
  case eq_some_iff => exact heq
  case eq_of_caseVariant =>
    intro s t hst
    refine Option.ext fun a => ?_
    have hvariants (w : String) : CaseVariant s w ↔ CaseVariant t w := by
      rw [CaseVariant, CaseVariant, hst]
    rw [heq, heq]
    simp only [hvariants]
  case letters =>
    intro s hs c hc
    obtain ⟨a, ha⟩ := Option.isSome_iff_exists.1 hs
    obtain ⟨w, hw, hvariant⟩ := (heq s a).1 ha
    have hletter := hvariant.isAlpha (hplain a w hw) hc
    exact ⟨toNat_lt_of_isAlpha hletter, hletter⟩
  case eq_some_iff_of_lowersTo =>
    intro s t hlower a
    rw [heq, mem_iff_exists_caseVariant hlower (hplain a)]

end Readers

/-- Axes are read up to case. -/
lemma Axis.readsUpToCase_ofKeyword? : ReadsUpToCase Axis.ofKeyword? Axis.keywords :=
  readsUpToCase (fun axis => by cases axis <;> decide) ofKeyword?_eq_some_iff

/-- Timings are read up to case. -/
lemma Timing.readsUpToCase_ofKeyword? : ReadsUpToCase Timing.ofKeyword? Timing.keywords :=
  readsUpToCase (fun timing => by cases timing <;> decide) ofKeyword?_eq_some_iff

/-! ## Keywords of either kind -/

/-- A text from which an axis or a timing is read. -/
def IsKeyword (s : String) : Prop :=
  (Axis.ofKeyword? s).isSome ∨ (Timing.ofKeyword? s).isSome

/-- The keywords of the axes and the timings. -/
def allKeywords : List String :=
  Axis.all.flatMap Axis.keywords ++ Timing.all.flatMap Timing.keywords

/-- A text that is read is one of all keywords, up to case. -/
lemma IsKeyword.exists_foldCase_eq {s : String} (h : IsKeyword s) :
    ∃ w ∈ allKeywords, foldCase s = w.toList := by
  have hplain : ∀ w ∈ allKeywords, PlainWord w := by decide
  suffices hvariant : ∃ w ∈ allKeywords, CaseVariant s w by
    obtain ⟨w, hw, hs⟩ := hvariant
    exact ⟨w, hw, hs.trans (hplain w hw).foldCase_eq⟩
  rcases h with haxis | htiming
  · obtain ⟨axis, haxis⟩ := Option.isSome_iff_exists.1 haxis
    obtain ⟨w, hw, hs⟩ := (Axis.readsUpToCase_ofKeyword?.eq_some_iff s axis).1 haxis
    have haxes : axis ∈ Axis.all := by cases axis <;> decide
    exact ⟨w, List.mem_append_left _ (List.mem_flatMap.2 ⟨axis, haxes, hw⟩), hs⟩
  · obtain ⟨timing, htiming⟩ := Option.isSome_iff_exists.1 htiming
    obtain ⟨w, hw, hs⟩ := (Timing.readsUpToCase_ofKeyword?.eq_some_iff s timing).1 htiming
    have htimings : timing ∈ Timing.all := by cases timing <;> decide
    exact ⟨w, List.mem_append_right _ (List.mem_flatMap.2 ⟨timing, htimings, hw⟩), hs⟩

/-- No text is read as an axis and as a timing. -/
lemma Timing.ofKeyword?_eq_none_of_axis {s : String} (h : (Axis.ofKeyword? s).isSome) :
    Timing.ofKeyword? s = none := by
  obtain ⟨axis, haxis⟩ := Option.isSome_iff_exists.1 h
  rw [Axis.ofKeyword?_eq_some_iff] at haxis
  refine Option.eq_none_iff_forall_ne_some.2 fun timing htiming => ?_
  rw [Timing.ofKeyword?_eq_some_iff] at htiming
  -- Both readers look for the same lower case, so that it is enough to compare the keywords.
  have hdisjoint : ∀ w ∈ axis.keywords, w ∉ timing.keywords := by
    cases axis <;> cases timing <;> decide
  exact hdisjoint _ haxis htiming

/-- One more character in a keyword gives a keyword only in the two spellings of one timing. -/
lemma IsKeyword.of_insert {u v : String} {c : Char} (h : IsKeyword (u ++ v))
    (h' : IsKeyword (u ++ String.singleton c ++ v)) :
    CaseVariant (u ++ v) "pasive" ∧ CaseVariant (u ++ String.singleton c ++ v) "passive" := by
  obtain ⟨w, hw, hs⟩ := h.exists_foldCase_eq
  obtain ⟨w', hw', hs'⟩ := h'.exists_foldCase_eq
  have hshorter : w.toList = foldCase u ++ foldCase v := by rw [← hs, foldCase_append]
  have hlonger : w'.toList = foldCase u ++ [c.toLower] ++ foldCase v := by
    rw [← hs', foldCase_append, foldCase_append, foldCase_singleton]
  have hlength : w'.toList.length = w.toList.length + 1 := by
    rw [hshorter, hlonger]
    simp only [List.length_append, List.length_singleton]
    omega
  have hsublist : w.toList.Sublist w'.toList := by
    rw [hshorter, hlonger]
    exact (List.sublist_append_left _ _).append_right _
  have honly : ∀ w ∈ allKeywords, ∀ w' ∈ allKeywords, w'.toList.length = w.toList.length + 1 →
      w.toList.Sublist w'.toList → w = "pasive" ∧ w' = "passive" := by decide
  obtain ⟨rfl, rfl⟩ := honly w hw w' hw' hlength hsublist
  exact ⟨hs, hs'⟩

/-- No keyword is another one with a character in front. -/
lemma IsKeyword.not_singleton_append {s : String} (h : IsKeyword s) (c : Char) :
    ¬ IsKeyword (String.singleton c ++ s) := by
  intro h'
  have hboth : CaseVariant s "pasive" ∧ CaseVariant (String.singleton c ++ s) "passive" := by
    rw [← String.empty_append (s := s)] at h
    rw [← String.empty_append (s := String.singleton c)] at h'
    simpa only [String.empty_append] using h.of_insert h'
  have htail : foldCase "pasive" = (foldCase "passive").tail := by
    rw [← hboth.1, ← hboth.2, foldCase_append, foldCase_singleton]
    rfl
  exact absurd htail (by decide)

/-- No keyword is another one with a character behind. -/
lemma IsKeyword.not_push {s : String} (h : IsKeyword s) (c : Char) : ¬ IsKeyword (s.push c) := by
  intro h'
  have hboth : CaseVariant s "pasive" ∧ CaseVariant (s ++ String.singleton c) "passive" := by
    rw [← String.append_empty (s := s)] at h
    rw [← String.append_singleton, ← String.append_empty (s := s ++ String.singleton c)] at h'
    simpa only [String.append_empty] using h.of_insert h'
  have hfront : foldCase "pasive" = (foldCase "passive").dropLast := by
    rw [← hboth.1, ← hboth.2, foldCase_append, foldCase_singleton, List.dropLast_concat]
  exact absurd hfront (by decide)

/-- **Keywords are read in any case of their ASCII letters, and nothing else is read.**

* Axes and timings are read up to case from their keywords.
* No text is read as an axis and as a timing.
* The written name of a timing is a keyword of it.
* A keyword with one more character in front or behind, a space for instance, is no keyword.
* Put inside a keyword, one more character gives a keyword only if the shorter spelling of the
  passive timing becomes the longer one. -/
theorem keywords_up_to_case :
    ReadsUpToCase Axis.ofKeyword? Axis.keywords ∧
    ReadsUpToCase Timing.ofKeyword? Timing.keywords ∧
    (∀ s, (Axis.ofKeyword? s).isSome → Timing.ofKeyword? s = none) ∧
    (∀ timing : Timing, Timing.ofKeyword? timing.keyword = some timing) ∧
    (∀ s c, IsKeyword s → ¬ IsKeyword (String.singleton c ++ s) ∧ ¬ IsKeyword (s.push c)) ∧
    ∀ u c v, IsKeyword (u ++ v) → IsKeyword (u ++ String.singleton c ++ v) →
      CaseVariant (u ++ v) "pasive" ∧ CaseVariant (u ++ String.singleton c ++ v) "passive" := by
  refine ⟨Axis.readsUpToCase_ofKeyword?, Timing.readsUpToCase_ofKeyword?,
    fun s h => Timing.ofKeyword?_eq_none_of_axis h, fun timing => ?_,
    fun s c h => ⟨h.not_singleton_append c, h.not_push c⟩, fun u c v h h' => h.of_insert h'⟩
  refine (Timing.readsUpToCase_ofKeyword?.eq_some_iff _ _).2 ⟨timing.keyword, ?_, rfl⟩
  cases timing <;> decide

/-- `AcTiVaTion` is read as a timing, however it comes to lower case, and so is `PASIVE`, with or
without a second `s`.  `Com` is read as an axis, hence not as a timing, and not with a space behind
it.  A dotted capital I makes `DISCARD` unreadable. -/
theorem keywords_up_to_case_activation :
    Timing.ofKeyword? "AcTiVaTion" = some .activate ∧
      Timing.ofKeyword? "PASIVE" = Timing.ofKeyword? "pasive" ∧
      CaseVariant ("PAS" ++ String.singleton 'S' ++ "IVE") "passive" ∧
      Timing.ofKeyword? "Com" = none ∧ ¬ IsKeyword ("Com".push ' ') ∧
      Timing.ofKeyword? "D\u0130SCARD" = none := by
  obtain ⟨-, htiming, hdisjoint, -, hextra, hinside⟩ := keywords_up_to_case
  have hcom : (Axis.ofKeyword? "Com").isSome := by decide +kernel
  have hlower : LowersTo "AcTiVaTion".toList "activation".toList :=
    lowersTo_lowerCase "AcTiVaTion"
  refine ⟨(htiming.eq_some_iff_of_lowersTo _ _ hlower _).2 (by decide),
    htiming.eq_of_caseVariant _ _ (by decide), ?_, hdisjoint _ hcom,
    (hextra _ ' ' (.inl hcom)).2, ?_⟩
  · exact (hinside "PAS" 'S' "IVE" (.inr (by decide +kernel)) (.inr (by decide +kernel))).2
  · refine Option.not_isSome_iff_eq_none.1 fun h => ?_
    have hletter := htiming.letters _ h (Char.ofNat 0x130) (by decide)
    exact absurd hletter.1 (by decide)

end CardRules
