import CardRules.Proofs.CardFile.Modifiers
import CardRules.Proofs.Catalogue.WellFormed
import CardRules.Proofs.Vocabulary
import Mathlib.Data.List.Basic

/-!
# Effects are known by their summaries

A summary is a line of words with a space between any two of them.  As there is no space in a word,
the words can be read back from the line (`eq_of_intercalate_eq`).  They begin with the name of the
shape, which no two shapes share, and each number that the shape carries is found in a word of its
own.

So two effects with the same summary are equal, provided that a location bonus in a fight repeats
the grant of the fight, which a summary shows only once.  The main statement,
`Effect.eq_of_summary_eq`, adds that no action is compiled to any other effect.
-/

namespace CardRules

/-! ## Written numbers -/

/-- Different natural numbers are written differently, as each is read back from its digits. -/
lemma toString_nat_injective {m n : Nat} (h : toString m = toString n) : m = n := by
  have hdigits : Nat.toDigits 10 m = Nat.toDigits 10 n := by
    rwa [Nat.toString_eq_ofList_toDigits, Nat.toString_eq_ofList_toDigits, String.ofList_inj] at h
  calc
    m = Nat.ofDigitChars 10 (Nat.toDigits 10 m) 0 := Nat.ofDigitChars_ten_toDigits.symm
    _ = Nat.ofDigitChars 10 (Nat.toDigits 10 n) 0 := by rw [hdigits]
    _ = n := Nat.ofDigitChars_ten_toDigits

/-- No natural number is written with a minus. -/
lemma minus_append_ne_toString (s : String) (n : Nat) : "-" ++ s ≠ toString n := by
  intro h
  have hminus : '-' ∈ Nat.toDigits 10 n := by
    rw [← String.toList_ofList (l := Nat.toDigits 10 n), ← Nat.toString_eq_ofList_toDigits, ← h,
      String.toList_append]
    exact List.mem_append_left _ (List.mem_singleton_self _)
  exact absurd (Nat.isDigit_of_mem_toDigits (by decide) (by decide) hminus) (by decide)

/-- Different integers are written differently: a minus is written exactly before those that are
less than zero. -/
lemma toString_injective {m n : Int} (h : toString m = toString n) : m = n := by
  rw [Int.toString_eq_repr, Int.toString_eq_repr, Int.repr_eq_if, Int.repr_eq_if] at h
  split at h <;> split at h
  · have habs := toString_nat_injective h
    omega
  · exact absurd h.symm (minus_append_ne_toString _ _)
  · exact absurd h (minus_append_ne_toString _ _)
  · have habs := toString_nat_injective ((String.append_right_inj _).1 h)
    omega

/-- Different bytes are written differently. -/
lemma toString_toNat_injective {m n : UInt8} (h : toString m.toNat = toString n.toNat) : m = n :=
  UInt8.toNat_inj.1 (toString_nat_injective h)

/-- A number that shows a plus is not written like one that does not. -/
lemma plus_append_ne_toString (s : String) (n : Int) : "+" ++ s ≠ toString n := by
  refine (Modifier.toString_ne (c := '+') ?_ (by decide) (by decide) n).symm
  rw [String.toList_append]
  exact List.mem_append_left _ (List.mem_singleton_self _)

/-- Different numbers are written differently also if their signs are always shown. -/
lemma signed_injective {m n : Int} (h : signed m = signed n) : m = n := by
  unfold signed at h
  split at h <;> split at h
  · exact toString_injective h
  · exact absurd h.symm (plus_append_ne_toString _ _)
  · exact absurd h (plus_append_ne_toString _ _)
  · exact toString_injective ((String.append_right_inj _).1 h)

/-! ## Lines of words -/

/-- There is no space in a text. -/
def NoSpace (s : String) : Prop :=
  ' ' ∉ s.toList

instance (s : String) : Decidable (NoSpace s) :=
  inferInstanceAs (Decidable (' ' ∉ s.toList))

/-- Two texts without a space have none together. -/
lemma NoSpace.append {s t : String} (hs : NoSpace s) (ht : NoSpace t) : NoSpace (s ++ t) := by
  rw [NoSpace, String.toList_append, List.mem_append]
  exact not_or_intro hs ht

/-- There is no space in a written number. -/
lemma noSpace_toString (n : Int) : NoSpace (toString n) :=
  fun hspace => Modifier.toString_ne hspace (by decide) (by decide) n rfl

/-- There is no space in a written byte. -/
lemma noSpace_toString_toNat (n : UInt8) : NoSpace (toString n.toNat) :=
  noSpace_toString n.toNat

/-- There is no space in a number that is written with its sign. -/
lemma noSpace_signed (n : Int) : NoSpace (signed n) := by
  unfold signed
  split
  · exact noSpace_toString n
  · exact NoSpace.append (by decide) (noSpace_toString n)

/-- Words are known by the line that they form. -/
lemma eq_of_intercalate_eq {ws ws' : List String} (hne : ws ≠ []) (hne' : ws' ≠ [])
    (hws : ∀ w ∈ ws, NoSpace w) (hws' : ∀ w ∈ ws', NoSpace w)
    (h : " ".intercalate ws = " ".intercalate ws') : ws = ws' := by
  have hsplit {us : List String} (hne : us ≠ []) (hus : ∀ u ∈ us, NoSpace u) :
      (" ".intercalate us).toList.splitOn ' ' = us.map String.toList := by
    rw [String.toList_intercalate]
    refine List.splitOn_intercalate ' ' ?_ (mt List.map_eq_nil_iff.1 hne)
    exact List.forall_mem_map.2 hus
  have hlists : ws.map String.toList = ws'.map String.toList := by
    rw [← hsplit hne hws, ← hsplit hne' hws', h]
  exact List.map_injective_iff.2 (fun _ _ => String.toList_inj.1) hlists

/-! ## The words of a summary -/

/-- The words of a skill vector, with a text before the first one and another behind the last one. -/
def Skill.words (front back : String) (s : Skill) : List String :=
  [front ++ "wil", toString s.willpower.toInt, "int", toString s.intellect.toInt,
    "com", toString s.combat.toInt, "agi", toString s.agility.toInt,
    "wild", toString s.wild.toInt ++ back]

/-- A skill vector has ten words. -/
lemma Skill.length_words (front back : String) (s : Skill) : (s.words front back).length = 10 :=
  rfl

/-- A skill vector has some words. -/
lemma Skill.words_ne_nil (front back : String) (s : Skill) : s.words front back ≠ [] :=
  List.cons_ne_nil _ _

/-- Skill vectors are known by their words. -/
lemma Skill.words_injective {front back : String} {s s' : Skill}
    (h : s.words front back = s'.words front back) : s = s' := by
  simp only [words, List.cons.injEq, String.append_left_inj, true_and, and_true] at h
  obtain ⟨hwillpower, hintellect, hcombat, hagility, hwild⟩ := h
  obtain ⟨willpower, intellect, combat, agility, wild⟩ := s
  obtain rfl := Int8.toInt_inj.1 (toString_injective hwillpower)
  obtain rfl := Int8.toInt_inj.1 (toString_injective hintellect)
  obtain rfl := Int8.toInt_inj.1 (toString_injective hcombat)
  obtain rfl := Int8.toInt_inj.1 (toString_injective hagility)
  obtain rfl := Int8.toInt_inj.1 (toString_injective hwild)
  rfl

/-- There is no space in the words of a skill vector. -/
lemma Skill.noSpace_words {front back : String} (hfront : NoSpace front) (hback : NoSpace back)
    (s : Skill) : ∀ w ∈ s.words front back, NoSpace w := by
  simp only [words, List.forall_mem_cons]
  exact ⟨hfront.append (by decide), noSpace_toString _, by decide, noSpace_toString _, by decide,
    noSpace_toString _, by decide, noSpace_toString _, by decide, (noSpace_toString _).append hback,
    List.forall_mem_nil _⟩

/-- The words of a skill vector form the line that is shown for it. -/
lemma Skill.intercalate_words (front back : String) (s : Skill) :
    " ".intercalate (s.words front back) = front ++ s.text ++ back := by
  refine String.toList_inj.1 ?_
  simp [words, text]

namespace Effect

/-- The words of a location bonus. -/
def bonusWords (b : LocationBonus) : List String :=
  b.bonus.words "+(" ")" ++ ["if", Registered.word b.condition]

/-- The words of what a summary says beyond the shape, the skill vector and the cost. -/
def detailWords : Effect → List String
  | .skillBonus _ => []
  | .fight _ d => ["damage", "+" ++ toString d.toNat]
  | .conditionalFight _ d c => ["damage", "+" ++ toString d.toNat, "if", conditionText c]
  | .investigate _ n => ["shroud", signed n.toInt]
  | .locationBonus b => bonusWords b
  | .locationFight _ d b => "damage" :: ("+" ++ toString d.toNat ++ ",") :: bonusWords b
  | .damageAtLocation _ n => ["amount", toString n.toNat]
  | .damageToAttacker _ n => ["amount", toString n.toNat]

/-- The words of a summary. -/
def words (e : Effect) : List String :=
  e.shape :: (e.skill.words "(" "," ++ "cost" :: (toString e.cost.toNat ++ ")") :: e.detailWords)

/-- The words of a location bonus form the line that is shown for it. -/
lemma intercalate_bonusWords (b : LocationBonus) :
    " ".intercalate (bonusWords b) = bonusText b := by
  rw [bonusWords,
    String.intercalate_append_of_ne_nil (Skill.words_ne_nil _ _ _) (List.cons_ne_nil _ _),
    Skill.intercalate_words, String.intercalate_cons_cons, String.intercalate_singleton, bonusText]
  refine String.toList_inj.1 ?_
  simp

/-- The words of the details follow any other word. -/
lemma intercalate_detailWords (w : String) (e : Effect) :
    " ".intercalate (w :: e.detailWords) = w ++ e.detail := by
  have hbonus (v : String) (b : LocationBonus) :
      " ".intercalate (v :: bonusWords b) = v ++ " " ++ bonusText b := by
    have hne : bonusWords b ≠ [] := List.append_ne_nil_of_left_ne_nil (Skill.words_ne_nil _ _ _) _
    rw [String.intercalate_cons_of_ne_nil hne, intercalate_bonusWords]
  cases e with
  | locationBonus b => rw [detailWords, hbonus, detail, String.append_assoc]
  | locationFight g d b =>
    rw [detailWords, String.intercalate_cons_cons, String.intercalate_cons_cons, hbonus, detail]
    refine String.toList_inj.1 ?_
    simp
  | _ =>
    refine String.toList_inj.1 ?_
    simp [detailWords, detail]

/-- A summary is the line of its words. -/
lemma intercalate_words (e : Effect) : " ".intercalate e.words = e.summary := by
  have hne := Skill.words_ne_nil "(" "," e.skill
  rw [words, String.intercalate_cons_of_ne_nil (List.append_ne_nil_of_left_ne_nil hne _),
    String.intercalate_append_of_ne_nil hne (List.cons_ne_nil _ _), Skill.intercalate_words,
    String.intercalate_cons_cons, intercalate_detailWords, summary]
  refine String.toList_inj.1 ?_
  simp

/-- There is no space in the words of a location bonus. -/
lemma noSpace_bonusWords (b : LocationBonus) : ∀ w ∈ bonusWords b, NoSpace w := by
  refine List.forall_mem_append.2 ⟨b.bonus.noSpace_words (by decide) (by decide), ?_⟩
  cases b.condition
  decide

/-- There is no space in the words of the details. -/
lemma noSpace_detailWords (e : Effect) : ∀ w ∈ e.detailWords, NoSpace w := by
  have hplus (d : UInt8) : NoSpace ("+" ++ toString d.toNat) :=
    NoSpace.append (by decide) (noSpace_toString_toNat d)
  have hcondition (c : Option Condition) : NoSpace (conditionText c) := by
    rcases c with _ | _ | _ <;> decide
  have hpair {v w : String} (hv : NoSpace v) (hw : NoSpace w) : ∀ u ∈ [v, w], NoSpace u :=
    List.forall_mem_cons.2 ⟨hv, List.forall_mem_singleton.2 hw⟩
  cases e with
  | skillBonus g => exact List.forall_mem_nil _
  | fight g d => exact hpair (by decide) (hplus d)
  | conditionalFight g d c =>
    exact List.forall_mem_append.2
      ⟨hpair (v := "damage") (by decide) (hplus d), hpair (v := "if") (by decide) (hcondition c)⟩
  | investigate g n => exact hpair (by decide) (noSpace_signed _)
  | locationBonus b => exact noSpace_bonusWords b
  | locationFight g d b =>
    exact List.forall_mem_append.2
      ⟨hpair (v := "damage") (by decide) ((hplus d).append (by decide)), noSpace_bonusWords b⟩
  | damageAtLocation g n => exact hpair (by decide) (noSpace_toString_toNat n)
  | damageToAttacker g n => exact hpair (by decide) (noSpace_toString_toNat n)

/-- There is no space in the words of a summary. -/
lemma noSpace_words (e : Effect) : ∀ w ∈ e.words, NoSpace w := by
  have hshape : NoSpace e.shape := by cases e <;> rw [shape] <;> decide
  refine List.forall_mem_cons.2 ⟨hshape, List.forall_mem_append.2
    ⟨e.skill.noSpace_words (by decide) (by decide), List.forall_mem_cons.2 ⟨by decide, ?_⟩⟩⟩
  exact List.forall_mem_cons.2
    ⟨(noSpace_toString_toNat e.cost).append (by decide), e.noSpace_detailWords⟩

/-! ## Reading a summary back -/

/-- A location bonus in a fight has the grant of the fight. -/
def RepeatsGrant : Effect → Prop
  | .locationFight grant _ bonus => bonus.grant = grant
  | _ => True

/-- Location bonuses with one grant are known by their words. -/
lemma eq_of_bonusWords_eq {b b' : LocationBonus} (hgrant : b.grant = b'.grant)
    (h : bonusWords b = bonusWords b') : b = b' := by
  obtain ⟨hskill, hcondition⟩ :=
    List.append_inj h (by rw [Skill.length_words, Skill.length_words])
  obtain ⟨grant, bonus, condition⟩ := b
  obtain ⟨grant', bonus', condition'⟩ := b'
  obtain rfl : grant = grant' := hgrant
  obtain rfl : bonus = bonus' := Skill.words_injective hskill
  obtain rfl : condition = condition' :=
    Registered.word_injective (List.cons.inj (List.cons.inj hcondition).2).1
  rfl

/-- Conditions are known by the texts that are shown for them, a missing one included. -/
lemma conditionText_injective {c c' : Option Condition} (h : conditionText c = conditionText c') :
    c = c' := by
  rcases c with _ | _ | _ <;> rcases c' with _ | _ | _ <;> first | rfl | exact absurd h (by decide)

/-- Effects with one grant are known by the name of the shape and the details. -/
lemma eq_of_detailWords_eq {e e' : Effect} (hrepeats : e.RepeatsGrant) (hrepeats' : e'.RepeatsGrant)
    (hshape : e.shape = e'.shape) (hgrant : e.grant = e'.grant)
    (hdetail : e.detailWords = e'.detailWords) : e = e' := by
  -- The names of two shapes differ, so that only pairs of one shape are left.
  cases e with
  | skillBonus g =>
    cases e' with
    | skillBonus g' => exact congrArg skillBonus hgrant
    | _ => simp [shape] at hshape
  | fight g d =>
    cases e' with
    | fight g' d' =>
      simp only [detailWords, List.cons.injEq, String.append_right_inj, true_and, and_true]
        at hdetail
      exact congrArg₂ fight hgrant (toString_toNat_injective hdetail)
    | _ => simp [shape] at hshape
  | conditionalFight g d c =>
    cases e' with
    | conditionalFight g' d' c' =>
      simp only [detailWords, List.cons.injEq, String.append_right_inj, true_and, and_true]
        at hdetail
      obtain rfl : g = g' := hgrant
      obtain rfl := toString_toNat_injective hdetail.1
      obtain rfl := conditionText_injective hdetail.2
      rfl
    | _ => simp [shape] at hshape
  | investigate g n =>
    cases e' with
    | investigate g' n' =>
      simp only [detailWords, List.cons.injEq, true_and, and_true] at hdetail
      exact congrArg₂ investigate hgrant (Int8.toInt_inj.1 (signed_injective hdetail))
    | _ => simp [shape] at hshape
  | locationBonus b =>
    cases e' with
    | locationBonus b' => exact congrArg locationBonus (eq_of_bonusWords_eq hgrant hdetail)
    | _ => simp [shape] at hshape
  | locationFight g d b =>
    cases e' with
    | locationFight g' d' b' =>
      simp only [detailWords, List.cons.injEq, String.append_left_inj, String.append_right_inj,
        true_and] at hdetail
      obtain rfl : g = g' := hgrant
      obtain rfl := toString_toNat_injective hdetail.1
      have hbonusGrant : b.grant = b'.grant := Eq.trans hrepeats hrepeats'.symm
      exact congrArg (locationFight g d) (eq_of_bonusWords_eq hbonusGrant hdetail.2)
    | _ => simp [shape] at hshape
  | damageAtLocation g n =>
    cases e' with
    | damageAtLocation g' n' =>
      simp only [detailWords, List.cons.injEq, true_and, and_true] at hdetail
      exact congrArg₂ damageAtLocation hgrant (toString_toNat_injective hdetail)
    | _ => simp [shape] at hshape
  | damageToAttacker g n =>
    cases e' with
    | damageToAttacker g' n' =>
      simp only [detailWords, List.cons.injEq, true_and, and_true] at hdetail
      exact congrArg₂ damageToAttacker hgrant (toString_toNat_injective hdetail)
    | _ => simp [shape] at hshape

/-- Effects are known by the words of their summaries. -/
lemma eq_of_words_eq {e e' : Effect} (hrepeats : e.RepeatsGrant) (hrepeats' : e'.RepeatsGrant)
    (h : e.words = e'.words) : e = e' := by
  obtain ⟨hshape, hrest⟩ := List.cons.inj h
  obtain ⟨hskill, hrest⟩ :=
    List.append_inj hrest (by rw [Skill.length_words, Skill.length_words])
  simp only [List.cons.injEq, String.append_left_inj, true_and] at hrest
  obtain ⟨hcost, hdetail⟩ := hrest
  have hgrant : e.grant = e'.grant :=
    congrArg₂ Grant.mk (Skill.words_injective hskill) (toString_toNat_injective hcost)
  exact eq_of_detailWords_eq hrepeats hrepeats' hshape hgrant hdetail

/-- Well-formed effects repeat the grant of a fight. -/
lemma WellFormed.repeatsGrant {policy : Policy} {e : Effect} (h : e.WellFormed policy) :
    e.RepeatsGrant := by
  cases e with
  | locationFight g d b => exact h.2
  | _ => trivial

/-- **Effects that look alike are equal.**  A location bonus in a fight has the grant of the fight
in every effect that an action is compiled to.  If it has so in two effects, and their summaries are
the same text, then the effects are the same. -/
theorem eq_of_summary_eq :
    (∀ (a : Action) (compiled : Compiled) (e : Effect), a.effect = .ok compiled →
      compiled.effect = some e → e.RepeatsGrant) ∧
    ∀ e e' : Effect, e.RepeatsGrant → e'.RepeatsGrant → e.summary = e'.summary → e = e' := by
  constructor
  · intro a compiled e ha he
    have hrow := decisionTable_effect a
    rw [ha] at hrow
    have hwell : e.WellFormed .lenient := hrow.wellFormed he nofun
    exact hwell.repeatsGrant
  · intro e e' hrepeats hrepeats' hsummary
    rw [← intercalate_words, ← intercalate_words] at hsummary
    refine eq_of_words_eq hrepeats hrepeats' ?_
    exact eq_of_intercalate_eq (List.cons_ne_nil _ _) (List.cons_ne_nil _ _) e.noSpace_words
      e'.noSpace_words hsummary

/-- A summary does not show the grant of a location bonus in a fight. -/
example : (locationFight {} 1 ⟨{ cost := 1 }, {}, .undiscoveredClues⟩).summary =
    (locationFight {} 1 ⟨{ cost := 2 }, {}, .undiscoveredClues⟩).summary :=
  rfl

/-- A fight that goes better where there are clues. -/
def ransack : Action where
  tag := "fight"
  expend := some 1
  skill := { combat := -1 }
  optional := some
    { skill := { combat := 3 }, subject := "location", condition := "undiscovered_clues" }

/-- The fight deals no damage, whether it says so or not: both ways of writing it give effects that
look alike, and they are the same. -/
theorem eq_of_summary_eq_ransack :
    ∃ e e', ransack.effect = .ok { effect := some e } ∧
      { ransack with modifiers := .ofList [("damage", .amount 0)] }.effect =
        .ok { effect := some e' } ∧
      e.summary = "location_optional_fight (wil 0 int 0 com -1 agi 0 wild 0, cost 1) damage +0, " ++
        "+(wil 0 int 0 com 3 agi 0 wild 0) if undiscovered_clues" ∧
      e.summary = e'.summary ∧ e = e' := by
  obtain ⟨hcompiled, hequal⟩ := eq_of_summary_eq
  refine ⟨_, _, rfl, rfl, by decide +kernel, rfl, ?_⟩
  exact hequal _ _ (hcompiled ransack _ _ rfl rfl)
    (hcompiled { ransack with modifiers := .ofList [("damage", .amount 0)] } _ _ rfl rfl) rfl

end Effect

end CardRules
