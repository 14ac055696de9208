import CardRules.Proofs.SkillTest
import CardRules.Token.Script

/-!
# Skill tests in 32-bit arithmetic

The sums of a test are integers here.  On a machine they are signed 32-bit numbers, and a sum that
is out of their range is an error.  `SkillTest.resolve?` runs a test with each sum checked in the
order in which it is made, and there is no result if a check fails.

A check fails exactly if some number that comes up does not fit (`SkillTest.verdict?_eq_some_iff`).
As a card is worth between -256 and 254, the total after `k` cards is between `-256 * k` and
`254 * k`, and all sums fit as long as no more than 8388605 cards are committed.  One card more is
too much (`SkillTest.resolve_within_int32`).  The lowest numbers decide this: a card can take more
away than it can add, and the difficulty is subtracted at the end.
-/

namespace CardRules

/-! ## Checked sums -/

/-- Whether an integer is a signed 32-bit number. -/
def FitsInt32 (n : Int) : Prop :=
  Int32.minValue.toInt ≤ n ∧ n ≤ Int32.maxValue.toInt

instance (n : Int) : Decidable (FitsInt32 n) :=
  inferInstanceAs (Decidable (_ ∧ _))

/-- The range in numerals. -/
lemma fitsInt32_iff {n : Int} : FitsInt32 n ↔ -2147483648 ≤ n ∧ n ≤ 2147483647 :=
  Iff.rfl

/-- The outcome of an operation if it is a signed 32-bit number. -/
def checked (n : Int) : Option Int :=
  if FitsInt32 n then some n else none

/-- An operation in range has its outcome. -/
lemma checked_of_fits {n : Int} (h : FitsInt32 n) : checked n = some n :=
  if_pos h

/-- An operation out of range has no outcome. -/
lemma checked_of_not_fits {n : Int} (h : ¬ FitsInt32 n) : checked n = none :=
  if_neg h

/-- A check passes what fits and changes nothing. -/
lemma checked_eq_some_iff {n m : Int} : checked n = some m ↔ FitsInt32 n ∧ m = n := by
  rw [checked, Option.ite_none_right_eq_some, Option.some.injEq, eq_comm (a := m)]

/-! ## The values of vectors -/

namespace Skill

/-- The value of a vector, checked. -/
def value? (s : Skill) (axis : Axis) : Option Int :=
  checked ((s.on axis).toInt + s.wild.toInt)

/-- A vector is worth the sum of two 8-bit numbers. -/
lemma value_bounds (s : Skill) (axis : Axis) : -256 ≤ s.value axis ∧ s.value axis ≤ 254 := by
  have hon_lower : -128 ≤ (s.on axis).toInt := (s.on axis).le_toInt
  have hon_upper : (s.on axis).toInt < 128 := (s.on axis).toInt_lt
  have hwild_lower : -128 ≤ s.wild.toInt := s.wild.le_toInt
  have hwild_upper : s.wild.toInt < 128 := s.wild.toInt_lt
  rw [value]
  omega

/-- The value of a vector is far within the range. -/
lemma fitsInt32_value (s : Skill) (axis : Axis) : FitsInt32 (s.value axis) := by
  have hvalue := s.value_bounds axis
  rw [fitsInt32_iff]
  omega

/-- The value of a vector is never cut off. -/
lemma value?_eq_some (s : Skill) (axis : Axis) : s.value? axis = some (s.value axis) :=
  checked_of_fits (s.fitsInt32_value axis)

/-- A difficulty is not negative and at most the value of a vector. -/
lemma difficulty_bounds (s : Skill) (axis : Axis) :
    0 ≤ s.difficulty axis ∧ s.difficulty axis ≤ 254 := by
  have hvalue := s.value_bounds axis
  rw [difficulty]
  omega

/-- The vector that has the same number everywhere. -/
def uniform (x : Int8) : Skill :=
  ⟨x, x, x, x, x⟩

/-- A vector that has the same number everywhere is worth that number twice on each axis. -/
lemma value_uniform (x : Int8) (axis : Axis) : (uniform x).value axis = x.toInt + x.toInt := by
  cases axis <;> rfl

end Skill

namespace SkillTest

/-! ## Running totals -/

section Totals

variable {axis : Axis} {start : Int} {c : Card} {cards : List Card}

/-- The total after some cards, from the left to the right. -/
def runningTotal (axis : Axis) (start : Int) (cards : List Card) : Int :=
  cards.foldl (fun total c => total + c.skillVector.value axis) start

/-- The first card is added first. -/
lemma runningTotal_cons :
    runningTotal axis start (c :: cards) =
      runningTotal axis (start + c.skillVector.value axis) cards :=
  rfl

/-- The committed cards are added up from zero. -/
lemma committedTotal_eq_runningTotal (t : SkillTest) :
    t.committedTotal = runningTotal t.axis 0 t.committed :=
  rfl

/-- Each card moves the total by what a vector can be worth. -/
lemma runningTotal_bounds (axis : Axis) (start : Int) (cards : List Card) :
    start - 256 * cards.length ≤ runningTotal axis start cards ∧
      runningTotal axis start cards ≤ start + 254 * cards.length := by
  induction cards generalizing start with
  | nil => simp [runningTotal]
  | cons c cards ih =>
    have hvalue := c.skillVector.value_bounds axis
    have hrest := ih (start + c.skillVector.value axis)
    rw [runningTotal_cons, List.length_cons]
    omega

/-- Equal cards move the total by a multiple of what one is worth. -/
lemma runningTotal_replicate (count : Nat) :
    runningTotal axis start (List.replicate count c) =
      start + count * c.skillVector.value axis := by
  induction count generalizing start with
  | zero => simp [runningTotal]
  | succ count ih =>
    rw [List.replicate_succ, runningTotal_cons, ih, Nat.cast_succ, Int.add_mul, Int.one_mul]
    omega

/-- The total after some cards, with the value of each card and each sum checked. -/
def runningTotal? (axis : Axis) (start : Int) (cards : List Card) : Option Int :=
  cards.foldlM (fun total c => do checked (total + (← c.skillVector.value? axis))) start

/-- The first card is added first, if it can be. -/
lemma runningTotal?_cons :
    runningTotal? axis start (c :: cards) =
      (checked (start + c.skillVector.value axis)).bind (runningTotal? axis · cards) := by
  rw [runningTotal?, List.foldlM_cons, Skill.value?_eq_some]
  rfl

/-- From a number that fits, the cards can be added up exactly if the total fits after each of
them. -/
lemma runningTotal?_eq_some_iff (hstart : FitsInt32 start) {total : Int} :
    runningTotal? axis start cards = some total ↔
      (∀ front, front <+: cards → FitsInt32 (runningTotal axis start front)) ∧
        total = runningTotal axis start cards := by
  induction cards generalizing start with
  | nil =>
    simp [runningTotal?, runningTotal, hstart, eq_comm]
  | cons c cards ih =>
    rw [runningTotal?_cons]
    by_cases hnext : FitsInt32 (start + c.skillVector.value axis)
    · rw [checked_of_fits hnext, Option.bind_some, ih hnext, runningTotal_cons]
      refine and_congr_left fun _ => ⟨fun hfits front hfront => ?_, fun hfits front hfront => ?_⟩
      · obtain rfl | ⟨after, rfl, hafter⟩ := List.prefix_cons_iff.1 hfront
        · exact hstart
        · exact hfits after hafter
      · exact hfits (c :: front) (List.cons_prefix_cons.2 ⟨rfl, hfront⟩)
    · rw [checked_of_not_fits hnext, Option.bind_none]
      -- the total after this one card is the sum that does not fit
      refine iff_of_false nofun fun hfits => hnext (hfits.1 [c] ?_)
      exact List.cons_prefix_cons.2 ⟨rfl, List.nil_prefix⟩

end Totals

/-! ## Checked tests -/

variable {t : SkillTest} {token : Token} {n : Int}

/-- How the test ends with a token, with each sum checked.  There are no sums if the token makes
every test fail. -/
def verdict? (t : SkillTest) (token : Token) : Option Verdict :=
  if token.isAutoFail then some { succeeded := false, margin := 0, token }
  else do
    let difficulty := max (← t.tested.value? t.axis) 0
    let total ← runningTotal? t.axis 0 t.committed
    let withCards ← checked ((← t.player.value? t.axis) + total)
    let reached ← checked (withCards + token.effect.toInt)
    let margin ← checked (reached - difficulty)
    return { succeeded := decide (difficulty ≤ reached), margin, token }

/-- Draws one token and ends the test with it, with each sum checked. -/
def resolve? {σ : Type} [TokenSupply σ] (t : SkillTest) (source : σ) :
    Option (Except TokenError Verdict × σ) :=
  match TokenSupply.draw source with
  | (.error e, source) => some (.error e, source)
  | (.ok token, source) => do return (.ok (← t.verdict? token), source)

/-- The numbers that come up while a test is brought to its end with a token that does not end it at
once. -/
inductive Reckons (t : SkillTest) (token : Token) : Int → Prop
  | tested : Reckons t token (t.tested.value t.axis)
  | player : Reckons t token (t.player.value t.axis)
  | card {c : Card} (h : c ∈ t.committed) : Reckons t token (c.skillVector.value t.axis)
  /-- The total of the first of the committed cards, or of none. -/
  | total {front : List Card} (h : front <+: t.committed) :
    Reckons t token (runningTotal t.axis 0 front)
  | withCards : Reckons t token (t.player.value t.axis + t.committedTotal)
  | reached :
    Reckons t token (t.player.value t.axis + t.committedTotal + token.effect.toInt)
  | margin :
    Reckons t token
      (t.player.value t.axis + t.committedTotal + token.effect.toInt - t.tested.difficulty t.axis)

/-- **A checked test has a verdict exactly if every number that comes up fits**, and then it is the
verdict that the integers give. -/
lemma verdict?_eq_some_iff (hplays : token.kind ≠ .autoFail) {verdict : Verdict} :
    t.verdict? token = some verdict ↔
      (∀ n, t.Reckons token n → FitsInt32 n) ∧ verdict = t.verdict token := by
  have hauto : ¬ token.isAutoFail = true := fun hfail => hplays (beq_iff_eq.1 hfail)
  have hzero : FitsInt32 0 := by decide
  simp only [verdict?, if_neg hauto, Skill.value?_eq_some, Option.pure_def, Option.bind_eq_bind,
    Option.bind_some, Option.bind_eq_some_iff, runningTotal?_eq_some_iff hzero,
    checked_eq_some_iff, t.verdict_of_ne_autoFail hplays]
  constructor
  · rintro ⟨_, ⟨htotal, rfl⟩, _, ⟨hwithCards, rfl⟩, _, ⟨hreached, rfl⟩, _, ⟨hmargin, rfl⟩, hverdict⟩
    refine ⟨fun n hn => ?_, (Option.some.inj hverdict).symm⟩
    cases hn with
    | tested => exact t.tested.fitsInt32_value t.axis
    | player => exact t.player.fitsInt32_value t.axis
    | card _ => exact Skill.fitsInt32_value _ t.axis
    | total hfront => exact htotal _ hfront
    | withCards => exact hwithCards
    | reached => exact hreached
    | margin => exact hmargin
  · rintro ⟨hfits, rfl⟩
    exact ⟨_, ⟨fun front hfront => hfits _ (.total hfront), rfl⟩, _, ⟨hfits _ .withCards, rfl⟩,
      _, ⟨hfits _ .reached, rfl⟩, _, ⟨hfits _ .margin, rfl⟩, rfl⟩

/-- Without sums there is nothing to check. -/
lemma verdict?_of_autoFail (hfail : token.kind = .autoFail) :
    t.verdict? token = some (t.verdict token) := by
  have hauto : token.isAutoFail = true := beq_iff_eq.2 hfail
  rw [verdict?, if_pos hauto, t.verdict_of_autoFail hfail]

/-- With few enough cards every number that comes up fits.  At the limit the lowest margin is
-2147483518. -/
lemma Reckons.fitsInt32 (hn : t.Reckons token n) (hcards : t.committed.length ≤ 8388605) :
    FitsInt32 n := by
  have hplayer := t.player.value_bounds t.axis
  have hdifficulty := t.tested.difficulty_bounds t.axis
  have heffect_lower : -128 ≤ token.effect.toInt := token.effect.le_toInt
  have heffect_upper : token.effect.toInt < 128 := token.effect.toInt_lt
  have htotal := runningTotal_bounds t.axis 0 t.committed
  rw [← committedTotal_eq_runningTotal] at htotal
  cases hn with
  | tested => exact t.tested.fitsInt32_value t.axis
  | player => exact t.player.fitsInt32_value t.axis
  | card _ => exact Skill.fitsInt32_value _ t.axis
  | @total front hfront =>
    have hfew : front.length ≤ t.committed.length := hfront.length_le
    have hfront := runningTotal_bounds t.axis 0 front
    rw [fitsInt32_iff]
    omega
  | withCards | reached | margin =>
    rw [fitsInt32_iff]
    omega

/-- With few enough cards the checks make no difference. -/
lemma resolve?_eq_some {σ : Type} [TokenSupply σ] (hcards : t.committed.length ≤ 8388605)
    (source : σ) : t.resolve? source = some (t.resolve source) := by
  have hverdict (token : Token) : t.verdict? token = some (t.verdict token) := by
    by_cases hfail : token.kind = .autoFail
    · exact verdict?_of_autoFail hfail
    · exact (verdict?_eq_some_iff hfail).2 ⟨fun n hn => hn.fitsInt32 hcards, rfl⟩
  rw [resolve?, resolve]
  rcases TokenSupply.draw source with ⟨_ | token, rest⟩
  · rfl
  · simp only [hverdict]
    rfl

/-! ## Too many cards -/

/-- A card that is all hindrance. -/
def burden : Card :=
  .skill { name := "Despair", faction := .neutral, skill := Skill.uniform (-128) }

/-- A test in which everything is as bad as it can be. -/
def worst (axis : Axis) (count : Nat) : SkillTest where
  axis
  tested := Skill.uniform 127
  player := Skill.uniform (-128)
  committed := List.replicate count burden

/-- In the worst test each card takes 256 from the margin, and all the rest takes 638. -/
lemma reckons_worst (axis : Axis) (count : Nat) :
    (worst axis count).Reckons ⟨.skull, -128⟩ (-256 * count - 638) := by
  have hcard : burden.skillVector.value axis = -256 := Skill.value_uniform (-128) axis
  have hplayer : (Skill.uniform (-128)).value axis = -256 := Skill.value_uniform (-128) axis
  have htested : (Skill.uniform 127).value axis = 254 := Skill.value_uniform 127 axis
  have htotal : (worst axis count).committedTotal = -256 * count := by
    rw [committedTotal_eq_runningTotal, worst, runningTotal_replicate, hcard, Int.zero_add,
      Int.mul_comm]
  have hmargin : (-256 : Int) * count - 638 =
      (worst axis count).player.value axis + (worst axis count).committedTotal +
        (-128 : Int8).toInt - (worst axis count).tested.difficulty axis := by
    rw [htotal, Skill.difficulty]
    change _ = (Skill.uniform (-128)).value axis + _ + (-128) -
      max ((Skill.uniform 127).value axis) 0
    rw [hplayer, htested]
    omega
  rw [hmargin]
  exact .margin

/-- **No sum of a test is out of the range of 32-bit numbers if at most 8388605 cards are committed,
and no larger number of cards is safe.**

* With that many cards or fewer every number that comes up fits, whatever is tested, whoever takes
  part and whatever the token is.  With each sum checked a test ends as it does without the checks,
  from every source of tokens.
* For every larger number of cards and each axis there are a test with that many cards and a token
  that does not make every test fail, with which some number that comes up does not fit.  From every
  source that gives this token the checked test has no result. -/
theorem resolve_within_int32 :
    (∀ t : SkillTest, t.committed.length ≤ 8388605 →
      (∀ token n, t.Reckons token n → FitsInt32 n) ∧
      ∀ (σ : Type) [TokenSupply σ] (source : σ), t.resolve? source = some (t.resolve source)) ∧
    ∀ axis count, 8388605 < count → ∃ (t : SkillTest) (token : Token),
      t.axis = axis ∧ t.committed.length = count ∧ token.kind ≠ .autoFail ∧
      (∃ n, t.Reckons token n ∧ ¬ FitsInt32 n) ∧
      ∀ (σ : Type) [TokenSupply σ] (source rest : σ),
        TokenSupply.draw source = (.ok token, rest) → t.resolve? source = none := by
  refine ⟨fun t hcards => ⟨fun token n hn => hn.fitsInt32 hcards,
    fun σ _ source => resolve?_eq_some hcards source⟩, fun axis count hcount => ?_⟩
  have hplays : (Token.mk .skull (-128)).kind ≠ .autoFail := nofun
  have hmargin : ¬ FitsInt32 (-256 * count - 638) := by
    rw [fitsInt32_iff]
    omega
  refine ⟨worst axis count, ⟨.skull, -128⟩, rfl, List.length_replicate, hplays,
    ⟨_, reckons_worst axis count, hmargin⟩, fun σ _ source rest hdraw => ?_⟩
  have hverdict : (worst axis count).verdict? ⟨.skull, -128⟩ = none :=
    Option.eq_none_iff_forall_ne_some.2 fun verdict hsome =>
      hmargin (((verdict?_eq_some_iff hplays).1 hsome).1 _ (reckons_worst axis count))
  rw [resolve?, hdraw]
  simp only [hverdict]
  rfl

/-- At the limit even the worst test has a verdict, and with one more card there is a test that has
none. -/
theorem resolve_within_int32_limit :
    (worst .combat 8388605).resolve? (Script.mk [⟨.skull, -128⟩]) =
      some ((worst .combat 8388605).resolve (Script.mk [⟨.skull, -128⟩])) ∧
    ∃ t : SkillTest, t.axis = .combat ∧ t.committed.length = 8388606 ∧
      ∃ token, t.resolve? (Script.mk [token]) = none := by
  obtain ⟨t, token, haxis, hlength, -, -, hnone⟩ :=
    resolve_within_int32.2 .combat 8388606 (by decide)
  refine ⟨(resolve_within_int32.1 (worst .combat 8388605) ?_).2 Script _,
    t, haxis, hlength, token, hnone Script _ ⟨[]⟩ rfl⟩
  exact List.length_replicate.le

end SkillTest

end CardRules
