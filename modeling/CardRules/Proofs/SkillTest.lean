import CardRules.Proofs.Token.Replay
import Mathlib.Algebra.Ring.Int.Defs

/-!
# The ruling of a skill test

A test takes one token from its source and sets what the player, the committed cards and the token
come to against the difficulty.  The main statement, `SkillTest.resolve_once`, says so for every
source of tokens and every list of committed cards: there is one draw, whatever comes of it, and the
drawn token settles the verdict by sums that are never cut off, but for a difficulty below zero.

How often a source was drawn from is seen in a log.  A `Logged` source gives the same tokens as the
one inside it and keeps all it gave, failures included.  As a test leaves one entry in the log, a run
of tests leaves one for each test (`SkillTest.resolveAll_logged`).
-/

namespace CardRules

variable {σ : Type} [TokenSupply σ]

/-! ## Logged sources -/

/-- A source of tokens with a log of its draws. -/
structure Logged (σ : Type) where
  source : σ
  /-- What came of the draws, the first one first. -/
  draws : List (Except TokenError Token) := []

instance : TokenSupply (Logged σ) where
  draw s :=
    let (drawn, source) := TokenSupply.draw s.source
    (drawn, ⟨source, s.draws ++ [drawn]⟩)

namespace SkillTest

/-- A test makes one draw, and the log shows nothing else. -/
lemma resolve_logged (t : SkillTest) (source : σ) (draws : List (Except TokenError Token)) :
    t.resolve (Logged.mk source draws) =
      ((t.resolve source).1,
        ⟨(TokenSupply.draw source).2, draws ++ [(TokenSupply.draw source).1]⟩) :=
  rfl

/-- **A run of tests makes one draw for each of them.**  It ends in the same way as without the log,
with the verdicts and with what is left of the source. -/
theorem resolveAll_logged (tests : List SkillTest) (source : σ)
    (draws : List (Except TokenError Token)) :
    ∃ added, added.length = tests.length ∧
      resolveAll tests (Logged.mk source draws) =
        ((resolveAll tests source).1, ⟨(resolveAll tests source).2, draws ++ added⟩) := by
  induction tests generalizing source draws with
  | nil => exact ⟨[], rfl, by rw [List.append_nil]; rfl⟩
  | cons t tests ih =>
    let drawn := (TokenSupply.draw source).1
    let rest := (TokenSupply.draw source).2
    have hdraw : TokenSupply.draw source = (drawn, rest) := rfl
    have hlogged : TokenSupply.draw (Logged.mk source draws) =
        (drawn, Logged.mk rest (draws ++ [drawn])) := rfl
    obtain ⟨added, hlength, hrun⟩ := ih rest (draws ++ [drawn])
    refine ⟨drawn :: added, congrArg Nat.succ hlength, ?_⟩
    rw [resolveAll_cons hlogged, resolveAll_cons hdraw, hrun, List.append_assoc,
      List.singleton_append]

/-! ## Verdicts -/

variable {token : Token}

/-- The total of the committed cards is the sum of what each of them is worth on the axis. -/
lemma committedTotal_eq_sum (t : SkillTest) :
    t.committedTotal =
      (t.committed.map fun c =>
        (c.skillVector.on t.axis).toInt + c.skillVector.wild.toInt).sum := by
  rw [List.sum_eq_foldl, List.foldl_map]
  rfl

/-- A token that makes every test fail leaves no margin. -/
lemma verdict_of_autoFail (t : SkillTest) (h : token.kind = .autoFail) :
    t.verdict token = { succeeded := false, margin := 0, token } := by
  have hfail : token.isAutoFail = true := beq_iff_eq.2 h
  rw [verdict, if_pos hfail]

/-- With any other token the margin is what was reached beyond the difficulty. -/
lemma verdict_of_ne_autoFail (t : SkillTest) (h : token.kind ≠ .autoFail) :
    t.verdict token =
      { succeeded := decide (t.tested.difficulty t.axis ≤
          t.player.value t.axis + t.committedTotal + token.effect.toInt)
        margin := t.player.value t.axis + t.committedTotal + token.effect.toInt -
          t.tested.difficulty t.axis
        token } := by
  have hplays : ¬ token.isAutoFail = true := fun hfail => h (beq_iff_eq.1 hfail)
  rw [verdict, if_neg hplays]

/-- A test is passed exactly if the margin is not negative. -/
lemma succeeded_verdict_iff (t : SkillTest) (h : token.kind ≠ .autoFail) :
    (t.verdict token).succeeded = true ↔ 0 ≤ (t.verdict token).margin := by
  rw [verdict_of_ne_autoFail t h, decide_eq_true_iff, Int.sub_nonneg]

/-- The margin in the numbers of the player, the committed cards, the token and the tested
vector. -/
lemma margin_verdict (t : SkillTest) (h : token.kind ≠ .autoFail) :
    (t.verdict token).margin =
      (t.player.on t.axis).toInt + t.player.wild.toInt +
        (t.committed.map fun c =>
          (c.skillVector.on t.axis).toInt + c.skillVector.wild.toInt).sum +
        token.effect.toInt - max ((t.tested.on t.axis).toInt + t.tested.wild.toInt) 0 := by
  rw [verdict_of_ne_autoFail t h, committedTotal_eq_sum]
  rfl

/-- **A test takes one token, and the token settles it.**

* The source is left as one draw leaves it, and a log shows that one draw and no other.
* If the draw fails, the test fails with the same error.
* If the token makes every test fail, each test against that source ends with the same verdict: it
  is failed, without a margin, whatever is tested and whoever takes part.
* With any other token the margin is the value of the player on the axis, the values of all
  committed cards and the effect of the token, less the value of the tested vector or zero if that
  is more; a wild number counts once with each vector.  The test is passed exactly if the margin is
  not negative. -/
theorem resolve_once (t : SkillTest) (source : σ) :
    let drawn := (TokenSupply.draw source).1
    let rest := (TokenSupply.draw source).2
    (t.resolve source).2 = rest ∧
    (∀ draws, t.resolve (Logged.mk source draws) =
      ((t.resolve source).1, ⟨rest, draws ++ [drawn]⟩)) ∧
    (∀ e, drawn = .error e → (t.resolve source).1 = .error e) ∧
    (∀ token, drawn = .ok token → token.kind = .autoFail → ∀ t' : SkillTest,
      t'.resolve source = (.ok { succeeded := false, margin := 0, token }, rest)) ∧
    ∀ token, drawn = .ok token → token.kind ≠ .autoFail →
      ∃ verdict, (t.resolve source).1 = .ok verdict ∧ verdict.token = token ∧
        verdict.margin =
          (t.player.on t.axis).toInt + t.player.wild.toInt +
            (t.committed.map fun c =>
              (c.skillVector.on t.axis).toInt + c.skillVector.wild.toInt).sum +
            token.effect.toInt - max ((t.tested.on t.axis).toInt + t.tested.wild.toInt) 0 ∧
        (verdict.succeeded = true ↔ 0 ≤ verdict.margin) := by
  intro drawn rest
  have hresolve (t : SkillTest) : t.resolve source = (drawn.map t.verdict, rest) := rfl
  refine ⟨rfl, t.resolve_logged source, ?_, ?_, ?_⟩
  · intro e hdrawn
    rw [hresolve, hdrawn]
    rfl
  · intro token hdrawn hfail t'
    rw [hresolve, hdrawn, Except.map, verdict_of_autoFail t' hfail]
  · intro token hdrawn hplays
    refine ⟨t.verdict token, ?_, t.token_verdict token, t.margin_verdict hplays,
      t.succeeded_verdict_iff hplays⟩
    rw [hresolve, hdrawn]
    rfl

/-- A fight for which an ally and a skill card are committed.  The wild number of the skill card is
a hindrance, and what is tested is worth less than nothing. -/
def ambush : SkillTest where
  axis := .combat
  tested := { combat := 2, wild := -5 }
  player := { combat := 3, wild := 1 }
  committed :=
    [.asset
      { name := "Guard Dog", faction := .guardian, skill := { combat := 1 }, cost := 3
        slot := some .ally },
     .skill { name := "Shaking Hands", faction := .neutral, skill := { combat := 3, wild := -1 } }]

/-- With a token of -5 the fight is won by two.  The player alone comes to four and would lose by
one, but the ally adds one and the skill card two.  The difficulty is zero and not -3. -/
theorem resolve_once_ambush :
    ∃ verdict, (ambush.resolve (Script.mk [⟨.skull, -5⟩, ⟨.autoFail, 2⟩])).1 = .ok verdict ∧
      verdict.token = ⟨.skull, -5⟩ ∧ verdict.margin = 2 ∧ verdict.succeeded = true := by
  obtain ⟨verdict, hresolve, htoken, hmargin, hsucceeded⟩ :=
    (ambush.resolve_once (Script.mk [⟨.skull, -5⟩, ⟨.autoFail, 2⟩])).2.2.2.2 ⟨.skull, -5⟩ rfl
      (by decide)
  have hwon : verdict.margin = 2 := hmargin.trans (by decide)
  refine ⟨verdict, hresolve, htoken, hwon, hsucceeded.2 ?_⟩
  rw [hwon]
  decide

end SkillTest

end CardRules
