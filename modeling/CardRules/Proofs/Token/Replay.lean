import CardRules.Proofs.Token.Run
import CardRules.SkillTest
import CardRules.Token.Script

/-!
# Replays of skill tests

A list of skill tests can be resolved against any source of tokens, one test after the other.  Every
test takes one token, whatever its verdict.  The tokens that a bag gave can therefore be put into a
script, and the script leads to the same verdicts (`Bag.replay_resolveAll`).

A bag that has run dry stays dry, so that its failures come after all its verdicts.
-/

namespace CardRules

/-! ## Lists of tests -/

namespace SkillTest

/-- Resolves the tests of a list, one after the other, against one source of tokens. -/
def resolveAll {σ : Type} [TokenSupply σ] :
    List SkillTest → σ → List (Except TokenError Verdict) × σ
  | [], source => ([], source)
  | t :: tests, source =>
    let (result, source) := t.resolve source
    let (results, source) := resolveAll tests source
    (result :: results, source)

/-- The tokens of the tests that came to a verdict, in their order. -/
def tokensOf (results : List (Except TokenError Verdict)) : List Token :=
  results.filterMap fun result => result.toOption.map (·.token)

/-- A verdict shows the token it was reached with, also one that ends the test at once. -/
lemma token_verdict (t : SkillTest) (token : Token) : (t.verdict token).token = token := by
  rw [verdict]
  split <;> rfl

variable {σ : Type} [TokenSupply σ]

/-- The first test draws, and the others are resolved against what the draw leaves. -/
lemma resolveAll_cons {source rest : σ} {drawn : Except TokenError Token}
    (h : TokenSupply.draw source = (drawn, rest)) (t : SkillTest) (tests : List SkillTest) :
    resolveAll (t :: tests) source =
      (drawn.map t.verdict :: (resolveAll tests rest).1, (resolveAll tests rest).2) := by
  rw [resolveAll, resolve, h]

/-- A source that stays as it is when a draw fails lets all tests fail in the same way. -/
lemma resolveAll_of_dry {source : σ} {e : TokenError}
    (h : TokenSupply.draw source = (.error e, source)) (tests : List SkillTest) :
    resolveAll tests source = (List.replicate tests.length (.error e), source) := by
  induction tests with
  | nil => rfl
  | cons t tests ih =>
    rw [resolveAll_cons h, ih]
    rfl

/-- Failed tests show no tokens. -/
lemma tokensOf_replicate_error (n : Nat) (e : TokenError) :
    tokensOf (List.replicate n (.error e)) = [] := by
  rw [tokensOf, List.filterMap_replicate_of_none rfl]

/-- A test that was resolved shows its token before those of the later ones. -/
lemma tokensOf_cons_ok (verdict : Verdict) (results : List (Except TokenError Verdict)) :
    tokensOf (.ok verdict :: results) = verdict.token :: tokensOf results :=
  rfl

end SkillTest

/-! ## Bags and scripts -/

namespace Script

open SkillTest (resolveAll)

/-- A script at its end lets all tests fail. -/
lemma resolveAll_nil (tests : List SkillTest) :
    resolveAll tests (Script.mk []) = (List.replicate tests.length (.error .exhausted), ⟨[]⟩) :=
  SkillTest.resolveAll_of_dry rfl tests

/-- The first test takes the next token of a script. -/
lemma resolveAll_cons (token : Token) (rest : List Token) (t : SkillTest)
    (tests : List SkillTest) :
    resolveAll (t :: tests) (Script.mk (token :: rest)) =
      (.ok (t.verdict token) :: (resolveAll tests (Script.mk rest)).1,
        (resolveAll tests (Script.mk rest)).2) :=
  rfl

end Script

namespace Bag

open SkillTest (resolveAll tokensOf)

/-- What the results of a bag and those of the script of its tokens have to do with each other.
`played` are the results of the bag; `replayed` are those of the script, and what is left of it. -/
structure Replays (played : List (Except TokenError Verdict))
    (replayed : List (Except TokenError Verdict) × Script) : Prop where
  /-- The verdicts are the same, and where the bag was empty the script has come to its end. -/
  results : replayed.1 = played.map (Except.mapError fun _ => .exhausted)
  /-- The bag fails for one reason only, and from the first failure on it always fails. -/
  suffix : ∃ (verdicts : List Verdict) (missing : Nat),
    played = verdicts.map .ok ++ List.replicate missing (.error .empty)
  /-- Nothing is left of the script. -/
  consumed : replayed.2.remaining = 0

/-- An empty bag is replayed by an empty script. -/
lemma replays_of_dry (n : Nat) :
    Replays (List.replicate n (.error .empty)) (List.replicate n (.error .exhausted), ⟨[]⟩) where
  results := by
    rw [List.map_replicate]
    rfl
  suffix := ⟨[], n, rfl⟩
  consumed := rfl

/-- A verdict that both reach comes before what follows. -/
lemma Replays.cons {played : List (Except TokenError Verdict)}
    {replayed : List (Except TokenError Verdict) × Script} (h : Replays played replayed)
    (verdict : Verdict) :
    Replays (.ok verdict :: played) (.ok verdict :: replayed.1, replayed.2) where
  results := congrArg (.ok verdict :: ·) h.results
  suffix := by
    obtain ⟨verdicts, missing, hplayed⟩ := h.suffix
    exact ⟨verdict :: verdicts, missing, congrArg (.ok verdict :: ·) hplayed⟩
  consumed := h.consumed

variable {ρ : Type} [Picker ρ]

/-- **A replay agrees with the original.**  Tests are resolved against a bag in any state, one after
the other.  Against the script of the tokens that were drawn each test ends in the same way, except
that the script says it is at its end where the bag said it was empty.  The failures of the bag come
after all its verdicts, and the whole script is used up. -/
theorem replay_resolveAll (tests : List SkillTest) (bag : Bag ρ) :
    let played := (resolveAll tests bag).1
    Replays played (resolveAll tests (Script.mk (tokensOf played))) := by
  -- Every test takes one token from the bag and the same one from the script, until the bag is dry.
  induction tests generalizing bag with
  | nil => exact replays_of_dry 0
  | cons t tests ih =>
    dsimp only
    rcases draw_cases bag with ⟨-, hdraw⟩ | ⟨i, picker, -, hdraw⟩
    · have hdry : TokenSupply.draw bag = (.error .empty, bag) := hdraw
      rw [SkillTest.resolveAll_of_dry hdry, SkillTest.tokensOf_replicate_error,
        Script.resolveAll_nil]
      exact replays_of_dry _
    · have htaken : TokenSupply.draw bag = (.ok (bag.tokens.get i), bag.taking i picker) := hdraw
      have hplayed : (resolveAll (t :: tests) bag).1 =
          .ok (t.verdict (bag.tokens.get i)) :: (resolveAll tests (bag.taking i picker)).1 := by
        rw [SkillTest.resolveAll_cons htaken]
        rfl
      rw [hplayed, SkillTest.tokensOf_cons_ok, SkillTest.token_verdict, Script.resolveAll_cons]
      exact (ih (bag.taking i picker)).cons _

end Bag

end CardRules
