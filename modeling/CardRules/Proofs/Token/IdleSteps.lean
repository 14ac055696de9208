import CardRules.Proofs.Token.Run
import CardRules.Random.Basic

/-!
# Steps that do nothing to a bag

Some steps of a run are idle: a draw that fails, and a reset with no token set aside.  They can be
left out of the run.  All other steps then do what they did before, from the same bags, and the bag
at the end is the same (`Bag.run_without_idle`).

In particular a draw that fails does not use up a choice of the picker.  The tokens that are drawn
later on are those that would have been drawn without it (`Bag.drawnTokens_without_idle`).
-/

namespace CardRules

namespace Bag

/-! ## Turns of a run -/

/-- One step of a run, with the bag that it is taken from and what happens. -/
structure Turn (ρ : Type) where
  bag : Bag ρ
  step : Step
  event : Event

/-- Whether a turn does nothing: a draw failed, or no token was set aside when the bag was reset. -/
def Turn.idle {ρ : Type} (turn : Turn ρ) : Bool :=
  match turn.event with
  | .drew (.error .empty) => true
  | .reset => turn.bag.drawn.isEmpty
  | _ => false

variable {ρ : Type} [Picker ρ]

/-- The turns of a run, one for each step. -/
def turns (bag : Bag ρ) : List Step → List (Turn ρ)
  | [] => []
  | s :: steps => ⟨bag, s, (bag.step s).1⟩ :: (bag.step s).2.turns steps

/-- There is a turn for each step. -/
lemma map_step_turns (bag : Bag ρ) (steps : List Step) :
    (bag.turns steps).map (·.step) = steps := by
  induction steps generalizing bag with
  | nil => rfl
  | cons s steps ih => rw [turns, List.map_cons, ih]

/-- A turn shows what the log shows of its step. -/
lemma map_event_turns (bag : Bag ρ) (steps : List Step) :
    (bag.turns steps).map (·.event) = (bag.run steps).1 := by
  induction steps generalizing bag with
  | nil => rfl
  | cons s steps ih =>
    rw [turns, List.map_cons, ih]
    rfl

/-- The rest of a run starts from the bag that the first step leaves. -/
lemma run_cons (bag : Bag ρ) (s : Step) (steps : List Step) :
    bag.run (s :: steps) =
      ((bag.step s).1 :: ((bag.step s).2.run steps).1, ((bag.step s).2.run steps).2) :=
  rfl

/-! ## Idle turns -/

omit [Picker ρ] in
/-- A reset with no token set aside does nothing. -/
lemma reset_of_drawn_eq_nil {bag : Bag ρ} (h : bag.drawn = []) : bag.reset = bag := by
  obtain ⟨tokens, drawn, rule, picker⟩ := bag
  obtain rfl : drawn = [] := h
  rw [reset, List.append_nil]

/-- **An idle step leaves a bag as it is**, its picker included. -/
lemma step_of_idle {bag : Bag ρ} {s : Step} (h : Turn.idle ⟨bag, s, (bag.step s).1⟩ = true) :
    (bag.step s).2 = bag := by
  cases s with
  | add token => cases h
  | draw =>
    rcases draw_cases bag with ⟨-, hdraw⟩ | ⟨i, picker, -, hdraw⟩
    · rw [step, hdraw]
    · rw [step, hdraw] at h
      cases h
  | reset => exact reset_of_drawn_eq_nil (List.isEmpty_iff.1 h)

/-- An idle turn of a run leaves its bag as it is. -/
lemma step_of_mem_turns {bag : Bag ρ} {steps : List Step} {turn : Turn ρ}
    (hmem : turn ∈ bag.turns steps) (hidle : turn.idle = true) :
    (turn.bag.step turn.step).2 = turn.bag := by
  induction steps generalizing bag with
  | nil => cases hmem
  | cons s steps ih =>
    rw [turns] at hmem
    rcases List.mem_cons.1 hmem with rfl | hrest
    · exact step_of_idle hidle
    · exact ih hrest

omit [Picker ρ] in
/-- No token is drawn in an idle turn. -/
lemma drawn?_of_idle {turn : Turn ρ} (h : turn.idle = true) : turn.event.drawn? = none := by
  obtain ⟨bag, s, event⟩ := turn
  rcases event with token | (- | token) | -
  · rfl
  · rfl
  · cases h
  · rfl

omit [Picker ρ] in
/-- The tokens that are drawn in some turns are drawn in those that are not idle. -/
lemma drawnTokens_without_idle (ts : List (Turn ρ)) :
    drawnTokens ((ts.filter (!·.idle)).map (·.event)) = drawnTokens (ts.map (·.event)) := by
  simp only [drawnTokens, List.filterMap_map]
  induction ts with
  | nil => rfl
  | cons turn ts ih =>
    rw [List.filter_cons, List.filterMap_cons]
    cases hidle : turn.idle with
    | true =>
      rw [Function.comp_apply, drawn?_of_idle hidle]
      exact ih
    | false =>
      rw [Bool.not_false, if_pos rfl, List.filterMap_cons, ih]

/-- The turns of a run that are not idle are the turns of a shorter run, and both runs come to the
same bag. -/
lemma turns_without_idle (bag : Bag ρ) (steps : List Step) :
    let kept := (bag.turns steps).filter (!·.idle)
    bag.turns (kept.map (·.step)) = kept ∧
      (bag.run (kept.map (·.step))).2 = (bag.run steps).2 := by
  induction steps generalizing bag with
  | nil => exact ⟨rfl, rfl⟩
  | cons s steps ih =>
    dsimp only
    obtain ⟨hturns, hbag⟩ := ih (bag.step s).2
    rw [turns, List.filter_cons, run_cons]
    cases hidle : Turn.idle ⟨bag, s, (bag.step s).1⟩ with
    | true =>
      -- The rest of the run starts from the same bag, so that the first step is not missed.
      rw [step_of_idle hidle] at hturns hbag ⊢
      exact ⟨hturns, hbag⟩
    | false =>
      rw [Bool.not_false, if_pos rfl, List.map_cons, turns, hturns, run_cons]
      exact ⟨rfl, hbag⟩

/-! ## Bags into which drawn tokens go back -/

/-- If drawn tokens go back, then no step sets one aside. -/
lemma drawn_step_of_replace {bag : Bag ρ} (hrule : bag.rule = .replace) (hdrawn : bag.drawn = [])
    (s : Step) : (bag.step s).2.rule = .replace ∧ (bag.step s).2.drawn = [] := by
  cases s with
  | add token => exact ⟨hrule, hdrawn⟩
  | draw =>
    rcases draw_cases bag with ⟨-, hdraw⟩ | ⟨i, picker, -, hdraw⟩
    · rw [step, hdraw]
      exact ⟨hrule, hdrawn⟩
    · rw [step, hdraw, taking_of_replace hrule]
      exact ⟨hrule, hdrawn⟩
  | reset => exact ⟨hrule, rfl⟩

/-- If drawn tokens go back, then every reset of a run is idle. -/
lemma idle_of_replace {bag : Bag ρ} (hrule : bag.rule = .replace) (hdrawn : bag.drawn = [])
    {steps : List Step} {turn : Turn ρ} (hmem : turn ∈ bag.turns steps)
    (hreset : turn.step = .reset) : turn.idle = true := by
  induction steps generalizing bag with
  | nil => cases hmem
  | cons s steps ih =>
    rw [turns] at hmem
    rcases List.mem_cons.1 hmem with rfl | hrest
    · obtain rfl : s = .reset := hreset
      exact List.isEmpty_iff.2 hdrawn
    · obtain ⟨hrule', hdrawn'⟩ := drawn_step_of_replace hrule hdrawn s
      exact ih hrule' hdrawn' hrest

/-! ## Runs without idle steps -/

/-- **Idle steps can be left out of a run.**  If every draw that fails and every reset with no token
set aside is deleted from the steps of a run, then

* the turns of the shorter run are those that are left of the longer one: each other step starts
  from the same bag and has the same result;
* the log of the shorter run is what is left of the log, and the bag at the end is the same;
* no idle step changed the bag, so that a draw that failed left the picker as it was;
* if drawn tokens go back, then all resets were deleted. -/
theorem run_without_idle (bag : Bag ρ) (steps : List Step) :
    let kept := (bag.turns steps).filter (!·.idle)
    ((bag.turns steps).map (·.step) = steps ∧
      (bag.turns steps).map (·.event) = (bag.run steps).1) ∧
    bag.turns (kept.map (·.step)) = kept ∧
    bag.run (kept.map (·.step)) = (kept.map (·.event), (bag.run steps).2) ∧
    (∀ turn ∈ bag.turns steps, turn.idle = true →
      (turn.bag.step turn.step).2 = turn.bag) ∧
    (bag.rule = .replace → bag.drawn = [] → ∀ turn ∈ kept, turn.step ≠ .reset) := by
  intro kept
  obtain ⟨hturns, hbag⟩ := turns_without_idle bag steps
  have hlog : (bag.run (kept.map (·.step))).1 = kept.map (·.event) := by
    rw [← map_event_turns, hturns]
  refine ⟨⟨map_step_turns bag steps, map_event_turns bag steps⟩, hturns, Prod.ext hlog hbag,
    fun turn hmem hidle => step_of_mem_turns hmem hidle, fun hrule hdrawn turn hmem hreset => ?_⟩
  obtain ⟨hturn, hactive⟩ := List.mem_filter.1 hmem
  rw [idle_of_replace hrule hdrawn hturn hreset] at hactive
  cases hactive

/-- Steps for a bag that is empty at first.  A draw fails and a reset does nothing; then tokens are
put into the bag and two of them are drawn, with a reset between the draws. -/
def lateFilling : List Step :=
  [.draw, .reset, .add ⟨.skull, 0⟩, .add ⟨.tablet, -2⟩, .add ⟨.cultist, -1⟩, .draw, .reset, .draw]

/-- From an empty bag the same two tokens are drawn with the idle steps as without them, under
either rule.  The reset between the draws is idle only if drawn tokens go back. -/
theorem run_without_idle_empty :
    let bag (rule : DrawRule) := Bag.filled rule [] (Random.ofSeed 1)
    let kept (rule : DrawRule) := ((bag rule).turns lateFilling).filter (!·.idle)
    let added : List Step := [.add ⟨.skull, 0⟩, .add ⟨.tablet, -2⟩, .add ⟨.cultist, -1⟩]
    let drawn : List Token := [⟨.cultist, -1⟩, ⟨.tablet, -2⟩]
    (∀ rule, drawnTokens ((bag rule).run lateFilling).1 = drawn) ∧
    (kept .replace).map (·.step) = added ++ [.draw, .draw] ∧
    drawnTokens ((bag .replace).run (added ++ [.draw, .draw])).1 = drawn ∧
    (kept .remove).map (·.step) = added ++ [.draw, .reset, .draw] ∧
    drawnTokens ((bag .remove).run (added ++ [.draw, .reset, .draw])).1 = drawn ∧
    (bag .replace).rule = .replace ∧ (bag .replace).drawn = [] ∧
    ∀ turn ∈ kept .replace, turn.step ≠ .reset := by
  intro bag kept added drawn
  obtain ⟨⟨-, hlog⟩, -, hreplace, -, hresets⟩ := run_without_idle (bag .replace) lateFilling
  obtain ⟨⟨-, hlog'⟩, -, hremove, -⟩ := run_without_idle (bag .remove) lateFilling
  have hkept : (kept .replace).map (·.step) = added ++ [.draw, .draw] ∧
      drawnTokens ((kept .replace).map (·.event)) = drawn := by
    decide +kernel
  have hkept' : (kept .remove).map (·.step) = added ++ [.draw, .reset, .draw] ∧
      drawnTokens ((kept .remove).map (·.event)) = drawn := by
    decide +kernel
  refine ⟨?_, hkept.1, ?_, hkept'.1, ?_, rfl, rfl, hresets rfl rfl⟩
  · rintro (- | -)
    · rw [← hlog, ← drawnTokens_without_idle]
      exact hkept.2
    · rw [← hlog', ← drawnTokens_without_idle]
      exact hkept'.2
  · rw [← hkept.1, hreplace]
    exact hkept.2
  · rw [← hkept'.1, hremove]
    exact hkept'.2

end Bag

end CardRules
