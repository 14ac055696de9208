import CardRules.Token.Bag
import Mathlib.Data.List.DropRight
import Mathlib.Tactic.Lemma

/-!
# Runs of a bag

A bag changes by tokens that are put into it, by draws and by resets.  `Bag.run` takes a bag through
any list of such steps and keeps a log of what happened.

What a draw can do is said once, in `Bag.draw_cases`.  What every step preserves holds after every
run (`Bag.run_preserves`).
-/

namespace CardRules

namespace Bag

/-! ## Steps and their log -/

/-- What can be done with a bag. -/
inductive Step where
  | add (token : Token)
  | draw
  | reset
deriving DecidableEq

/-- What happened in a step. -/
inductive Event where
  | added (token : Token)
  | drew (result : Except TokenError Token)
  | reset

/-- The token that a step puts into the bag. -/
def Step.added? : Step → Option Token
  | .add token => some token
  | _ => none

/-- The token that was drawn. -/
def Event.drawn? : Event → Option Token
  | .drew (.ok token) => some token
  | _ => none

/-- Whether the bag was reset. -/
def Event.isReset : Event → Bool
  | .reset => true
  | _ => false

/-- The tokens that some steps put into a bag, in their order. -/
def addedTokens (steps : List Step) : List Token :=
  steps.filterMap Step.added?

/-- The tokens that were drawn, in the order of the draws. -/
def drawnTokens (log : List Event) : List Token :=
  log.filterMap Event.drawn?

/-- What happened after the last reset. -/
def sinceReset (log : List Event) : List Event :=
  log.rtakeWhile fun e => !e.isReset

/-! ## Reading a longer log -/

variable {log : List Event}

/-- Each draw counts after all earlier ones. -/
lemma drawnTokens_concat (log : List Event) (e : Event) :
    drawnTokens (log ++ [e]) = drawnTokens log ++ e.drawn?.toList := by
  rw [drawnTokens, List.filterMap_append, List.filterMap_cons]
  cases e.drawn? <;> rfl

/-- Nothing has happened since a reset. -/
lemma sinceReset_concat_reset (log : List Event) : sinceReset (log ++ [.reset]) = [] :=
  List.rtakeWhile_concat_neg _ _ _ (by decide)

/-- Anything else has happened since the same reset as what came before. -/
lemma sinceReset_concat {e : Event} (h : e.isReset = false) :
    sinceReset (log ++ [e]) = sinceReset log ++ [e] :=
  List.rtakeWhile_concat_pos _ _ _ (by rw [h]; rfl)

/-! ## What a draw does -/

variable {ρ : Type}

/-- The bag after the token at a position was drawn from it. -/
def taking (bag : Bag ρ) (i : Fin bag.tokens.length) (picker : ρ) : Bag ρ :=
  match bag.rule with
  | .replace => { bag with picker }
  | .remove =>
    { bag with tokens := bag.tokens.eraseIdx i, drawn := bag.drawn ++ [bag.tokens.get i], picker }

/-- If it goes back, only the picker has changed. -/
lemma taking_of_replace {bag : Bag ρ} (h : bag.rule = .replace) (i : Fin bag.tokens.length)
    (picker : ρ) : bag.taking i picker = { bag with picker } := by
  rw [taking, h]

/-- If it is set aside, it moves to the end of the tokens set aside before. -/
lemma taking_of_remove {bag : Bag ρ} (h : bag.rule = .remove) (i : Fin bag.tokens.length)
    (picker : ρ) :
    bag.taking i picker =
      { bag with
        tokens := bag.tokens.eraseIdx i
        drawn := bag.drawn ++ [bag.tokens.get i]
        picker } := by
  rw [taking, h]

variable [Picker ρ]

/-- From an empty bag nothing is drawn, and it stays as it is. -/
lemma draw_of_nil {bag : Bag ρ} (h : bag.tokens = []) : bag.draw = (.error .empty, bag) := by
  rw [draw, dif_neg (by simp [h])]

/-- From any other bag the token at the picked position is drawn. -/
lemma draw_of_ne_nil {bag : Bag ρ} (h : bag.tokens ≠ []) :
    ∃ (i : Fin bag.tokens.length) (picker : ρ),
      Picker.pick? bag.picker bag.tokens.length = (some i.val, picker) ∧
        bag.draw = (.ok (bag.tokens.get i), bag.taking i picker) := by
  have hpos : 0 < bag.tokens.length := List.length_pos_iff.2 h
  refine ⟨(Picker.pick bag.picker _ hpos).1, (Picker.pick bag.picker _ hpos).2, ?_, ?_⟩
  · rw [Picker.pick?, dif_pos hpos]
  · rw [draw, dif_pos hpos, taking]
    cases bag.rule <;> rfl

/-- A draw fails and does nothing, or it yields the token at the picked position. -/
lemma draw_cases (bag : Bag ρ) :
    (bag.tokens = [] ∧ bag.draw = (.error .empty, bag)) ∨
      ∃ (i : Fin bag.tokens.length) (picker : ρ),
        Picker.pick? bag.picker bag.tokens.length = (some i.val, picker) ∧
          bag.draw = (.ok (bag.tokens.get i), bag.taking i picker) := by
  by_cases h : bag.tokens = []
  · exact .inl ⟨h, draw_of_nil h⟩
  · exact .inr (draw_of_ne_nil h)

/-! ## Runs -/

/-- One step of a bag: what happened, and the bag after it. -/
def step (bag : Bag ρ) : Step → Event × Bag ρ
  | .add token => (.added token, bag.add token)
  | .draw => (.drew bag.draw.1, bag.draw.2)
  | .reset => (.reset, bag.reset)

/-- The steps of a list, one after the other. -/
def run (bag : Bag ρ) : List Step → List Event × Bag ρ
  | [] => ([], bag)
  | s :: steps =>
    let (event, bag) := bag.step s
    let (log, bag) := bag.run steps
    (event :: log, bag)

/-- What adding, drawing and resetting preserve holds after every run.  The property may speak of
all tokens that were put into the bag, and of what happened up to now. -/
lemma run_preserves {Holds : List Token → List Event → Bag ρ → Prop}
    (hadd : ∀ {stock log bag} token, Holds stock log bag →
      Holds (stock ++ [token]) (log ++ [.added token]) (bag.add token))
    (hdraw : ∀ {stock log bag}, Holds stock log bag →
      Holds stock (log ++ [.drew bag.draw.1]) bag.draw.2)
    (hreset : ∀ {stock log bag}, Holds stock log bag → Holds stock (log ++ [.reset]) bag.reset)
    (steps : List Step) {stock : List Token} {log : List Event} {bag : Bag ρ}
    (h : Holds stock log bag) :
    Holds (stock ++ addedTokens steps) (log ++ (bag.run steps).1) (bag.run steps).2 := by
  -- The log of the rest of a run is read after the event of its first step.
  induction steps generalizing stock log bag with
  | nil =>
    rw [addedTokens, List.filterMap_nil, List.append_nil, run, List.append_nil]
    exact h
  | cons s steps ih =>
    have hlog : log ++ (bag.run (s :: steps)).1 =
        log ++ [(bag.step s).1] ++ ((bag.step s).2.run steps).1 := by
      rw [List.append_assoc]
      rfl
    rw [hlog]
    cases s with
    | add token =>
      have hstock : stock ++ addedTokens (.add token :: steps) =
          stock ++ [token] ++ addedTokens steps := by
        rw [List.append_assoc]
        rfl
      rw [hstock]
      exact ih (hadd token h)
    | draw => exact ih (hdraw h)
    | reset => exact ih (hreset h)

end Bag

end CardRules
