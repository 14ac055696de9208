import CardRules.Proofs.Token.Run
import CardRules.Random.Basic
import CardRules.Setup
import Mathlib.Data.List.Perm.Basic

/-!
# Where the tokens of a bag are

No token is lost or doubled, however often a bag is drawn from, filled up and reset.  If drawn
tokens are set aside, those in the bag and those set aside are together the tokens that were ever
put in (`Bag.SetsAside`).  If they go back at once, the bag holds these tokens in their order
(`Bag.PutsBack`).  Both are preserved by every step, and `Bag.run_accounts` is what follows for the
runs of a bag.
-/

namespace CardRules

open scoped List

namespace Bag

/-! ## The accounts of a bag -/

/-- The accounts of a bag that sets drawn tokens aside; `stock` is what was put in so far, and `log`
is what happened. -/
structure SetsAside {ρ : Type} (stock : List Token) (log : List Event) (bag : Bag ρ) : Prop where
  rule : bag.rule = .remove
  /-- Every token is in the bag or set aside, and none is in both. -/
  perm : (bag.tokens ++ bag.drawn).Perm stock
  /-- Set aside is what was drawn since the last reset. -/
  drawn : bag.drawn = drawnTokens (sinceReset log)

/-- The accounts of a bag into which drawn tokens go back. -/
structure PutsBack {ρ : Type} (stock : List Token) (log : List Event) (bag : Bag ρ) : Prop where
  rule : bag.rule = .replace
  drawn : bag.drawn = []
  tokens : bag.tokens = stock
  /-- Every token that was ever drawn is still in the bag. -/
  mem_tokens : ∀ t ∈ drawnTokens log, t ∈ bag.tokens

/-- What the next draw from a bag may do. -/
structure DrawsInside {ρ : Type} [Picker ρ] (bag : Bag ρ) : Prop where
  fails_iff : (∃ e, bag.draw.1 = .error e) ↔ bag.tokens = []
  /-- A draw fails for one reason only, and then neither the tokens nor the picker change. -/
  of_error : ∀ e, bag.draw.1 = .error e → e = .empty ∧ bag.draw.2 = bag
  /-- A drawn token stands at the picked position, which is a position of the bag. -/
  of_ok : ∀ t, bag.draw.1 = .ok t →
    ∃ i, (Picker.pick? bag.picker bag.tokens.length).1 = some i ∧ bag.tokens[i]? = some t

variable {ρ : Type} {stock : List Token} {log : List Event} {bag : Bag ρ}

/-! ## Tokens that are set aside -/

namespace SetsAside

/-- What neither draws a token nor resets the bag leaves the tokens set aside as they are. -/
lemma drawn_concat (h : SetsAside stock log bag) {e : Event} (hreset : e.isReset = false)
    (hdrawn : e.drawn? = none) : bag.drawn = drawnTokens (sinceReset (log ++ [e])) := by
  rw [sinceReset_concat hreset, drawnTokens_concat, hdrawn, ← h.drawn]
  exact (List.append_nil _).symm

/-- An added token is in the bag. -/
lemma add (token : Token) (h : SetsAside stock log bag) :
    SetsAside (stock ++ [token]) (log ++ [.added token]) (bag.add token) := by
  have hmove : bag.tokens ++ [token] ++ bag.drawn ~ bag.tokens ++ bag.drawn ++ [token] := by
    rw [List.append_assoc, List.append_assoc]
    exact List.perm_append_comm.append_left _
  exact
    { rule := h.rule
      perm := hmove.trans (h.perm.append_right _)
      drawn := h.drawn_concat rfl rfl }

/-- Taking a token sets it aside and moves no other. -/
lemma taking (h : SetsAside stock log bag) (i : Fin bag.tokens.length) (picker : ρ) :
    SetsAside stock (log ++ [.drew (.ok (bag.tokens.get i))]) (bag.taking i picker) := by
  rw [taking_of_remove h.rule]
  constructor
  case rule => exact h.rule
  case perm =>
    calc bag.tokens.eraseIdx i ++ (bag.drawn ++ [bag.tokens.get i])
      _ = bag.tokens.eraseIdx i ++ bag.drawn ++ [bag.tokens.get i] := by rw [List.append_assoc]
      _ ~ bag.tokens.get i :: bag.tokens.eraseIdx i ++ bag.drawn := List.perm_append_singleton _ _
      _ ~ bag.tokens ++ bag.drawn := (List.getElem_cons_eraseIdx_perm i.isLt).append_right _
      _ ~ stock := h.perm
  case drawn =>
    rw [sinceReset_concat rfl, drawnTokens_concat, ← h.drawn]
    rfl

/-- A draw takes a token, or it fails and changes nothing. -/
lemma draw [Picker ρ] (h : SetsAside stock log bag) :
    SetsAside stock (log ++ [.drew bag.draw.1]) bag.draw.2 := by
  rcases draw_cases bag with ⟨-, hdraw⟩ | ⟨i, picker, -, hdraw⟩
  · rw [hdraw]
    exact { rule := h.rule, perm := h.perm, drawn := h.drawn_concat rfl rfl }
  · rw [hdraw]
    exact h.taking i picker

/-- After a reset nothing is set aside, and nothing was drawn since. -/
lemma reset (h : SetsAside stock log bag) : SetsAside stock (log ++ [.reset]) bag.reset := by
  have hall : bag.reset.tokens ++ bag.reset.drawn = bag.tokens ++ bag.drawn := List.append_nil _
  constructor
  case rule => exact h.rule
  case perm =>
    rw [hall]
    exact h.perm
  case drawn =>
    rw [sinceReset_concat_reset]
    rfl

end SetsAside

/-! ## Tokens that go back -/

namespace PutsBack

/-- What draws no token adds none to those that were drawn. -/
lemma mem_tokens_concat (h : PutsBack stock log bag) {e : Event} (hdrawn : e.drawn? = none)
    {t : Token} (ht : t ∈ drawnTokens (log ++ [e])) : t ∈ bag.tokens := by
  rw [drawnTokens_concat, hdrawn, Option.toList_none, List.append_nil] at ht
  exact h.mem_tokens t ht

/-- An added token is the last of the bag. -/
lemma add (token : Token) (h : PutsBack stock log bag) :
    PutsBack (stock ++ [token]) (log ++ [.added token]) (bag.add token) := by
  constructor
  case rule => exact h.rule
  case drawn => exact h.drawn
  case tokens => exact congrArg (· ++ [token]) h.tokens
  case mem_tokens =>
    intro t ht
    exact List.mem_append_left _ (h.mem_tokens_concat rfl ht)

/-- Taking a token only shows that it is in the bag. -/
lemma taking (h : PutsBack stock log bag) (i : Fin bag.tokens.length) (picker : ρ) :
    PutsBack stock (log ++ [.drew (.ok (bag.tokens.get i))]) (bag.taking i picker) := by
  rw [taking_of_replace h.rule]
  constructor
  case rule => exact h.rule
  case drawn => exact h.drawn
  case tokens => exact h.tokens
  case mem_tokens =>
    intro t ht
    rw [drawnTokens_concat, List.mem_append] at ht
    rcases ht with hearlier | hnow
    · exact h.mem_tokens t hearlier
    · rw [List.mem_singleton.1 hnow]
      exact List.getElem_mem i.isLt

/-- A draw takes a token, or it fails and changes nothing. -/
lemma draw [Picker ρ] (h : PutsBack stock log bag) :
    PutsBack stock (log ++ [.drew bag.draw.1]) bag.draw.2 := by
  rcases draw_cases bag with ⟨-, hdraw⟩ | ⟨i, picker, -, hdraw⟩
  · rw [hdraw]
    exact
      { rule := h.rule
        drawn := h.drawn
        tokens := h.tokens
        mem_tokens := fun t ht => h.mem_tokens_concat rfl ht }
  · rw [hdraw]
    exact h.taking i picker

/-- A reset has nothing to put back. -/
lemma reset (h : PutsBack stock log bag) : PutsBack stock (log ++ [.reset]) bag.reset := by
  have htokens : bag.reset.tokens = bag.tokens := by
    rw [Bag.reset, h.drawn, List.append_nil]
  constructor
  case rule => exact h.rule
  case drawn => rfl
  case tokens => exact htokens.trans h.tokens
  case mem_tokens =>
    intro t ht
    rw [htokens]
    exact h.mem_tokens_concat rfl ht

end PutsBack

/-! ## Draws and runs -/

variable [Picker ρ]

/-- Every draw is inside the bag. -/
lemma drawsInside (bag : Bag ρ) : bag.DrawsInside := by
  rcases draw_cases bag with ⟨hnil, hdraw⟩ | ⟨i, picker, hpick, hdraw⟩
  · constructor
    case fails_iff => exact iff_of_true ⟨.empty, by rw [hdraw]⟩ hnil
    case of_error =>
      intro e he
      rw [hdraw] at he ⊢
      cases he
      exact ⟨rfl, rfl⟩
    case of_ok =>
      intro t ht
      rw [hdraw] at ht
      cases ht
  · have hne : bag.tokens ≠ [] := List.length_pos_iff.1 (Nat.zero_lt_of_lt i.isLt)
    constructor
    case fails_iff =>
      refine iff_of_false ?_ hne
      rintro ⟨e, he⟩
      rw [hdraw] at he
      cases he
    case of_error =>
      intro e he
      rw [hdraw] at he
      cases he
    case of_ok =>
      intro t ht
      rw [hdraw] at ht
      cases ht
      exact ⟨i, by rw [hpick], List.getElem?_eq_getElem i.isLt⟩

/-- **No token is lost or doubled.**  Whatever is done with the bag of a setup, its tokens are those
of the setup and those added later: in the bag or set aside under the one rule, in the bag and in
their order under the other.  A draw then fails exactly if the bag is empty.  As the steps are any,
all this holds at each moment of a run. -/
theorem run_accounts (c : BagSetup) (picker : ρ) (steps : List Step) :
    let log := ((c.bag picker).run steps).1
    let bag := ((c.bag picker).run steps).2
    (c.rule = .remove → SetsAside (c.tokens ++ addedTokens steps) log bag) ∧
      (c.rule = .replace → PutsBack (c.tokens ++ addedTokens steps) log bag) ∧
        DrawsInside bag := by
  refine ⟨fun hrule => ?_, fun hrule => ?_, drawsInside _⟩
  · have hstart : SetsAside c.tokens [] (c.bag picker) :=
      { rule := hrule, perm := .of_eq (List.append_nil _), drawn := rfl }
    exact run_preserves SetsAside.add SetsAside.draw SetsAside.reset steps hstart
  · have hstart : PutsBack c.tokens [] (c.bag picker) :=
      { rule := hrule, drawn := rfl, tokens := rfl, mem_tokens := fun _ ht => nomatch ht }
    exact run_preserves PutsBack.add PutsBack.draw PutsBack.reset steps hstart

/-- The standard bag with a skull added between two draws still holds all its tokens, and a bag that
sets drawn tokens aside accounts for them, too. -/
theorem standard_run_accounts :
    let steps : List Step := [.draw, .add ⟨.skull, 0⟩, .draw]
    let kept := (BagSetup.standard.bag (Random.ofSeed 7)).run steps
    let aside := ((BagSetup.mk .remove [⟨.tablet, -2⟩]).bag (Random.ofSeed 7)).run steps
    PutsBack (BagSetup.standard.tokens ++ [⟨.skull, 0⟩]) kept.1 kept.2 ∧
      SetsAside ([⟨.tablet, -2⟩] ++ [⟨.skull, 0⟩]) aside.1 aside.2 := by
  intro steps kept aside
  exact ⟨(run_accounts .standard (Random.ofSeed 7) steps).2.1 rfl,
    (run_accounts ⟨.remove, [⟨.tablet, -2⟩]⟩ (Random.ofSeed 7) steps).1 rfl⟩

end Bag

end CardRules
