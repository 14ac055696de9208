import CardRules.Layout.Action
import CardRules.Proofs.Format.Settled

/-!
# Numbers that are read as amounts

The value of a modifier is an amount if it can be one, and else a number or a text.  In memory a
modifier can also be a number that would fit an amount.  Nothing in its written form tells the two
apart, so it is read as an amount; `Modifier.narrowed` is what comes back
(`Modifier.reread_format`).

No such number is ever read (`Modifier.settled_format`).
-/

namespace CardRules

namespace Modifier

/-- A modifier is a small number if it is a number that would fit an amount. -/
def IsSmallNumber : Modifier → Prop
  | .number n => -128 ≤ n.toInt ∧ n.toInt ≤ 127
  | _ => False

instance : DecidablePred IsSmallNumber
  | .amount _ => inferInstanceAs (Decidable False)
  | .number n => inferInstanceAs (Decidable (-128 ≤ n.toInt ∧ n.toInt ≤ 127))
  | .text _ => inferInstanceAs (Decidable False)

/-- The modifier with an amount in place of a small number. -/
def narrowed : Modifier → Modifier
  | .number n =>
    if -128 ≤ n.toInt ∧ n.toInt ≤ 127 then .amount (Int8.ofInt n.toInt) else .number n
  | m => m

/-- Narrowing changes small numbers and nothing else. -/
theorem narrowed_eq_self_iff {m : Modifier} : m.narrowed = m ↔ ¬ m.IsSmallNumber := by
  cases m with
  | amount n => simp [narrowed, IsSmallNumber]
  | text s => simp [narrowed, IsSmallNumber]
  | number n =>
    rw [narrowed, IsSmallNumber]
    split
    · rename_i hsmall
      exact iff_of_false Modifier.noConfusion (not_not_intro hsmall)
    · rename_i hlarge
      exact iff_of_true rfl hlarge

/-- A number is written as it is read. -/
lemma exact_int64 : Format.int64.Exact := by
  refine exact_integer fun n a h => ?_
  change (if -0x8000000000000000 ≤ n ∧ n ≤ 0x7FFFFFFFFFFFFFFF then some (Int64.ofInt n) else none) =
    some a at h
  split at h
  · rename_i hrange
    cases h
    exact Int64.toInt_ofInt_of_le hrange.1 (by omega)
  · cases h

/-- A number is read as an amount if it would fit one. -/
lemma toOption_decode_number (n : Int64) :
    (Format.int8.decode .buffer (Format.int64.encode n)).toOption =
      if -128 ≤ n.toInt ∧ n.toInt ≤ 127 then some (Int8.ofInt n.toInt) else none :=
  toOption_decode_integer .int8 .buffer (.int n.toInt)

/-- **What is written for a modifier is read with an amount in place of a small number.** -/
theorem reread_format (m : Modifier) : Modifier.format.reread m = m.narrowed := by
  cases m with
  | amount n => rfl
  | text s => rfl
  | number n =>
    have hread := toOption_decode_number n
    rw [narrowed]
    split
    · rename_i hsmall
      rw [if_pos hsmall] at hread
      refine reread_via_eq ?_
      exact reread_inr_of_ok (b := Sum.inl n) _ (toOption_eq_some_iff.1 hread)
    · rename_i hlarge
      rw [if_neg hlarge] at hread
      refine reread_via_eq ?_
      cases hdecode : Format.int8.decode .buffer (Format.int64.encode n) with
      | ok a =>
        rw [hdecode] at hread
        cases hread
      | error e => exact reread_inr_of_error (b := Sum.inl n) _ hdecode

/-- **No small number is read.** -/
theorem settled_format : Modifier.format.Settled := by
  have hnumber : (Format.either "Modification" .int64 .text).Settled :=
    settled_either _ (settled_of_plain rfl) (settled_of_plain rfl) exact_text
  have hamount := settled_either "Modification" (settled_of_plain (f := .int8) rfl) hnumber
    (exact_either _ exact_int64 exact_text)
  refine settled_via (fun x => ?_) hamount
  obtain n | n | s := x <;> rfl

end Modifier

end CardRules
