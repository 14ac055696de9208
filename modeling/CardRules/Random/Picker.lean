/-!
# Pickers

A picker chooses one of `n` positions and goes over into its next state.  What a bag does with the
choice never depends on how it was made.
-/

namespace CardRules

/-- A state from which positions can be picked. -/
class Picker (ρ : Type) where
  /-- A position below `n`, and the state after the choice. -/
  pick : ρ → (n : Nat) → 0 < n → Fin n × ρ

/-- A position below `n`, unless there is none; then the state stays as it is. -/
def Picker.pick? {ρ : Type} [Picker ρ] (g : ρ) (n : Nat) : Option Nat × ρ :=
  if h : 0 < n then
    let (i, g) := Picker.pick g n h
    (some i, g)
  else (none, g)

end CardRules
