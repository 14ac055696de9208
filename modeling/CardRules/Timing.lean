/-!
# When an effect applies

Every effect of a card, and every action it is compiled from, is filed under one of four timings.
`ByTiming α` holds one list for each of them.
-/

namespace CardRules

/-- When an effect of a card applies. -/
inductive Timing where
  | activate
  | trigger
  | passive
  | discard
deriving DecidableEq

namespace Timing

/-- The four timings, in the order in which lists are walked. -/
def all : List Timing := [.activate, .trigger, .passive, .discard]

/-- The written name of a timing; `pasive` is the spelling that card files use. -/
def keyword : Timing → String
  | .activate => "activate"
  | .trigger => "trigger"
  | .passive => "pasive"
  | .discard => "discard"

end Timing

/-- One list for each timing. -/
structure ByTiming (α : Type) where
  activate : List α := []
  trigger : List α := []
  passive : List α := []
  discard : List α := []
deriving DecidableEq, Inhabited

namespace ByTiming

variable {α β : Type}

/-- Nothing at any timing. -/
def empty : ByTiming α := {}

/-- The list of one timing. -/
def get (lists : ByTiming α) : Timing → List α
  | .activate => lists.activate
  | .trigger => lists.trigger
  | .passive => lists.passive
  | .discard => lists.discard

/-- Replaces the list of one timing. -/
def set (lists : ByTiming α) (timing : Timing) (as : List α) : ByTiming α :=
  match timing with
  | .activate => { lists with activate := as }
  | .trigger => { lists with trigger := as }
  | .passive => { lists with passive := as }
  | .discard => { lists with discard := as }

/-- Adds a value at the end of the list of one timing. -/
def push (lists : ByTiming α) (timing : Timing) (a : α) : ByTiming α :=
  lists.set timing (lists.get timing ++ [a])

/-- Applies a function to every value. -/
def map (f : α → β) (lists : ByTiming α) : ByTiming β where
  activate := lists.activate.map f
  trigger := lists.trigger.map f
  passive := lists.passive.map f
  discard := lists.discard.map f

/-- All values with their timings, the lists one after the other in the order of `Timing.all`. -/
def toList (lists : ByTiming α) : List (Timing × α) :=
  Timing.all.flatMap fun timing => (lists.get timing).map (timing, ·)

/-- The number of values at all timings. -/
def size (lists : ByTiming α) : Nat :=
  lists.activate.length + lists.trigger.length + lists.passive.length + lists.discard.length

/-- Whether there is no value at any timing. -/
def isEmpty (lists : ByTiming α) : Bool :=
  lists.size == 0

/-- After `set` the timing has the new list and every other timing its old one. -/
theorem get_set (lists : ByTiming α) (timing : Timing) (as : List α) (t : Timing) :
    (lists.set timing as).get t = if t = timing then as else lists.get t := by
  cases timing <;> cases t <;> rfl

/-- After `push` the timing has one more value, at the end. -/
theorem get_push (lists : ByTiming α) (timing : Timing) (a : α) (t : Timing) :
    (lists.push timing a).get t =
      if t = timing then lists.get timing ++ [a] else lists.get t :=
  get_set ..

/-- Mapping commutes with choosing a timing. -/
theorem get_map (f : α → β) (lists : ByTiming α) (t : Timing) :
    (lists.map f).get t = (lists.get t).map f := by
  cases t <;> rfl

/-- Every value is listed once. -/
theorem length_toList (lists : ByTiming α) : lists.toList.length = lists.size := by
  simp [toList, Timing.all, size, get, Nat.add_assoc]

end ByTiming

end CardRules
