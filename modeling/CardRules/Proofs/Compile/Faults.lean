import CardRules.Compile
import Mathlib.Data.List.TakeWhile
import Mathlib.Tactic.Lemma

/-!
# Where the compilation of a card stops

`compileAll` works through the actions of a card timing by timing, carries the warnings noted so far
and stops at the first fault.  Here the actions are laid out in one list, each with its place
(`ByTiming.placed`), and what a policy objects to in a single action is a function of its own
(`Policy.fault?`).

The main statement, `compileAll_worksThrough`, says that the compilation comes to no more than two
searches of that list: its outcome is the first fault or, if there is none, the effects of all
actions, and the warnings it adds are those of the actions before the first fault.  It holds for
both policies and from any warnings noted before.
-/

namespace CardRules

/-! ## Actions and their places -/

/-- An action of a card, with the timing it is filed under and its number there. -/
structure Placed where
  timing : Timing
  index : Nat
  action : Action

/-- The actions of one timing with their places; the first of them has number `index`. -/
def placedFrom (timing : Timing) (index : Nat) (actions : List Action) : List Placed :=
  (actions.zipIdx index).map fun p => ⟨timing, p.2, p.1⟩

/-- All actions of a card with their places, in the order in which they are compiled. -/
def ByTiming.placed (actions : ByTiming Action) : List Placed :=
  Timing.all.flatMap fun timing => placedFrom timing 0 (actions.get timing)

/-- The first action has the given number, and the numbers of the others follow. -/
lemma placedFrom_cons (timing : Timing) (index : Nat) (a : Action) (rest : List Action) :
    placedFrom timing index (a :: rest) =
      ⟨timing, index, a⟩ :: placedFrom timing (index + 1) rest := by
  rw [placedFrom, List.zipIdx_cons, List.map_cons, placedFrom]

/-- The places of the four timings follow each other. -/
lemma ByTiming.placed_eq (actions : ByTiming Action) :
    actions.placed =
      placedFrom .activate 0 actions.activate ++ (placedFrom .trigger 0 actions.trigger ++
        (placedFrom .passive 0 actions.passive ++ placedFrom .discard 0 actions.discard)) := by
  simp [ByTiming.placed, Timing.all, ByTiming.get]

/-- An action stands at a place exactly if it has that number at that timing. -/
lemma ByTiming.mem_placed {actions : ByTiming Action} {p : Placed} :
    p ∈ actions.placed ↔ (actions.get p.timing)[p.index]? = some p.action := by
  obtain ⟨timing, index, a⟩ := p
  have hfrom : ∀ t, (⟨timing, index, a⟩ : Placed) ∈ placedFrom t 0 (actions.get t) ↔
      t = timing ∧ (actions.get t)[index]? = some a := by
    intro t
    simp only [placedFrom, List.mem_map, Placed.mk.injEq, Prod.exists,
      List.mk_mem_zipIdx_iff_getElem?]
    constructor
    · rintro ⟨b, i, hb, rfl, rfl, rfl⟩
      exact ⟨rfl, hb⟩
    · rintro ⟨rfl, ha⟩
      exact ⟨a, index, ha, rfl, rfl, rfl⟩
  have hall : timing ∈ Timing.all := by cases timing <;> decide
  simp only [ByTiming.placed, List.mem_flatMap, hfrom]
  constructor
  · rintro ⟨t, -, rfl, ha⟩
    exact ha
  · intro ha
    exact ⟨timing, hall, rfl, ha⟩

/-! ## What one action comes to -/

/-- The effect that an action compiles to on its own. -/
def Action.effect? (a : Action) : Option Effect :=
  match a.effect with
  | .ok compiled => compiled.effect
  | .error _ => none

/-- The warning that an action compiles with on its own. -/
def Action.warning? (a : Action) : Option Warning :=
  match a.effect with
  | .ok compiled => compiled.warning
  | .error _ => none

/-- What a policy objects to in an action: a word that is not registered under both policies, and a
warning under the strict one. -/
def Policy.fault? (policy : Policy) (p : Placed) : Option CompileError :=
  match p.action.effect with
  | .error e => some (.unknownWord e)
  | .ok compiled =>
    match policy with
    | .lenient => none
    | .strict => compiled.warning.map (.rejected p.timing p.index)

/-- The warnings noted on the way through some actions: those of the actions before the first
fault. -/
def Policy.notes (policy : Policy) (ps : List Placed) : List Warning :=
  (ps.takeWhile fun p => (policy.fault? p).isNone).filterMap fun p => p.action.warning?

/-- An action with a word that is not registered is at fault under every policy. -/
lemma Policy.fault?_of_error {policy : Policy} {p : Placed} {e : UnknownWord}
    (h : p.action.effect = .error e) : policy.fault? p = some (.unknownWord e) := by
  simp only [Policy.fault?, h]

/-- The lenient policy objects to nothing else. -/
lemma Policy.lenient_fault?_of_ok {p : Placed} {compiled : Compiled}
    (h : p.action.effect = .ok compiled) : Policy.lenient.fault? p = none := by
  simp only [Policy.fault?, h]

/-- The strict policy objects to every warning. -/
lemma Policy.strict_fault?_of_ok {p : Placed} {compiled : Compiled}
    (h : p.action.effect = .ok compiled) :
    Policy.strict.fault? p = compiled.warning.map (.rejected p.timing p.index) := by
  simp only [Policy.fault?, h]

/-- The warning of an action that compiles. -/
lemma Action.warning?_of_ok {a : Action} {compiled : Compiled} (h : a.effect = .ok compiled) :
    a.warning? = compiled.warning := by
  simp only [Action.warning?, h]

/-- The effect of an action that compiles. -/
lemma Action.effect?_of_ok {a : Action} {compiled : Compiled} (h : a.effect = .ok compiled) :
    a.effect? = compiled.effect := by
  simp only [Action.effect?, h]

/-! ## Notes and faults of a list -/

namespace Policy

variable {policy : Policy} {p : Placed} {ps qs : List Placed}

/-- Nothing is noted about no actions. -/
@[simp] lemma notes_nil (policy : Policy) : policy.notes [] = [] := rfl

/-- Nothing is noted from an action at fault on. -/
lemma notes_cons_of_fault {e : CompileError} (h : policy.fault? p = some e) :
    policy.notes (p :: ps) = [] := by
  simp [notes, h]

/-- The warning of an action that is not at fault is noted before those of the others. -/
lemma notes_cons_of_clean (h : policy.fault? p = none) :
    policy.notes (p :: ps) = p.action.warning?.toList ++ policy.notes ps := by
  rw [notes, List.takeWhile_cons_of_pos (by simp [h]), List.filterMap_cons]
  cases p.action.warning? <;> rfl

/-- Once there is a fault, nothing is noted about what comes later. -/
lemma notes_append_of_fault {e : CompileError} (h : ps.findSome? policy.fault? = some e) :
    policy.notes (ps ++ qs) = policy.notes ps := by
  induction ps with
  | nil => simp at h
  | cons p ps ih =>
    rw [List.cons_append]
    cases hp : policy.fault? p with
    | some e' => rw [notes_cons_of_fault hp, notes_cons_of_fault hp]
    | none =>
      rw [List.findSome?_cons, hp] at h
      rw [notes_cons_of_clean hp, notes_cons_of_clean hp, ih h]

/-- Without a fault the notes of two lists follow each other. -/
lemma notes_append_of_clean (h : ps.findSome? policy.fault? = none) :
    policy.notes (ps ++ qs) = policy.notes ps ++ policy.notes qs := by
  induction ps with
  | nil => rfl
  | cons p ps ih =>
    rw [List.cons_append]
    rw [List.findSome?_cons] at h
    cases hp : policy.fault? p with
    | some e' => rw [hp] at h; simp at h
    | none =>
      rw [hp] at h
      rw [notes_cons_of_clean hp, notes_cons_of_clean hp, ih h, List.append_assoc]

/-- Without a fault every warning is noted. -/
lemma notes_of_clean (h : ps.findSome? policy.fault? = none) :
    policy.notes ps = ps.filterMap fun p => p.action.warning? := by
  rw [notes, List.takeWhile_eq_self_iff.2]
  intro p hp
  rw [List.findSome?_eq_none_iff.1 h p hp]
  rfl

end Policy

/-! ## Running a compilation -/

namespace Compiling

variable {α β : Type}

/-- A value alone notes nothing. -/
lemma runFrom_pure (a : α) (ws : List Warning) : (pure a : Compiling α).runFrom ws = (.ok a, ws) :=
  rfl

/-- An error alone notes nothing. -/
lemma runFrom_throw (e : CompileError) (ws : List Warning) :
    (throw e : Compiling α).runFrom ws = (.error e, ws) := rfl

/-- Noting warnings puts them behind the earlier ones. -/
lemma runFrom_modify (f : List Warning → List Warning) (ws : List Warning) :
    (modify f : Compiling Unit).runFrom ws = (.ok (), f ws) := rfl

/-- The second of two steps starts from the warnings of the first one. -/
lemma runFrom_bind_of_ok {x : Compiling α} {f : α → Compiling β} {ws ws' : List Warning} {a : α}
    (h : x.runFrom ws = (.ok a, ws')) : (x >>= f).runFrom ws = (f a).runFrom ws' := by
  unfold runFrom at h ⊢
  rw [ExceptT.run_bind, StateT.run_bind, h]
  rfl

/-- The second of two steps is left out when the first one fails. -/
lemma runFrom_bind_of_error {x : Compiling α} {f : α → Compiling β} {ws ws' : List Warning}
    {e : CompileError} (h : x.runFrom ws = (.error e, ws')) :
    (x >>= f).runFrom ws = (.error e, ws') := by
  unfold runFrom at h ⊢
  rw [ExceptT.run_bind, StateT.run_bind, h]
  rfl

/-- A compilation *works through* some actions to a value if, from any warnings noted before, it
fails with the first fault of the actions, gives the value if there is none, and adds the notes of
the actions to the warnings in both cases. -/
def WorksThrough (policy : Policy) (x : Compiling α) (ps : List Placed) (a : α) : Prop :=
  ∀ ws, x.runFrom ws =
    ((ps.findSome? policy.fault?).elim (.ok a) .error, ws ++ policy.notes ps)

/-- A value alone works through no actions. -/
lemma worksThrough_pure (policy : Policy) (a : α) :
    WorksThrough policy (pure a) [] a := by
  intro ws
  rw [runFrom_pure, Policy.notes_nil, List.append_nil]
  rfl

/-- Two steps work through two lists of actions one after the other. -/
lemma WorksThrough.bind {policy : Policy} {x : Compiling α} {f : α → Compiling β}
    {ps qs : List Placed} {a : α} {b : β} (hx : WorksThrough policy x ps a)
    (hf : WorksThrough policy (f a) qs b) : WorksThrough policy (x >>= f) (ps ++ qs) b := by
  intro ws
  have hx := hx ws
  rw [List.findSome?_append]
  cases hps : ps.findSome? policy.fault? with
  | some e =>
    rw [hps] at hx
    rw [runFrom_bind_of_error hx, Policy.notes_append_of_fault hps]
    rfl
  | none =>
    rw [hps] at hx
    rw [runFrom_bind_of_ok hx, hf, Policy.notes_append_of_clean hps, List.append_assoc]
    rfl

/-- An error works through an action that is at fault with it, whatever comes later. -/
lemma worksThrough_throw {policy : Policy} {p : Placed} {ps : List Placed} {e : CompileError}
    (h : policy.fault? p = some e) (a : α) : WorksThrough policy (throw e) (p :: ps) a := by
  intro ws
  rw [runFrom_throw, Policy.notes_cons_of_fault h, List.append_nil, List.findSome?_cons, h]
  rfl

/-- Noting the warning of an action that is not at fault works through that action. -/
lemma worksThrough_modify {policy : Policy} {p : Placed} (h : policy.fault? p = none) :
    WorksThrough policy (modify (· ++ p.action.warning?.toList)) [p] () := by
  intro ws
  rw [runFrom_modify, Policy.notes_cons_of_clean h, Policy.notes_nil, List.append_nil,
    List.findSome?_cons, h]
  rfl

end Compiling

/-! ## The actions of a card -/

/-- Applies a partial function to every value and drops those without a result. -/
def ByTiming.filterMap {α β : Type} (f : α → Option β) (lists : ByTiming α) : ByTiming β where
  activate := lists.activate.filterMap f
  trigger := lists.trigger.filterMap f
  passive := lists.passive.filterMap f
  discard := lists.discard.filterMap f

/-- Filtering commutes with choosing a timing. -/
lemma ByTiming.get_filterMap {α β : Type} (f : α → Option β) (lists : ByTiming α) (t : Timing) :
    (lists.filterMap f).get t = (lists.get t).filterMap f := by
  cases t <;> rfl

/-- At an action at fault the compilation of its timing fails. -/
lemma compileFrom_cons_of_fault {policy : Policy} {timing : Timing} {index : Nat} {a : Action}
    {e : CompileError} (h : policy.fault? ⟨timing, index, a⟩ = some e) (rest : List Action) :
    compileFrom policy timing index (a :: rest) = throw e := by
  rw [compileFrom]
  unfold Policy.fault? at h
  cases ha : a.effect with
  | error e' =>
    rw [ha] at h
    rw [← Option.some_inj.1 h]
  | ok compiled =>
    rw [ha] at h
    cases policy with
    | lenient => exact absurd h (by simp)
    | strict =>
      obtain ⟨w, hw, rfl⟩ := Option.map_eq_some_iff.1 h
      simp only [hw]

/-- At any other action it notes the warning, if there is one, and goes on. -/
lemma compileFrom_cons_of_clean {policy : Policy} {timing : Timing} {index : Nat} {a : Action}
    (h : policy.fault? ⟨timing, index, a⟩ = none) (rest : List Action) :
    compileFrom policy timing index (a :: rest) = (do
      modify (· ++ a.warning?.toList)
      let effects ← compileFrom policy timing (index + 1) rest
      return a.effect?.toList ++ effects) := by
  rw [compileFrom]
  unfold Policy.fault? at h
  cases ha : a.effect with
  | error e' => exact absurd h (by simp [ha])
  | ok compiled =>
    rw [ha] at h
    rw [Action.warning?_of_ok ha, Action.effect?_of_ok ha]
    cases policy with
    | lenient => rfl
    | strict =>
      have hw : compiled.warning = none := Option.map_eq_none_iff.1 h
      simp only [hw]

/-- The compilation of one timing works through its actions to their effects. -/
lemma compileFrom_worksThrough (policy : Policy) (timing : Timing) (index : Nat)
    (actions : List Action) :
    (compileFrom policy timing index actions).WorksThrough policy
      (placedFrom timing index actions) (actions.filterMap Action.effect?) := by
  induction actions generalizing index with
  | nil => exact Compiling.worksThrough_pure policy []
  | cons a rest ih =>
    rw [placedFrom_cons]
    cases hfault : policy.fault? ⟨timing, index, a⟩ with
    | some e =>
      rw [compileFrom_cons_of_fault hfault]
      exact Compiling.worksThrough_throw hfault _
    | none =>
      have heffects : (a :: rest).filterMap Action.effect? =
          a.effect?.toList ++ rest.filterMap Action.effect? := by
        rw [List.filterMap_cons]
        cases a.effect? <;> rfl
      rw [compileFrom_cons_of_clean hfault, heffects,
        ← List.append_nil (placedFrom timing (index + 1) rest)]
      exact (Compiling.worksThrough_modify hfault).bind
        ((ih (index + 1)).bind (Compiling.worksThrough_pure policy _))

/-- **What compiling a card comes to.**  The compilation works through the actions of all timings,
in the order of their places, to the effects of each timing. -/
theorem compileAll_worksThrough (policy : Policy) (actions : ByTiming Action) :
    (compileAll policy actions).WorksThrough policy actions.placed
      (actions.filterMap Action.effect?) := by
  have hlist (timing : Timing) (as : List Action) :
      (compileList policy timing as).WorksThrough policy (placedFrom timing 0 as)
        (as.filterMap Action.effect?) :=
    compileFrom_worksThrough policy timing 0 as
  rw [ByTiming.placed_eq]
  refine (hlist .activate _).bind ((hlist .trigger _).bind ((hlist .passive _).bind ?_))
  rw [← List.append_nil (placedFrom .discard 0 actions.discard)]
  exact (hlist .discard _).bind (Compiling.worksThrough_pure policy _)

end CardRules
