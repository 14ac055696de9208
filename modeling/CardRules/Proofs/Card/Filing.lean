import CardRules.Proofs.Catalogue.Edit

/-!
# Effects that are added to a card

A card can be made by hand: it starts without effects, and effects are added one at a time, each
with a timing.  The main statement, `Card.effects_filed`, says what has become of the card after any
number of them, in whatever order the timings come.

There are three views of the effects of a card: the list of one timing, the list of all of them and
their number.  The list of one timing is read off step by step (`ByTiming.get_pushAll`).  The list
of all of them is the stable sort by timing of what was added.  It is enough to know that a list
that is sorted by timing is put together from what it has of each timing
(`flatMap_filter_of_sorted`), and that a stable sort leaves alone what has the same timing
(`filter_mergeSort_rankLE`).
-/

namespace CardRules

variable {α : Type}

/-! ## The order of timings -/

/-- The position of a timing in the order in which lists are walked. -/
def Timing.rank (timing : Timing) : Nat :=
  Timing.all.idxOf timing

/-- Whether the timing of a value does not come behind that of another one. -/
def rankLE (p p' : Timing × α) : Bool :=
  decide (p.1.rank ≤ p'.1.rank)

/-- The timings are listed by rank. -/
lemma Timing.pairwise_rank : Timing.all.Pairwise fun t t' => t.rank < t'.rank := by
  decide

/-- What is sorted by timing is put together from what it has of each timing. -/
lemma flatMap_filter_of_sorted {ps : List (Timing × α)}
    (h : ps.Pairwise fun p p' => rankLE p p' = true) :
    (Timing.all.flatMap fun t => ps.filter (·.1 = t)) = ps := by
  induction ps with
  | nil => rfl
  | cons p ps ih =>
    obtain ⟨hp, hps⟩ := List.pairwise_cons.1 h
    obtain ⟨front, back, hall, -, hback⟩ := p.1.exists_all_split
    have hranks := Timing.pairwise_rank
    rw [hall] at hranks
    have hfront (t : Timing) (ht : t ∈ front) : t.rank < p.1.rank :=
      (List.pairwise_append.1 hranks).2.2 t ht p.1 List.mem_cons_self
    have hlater (q : Timing × α) (hq : q ∈ ps) : p.1.rank ≤ q.1.rank :=
      of_decide_eq_true (hp q hq)
    -- Nothing has a timing that comes before the one of the first value.
    have hbefore (qs : List (Timing × α)) (hqs : ∀ q ∈ qs, p.1.rank ≤ q.1.rank) :
        (front.flatMap fun t => qs.filter (·.1 = t)) = [] := by
      refine List.flatMap_eq_nil_iff.2 fun t ht => List.filter_eq_nil_iff.2 fun q hq hqt => ?_
      have hlt := hfront t ht
      rw [← of_decide_eq_true hqt] at hlt
      exact Nat.not_lt.2 (hqs q hq) hlt
    have hhere : (p :: ps).filter (·.1 = p.1) = p :: ps.filter (·.1 = p.1) :=
      List.filter_cons_of_pos (decide_eq_true rfl)
    have hbehind : (back.flatMap fun t => (p :: ps).filter (·.1 = t)) =
        back.flatMap fun t => ps.filter (·.1 = t) := by
      refine List.flatMap_congr fun t ht => List.filter_cons_of_neg ?_
      exact fun hpt => hback (of_decide_eq_true hpt ▸ ht)
    have hrest := ih hps
    rw [hall, List.flatMap_append, List.flatMap_cons, hbefore ps hlater, List.nil_append] at hrest
    rw [hall, List.flatMap_append, List.flatMap_cons,
      hbefore (p :: ps) (List.forall_mem_cons.2 ⟨Nat.le_refl _, hlater⟩), List.nil_append, hhere,
      hbehind, List.cons_append, hrest]

/-- One timing comes before another one or behind it. -/
lemma rankLE_total (p p' : Timing × α) : (rankLE p p' || rankLE p' p) = true := by
  rw [Bool.or_eq_true, rankLE, rankLE, decide_eq_true_iff, decide_eq_true_iff]
  exact Nat.le_total _ _

/-- The order of timings is transitive. -/
lemma rankLE_trans (p q r : Timing × α) (hpq : rankLE p q = true) (hqr : rankLE q r = true) :
    rankLE p r = true :=
  decide_eq_true (Nat.le_trans (of_decide_eq_true hpq) (of_decide_eq_true hqr))

/-- A stable sort by timing leaves alone what has the same timing. -/
lemma filter_mergeSort_rankLE (ps : List (Timing × α)) (t : Timing) :
    (ps.mergeSort rankLE).filter (·.1 = t) = ps.filter (·.1 = t) := by
  have hsame : (ps.filter (·.1 = t)).Pairwise fun p p' => rankLE p p' = true := by
    refine List.pairwise_of_forall_mem_list fun p hp p' hp' => ?_
    have ht : p.1 = t := of_decide_eq_true (List.mem_filter.1 hp).2
    have ht' : p'.1 = t := of_decide_eq_true (List.mem_filter.1 hp').2
    rw [rankLE, ht, ht']
    exact decide_eq_true (Nat.le_refl _)
  have hsub : (ps.filter (·.1 = t)).Sublist (ps.mergeSort rankLE) :=
    List.sublist_mergeSort rankLE_trans rankLE_total hsame List.filter_sublist
  have hfilter := hsub.filter (·.1 = t)
  rw [List.filter_filter] at hfilter
  simp only [Bool.and_self] at hfilter
  refine (hfilter.eq_of_length ?_).symm
  exact (((List.mergeSort_perm ps rankLE).filter _).length_eq).symm

/-! ## Lists by timing -/

namespace ByTiming

/-- Adds values one after the other, each at the end of the list of its timing. -/
def pushAll (lists : ByTiming α) (added : List (Timing × α)) : ByTiming α :=
  added.foldl (fun lists p => lists.push p.1 p.2) lists

/-- Each timing gets what was added for it, in the same order. -/
lemma get_pushAll (lists : ByTiming α) (added : List (Timing × α)) (timing : Timing) :
    (lists.pushAll added).get timing =
      lists.get timing ++ (added.filter (·.1 = timing)).map (·.2) := by
  induction added generalizing lists with
  | nil => exact (List.append_nil _).symm
  | cons p added ih =>
    have hstep : lists.pushAll (p :: added) = (lists.push p.1 p.2).pushAll added := rfl
    rw [hstep, ih, get_push, List.filter_cons]
    by_cases hp : p.1 = timing
    · rw [if_pos hp.symm, if_pos (decide_eq_true hp), hp, List.append_assoc, List.map_cons,
        List.singleton_append]
    · rw [if_neg (Ne.symm hp), if_neg (mt of_decide_eq_true hp)]

/-- What was added to empty lists is listed in the order of the timings, and for each of them in the
order in which it was added. -/
lemma toList_pushAll (added : List (Timing × α)) :
    ((empty : ByTiming α).pushAll added).toList = added.mergeSort rankLE := by
  have hget (t : Timing) :
      (((empty : ByTiming α).pushAll added).get t).map (t, ·) =
        (added.mergeSort rankLE).filter (·.1 = t) := by
    have hempty : (empty : ByTiming α).get t = [] := by cases t <;> rfl
    rw [get_pushAll, hempty, List.nil_append, List.map_map, filter_mergeSort_rankLE]
    refine (List.map_congr_left fun p hp => ?_).trans (List.map_id _)
    rw [Function.comp_apply, ← of_decide_eq_true (List.mem_filter.1 hp).2]
    rfl
  rw [toList]
  simp only [hget]
  exact flatMap_filter_of_sorted (List.pairwise_mergeSort rankLE_trans rankLE_total added)

end ByTiming

/-! ## Cards -/

namespace Card

/-- A card that can have effects for the four timings and has none yet. -/
def Fresh (card : Card) : Prop :=
  card.kind ≠ .investigator ∧ card.effects = {}

/-- Adds effects to a card one after the other. -/
def withEffects (card : Card) (added : List (Timing × Effect)) : Card :=
  added.foldl (fun card p => card.withEffect p.1 p.2) card

/-- An added effect changes nothing else on the card. -/
lemma printed_withEffect (card : Card) (timing : Timing) (e : Effect) :
    (card.withEffect timing e).printed = card.printed := by
  cases card <;> rfl

/-- The kind stays the same. -/
lemma kind_withEffect (card : Card) (timing : Timing) (e : Effect) :
    (card.withEffect timing e).kind = card.kind := by
  cases card <;> rfl

/-- An added effect is the last one of its timing. -/
lemma effects_withEffect {card : Card} (h : card.kind ≠ .investigator) (timing : Timing)
    (e : Effect) : (card.withEffect timing e).effects = card.effects.push timing e := by
  cases card with
  | investigator c => exact absurd rfl h
  | asset c => rfl
  | event c => rfl
  | ability c => rfl
  | skill c => rfl

/-- Effects that are added one after another are put behind those of their timings, and nothing else
on the card changes. -/
lemma effects_withEffects {card : Card} (h : card.kind ≠ .investigator)
    (added : List (Timing × Effect)) :
    (card.withEffects added).effects = card.effects.pushAll added ∧
      (card.withEffects added).printed = card.printed := by
  induction added generalizing card with
  | nil => exact ⟨rfl, rfl⟩
  | cons p added ih =>
    have hkind : (card.withEffect p.1 p.2).kind ≠ .investigator := by
      rw [kind_withEffect]
      exact h
    obtain ⟨heffects, hprinted⟩ := ih hkind
    rw [effects_withEffect h] at heffects
    rw [printed_withEffect] at hprinted
    exact ⟨heffects, hprinted⟩

/-- Without effects there is nothing on a card but what is printed. -/
lemma printed_of_fresh {card : Card} (h : card.Fresh) : card.printed = card := by
  obtain ⟨hkind, heffects⟩ := h
  cases card with
  | investigator c => exact absurd rfl hkind
  | asset c => exact congrArg (fun effects => Card.asset { c with effects }) heffects.symm
  | event c => exact congrArg (fun effects => Card.event { c with effects }) heffects.symm
  | ability c => exact congrArg (fun effects => Card.ability { c with effects }) heffects.symm
  | skill c => exact congrArg (fun effects => Card.skill { c with effects }) heffects.symm

/-- **Every added effect is filed once, under its timing.**  If any effects are added one after the
other to a card that has none yet, then

* each timing has the effects that were added for it, in the order in which they were added;
* the list of all effects with their timings is the stable sort of what was added by the order of
  the timings;
* there are as many effects as were added, and as many are listed; there are none exactly if none
  was added;
* nothing else on the card has changed. -/
theorem effects_filed (card : Card) (added : List (Timing × Effect)) (h : card.Fresh) :
    (∀ timing, (card.withEffects added).effects.get timing =
      (added.filter (·.1 = timing)).map (·.2)) ∧
    (card.withEffects added).effects.toList =
      added.mergeSort (fun p p' => p.1.rank ≤ p'.1.rank) ∧
    (card.withEffects added).effects.size = added.length ∧
    (card.withEffects added).effects.toList.length = (card.withEffects added).effects.size ∧
    ((card.withEffects added).effects.isEmpty = true ↔ added = []) ∧
    (card.withEffects added).printed = card := by
  obtain ⟨heffects, hprinted⟩ := effects_withEffects h.1 added
  rw [h.2] at heffects
  have hlist : (card.withEffects added).effects.toList = added.mergeSort rankLE := by
    rw [heffects]
    exact ByTiming.toList_pushAll added
  have hsize : (card.withEffects added).effects.size = added.length := by
    rw [← ByTiming.length_toList, hlist, List.length_mergeSort]
  refine ⟨fun timing => ?_, hlist, hsize, ByTiming.length_toList _, ?_,
    hprinted.trans (printed_of_fresh h)⟩
  · rw [heffects, ByTiming.get_pushAll]
    cases timing <;> rfl
  · rw [ByTiming.isEmpty, hsize, beq_iff_eq, List.length_eq_zero_iff]

/-- A lantern as it is printed. -/
def lantern : Card :=
  .asset
    { name := "Lantern", traits := "Item. Tool.", faction := .neutral, skill := { agility := 1 }
      cost := 2, slot := some .hand, uses := some 3 }

/-- The effects of the lantern, of which the one that is used first comes last. -/
def lanternEffects : List (Timing × Effect) :=
  [(.discard, .damageAtLocation {} 1), (.passive, .skillBonus { cost := 1 }),
    (.discard, .skillBonus {}), (.activate, .investigate {} (-1))]

/-- When the effects of the lantern are sorted by timing, the two of the last timing keep their
order, and so they do on the lantern. -/
theorem effects_filed_lantern :
    lantern.Fresh ∧
      (lantern.withEffects lanternEffects).effects.get .discard =
        [.damageAtLocation {} 1, .skillBonus {}] ∧
      lanternEffects.mergeSort (fun p p' => p.1.rank ≤ p'.1.rank) =
        [(.activate, .investigate {} (-1)), (.passive, .skillBonus { cost := 1 }),
          (.discard, .damageAtLocation {} 1), (.discard, .skillBonus {})] ∧
      (lantern.withEffects lanternEffects).effects.size = 4 ∧
      (lantern.withEffects lanternEffects).printed = lantern := by
  have hfresh : lantern.Fresh := ⟨by decide, rfl⟩
  obtain ⟨hget, hlist, hsize, -, -, hprinted⟩ := lantern.effects_filed lanternEffects hfresh
  exact ⟨hfresh, (hget .discard).trans (by decide), hlist.symm.trans (by decide), hsize, hprinted⟩

end Card

end CardRules
