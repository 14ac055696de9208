import CardRules.Proofs.Format.Replace

/-!
# What stands at the end of a path is read

A value that is read is read part by part: what stands at the end of a path (`Tree.At`) is read by
a format of its own, and what comes of it is found again in the result.  A format *reaches* another
one at the end of a path (`Format.Reaches`) if this is so; a relation says where in the result the
part has gone.

So a value in which a part cannot be read is not read at all, and one that is read holds what its
parts were read as.  The lemmas below lead a path into the parts of a format, as those on
replacements do.
-/

namespace CardRules

/-! ## Parts of a tree -/

namespace Tree

variable {φ : Type}

/-- A tree stands at the end of a path into another one. -/
inductive At : Tree φ → List Step → Tree φ → Prop
  | here (t : Tree φ) : At t [] t
  | entry {path : List Step} {t u : Tree φ} (key : String) (before after : List (String × Tree φ))
      (cut : Option (Cut φ)) : At t path u →
      At (.map (before ++ (key, t) :: after) cut) (.entry key :: path) u
  | item {path : List Step} {t u : Tree φ} (before after : List (Tree φ)) (cut : Option (Cut φ)) :
      At t path u → At (.sequence (before ++ t :: after) cut) (.item before.length :: path) u

/-- What takes the place of another tree stands there. -/
lemma ReplacesAt.at {new t t' : Tree φ} {path : List Step} (h : new.ReplacesAt path t t') :
    t'.At path new := by
  induction h with
  | here t => exact .here new
  | entry key before after cut _ ih => exact .entry key before after cut ih
  | item before after cut _ ih => exact .item before after cut ih

/-- A path of two parts leads to a tree by way of another one. -/
lemma At.exists_of_append {t u : Tree φ} {path path' : List Step} (h : t.At (path ++ path') u) :
    ∃ w, t.At path w ∧ w.At path' u := by
  induction path generalizing t with
  | nil => exact ⟨t, .here t, h⟩
  | cons step path ih =>
    cases h with
    | entry key before after cut hrest =>
      obtain ⟨w, hw, hu⟩ := ih hrest
      exact ⟨w, .entry key before after cut hw, hu⟩
    | item before after cut hrest =>
      obtain ⟨w, hw, hu⟩ := ih hrest
      exact ⟨w, .item before after cut hw, hu⟩

end Tree

/-! ## Formats that reach a part -/

variable {α β γ : Type} {ts us : List Type}

/-- A format *reaches* a format of a part at the end of a path: of a value that is read, what stands
there is read as well, and the two results are related. -/
def Format.Reaches (f : Format α) (path : List Tree.Step) (g : Format γ) (S : γ → α → Prop) :
    Prop :=
  ∀ ⦃r : Reading Empty⦄ ⦃t u : Json⦄ ⦃a : α⦄, t.At path u → (f.decode r t).toOption = some a →
    ∃ (r' : Reading Empty) (c : γ), (g.decode r' u).toOption = some c ∧ S c a

variable {f : Format α} {g : Format γ} {path : List Tree.Step} {S : γ → α → Prop}

/-- A format reaches itself. -/
lemma reaches_here (g : Format γ) : g.Reaches [] g Eq := by
  intro r t u c ht hc
  cases ht
  exact ⟨r, c, hc, rfl⟩

/-- A value of another type reaches what it is made of. -/
lemma reaches_via {make : α → β} {parts : β → α} (make_parts : ∀ b, make (parts b) = b)
    {S' : γ → β → Prop} (h : f.Reaches path g S) (hS : ∀ c a, S c a → S' c (make a)) :
    (Format.via f make parts make_parts).Reaches path g S' := by
  intro r t u b ht hb
  rw [toOption_decode_via] at hb
  obtain ⟨a, ha, rfl⟩ := Option.map_eq_some_iff.1 hb
  obtain ⟨r', c, hc, hSa⟩ := h ht ha
  exact ⟨r', c, hc, hS c a hSa⟩

/-- Where a path leads on, there is a value that is not `null`. -/
lemma reaches_nullable {step : Tree.Step} (h : f.Reaches (step :: path) g S) :
    f.nullable.Reaches (step :: path) g fun c a? => ∃ a, a? = some a ∧ S c a := by
  intro r t u a? ht ha?
  have hne : t ≠ .null := by
    rintro rfl
    cases ht
  rw [toOption_decode_nullable f r hne] at ha?
  obtain ⟨a, ha, rfl⟩ := Option.map_eq_some_iff.1 ha?
  obtain ⟨r', c, hc, hSa⟩ := h ht ha
  exact ⟨r', c, hc, a, rfl, hSa⟩

/-- A list reaches what its items reach. -/
lemma reaches_list (h : f.Reaches path g S) (index : Nat) :
    f.list.Reaches (.item index :: path) g fun c as => ∃ a, as[index]? = some a ∧ S c a := by
  intro r t u as ht has
  cases ht with
  | item before after cut hu =>
    obtain rfl := cut_eq_none_of_decode_list has
    rw [toOption_decode_list] at has
    obtain ⟨front, a, back, hfront, ha, -, rfl⟩ := mapM_split_iff.1 has
    obtain ⟨r', c, hc, hSa⟩ := h hu ha
    refine ⟨r', c, hc, a, ?_, hSa⟩
    rw [← length_of_mapM_eq_some hfront, List.getElem?_append_right (Nat.le_refl _), Nat.sub_self]
    rfl

/-! ### Records -/

/-- The fields of a record reach a format in the entries of a key, and in the item of a number if
the record is given as a sequence. -/
structure Fields.Reaches (fields : Fields ts) (key : String) (index : Nat) (path : List Tree.Step)
    (g : Format γ) (S : γ → Tuple ts → Prop) : Prop where
  gather {r : Reading Empty} {before after : List (String × Json)} {t u : Json} {x : Tuple ts} :
    t.At path u → fields.gather r (before ++ (key, t) :: after) = some x →
      ∃ (r' : Reading Empty) (c : γ), (g.decode r' u).toOption = some c ∧ S c x
  inTurn {r : Reading Empty} {before after : List Json} {t u : Json} {x : Tuple ts} :
    t.At path u → before.length = index → fields.inTurn r (before ++ t :: after) = some x →
      ∃ (r' : Reading Empty) (c : γ), (g.decode r' u).toOption = some c ∧ S c x

/-- Fields that reach a format also do so by a weaker relation. -/
lemma Fields.Reaches.mono {fields : Fields ts} {key : String} {index : Nat}
    {S S' : γ → Tuple ts → Prop} (h : fields.Reaches key index path g S)
    (hS : ∀ c x, S c x → S' c x) : fields.Reaches key index path g S' where
  gather ht hx := by
    obtain ⟨r', c, hc, hSx⟩ := h.gather ht hx
    exact ⟨r', c, hc, hS c _ hSx⟩
  inTurn ht hindex hx := by
    obtain ⟨r', c, hc, hSx⟩ := h.inTurn ht hindex hx
    exact ⟨r', c, hc, hS c _ hSx⟩

/-- A record reaches what its first field reaches. -/
lemma reaches_first (h : f.Reaches path g S) (name : String) (aliases : List String)
    (absence : Absence α) (rest : Fields ts) {key : String}
    (hkey : Fields.takes name aliases key = true) :
    (Fields.cons name aliases absence f rest).Reaches key 0 path g fun c x => S c x.1 where
  gather {r before after t u x} ht hx := by
    rw [gather_split_of_takes hkey] at hx
    obtain ⟨a, y, ha, -, rfl⟩ := bind_cons_eq_some_iff.1 hx
    obtain ⟨-, -, hdecode⟩ := single_split ha
    exact h ht hdecode
  inTurn {r before after t u x} ht hindex hx := by
    obtain rfl := List.length_eq_zero_iff.1 hindex
    obtain ⟨a, y, ha, -, rfl⟩ := bind_cons_eq_some_iff.1 hx
    exact h ht ha

/-- A record reaches what its other fields reach. -/
lemma reaches_later {rest : Fields ts} {S : γ → Tuple ts → Prop} {key : String} {index : Nat}
    (h : rest.Reaches key index path g S) (name : String) (aliases : List String)
    (absence : Absence α) (f : Format α) (hkey : Fields.takes name aliases key = false) :
    (Fields.cons name aliases absence f rest).Reaches key (index + 1) path g
      fun c x => S c x.2 where
  gather {r before after t u x} ht hx := by
    rw [gather_split_of_not_takes hkey] at hx
    obtain ⟨a, y, -, hy, rfl⟩ := bind_cons_eq_some_iff.1 hx
    exact h.gather ht hy
  inTurn {r before after t u x} ht hindex hx := by
    obtain ⟨s, before, rfl⟩ := List.exists_cons_of_length_eq_add_one hindex
    obtain ⟨a, y, -, hy, rfl⟩ := bind_cons_eq_some_iff.1 hx
    exact h.inTurn ht (Nat.succ.inj hindex) hy

section

variable {fields : Fields ts} {key : String} {index : Nat} {S : γ → Tuple ts → Prop}

/-- A record reaches what its fields reach, whichever way it is given. -/
lemma reaches_record (name : String) (h : fields.Reaches key index path g S) {step : Tree.Step}
    (hstep : step = .entry key ∨ step = .item index) :
    (Format.record name fields).Reaches (step :: path) g S := by
  intro r t u x ht hx
  cases ht with
  | entry _ before after cut hu =>
    obtain rfl : key = _ := by simpa [eq_comm] using hstep
    obtain rfl := cut_eq_none_of_decode_record_map hx
    rw [decode_record_map name fields r (Tree.valueEntries_json _)] at hx
    exact h.gather hu hx
  | item before after cut hu =>
    have hindex : before.length = index := by simpa using hstep
    obtain rfl := cut_eq_none_of_decode_record_sequence hx
    rw [decode_record_sequence] at hx
    exact h.inTurn hu hindex hx

/-- Two records in one map reach what the other one reaches, in an entry that the first one leaves
to it. -/
lemma reaches_flat (name : String) {own : Fields us} (hkey : own.owns key = false)
    (h : fields.Reaches key index path g S) :
    (Format.flat name own fields).Reaches (.entry key :: path) g fun c x => S c x.2 := by
  intro r t u x ht hx
  cases ht with
  | entry _ before after cut hu =>
    obtain rfl := Tree.cut_eq_none cut
    rw [decode_flat_map name own fields r (Tree.valueEntries_json _),
      filter_split_of_pos (p := (!own.owns ·)) (congrArg not hkey)] at hx
    obtain ⟨y, -, hx⟩ := Option.bind_eq_some_iff.1 hx
    obtain ⟨z, hz, rfl⟩ := Option.map_eq_some_iff.1 hx
    exact h.gather hu hz

end

end CardRules
