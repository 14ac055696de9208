import CardRules.Proofs.Catalogue.Build
import CardRules.Proofs.KeyMap

/-!
# The first record of a name

An index keeps the records of each kind apart and of several records with one name the first one
(`Index.find?_ofRecords`).  The main statement, `Index.files_first`, says so for every collection,
whatever names are repeated within a kind or across kinds, and says what follows: what an index
contains, how many records it has, and that the report on a card depends on the collection only
through the first record of its kind and name.
-/

namespace CardRules

/-- A record is the first one in a list with a name. -/
def FirstNamed (records : List CardRecord) (name : String) (r : CardRecord) : Prop :=
  ∃ before after, records = before ++ r :: after ∧ r.name = name ∧ ∀ q ∈ before, q.name ≠ name

/-- The number of different names of the records of a kind. -/
def Records.nameCount (rs : Records) (kind : CardKind) : Nat :=
  ((rs.ofKind kind).map CardRecord.name).toFinset.card

/-! ## Records of one kind -/

/-- Searching a list by name finds the first record of the name. -/
lemma find?_name_eq_some_iff {records : List CardRecord} {name : String} {r : CardRecord} :
    records.find? (·.name == name) = some r ↔ FirstNamed records name r := by
  rw [List.find?_eq_some_iff_append, FirstNamed]
  constructor
  · rintro ⟨hname, before, after, hsplit, hbefore⟩
    refine ⟨before, after, hsplit, eq_of_beq hname, fun q hq heq => ?_⟩
    simpa [heq] using hbefore q hq
  · rintro ⟨before, after, hsplit, hname, hbefore⟩
    refine ⟨beq_iff_eq.2 hname, before, after, hsplit, fun q hq => ?_⟩
    simpa using hbefore q hq

/-- Searching a list by name finds nothing if there is no record of the name. -/
lemma find?_name_eq_none_iff {records : List CardRecord} {name : String} :
    records.find? (·.name == name) = none ↔ ∀ r ∈ records, r.name ≠ name := by
  simp only [List.find?_eq_none, beq_iff_eq, ne_eq]

namespace Index

/-- Among records with their names a name is found as among the records. -/
lemma lookup_names (records : List CardRecord) (name : String) :
    KeyMap.lookup name (records.map fun r => (r.name, r)) = records.find? (·.name == name) := by
  induction records with
  | nil => rfl
  | cons r rest ih =>
    rw [List.map_cons, KeyMap.lookup, ih, List.find?_cons]
    by_cases h : r.name = name
    · rw [if_pos h, h, beq_self_eq_true]
    · rw [if_neg h, beq_eq_false_iff_ne.2 h]

/-- The records of a kind in an index are the first ones of their names. -/
lemma ofKind_ofRecords (rs : Records) (kind : CardKind) :
    (ofRecords rs).ofKind kind = byName (rs.ofKind kind) := by
  cases kind <;> rfl

/-- **An index files the first record of each kind and name.** -/
theorem find?_ofRecords (rs : Records) (kind : CardKind) (name : String) :
    (ofRecords rs).find? kind name = (rs.ofKind kind).find? (·.name == name) := by
  rw [find?, ofKind_ofRecords, byName, KeyMap.get?_ofListFirst, lookup_names]

/-- There is one record for each name of a kind. -/
lemma size_byName (records : List CardRecord) :
    (byName records).size = (records.map CardRecord.name).toFinset.card := by
  rw [byName, KeyMap.size_ofListFirst, List.map_map]
  rfl

/-- The records of an index are counted kind by kind. -/
lemma size_ofRecords (rs : Records) :
    (ofRecords rs).size =
      rs.nameCount .investigator + rs.nameCount .asset + rs.nameCount .event +
        rs.nameCount .ability + rs.nameCount .skill := by
  simp only [Records.nameCount, ← size_byName]
  rfl

end Index

/-- There are no names of a kind only if there are no records of it. -/
lemma Records.nameCount_eq_zero_iff {rs : Records} {kind : CardKind} :
    rs.nameCount kind = 0 ↔ rs.ofKind kind = [] := by
  rw [nameCount, Finset.card_eq_zero, List.toFinset_eq_empty_iff, List.map_eq_nil_iff]

/-- Catalogues that have the same record of a kind and name report the same about it. -/
lemma Catalogue.report_congr {c c' : Catalogue} {kind : CardKind} {name : String}
    (hpolicy : c'.policy = c.policy) (h : c'.index.find? kind name = c.index.find? kind name) :
    c'.report kind name = c.report kind name := by
  unfold report
  rw [h, hpolicy]

/-! ## The index of a collection -/

/-- **Of several records of a kind and name the first one counts.**  In the index of a collection

* the record of a kind and name is the first one of the kind that has the name;
* there is no such record only if no record of the kind has the name;
* a card is contained exactly if a record of the kind has the name;
* there are as many records as there are different names, counted kind by kind;
* there are no records only if there are none in the collection.

So two collections with the same first record of a kind and name give the same report under the
same policy. -/
theorem Index.files_first (rs : Records) (kind : CardKind) (name : String) :
    let index := Index.ofRecords rs
    (∀ r, index.find? kind name = some r ↔ FirstNamed (rs.ofKind kind) name r) ∧
    (index.find? kind name = none ↔ ∀ r ∈ rs.ofKind kind, r.name ≠ name) ∧
    (index.contains kind name = true ↔ ∃ r ∈ rs.ofKind kind, r.name = name) ∧
    index.size =
      rs.nameCount .investigator + rs.nameCount .asset + rs.nameCount .event +
        rs.nameCount .ability + rs.nameCount .skill ∧
    (index.isEmpty = true ↔ rs.investigators = [] ∧ rs.assets = [] ∧ rs.events = [] ∧
      rs.abilities = [] ∧ rs.skills = []) ∧
    ∀ (rs' : Records) (policy : Policy),
      (∀ r, FirstNamed (rs'.ofKind kind) name r ↔ FirstNamed (rs.ofKind kind) name r) →
        (Catalogue.ofRecords rs' policy).report kind name =
          (Catalogue.ofRecords rs policy).report kind name := by
  intro index
  have hsome (rs : Records) (r : CardRecord) :
      (Index.ofRecords rs).find? kind name = some r ↔ FirstNamed (rs.ofKind kind) name r := by
    rw [find?_ofRecords, find?_name_eq_some_iff]
  have hnone : index.find? kind name = none ↔ ∀ r ∈ rs.ofKind kind, r.name ≠ name := by
    rw [find?_ofRecords, find?_name_eq_none_iff]
  refine ⟨hsome rs, hnone, ?_, size_ofRecords rs, ?_, fun rs' policy h => ?_⟩
  · rw [contains, Option.isSome_iff_ne_none, ne_eq, hnone]
    push Not
    rfl
  · rw [isEmpty, beq_iff_eq, size_ofRecords]
    simp only [Nat.add_eq_zero_iff, Records.nameCount_eq_zero_iff, Records.ofKind,
      List.map_eq_nil_iff, and_assoc]
  · refine Catalogue.report_congr rfl (Option.ext fun r => ?_)
    exact (hsome rs' r).trans ((h r).trans (hsome rs r).symm)

/-- Two printings of a knife, and an event of the same name. -/
def knives : Records where
  assets :=
    [{ name := "Knife", faction := "Neutral", cost := 1, skill := { combat := 1 } },
      { name := "Knife", faction := "Neutral", cost := 2, skill := {} }]
  events := [{ name := "Knife", faction := "Rogue", cost := 0, skill := {} }]

/-- The report on the knife is that of the first printing alone. -/
theorem Index.files_first_knife :
    (Catalogue.ofRecords { assets := knives.assets.take 1 } .strict).report .asset "Knife" =
      (Catalogue.ofRecords knives .strict).report .asset "Knife" := by
  refine (Index.files_first knives .asset "Knife").2.2.2.2.2 _ .strict fun r => ?_
  rw [← find?_name_eq_some_iff, ← find?_name_eq_some_iff]
  rfl

end CardRules
