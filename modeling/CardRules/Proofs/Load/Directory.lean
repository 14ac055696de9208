import CardRules.Load.Directory
import CardRules.Proofs.Success
import Mathlib.Control.Monad.Basic
import Mathlib.Logic.Function.Basic

/-!
# What a game directory loads as

A file of a directory `Holds` a value, or it is `Faulty` in one way.  The setup of the game and the
catalogue of the cards are described by what the three files hold and how they are faulty
(`Directory.loads_as`): the setup needs the bag, the policy may be missing, and a fault of the bag goes
first.  The cards are loaded from the directory as they are parsed in memory.
-/

namespace CardRules

/-! ## Card files under a heading -/

/-- **The heading of a card file makes no difference.**  Either the file has the same records under
every heading, or it fails under every heading for the same cause and with the same steps below the
heading. -/
lemma Records.ofText_cases (text : String) :
    (∃ rs, ∀ step, ofText step text = .ok rs) ∨
      ∃ below cause, ∀ step, ofText step text = .error ⟨step :: below, cause⟩ := by
  simp only [ofText]
  cases Sections.format.decodeText text with
  | error e => exact .inr ⟨[], .decode e, fun step => rfl⟩
  | ok sections =>
    cases hfile : sections.decode with
    | error b =>
      refine .inr ⟨[.entry b.kind b.index b.name], .decode b.error.ofValue, fun step => ?_⟩
      refine bind_eq_error_iff.2 (.inr ⟨sections, rfl, bind_eq_error_iff.2 (.inl ?_)⟩)
      exact mapError_eq_error_iff.2 ⟨b, hfile, rfl⟩
    | ok file =>
      refine .inl ⟨file.toRecords, fun step => ?_⟩
      refine bind_eq_ok_iff.2 ⟨sections, rfl, bind_eq_ok_iff.2 ⟨file, ?_, rfl⟩⟩
      exact mapError_eq_ok_iff.2 hfile

/-- A card file has the records that it has in memory. -/
lemma Records.ofText_eq_ok_iff {step : LoadStep} {text : String} {rs : Records} :
    ofText step text = .ok rs ↔ parse text = .ok rs := by
  obtain ⟨rs', h⟩ | ⟨below, cause, h⟩ := ofText_cases text <;> simp only [parse, h, reduceCtorEq]

/-- A card file fails as it does in memory, up to the heading. -/
lemma Records.ofText_eq_error_iff {step : LoadStep} {text : String} {e : LoadError} :
    ofText step text = .error e ↔
      ∃ below cause, parse text = .error ⟨.cardRecords :: below, cause⟩ ∧
        ⟨step :: below, cause⟩ = e := by
  obtain ⟨rs, h⟩ | ⟨below, cause, h⟩ := ofText_cases text
  · simp only [parse, h, reduceCtorEq, false_and, exists_false]
  · rw [parse, h, h, Except.error.injEq]
    constructor
    · intro he
      exact ⟨below, cause, rfl, he⟩
    · rintro ⟨below', cause', hparse, he⟩
      cases hparse
      exact he

namespace Directory

/-! ## Files -/

/-- A name of the directory stands for a text that decodes to a value. -/
def Holds {α : Type} (d : Directory) (f : Format α) (name : String) (a : α) : Prop :=
  ∃ text, d.entry? name = some (.text text) ∧ f.decodeText text = .ok a

/-- A name of the directory does not stand for a text. -/
inductive Unreadable (d : Directory) (name : String) : LoadError → Prop
  | missing : d.entry? name = none → Unreadable d name ⟨[.read (d.pathOf name)], .missing⟩
  | binary : d.entry? name = some .binary → Unreadable d name ⟨[.read (d.pathOf name)], .notText⟩
  | folder : d.entry? name = some .folder → Unreadable d name ⟨[.read (d.pathOf name)], .folder⟩

/-- A name of the directory does not stand for a text, or the text does not decode. -/
inductive Faulty {α : Type} (d : Directory) (f : Format α) (name : String) : LoadError → Prop
  | unreadable {e : LoadError} : d.Unreadable name e → Faulty d f name e
  | undecodable {text : String} {e : DecodeError Fault} : d.entry? name = some (.text text) →
      f.decodeText text = .error e → Faulty d f name ⟨[.parse (d.pathOf name)], .decode e⟩

variable {α : Type} {d : Directory} {f : Format α} {name : String}

/-- A text is read if the name stands for it. -/
lemma readText_eq_ok_iff {text : String} :
    d.readText name = .ok text ↔ d.entry? name = some (.text text) := by
  rw [readText]
  rcases d.entry? name with - | (content | - | -) <;> simp

/-- Reading fails exactly if the name does not stand for a text. -/
lemma readText_eq_error_iff {e : LoadError} :
    d.readText name = .error e ↔ d.Unreadable name e := by
  constructor
  · intro h
    rw [readText] at h
    split at h
    case h_1 content hentry => cases h
    case h_2 hentry => cases h; exact .binary hentry
    case h_3 hentry => cases h; exact .folder hentry
    case h_4 hentry => cases h; exact .missing hentry
  · rintro (hentry | hentry | hentry) <;> rw [readText, hentry]

/-- The value of a file is the one that it holds. -/
lemma load_eq_ok_iff {a : α} : d.load f name = .ok a ↔ d.Holds f name a := by
  simp only [load, bind_eq_ok_iff, readText_eq_ok_iff, mapError_eq_ok_iff, Holds]

/-- A file fails to load for its fault. -/
lemma load_eq_error_iff {e : LoadError} : d.load f name = .error e ↔ d.Faulty f name e := by
  simp only [load, bind_eq_error_iff, readText_eq_error_iff, readText_eq_ok_iff,
    mapError_eq_error_iff]
  constructor
  · rintro (hunreadable | ⟨text, hentry, e', hdecode, rfl⟩)
    · exact .unreadable hunreadable
    · exact .undecodable hentry hdecode
  · rintro (hunreadable | ⟨hentry, hdecode⟩)
    · exact .inl hunreadable
    · exact .inr ⟨_, hentry, _, hdecode, rfl⟩

/-! ## The setup -/

/-- The policy of a directory: the one in its file, or the lenient one if there is no file. -/
def HasPolicy (d : Directory) (policy : Policy) : Prop :=
  policy = .lenient ∧ d.entry? policyName = none ∨ d.Holds Policy.fileFormat policyName policy

/-- A missing policy is lenient; one that is there has to load. -/
lemma policy_eq_ok_iff {policy : Policy} : d.policy = .ok policy ↔ d.HasPolicy policy := by
  rw [Directory.policy, HasPolicy, ← load_eq_ok_iff]
  cases hentry : d.entry? policyName with
  | none =>
    have hload : d.load Policy.fileFormat policyName ≠ .ok policy := by
      rw [ne_eq, load_eq_ok_iff]
      rintro ⟨text, htext, -⟩
      rw [hentry] at htext
      cases htext
    simp only [hload, or_false, and_true, Except.ok.injEq, eq_comm]
  | some entry => simp only [reduceCtorEq, and_false, false_or]

/-- Only a policy that is there can be at fault. -/
lemma policy_eq_error_iff {e : LoadError} :
    d.policy = .error e ↔
      d.entry? policyName ≠ none ∧ d.Faulty Policy.fileFormat policyName e := by
  rw [Directory.policy, ← load_eq_error_iff]
  cases d.entry? policyName <;> simp

/-- A setup is loaded if the bag and the policy are. -/
lemma setup_eq_ok_iff {c : GameSetup} :
    d.setup = .ok c ↔ d.Holds BagSetup.format bagName c.bag ∧ d.HasPolicy c.policy := by
  simp only [setup, bind_eq_ok_iff, load_eq_ok_iff, policy_eq_ok_iff]
  constructor
  · rintro ⟨bag, hbag, policy, hpolicy, h⟩
    cases h
    exact ⟨hbag, hpolicy⟩
  · rintro ⟨hbag, hpolicy⟩
    exact ⟨_, hbag, _, hpolicy, rfl⟩

/-- A fault of the bag is reported, or a fault of the policy if the bag is in order. -/
lemma setup_eq_error_iff {e : LoadError} :
    d.setup = .error e ↔
      d.Faulty BagSetup.format bagName e ∨
        (∃ bag, d.Holds BagSetup.format bagName bag) ∧
          d.entry? policyName ≠ none ∧ d.Faulty Policy.fileFormat policyName e := by
  simp only [setup, bind_eq_error_iff, load_eq_error_iff, load_eq_ok_iff, policy_eq_error_iff]
  refine or_congr_right ⟨?_, ?_⟩
  · rintro ⟨bag, hbag, hpolicy | ⟨policy, -, h⟩⟩
    · exact ⟨⟨bag, hbag⟩, hpolicy⟩
    · cases h
  · rintro ⟨⟨bag, hbag⟩, hpolicy⟩
    exact ⟨bag, hbag, .inl hpolicy⟩

/-- A file is loaded without regard to what other names stand for. -/
lemma load_update {other : String} (h : name ≠ other) (entry : Option DirectoryEntry) :
    ({ d with entry? := Function.update d.entry? other entry } : Directory).load f name =
      d.load f name := by
  simp only [load, readText, pathOf, separator, Function.update_of_ne h]

/-- The setup is loaded without regard to the cards. -/
lemma setup_update_cards (d : Directory) (entry : Option DirectoryEntry) :
    ({ d with entry? := Function.update d.entry? cardsName entry } : Directory).setup =
      d.setup := by
  have hbag : bagName ≠ cardsName := by decide
  have hpolicy : policyName ≠ cardsName := by decide
  simp only [setup, policy, load_update hbag, load_update hpolicy, Function.update_of_ne hpolicy]

/-! ## The catalogue -/

/-- Records are loaded if the cards are there and parse. -/
lemma records_eq_ok_iff {rs : Records} :
    d.records = .ok rs ↔
      ∃ text, d.entry? cardsName = some (.text text) ∧ Records.parse text = .ok rs := by
  simp only [records, bind_eq_ok_iff, readText_eq_ok_iff, Records.ofText_eq_ok_iff]

/-- Records cannot be loaded if the file of the cards is unreadable or does not parse. -/
lemma records_eq_error_iff {e : LoadError} :
    d.records = .error e ↔ d.Unreadable cardsName e ∨
      ∃ text, d.entry? cardsName = some (.text text) ∧
        ∃ below cause, Records.parse text = .error ⟨.cardRecords :: below, cause⟩ ∧
          ⟨.parse (d.pathOf cardsName) :: below, cause⟩ = e := by
  simp only [records, bind_eq_error_iff, readText_eq_error_iff, readText_eq_ok_iff,
    Records.ofText_eq_error_iff]

/-- A catalogue is loaded if the records are, and it is their catalogue. -/
lemma catalogue_eq_ok_iff {c : GameSetup} {cat : Catalogue} :
    d.catalogue c = .ok cat ↔ ∃ rs, d.records = .ok rs ∧ cat = .ofRecords rs c.policy := by
  simp only [catalogue, bind_eq_ok_iff, mapError_eq_ok_iff]
  refine exists_congr fun rs => and_congr_right fun _ => ?_
  rw [eq_comm (a := cat)]
  exact iff_of_eq (Except.ok.injEq _ _)

/-- A catalogue fails as the records do, one step further out. -/
lemma catalogue_eq_error_iff {c : GameSetup} {e : LoadError} :
    d.catalogue c = .error e ↔
      ∃ e', d.records = .error e' ∧ e'.behind (.index (d.pathOf cardsName)) = e := by
  simp only [catalogue, bind_eq_error_iff, mapError_eq_error_iff]
  refine or_iff_left ?_
  rintro ⟨rs, -, h⟩
  cases h

/-! ## The directory -/

/-- **What a game directory loads as.**

* The setup is loaded exactly if the bag is there and decodes and the policy decodes or is missing;
  a missing policy is lenient.
* The setup fails for the fault of the bag, whatever the policy is, and for the fault of the policy
  only if the bag is in order.
* The file of the cards makes no difference to the setup.
* Under any setup the catalogue is loaded exactly if the cards are there and parse.  It is then the
  catalogue of the records that they parse to in memory, under the policy of the setup, so that all
  reports are the same.
* The catalogue fails if the file of the cards cannot be read, or if the text does not parse.  Then
  the cause is the one that it has in memory, and so are the steps below the heading, which name the
  entry at fault. -/
theorem loads_as (d : Directory) :
    (∀ c, d.setup = .ok c ↔ d.Holds BagSetup.format bagName c.bag ∧
      (c.policy = .lenient ∧ d.entry? policyName = none ∨
        d.Holds Policy.fileFormat policyName c.policy)) ∧
    (∀ e, d.setup = .error e ↔ d.Faulty BagSetup.format bagName e ∨
      (∃ bag, d.Holds BagSetup.format bagName bag) ∧
        d.entry? policyName ≠ none ∧ d.Faulty Policy.fileFormat policyName e) ∧
    (∀ entry, ({ d with entry? := Function.update d.entry? cardsName entry } : Directory).setup =
      d.setup) ∧
    ∀ c : GameSetup,
      (∀ cat, d.catalogue c = .ok cat ↔
        ∃ text rs, d.entry? cardsName = some (.text text) ∧ Records.parse text = .ok rs ∧
          cat = .ofRecords rs c.policy) ∧
      ∀ e, d.catalogue c = .error e ↔
        (∃ e', d.Unreadable cardsName e' ∧ e'.behind (.index (d.pathOf cardsName)) = e) ∨
        ∃ text below cause, d.entry? cardsName = some (.text text) ∧
          Records.parse text = .error ⟨.cardRecords :: below, cause⟩ ∧
            ⟨.index (d.pathOf cardsName) :: .parse (d.pathOf cardsName) :: below, cause⟩ = e := by
  refine ⟨fun c => setup_eq_ok_iff, fun e => setup_eq_error_iff, setup_update_cards d,
    fun c => ⟨fun cat => ?_, fun e => ?_⟩⟩
  · rw [catalogue_eq_ok_iff]
    simp only [records_eq_ok_iff]
    constructor
    · rintro ⟨rs, ⟨text, htext, hparse⟩, hcat⟩
      exact ⟨text, rs, htext, hparse, hcat⟩
    · rintro ⟨text, rs, htext, hparse, hcat⟩
      exact ⟨rs, ⟨text, htext, hparse⟩, hcat⟩
  · rw [catalogue_eq_error_iff]
    simp only [records_eq_error_iff]
    constructor
    · rintro ⟨e', hunreadable | ⟨text, htext, below, cause, hparse, rfl⟩, rfl⟩
      · exact .inl ⟨e', hunreadable, rfl⟩
      · exact .inr ⟨text, below, cause, htext, hparse, rfl⟩
    · rintro (⟨e', hunreadable, rfl⟩ | ⟨text, below, cause, htext, hparse, rfl⟩)
      · exact ⟨e', .inl hunreadable, rfl⟩
      · exact ⟨_, .inr ⟨text, htext, below, cause, hparse, rfl⟩, rfl⟩

/-- A directory in which no file is in order.  There is a token of no known kind, a policy of no known
name and, behind a good event, an event without a faction. -/
def attic : Directory where
  path := "attic/"
  entry? name :=
    let files : List (String × Json) :=
      [(bagName, .ofEntries [("tokens", .ofItems [.ofEntries [("kind", .text "moon")]])]),
        (policyName, .ofEntries [("descriptors", .text "harsh")]),
        (cardsName, .ofEntries [("events", .ofItems
          [.ofEntries [("name", .text "Dodge"), ("faction", .text "guardian"), ("cost", .int 1)],
            .ofEntries [("name", .text "Emergency Cache"), ("cost", .int 0)]])])]
    (files.lookup name).map fun j => .text j.render

/-- The fault of the bag is reported, although the policy has one too. -/
example : attic.setup = .error ⟨[.parse "attic/chaos_bag.json"],
    .decode (.data (.unknownLabel "moon" (TokenKind.table.labels.map (·.1))))⟩ := by
  decide +kernel

/-- With a bag that is in order the fault of the policy is reported. -/
example :
    let bag := Json.render (.ofEntries [("tokens", .ofItems [])])
    ({ attic with entry? := Function.update attic.entry? bagName (some (.text bag)) }).setup =
      .error ⟨[.parse "attic/compiler.json"],
        .decode (.data (.unknownLabel "harsh" ["lenient", "strict"]))⟩ := by
  decide +kernel

/-- The event without a faction is named, with the steps that lead to it. -/
example : (attic.catalogue {}).map (·.policy) = .error
    ⟨[.index "attic/cards.json", .parse "attic/cards.json", .entry .event 1 "Emergency Cache"],
      .decode (.data (.missingField "faction"))⟩ := by
  decide +kernel

end Directory

end CardRules
