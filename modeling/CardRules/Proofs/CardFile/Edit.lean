import CardRules.CardFile.Sections
import CardRules.Catalogue
import CardRules.Proofs.Format.Replace
import CardRules.Proofs.Format.RoundTrip

/-!
# Card files with another modifier

A modifier of a card file is the value of an entry in one of the maps of an action.  Its place is a
path from the whole file: to the section of the card, to the card, to the action and to the entry
(`CardFile.ModifierPath`).  At every step the file may choose between the ways that its format
leaves: a record may be given as a map or as a sequence, and the passive actions under one of two
keys.

If another modifier is put there, the card is still read, and its record differs in the modifiers of
that action only (`CardKind.readEntry_replace`).
-/

namespace CardRules

/-! ## Modifiers as trees -/

/-- The tree of a modifier: a whole number of 64 bits, or a text. -/
def Modifier.tree {φ : Type} : Modifier → Tree φ
  | .amount n => .int n.toInt
  | .number n => .int n.toInt
  | .text s => .text s

/-- A modifier says itself. -/
lemma Modifier.value_tree {φ : Type} (m : Modifier) : (m.tree : Tree φ).value = .ok m.tree := by
  cases m <;> rfl

/-- There is nothing to arrange in a modifier. -/
lemma Modifier.arranged_tree (m : Modifier) : (m.tree : Json).arranged = m.tree := by
  cases m <;> rfl

/-- A modifier has the tree that is written for it. -/
lemma Modifier.encode_format (m : Modifier) : Modifier.format.encode m = m.tree := by
  cases m <;> rfl

/-- **Every modifier can be read.** -/
lemma Modifier.exists_decode_tree {φ : Type} (m : Modifier) (r : Reading φ) :
    ∃ m', (Modifier.format.decode r m.tree).toOption = some m' := by
  have hsays : (m.tree : Tree φ).Says (Modifier.format.encode m) := by
    refine ⟨m.tree, m.value_tree, ?_, by rw [m.encode_format]⟩
    cases m <;> rfl
  have hread := Format.decode_of_says_encode (by decide +kernel)
    (Modifier.format.covers_of_untagged rfl) r hsays
  exact ⟨_, toOption_eq_some_iff.2 hread⟩

/-! ## Places of modifiers -/

/-- A step to a field of a record: to the entry of its key, or to the item of its number if the
record is given as a sequence. -/
def Tree.Step.ToField (step : Tree.Step) (key : String) (index : Nat) : Prop :=
  step = .entry key ∨ step = .item index

/-- The keys under which the actions of a timing are listed. -/
def Timing.keys : Timing → List String
  | .passive => ["pasive", "passive"]
  | timing => [timing.keyword]

/-- A path from an action to one of its modifiers: to the list of its maps, to one of the maps and to
an entry of that map. -/
def ActionEntry.ModifierPath (path : List Tree.Step) : Prop :=
  ∃ (step : Tree.Step) (index : Nat) (key : String),
    step.ToField "modifications" 3 ∧ path = [step, .item index, .entry key]

/-- A path from a card to the action with a number at a timing.  The elder sign of an investigator is
its first trigger. -/
def CardKind.ActionPath (timing : Timing) (index : Nat) (path : List Tree.Step) : CardKind → Prop
  | .investigator =>
    timing = .trigger ∧ index = 0 ∧ ∃ step : Tree.Step, step.ToField "elder_sign" 10 ∧ path = [step]
  | _ => ∃ key ∈ timing.keys, path = [.entry key, .item index]

/-- A step from a card file to the section of a kind. -/
def CardKind.SectionStep (step : Tree.Step) : CardKind → Prop
  | .investigator => step.ToField "investigators" 0
  | .asset => step.ToField "assets" 1
  | .event => step.ToField "events" 2
  | .ability => step.ToField "habilities" 3
  | .skill => step.ToField "skills" 4

/-! ## Actions -/

/-- Two actions differ in their modifiers only. -/
def Action.DifferInModifiers (a a' : Action) : Prop :=
  a' = { a with modifiers := a'.modifiers }

variable {m : Modifier} {timing : Timing} {index : Nat} {path path' : List Tree.Step}

/-- A record follows in a field, whichever way it is given. -/
lemma follows_record_field {φ : Type} {ts : List Type} {fields : Fields ts} {new : Tree φ}
    {key : String} {step : Tree.Step} {S : Tuple ts → Tuple ts → Prop} (name : String)
    (h : fields.Follows new key index path S) (hstep : step.ToField key index) :
    (Format.record name fields).Follows new (step :: path) S := by
  rcases hstep with rfl | rfl
  · exact follows_record_entry name h
  · exact follows_record_item name h

/-- The lists of modifiers follow in every entry of every map. -/
lemma follows_modifiers (m : Modifier) (index : Nat) (key : String) :
    (Format.list (.dictionary Modifier.format)).Follows (m.tree : Json)
      [.item index, .entry key] (OneDiffers index fun _ _ => True) :=
  follows_list (follows_dictionary (follows_here m.exists_decode_tree) key) index

/-- **An action with another modifier is read, and differs in its modifiers only.** -/
lemma ActionEntry.follows_format (hpath : ActionEntry.ModifierPath path) :
    ActionEntry.format.Follows (m.tree : Json) path
      fun e e' => e.toAction.DifferInModifiers e'.toAction := by
  obtain ⟨step, index, key, hstep, rfl⟩ := hpath
  have hmodifiers := follows_first (follows_modifiers m index key) "modifications" []
    (.defaulted []) (.maybe "target" .text .nil) (takes_self ..)
  have hskills := follows_later hmodifiers "skills" [] (.defaulted {}) SkillsEntry.format rfl
  have hexpend := follows_later hskills "expend" [] (.defaulted none) (.nullable .uint8) rfl
  have htag := follows_later hexpend "action" [] .required .text rfl
  refine follows_via _ (follows_record_field "ActionDef" htag hstep) ?_
  rintro ⟨tag, expend, skills, modifiers, rest⟩ ⟨_, _, _, _, _⟩ ⟨rfl, rfl, rfl, -, rfl⟩
  rfl

/-! ## The actions of a card -/

/-- Lists by timing differ in one value, the one of a number at a timing. -/
def ByTiming.OneDiffers {α : Type} (timing : Timing) (index : Nat) (R : α → α → Prop)
    (lists lists' : ByTiming α) : Prop :=
  CardRules.OneDiffers index R (lists.get timing) (lists'.get timing) ∧
    ∀ t, t ≠ timing → lists'.get t = lists.get t

/-- Lists by timing differ in one value if the list of the timing is set to one that does. -/
lemma ByTiming.oneDiffers_set {α : Type} {R : α → α → Prop} {lists : ByTiming α} {as : List α}
    (h : CardRules.OneDiffers index R (lists.get timing) as) :
    lists.OneDiffers timing index R (lists.set timing as) := by
  refine ⟨?_, fun t ht => ?_⟩
  · rw [get_set, if_pos rfl]
    exact h
  · rw [get_set, if_neg ht]

/-- Two lists differ in one element if a function makes a difference there only. -/
lemma OneDiffers.map {α β : Type} {R : α → α → Prop} {S : β → β → Prop} {f : α → β}
    {as as' : List α} (h : OneDiffers index R as as') (hf : ∀ a a', R a a' → S (f a) (f a')) :
    OneDiffers index S (as.map f) (as'.map f) := by
  obtain ⟨before, a, a', after, rfl, rfl, hindex, hR⟩ := h
  refine ⟨before.map f, f a, f a', after.map f, List.map_append, List.map_append, ?_, hf a a' hR⟩
  rw [List.length_map, hindex]

/-- Two families of lists by timing differ in one element if a function makes a difference there
only. -/
lemma ByTiming.OneDiffers.map {α β : Type} {R : α → α → Prop} {S : β → β → Prop} {f : α → β}
    {lists lists' : ByTiming α} (h : lists.OneDiffers timing index R lists')
    (hf : ∀ a a', R a a' → S (f a) (f a')) :
    (lists.map f).OneDiffers timing index S (lists'.map f) := by
  refine ⟨?_, fun t ht => ?_⟩
  · rw [get_map, get_map]
    exact h.1.map hf
  · rw [get_map, get_map, h.2 t ht]

/-- Passive actions are listed under either of two keys. -/
lemma takes_passive {key : String} (hkey : key ∈ Timing.passive.keys) :
    Fields.takes "pasive" ["passive"] key = true :=
  decide_eq_true (List.mem_cons.1 hkey)

/-- A list of another name has none of the keys of a timing. -/
lemma not_takes_of_mem_keys {key name : String} (hkey : key ∈ timing.keys)
    (hname : name ∉ timing.keys) : Fields.takes name [] key = false :=
  decide_eq_false fun hor => by
    rcases hor with rfl | hnil
    · exact hname hkey
    · exact absurd hnil List.not_mem_nil

/-- **The lists of actions follow in the action of a number at a timing**, under each of its keys. -/
lemma ActionEntry.follows_listFields (m : Modifier) (index : Nat) {key : String}
    (hkey : key ∈ timing.keys) (hpath : ActionEntry.ModifierPath path) :
    ∃ number, ActionEntry.listFields.Follows (m.tree : Json) key number (.item index :: path)
      fun x x' => (ByTiming.ofTuple x).OneDiffers timing index
        (fun e e' => e.toAction.DifferInModifiers e'.toAction) (ByTiming.ofTuple x') := by
  have hlist := follows_list (ActionEntry.follows_format (m := m) hpath) index
  cases timing with
  | activate =>
    obtain rfl := List.mem_singleton.1 hkey
    have hactivate := follows_first hlist "activate" [] (.defaulted [])
      (.opt "trigger" [] (.list format) <| .cons "pasive" ["passive"] (.defaulted [])
        (.list format) <| .opt "discard" [] (.list format) .nil) (takes_self ..)
    refine ⟨0, hactivate.mono ?_⟩
    rintro ⟨activate, trigger, passive, discard, rest⟩ ⟨activate', _⟩ ⟨h, rfl⟩
    exact ByTiming.oneDiffers_set h
  | trigger =>
    obtain rfl := List.mem_singleton.1 hkey
    have htrigger := follows_first hlist "trigger" [] (.defaulted [])
      (.cons "pasive" ["passive"] (.defaulted []) (.list format) <|
        .opt "discard" [] (.list format) .nil) (takes_self ..)
    have hactivate := follows_later htrigger "activate" [] (.defaulted []) (.list format) rfl
    refine ⟨1, hactivate.mono ?_⟩
    rintro ⟨activate, trigger, passive, discard, rest⟩ ⟨_, trigger', _⟩ ⟨rfl, h, rfl⟩
    exact ByTiming.oneDiffers_set h
  | passive =>
    have hpassive := follows_first hlist "pasive" ["passive"] (.defaulted [])
      (.opt "discard" [] (.list format) .nil) (takes_passive hkey)
    have htrigger := follows_later hpassive "trigger" [] (.defaulted []) (.list format)
      (not_takes_of_mem_keys hkey (by decide))
    have hactivate := follows_later htrigger "activate" [] (.defaulted []) (.list format)
      (not_takes_of_mem_keys hkey (by decide))
    refine ⟨2, hactivate.mono ?_⟩
    rintro ⟨activate, trigger, passive, discard, rest⟩ ⟨_, _, passive', _⟩ ⟨rfl, rfl, h, rfl⟩
    exact ByTiming.oneDiffers_set h
  | discard =>
    obtain rfl := List.mem_singleton.1 hkey
    have hdiscard := follows_first hlist "discard" [] (.defaulted []) .nil (takes_self ..)
    have hpassive := follows_later hdiscard "pasive" ["passive"] (.defaulted []) (.list format) rfl
    have htrigger := follows_later hpassive "trigger" [] (.defaulted []) (.list format) rfl
    have hactivate := follows_later htrigger "activate" [] (.defaulted []) (.list format) rfl
    refine ⟨3, hactivate.mono ?_⟩
    rintro ⟨activate, trigger, passive, discard, rest⟩ ⟨_, _, _, discard', _⟩ ⟨rfl, rfl, rfl, h, rfl⟩
    exact ByTiming.oneDiffers_set h

/-! ## Cards -/

/-- Two records differ in the modifiers of one action, the one of a number at a timing. -/
structure CardRecord.DifferInModifiers (timing : Timing) (index : Nat) (r r' : CardRecord) :
    Prop where
  name : r'.name = r.name
  factionWord : r'.factionWord = r.factionWord
  slotWord : r'.slotWord? = r.slotWord?
  assemble : ∀ faction slot effects,
    r'.assemble faction slot effects = r.assemble faction slot effects
  actions : r.actions.OneDiffers timing index Action.DifferInModifiers r'.actions

/-- An investigator with another modifier in its elder sign is read. -/
lemma InvestigatorEntry.follows_format
    (hpath : CardKind.investigator.ActionPath timing index path)
    (hpath' : ActionEntry.ModifierPath path') :
    InvestigatorEntry.format.Follows (m.tree : Json) (path ++ path') fun e e' =>
      (CardRecord.investigator e.toRecord).DifferInModifiers timing index
        (.investigator e'.toRecord) := by
  obtain ⟨rfl, rfl, step, hstep, rfl⟩ := hpath
  have haction := ActionEntry.follows_format (m := m) hpath'
  obtain ⟨_, _, _, -, rfl⟩ := hpath'
  have helder := follows_first (follows_nullable haction) "elder_sign" [] (.defaulted none) .nil
    (takes_self ..)
  have hsanity := follows_later helder "sanity" [] .required .uint8 rfl
  have hhealth := follows_later hsanity "health" [] .required .uint8 rfl
  have hagility := follows_later hhealth "skill_agility" [] (.defaulted 0) .int8 rfl
  have hcombat := follows_later hagility "skill_combat" [] (.defaulted 0) .int8 rfl
  have hintellect := follows_later hcombat "skill_intellect" [] (.defaulted 0) .int8 rfl
  have hwillpower := follows_later hintellect "skill_willpower" [] (.defaulted 0) .int8 rfl
  have hsubname := follows_later hwillpower "subname" [] (.defaulted "") .text rfl
  have htraits := follows_later hsubname "traits" [] (.defaulted "") .text rfl
  have hfaction := follows_later htraits "faction" [] .required .text rfl
  have hname := follows_later hfaction "name" [] .required .text rfl
  refine follows_via _ (follows_record_field "InvestigatorDef" hname hstep) ?_
  rintro ⟨name, faction, traits, subname, willpower, intellect, combat, agility, health, sanity, _, _⟩
    ⟨_, _, _, _, _, _, _, _, _, _, _, _⟩
    ⟨rfl, rfl, rfl, rfl, rfl, rfl, rfl, rfl, rfl, rfl, ⟨e, e', rfl, rfl, h⟩, rfl⟩
  have hsign : OneDiffers 0 Action.DifferInModifiers [e.toAction] [e'.toAction] :=
    ⟨[], _, _, [], rfl, rfl, rfl, h⟩
  exact ⟨rfl, rfl, rfl, fun _ _ _ => rfl, ByTiming.oneDiffers_set hsign⟩

/-- Three kinds of cards share their maps with their actions, whose keys are none of their own. -/
lemma not_owns_of_mem_keys {ts : List Type} {own : Fields ts}
    (h : ∀ key ∈ ["activate", "trigger", "pasive", "passive", "discard"], own.owns key = false)
    {key : String} (hkey : key ∈ timing.keys) : own.owns key = false := by
  have hkeys : ∀ k ∈ timing.keys, k ∈ ["activate", "trigger", "pasive", "passive", "discard"] := by
    cases timing <;> decide
  exact h key (hkeys key hkey)

/-- An asset with another modifier is read. -/
lemma AssetEntry.follows_format (hpath : CardKind.asset.ActionPath timing index path)
    (hpath' : ActionEntry.ModifierPath path') :
    AssetEntry.format.Follows (m.tree : Json) (path ++ path') fun e e' =>
      (CardRecord.asset e.toRecord).DifferInModifiers timing index (.asset e'.toRecord) := by
  obtain ⟨key, hkey, rfl⟩ := hpath
  obtain ⟨number, hlists⟩ := ActionEntry.follows_listFields m index hkey hpath'
  refine follows_via _ (follows_flat "AssetDef" (not_owns_of_mem_keys (by decide) hkey) hlists) ?_
  rintro ⟨⟨name, faction, traits, cost, testSkill, slot, uses, health, sanity, _⟩, _⟩ ⟨_, _⟩ ⟨rfl, h⟩
  exact ⟨rfl, rfl, rfl, fun _ _ _ => rfl, h.map fun _ _ h => h⟩

/-- An event with another modifier is read. -/
lemma EventEntry.follows_format (hpath : CardKind.event.ActionPath timing index path)
    (hpath' : ActionEntry.ModifierPath path') :
    EventEntry.format.Follows (m.tree : Json) (path ++ path') fun e e' =>
      (CardRecord.event e.toRecord).DifferInModifiers timing index (.event e'.toRecord) := by
  obtain ⟨key, hkey, rfl⟩ := hpath
  obtain ⟨number, hlists⟩ := ActionEntry.follows_listFields m index hkey hpath'
  refine follows_via _ (follows_flat "EventDef" (not_owns_of_mem_keys (by decide) hkey) hlists) ?_
  rintro ⟨⟨name, faction, traits, cost, testSkill, _⟩, _⟩ ⟨_, _⟩ ⟨rfl, h⟩
  exact ⟨rfl, rfl, rfl, fun _ _ _ => rfl, h.map fun _ _ h => h⟩

/-- An ability or a skill card with another modifier is read; both kinds have the same format. -/
lemma PlainEntry.follows_format (hpath : ∃ key ∈ timing.keys, path = [.entry key, .item index])
    (hpath' : ActionEntry.ModifierPath path') :
    PlainEntry.format.Follows (m.tree : Json) (path ++ path') fun e e' =>
      (CardRecord.ability e.toRecord).DifferInModifiers timing index (.ability e'.toRecord) ∧
      (CardRecord.skill e.toRecord).DifferInModifiers timing index (.skill e'.toRecord) := by
  obtain ⟨key, hkey, rfl⟩ := hpath
  obtain ⟨number, hlists⟩ := ActionEntry.follows_listFields m index hkey hpath'
  refine follows_via _
    (follows_flat "SimpleCardDef" (not_owns_of_mem_keys (by decide) hkey) hlists) ?_
  rintro ⟨⟨name, faction, testSkill, _⟩, _⟩ ⟨_, _⟩ ⟨rfl, h⟩
  exact ⟨⟨rfl, rfl, rfl, fun _ _ _ => rfl, h.map fun _ _ h => h⟩,
    ⟨rfl, rfl, rfl, fun _ _ _ => rfl, h.map fun _ _ h => h⟩⟩

/-! ## Entries of a section -/

/-- The record of an entry in the section of a kind. -/
def CardKind.readEntry (j : Json) : CardKind → Option CardRecord
  | .investigator =>
    (InvestigatorEntry.format.decode .value j).toOption.map fun e => .investigator e.toRecord
  | .asset => (AssetEntry.format.decode .value j).toOption.map fun e => .asset e.toRecord
  | .event => (EventEntry.format.decode .value j).toOption.map fun e => .event e.toRecord
  | .ability => (PlainEntry.format.decode .value j).toOption.map fun e => .ability e.toRecord
  | .skill => (PlainEntry.format.decode .value j).toOption.map fun e => .skill e.toRecord

/-- What is made of a value that is read follows if the value does. -/
lemma exists_map_of_follows {α β : Type} {f : Format α} {new j j' : Json} {S : α → α → Prop}
    {R : β → β → Prop} {g : α → β} (hf : f.Follows new path S)
    (hS : ∀ a a', S a a' → R (g a) (g a')) (hj : new.ReplacesAt path j j') {b : β}
    (hb : (f.decode .value j).toOption.map g = some b) :
    ∃ b', (f.decode .value j').toOption.map g = some b' ∧ R b b' := by
  obtain ⟨a, ha, rfl⟩ := Option.map_eq_some_iff.1 hb
  obtain ⟨a', ha', hSa⟩ := hf hj ha
  exact ⟨g a', Option.map_eq_some_iff.2 ⟨a', ha', rfl⟩, hS a a' hSa⟩

/-- **A card with another modifier is read**, whatever its kind, and its record differs in the
modifiers of that action only. -/
theorem CardKind.readEntry_replace {kind : CardKind} (hpath : kind.ActionPath timing index path)
    (hpath' : ActionEntry.ModifierPath path') {j j' : Json}
    (hj : (m.tree : Json).ReplacesAt (path ++ path') j j') {r : CardRecord}
    (hr : kind.readEntry j = some r) :
    ∃ r', kind.readEntry j' = some r' ∧ r.DifferInModifiers timing index r' := by
  cases kind with
  | investigator =>
    exact exists_map_of_follows (InvestigatorEntry.follows_format hpath hpath') (fun _ _ h => h) hj hr
  | asset =>
    exact exists_map_of_follows (AssetEntry.follows_format hpath hpath') (fun _ _ h => h) hj hr
  | event =>
    exact exists_map_of_follows (EventEntry.follows_format hpath hpath') (fun _ _ h => h) hj hr
  | ability =>
    exact exists_map_of_follows (PlainEntry.follows_format hpath hpath') (fun _ _ h => h.1) hj hr
  | skill =>
    exact exists_map_of_follows (PlainEntry.follows_format hpath hpath') (fun _ _ h => h.2) hj hr

end CardRules
