import CardRules.CardFile.Basic
import CardRules.Proofs.Catalogue.Index
import CardRules.Proofs.Catalogue.WellFormed
import CardRules.Proofs.Success
import CardRules.Proofs.Vocabulary

/-!
# Cards show what is printed

A card of a catalogue goes back to an entry of a card file, by way of the record of the entry.  For
each kind of card a structure, such as `Asset.Shows`, says which value of the card has to be which
value of the entry, and `Card.Shows` puts the kinds together.

The main statement is `Catalogue.card_shows`: a card that a catalogue has for a kind and name shows
the first entry of the kind with the name, whatever other entries the file has.  In a test it then
adds the skill vector that is printed on the entry (`Card.Shows.skillVector_eq`).
-/

namespace CardRules

/-! ## Entries of a kind -/

/-- An entry of a card file, of any kind. -/
inductive CardEntry where
  | investigator (e : InvestigatorEntry)
  | asset (e : AssetEntry)
  | event (e : EventEntry)
  | ability (e : PlainEntry)
  | skill (e : PlainEntry)

/-- The name of an entry. -/
def CardEntry.name : CardEntry → String
  | .investigator e => e.name
  | .asset e => e.name
  | .event e => e.name
  | .ability e => e.name
  | .skill e => e.name

/-- The record of an entry. -/
def CardEntry.toRecord : CardEntry → CardRecord
  | .investigator e => .investigator e.toRecord
  | .asset e => .asset e.toRecord
  | .event e => .event e.toRecord
  | .ability e => .ability e.toRecord
  | .skill e => .skill e.toRecord

/-- A record has the name of its entry. -/
lemma CardEntry.name_toRecord (e : CardEntry) : e.toRecord.name = e.name := by
  cases e <;> rfl

/-- The entries of one kind, in their order. -/
def CardFile.ofKind (file : CardFile) : CardKind → List CardEntry
  | .investigator => file.investigators.map .investigator
  | .asset => file.assets.map .asset
  | .event => file.events.map .event
  | .ability => file.abilities.map .ability
  | .skill => file.skills.map .skill

/-- The records of a kind are those of the entries, one by one. -/
lemma CardFile.ofKind_toRecords (file : CardFile) (kind : CardKind) :
    file.toRecords.ofKind kind = (file.ofKind kind).map CardEntry.toRecord := by
  cases kind <;> simp [Records.ofKind, toRecords, ofKind, CardEntry.toRecord]

/-- An entry is the first one in a list with a name. -/
def FirstEntry (entries : List CardEntry) (name : String) (e : CardEntry) : Prop :=
  ∃ before after, entries = before ++ e :: after ∧ e.name = name ∧ ∀ q ∈ before, q.name ≠ name

variable {entries : List CardEntry} {name : String}

/-- The first record of a name is that of the first entry of the name. -/
lemma firstNamed_map_iff {r : CardRecord} :
    FirstNamed (entries.map CardEntry.toRecord) name r ↔
      ∃ e, FirstEntry entries name e ∧ e.toRecord = r := by
  constructor
  · rintro ⟨before, after, hsplit, hname, hbefore⟩
    obtain ⟨before', rest, rfl, rfl, hrest⟩ := List.map_eq_append_iff.1 hsplit
    obtain ⟨e, after', rfl, rfl, rfl⟩ := List.map_eq_cons_iff.1 hrest
    refine ⟨e, ⟨before', after', rfl, ?_, fun q hq => ?_⟩, rfl⟩
    · rw [← e.name_toRecord, hname]
    · rw [← q.name_toRecord]
      exact hbefore _ (List.mem_map_of_mem hq)
  · rintro ⟨e, ⟨before, after, rfl, hname, hbefore⟩, rfl⟩
    refine ⟨_, _, List.map_append.trans (congrArg _ List.map_cons), ?_, fun q hq => ?_⟩
    · rw [e.name_toRecord, hname]
    · obtain ⟨e', he', rfl⟩ := List.mem_map.1 hq
      rw [e'.name_toRecord]
      exact hbefore e' he'

/-! ## What a card shows -/

/-- An investigator shows an entry.  Its skill vector has the four printed numbers and nothing
wild. -/
structure Investigator.Shows (c : Investigator) (e : InvestigatorEntry) : Prop where
  name : c.name = e.name
  subname : c.subname = e.subname
  traits : c.traits = e.traits
  faction : Registered.word c.faction = e.faction
  willpower : c.skill.willpower = e.willpower
  intellect : c.skill.intellect = e.intellect
  combat : c.skill.combat = e.combat
  agility : c.skill.agility = e.agility
  wild : c.skill.wild = 0
  health : c.health = e.health
  sanity : c.sanity = e.sanity

/-- An asset shows an entry. -/
structure Asset.Shows (c : Asset) (e : AssetEntry) : Prop where
  name : c.name = e.name
  traits : c.traits = e.traits
  faction : Registered.word c.faction = e.faction
  skill : c.skill = e.testSkill
  cost : c.cost = e.cost
  slot : c.slot.map Registered.word = e.slot
  uses : c.uses = e.uses
  health : c.health = e.health
  sanity : c.sanity = e.sanity

/-- An event shows an entry. -/
structure Event.Shows (c : Event) (e : EventEntry) : Prop where
  name : c.name = e.name
  traits : c.traits = e.traits
  faction : Registered.word c.faction = e.faction
  skill : c.skill = e.testSkill
  cost : c.cost = e.cost

/-- An ability or a skill card shows an entry. -/
structure PlainCard.Shows (c : PlainCard) (e : PlainEntry) : Prop where
  name : c.name = e.name
  faction : Registered.word c.faction = e.faction
  skill : c.skill = e.testSkill

/-- A card shows an entry of its kind. -/
inductive Card.Shows : Card → CardEntry → Prop
  | investigator {c : Investigator} {e : InvestigatorEntry} (h : c.Shows e) :
    Shows (.investigator c) (.investigator e)
  | asset {c : Asset} {e : AssetEntry} (h : c.Shows e) : Shows (.asset c) (.asset e)
  | event {c : Event} {e : EventEntry} (h : c.Shows e) : Shows (.event c) (.event e)
  | ability {c : PlainCard} {e : PlainEntry} (h : c.Shows e) : Shows (.ability c) (.ability e)
  | skill {c : PlainCard} {e : PlainEntry} (h : c.Shows e) : Shows (.skill c) (.skill e)

/-- The skill vector that is printed on an entry.  An investigator has nothing wild. -/
def CardEntry.skillVector : CardEntry → Skill
  | .investigator e =>
    { willpower := e.willpower, intellect := e.intellect, combat := e.combat, agility := e.agility }
  | .asset e => e.testSkill
  | .event e => e.testSkill
  | .ability e => e.testSkill
  | .skill e => e.testSkill

/-- A card adds to a test what is printed on the entry that it shows. -/
lemma Card.Shows.skillVector_eq {card : Card} {e : CardEntry} (h : card.Shows e) :
    card.skillVector = e.skillVector := by
  obtain ⟨hinvestigator, hasset, hevent, hability, hskill⟩ := Card.skillVector_printed
  cases h with
  | investigator h =>
    rw [hinvestigator, CardEntry.skillVector, ← h.willpower, ← h.intellect, ← h.combat,
      ← h.agility, ← h.wild]
  | asset h => exact (hasset _).trans h.skill
  | event h => exact (hevent _).trans h.skill
  | ability h => exact (hability _).trans h.skill
  | skill h => exact (hskill _).trans h.skill

/-! ## Words -/

/-- The words of a record that are known are those of the faction and the slot; without a word for
the slot there is no slot. -/
lemma CardRecord.words_of_eq_ok {r : CardRecord} {faction : Faction} {slot : Option Slot}
    (h : r.words = .ok (faction, slot)) :
    Registered.word faction = r.factionWord ∧ slot.map Registered.word = r.slotWord? := by
  obtain ⟨faction', hfaction, hrest⟩ := exists_of_bind_eq_ok h
  cases hw : r.slotWord? with
  | none =>
    rw [hw] at hrest
    cases hrest
    exact ⟨Registered.ofWord_eq_ok_iff.1 hfaction, rfl⟩
  | some w =>
    rw [hw] at hrest
    obtain ⟨slot', hmap, hwords⟩ := exists_of_bind_eq_ok hrest
    obtain ⟨slot, hslot, rfl⟩ := exists_of_map_eq_ok hmap
    cases hwords
    exact ⟨Registered.ofWord_eq_ok_iff.1 hfaction,
      congrArg some (Registered.ofWord_eq_ok_iff.1 hslot)⟩

/-- The card that is made of the record of an entry shows the entry, if its faction and its slot
have the printed words. -/
lemma CardEntry.assemble_shows {e : CardEntry} {faction : Faction} {slot : Option Slot}
    (hfaction : Registered.word faction = e.toRecord.factionWord)
    (hslot : slot.map Registered.word = e.toRecord.slotWord?) (effects : ByTiming Effect) :
    (e.toRecord.assemble faction slot effects).Shows e := by
  cases e with
  | investigator e =>
    exact .investigator ⟨rfl, rfl, rfl, hfaction, rfl, rfl, rfl, rfl, rfl, rfl, rfl⟩
  | asset e => exact .asset ⟨rfl, rfl, hfaction, rfl, rfl, hslot, rfl, rfl, rfl⟩
  | event e => exact .event ⟨rfl, rfl, hfaction, rfl, rfl⟩
  | ability e => exact .ability ⟨rfl, hfaction, rfl⟩
  | skill e => exact .skill ⟨rfl, hfaction, rfl⟩

/-- **A card shows what is printed.**  If the catalogue of a card file has a card for a kind and
name, then the file has an entry of the kind with the name, and the card shows the first such
entry. -/
theorem Catalogue.card_shows (file : CardFile) (policy : Policy) (kind : CardKind) (name : String)
    (card : Card)
    (h : (Catalogue.ofRecords file.toRecords policy).card kind name = .ok (some card)) :
    (∃ e, FirstEntry (file.ofKind kind) name e) ∧
      ∀ e, FirstEntry (file.ofKind kind) name e → card.Shows e := by
  obtain ⟨r, report, hfind, hbuild, rfl⟩ := Catalogue.card_eq_some_iff.1 h
  obtain ⟨faction, slot, hwords, -, rfl⟩ := CardRecord.exists_of_build_eq_ok hbuild
  obtain ⟨hfaction, hslot⟩ := CardRecord.words_of_eq_ok hwords
  have hfirst (r' : CardRecord) :
      (∃ e, FirstEntry (file.ofKind kind) name e ∧ e.toRecord = r') ↔ r' = r := by
    have hnamed : FirstNamed (file.toRecords.ofKind kind) name r' ↔ some r = some r' := by
      rw [← find?_name_eq_some_iff, ← Index.find?_ofRecords, ← hfind]
      rfl
    rw [← firstNamed_map_iff, ← file.ofKind_toRecords, hnamed, Option.some_inj, eq_comm]
  constructor
  · obtain ⟨e, he, -⟩ := (hfirst r).2 rfl
    exact ⟨e, he⟩
  · intro e he
    obtain rfl := (hfirst _).1 ⟨e, he, rfl⟩
    exact CardEntry.assemble_shows hfaction hslot _

/-- A file with two investigators of one name, and an asset with that name too. -/
def rolands : CardFile where
  investigators :=
    [{ name := "Roland Banks", faction := "guardian", traits := "Agency. Detective."
       subname := "The Fed", willpower := 3, intellect := 2, combat := 4, agility := 1
       health := 9, sanity := 5 },
      { name := "Roland Banks", faction := "survivor", health := 1, sanity := 2 }]
  assets :=
    [{ name := "Roland Banks", faction := "neutral", cost := 3, slot := some "ally"
       uses := some 4, health := some 2, sanity := some 1 }]

/-- The card of the investigator and the card of the asset are those that are printed first. -/
theorem Catalogue.card_shows_rolands :
    ∃ c c' e e', rolands.investigators.head? = some e ∧ rolands.assets.head? = some e' ∧
      (Catalogue.ofRecords rolands.toRecords .strict).card .investigator "Roland Banks" =
        .ok (some (.investigator c)) ∧
      (Catalogue.ofRecords rolands.toRecords .strict).card .asset "Roland Banks" =
        .ok (some (.asset c')) ∧
      Card.Shows (.investigator c) (.investigator e) ∧ Card.Shows (.asset c') (.asset e') := by
  refine ⟨_, _, _, _, rfl, rfl, rfl, rfl, ?_, ?_⟩
  · exact (Catalogue.card_shows rolands .strict .investigator "Roland Banks" _ rfl).2 _
      ⟨[], _, rfl, rfl, by simp⟩
  · exact (Catalogue.card_shows rolands .strict .asset "Roland Banks" _ rfl).2 _
      ⟨[], _, rfl, rfl, by simp⟩

end CardRules
