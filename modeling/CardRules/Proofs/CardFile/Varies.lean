import CardRules.Proofs.CardFile.Sections
import CardRules.Proofs.Format.Varies

/-!
# Changes to a card file that make no difference

In the entries of a card file, and in the actions and skills in them, the keys may be permuted,
unknown keys may be added, and defaults may be left out or written out: if the file is accepted at
once, then it is still accepted, at once and entry by entry, and has the same records
(`CardFile.varies_read_alike`).

All defaults of a card file are blank (`CardFile.blankDefaults_format`), so that the changes make no
difference to a file that is read at once.  A file that is accepted at once has the same records if
it is read entry by entry (`CardFile.parse_of_decodeText`), even if a key is repeated where no format
looks.
-/

namespace CardRules

/-! ## Defaults in a card file -/

section

variable {α : Type} {ts : List Type} {f : Format α} {rest : Fields ts}

/-- A field that has to be there has no default. -/
lemma blankDefaults_need (key : String) (hf : f.BlankDefaults) (hrest : rest.BlankDefaults) :
    (Fields.need key f rest).BlankDefaults :=
  ⟨fun _ h => (by cases h), hf, hrest⟩

/-- A field that may be missing has its default only. -/
lemma blankDefaults_opt {key : String} {a : α} (hread : f.ofJson? f.blank = some a)
    (hf : f.BlankDefaults) (hrest : rest.BlankDefaults) :
    (Fields.opt key a f rest).BlankDefaults :=
  ⟨fun _ h => Option.some.inj h ▸ hread, hf, hrest⟩

/-- A nullable field that may be missing is `null`. -/
lemma blankDefaults_maybe (key : String) (hf : f.BlankDefaults) (hrest : rest.BlankDefaults) :
    (Fields.maybe key f rest).BlankDefaults :=
  blankDefaults_opt rfl hf hrest

end

/-- The components of a skill vector are zero by default. -/
lemma Skill.blankDefaults_fields : Skill.fields.BlankDefaults := by
  iterate 5 refine blankDefaults_opt rfl trivial ?_
  trivial

/-- The defaults of an optional skill are blank: there is no location, and its numbers are zero. -/
lemma OptionalEntry.blankDefaults_format : OptionalEntry.format.BlankDefaults :=
  ⟨blankDefaults_maybe _ trivial trivial, Skill.blankDefaults_fields⟩

/-- The defaults of the skills of an action are blank: there is no optional skill, and the numbers
are zero. -/
lemma SkillsEntry.blankDefaults_format : SkillsEntry.format.BlankDefaults :=
  ⟨blankDefaults_maybe _ OptionalEntry.blankDefaults_format trivial, Skill.blankDefaults_fields⟩

/-- The defaults of an action are blank. -/
lemma ActionEntry.blankDefaults_format : ActionEntry.format.BlankDefaults := by
  refine blankDefaults_need _ trivial (blankDefaults_maybe _ trivial ?_)
  refine blankDefaults_opt rfl SkillsEntry.blankDefaults_format (blankDefaults_opt rfl trivial ?_)
  exact blankDefaults_maybe _ trivial trivial

/-- A card has no actions by default. -/
lemma ActionEntry.blankDefaults_listFields : ActionEntry.listFields.BlankDefaults := by
  have hlist : ActionEntry.format.list.BlankDefaults := ActionEntry.blankDefaults_format
  refine blankDefaults_opt rfl hlist (blankDefaults_opt rfl hlist ?_)
  exact ⟨fun _ h => Option.some.inj h ▸ rfl, hlist, blankDefaults_opt rfl hlist trivial⟩

/-- The defaults of an investigator are blank. -/
lemma InvestigatorEntry.blankDefaults_format : InvestigatorEntry.format.BlankDefaults := by
  iterate 2 refine blankDefaults_need _ trivial ?_
  iterate 6 refine blankDefaults_opt rfl trivial ?_
  iterate 2 refine blankDefaults_need _ trivial ?_
  exact blankDefaults_maybe _ ActionEntry.blankDefaults_format trivial

/-- The defaults of an asset are blank. -/
lemma AssetEntry.blankDefaults_format : AssetEntry.format.BlankDefaults := by
  refine ⟨?_, ActionEntry.blankDefaults_listFields⟩
  iterate 2 refine blankDefaults_need _ trivial ?_
  refine blankDefaults_opt rfl trivial (blankDefaults_need _ trivial ?_)
  refine blankDefaults_opt rfl Skill.blankDefaults_fields ?_
  iterate 4 refine blankDefaults_maybe _ trivial ?_
  trivial

/-- The defaults of an event are blank. -/
lemma EventEntry.blankDefaults_format : EventEntry.format.BlankDefaults := by
  refine ⟨?_, ActionEntry.blankDefaults_listFields⟩
  iterate 2 refine blankDefaults_need _ trivial ?_
  refine blankDefaults_opt rfl trivial (blankDefaults_need _ trivial ?_)
  exact blankDefaults_opt rfl Skill.blankDefaults_fields trivial

/-- The defaults of an ability or a skill card are blank. -/
lemma PlainEntry.blankDefaults_format : PlainEntry.format.BlankDefaults := by
  refine ⟨?_, ActionEntry.blankDefaults_listFields⟩
  iterate 2 refine blankDefaults_need _ trivial ?_
  exact blankDefaults_opt rfl Skill.blankDefaults_fields trivial

/-- **All defaults of a card file are blank.** -/
theorem CardFile.blankDefaults_format : CardFile.format.BlankDefaults := by
  refine blankDefaults_opt rfl InvestigatorEntry.blankDefaults_format ?_
  refine blankDefaults_opt rfl AssetEntry.blankDefaults_format ?_
  refine blankDefaults_opt rfl EventEntry.blankDefaults_format ?_
  iterate 2 refine blankDefaults_opt rfl PlainEntry.blankDefaults_format ?_
  trivial

/-! ## Read at once and entry by entry -/

/-- **What is accepted at once is accepted entry by entry**, with the same records. -/
theorem CardFile.parse_of_decodeText {text : String} {j : Json} {file : CardFile}
    (h : (Document.read text).value? = some j) (hfile : CardFile.format.decodeText text = .ok file) :
    Records.parse text = .ok file.toRecords := by
  have hread : CardFile.format.ofJson? j = some file := by
    rw [← toOption_decodeText_eq_ofJson? h, hfile]
    rfl
  have hunambiguous : CardFile.format.Unambiguous j := .inr ⟨rfl, by rw [hread]; rfl⟩
  refine toOption_eq_some_iff.1 ?_
  rw [toOption_parse h hunambiguous, hfile]
  rfl

/-! ## Files that vary -/

/-- A file is accepted at once, or rejected, as it is after the changes, and with the same entries. -/
theorem CardFile.toOption_decodeText_varies {text text' : String} {j j' : Json}
    (hj : (Document.read text).value? = some j) (hj' : (Document.read text').value? = some j')
    (hvaries : CardFile.format.Varies j j') :
    (CardFile.format.decodeText text).toOption = (CardFile.format.decodeText text').toOption := by
  rw [toOption_decodeText_eq_ofJson? hj, toOption_decodeText_eq_ofJson? hj',
    hvaries.ofJson?_eq blankDefaults_format]

/-- **The changes make no difference.**  Of two texts, the second one says the value of the first
one after changes in the card entries and in the objects in them: keys are permuted, unknown keys
are added with any value, defaults are left out or written out.  If the first text is accepted at
once, then so is the second one, with the same entries; and both are accepted entry by entry, with
the same records. -/
theorem CardFile.varies_read_alike {text text' : String} {j j' : Json} {file : CardFile}
    (hj : (Document.read text).value? = some j) (hj' : (Document.read text').value? = some j')
    (hvaries : CardFile.format.Varies j j') (hfile : CardFile.format.decodeText text = .ok file) :
    CardFile.format.decodeText text' = .ok file ∧ Records.parse text = .ok file.toRecords ∧
      Records.parse text' = .ok file.toRecords := by
  have hfile' : CardFile.format.decodeText text' = .ok file := by
    refine toOption_eq_some_iff.1 ?_
    rw [← toOption_decodeText_varies hj hj' hvaries, hfile]
    rfl
  exact ⟨hfile', parse_of_decodeText hj hfile, parse_of_decodeText hj' hfile'⟩

/-- The entry of an action with some skills. -/
def investigation (skills : List (String × Json)) : Json :=
  .ofEntries [("skills", .ofEntries skills), ("action", .text "investigate")]

/-- The entry of an asset that investigates with some skills. -/
def flashlight (skills : List (String × Json)) : List (String × Json) :=
  [("activate", .ofItems [investigation skills]), ("name", .text "Flashlight"),
    ("faction", .text "Neutral"), ("cost", .int 2)]

/-- The entry of the asset with its keys in another order and with defaults, and with a note that
repeats a key. -/
def flashlightNoted : List (String × Json) :=
  ("test_skill", .ofEntries []) :: ("note", .ofEntries [("by", .int 1), ("by", .null)]) ::
    (flashlight [("optional", .null), ("intellect", .int 1)]).reverse

/-- The file of an asset. -/
def assetFile (asset : List (String × Json)) : Json :=
  .ofEntries [("assets", .ofItems [.ofEntries asset])]

/-- The entry is read alike in both forms. -/
theorem CardFile.varies_read_alike_flashlight :
    ∃ file : CardFile,
      CardFile.format.decodeText (Json.render (assetFile flashlightNoted)) = .ok file ∧
      Records.parse (Json.render (assetFile (flashlight [("intellect", .int 1)]))) =
        .ok file.toRecords ∧
      Records.parse (Json.render (assetFile flashlightNoted)) = .ok file.toRecords := by
  have hread (asset : List (String × Json))
      (hasset : asset ∈ [flashlight [("intellect", .int 1)], flashlightNoted]) :
      (Document.read (Json.render (assetFile asset))).value? = some (assetFile asset) := by
    revert asset
    decide +kernel
  have hread₁ := hread _ List.mem_cons_self
  have hread₂ := hread _ (List.mem_cons_of_mem _ List.mem_cons_self)
  -- The changes go from the inside out: first in the skills, then in the entry around them.
  let optional : Field (Option OptionalEntry) :=
    ⟨["optional"], .defaulted none, OptionalEntry.format.nullable⟩
  have hskills : SkillsEntry.format.Varies (.ofEntries [("intellect", .int 1)])
      (.ofEntries [("optional", .null), ("intellect", .int 1)]) :=
    .via (@Format.Varies.written _ _ _ _ optional none _ (.own (.here rfl)) rfl (by decide))
  have haction : ActionEntry.format.Varies (investigation [("intellect", .int 1)])
      (investigation [("optional", .null), ("intellect", .int 1)]) :=
    .via (.field _ (.record (.there rfl (.there rfl (.here rfl)))) hskills)
  let testSkill : Field Skill := ⟨["test_skill"], .defaulted {}, Skill.format⟩
  have hasset : AssetEntry.format.Varies (.ofEntries (flashlight [("intellect", .int 1)]))
      (.ofEntries flashlightNoted) := by
    refine .via (.trans (.field _ (.inner rfl (.here rfl)) (.item [] [] haction)) ?_)
    refine .trans (.permuted .flat (List.reverse_perm _).symm) ?_
    refine .trans (j := .ofEntries flashlightNoted.tail) (.unknown _ _ (.flat rfl rfl)) ?_
    refine @Format.Varies.written _ _ _ _ testSkill _ _ (.own ?_) rfl (by decide)
    exact .there rfl (.there rfl (.there rfl (.there rfl (.here rfl))))
  have hvaries : CardFile.format.Varies (assetFile (flashlight [("intellect", .int 1)]))
      (assetFile flashlightNoted) :=
    .via (.field [] (.record (.there rfl (.here rfl))) (.item [] [] hasset))
  obtain ⟨file, hfile⟩ : ∃ file, CardFile.format.ofJson?
      (assetFile (flashlight [("intellect", .int 1)])) = some file :=
    Option.isSome_iff_exists.1 rfl
  rw [← toOption_decodeText_eq_ofJson? hread₁] at hfile
  exact ⟨file, varies_read_alike hread₁ hread₂ hvaries (toOption_eq_some_iff.1 hfile)⟩

end CardRules
