import CardRules.Load.Error

/-!
# Records from the text of a card file
-/

namespace CardRules

/-- The records of a card file that is read entry by entry; `step` says what is being done. -/
def Records.ofText (step : LoadStep) (text : String) : Except LoadError Records := do
  let sections ← (Sections.format.decodeText text).mapError (.ofDecode step)
  let file ← sections.decode.mapError (.ofBadEntry step)
  return file.toRecords

/-- The records of a card file in memory. -/
def Records.parse (text : String) : Except LoadError Records :=
  Records.ofText .cardRecords text

end CardRules
