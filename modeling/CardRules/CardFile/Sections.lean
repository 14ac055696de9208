import CardRules.CardFile.Layout
import CardRules.Format.Decode

/-!
# Card files entry by entry

A card file can be read in two steps: first its sections, with every entry as it stands, and then
entry after entry.  A bad entry is then reported by the kind, number and name of its card.
-/

namespace CardRules

/-- The sections of a card file, their entries not yet decoded. -/
structure Sections where
  investigators : List Json := []
  assets : List Json := []
  events : List Json := []
  abilities : List Json := []
  skills : List Json := []

/-- The format of undecoded sections. -/
def Sections.format : Format Sections :=
  .via
    (.record "CardSections" <|
      .opt "investigators" [] (.list .anything) <| .opt "assets" [] (.list .anything) <|
      .opt "events" [] (.list .anything) <| .opt "habilities" [] (.list .anything) <|
      .opt "skills" [] (.list .anything) .nil)
    (fun (investigators, assets, events, abilities, skills, ()) =>
      { investigators, assets, events, abilities, skills })
    (fun s => (s.investigators, s.assets, s.events, s.abilities, s.skills, ()))
    fun _ => rfl

/-- An entry that does not decode: the kind of its section, its number there, its name and what is
wrong with it. -/
structure BadEntry where
  kind : CardKind
  index : Nat
  name : String
  error : DecodeError Empty

/-- The name of an entry, as far as it has one. -/
def entryName (entry : Json) : String :=
  match entry.get? "name" with
  | some (.text s) => s
  | _ => "<unnamed>"

/-- Decodes the entries of a section, the first of which has number `index`. -/
def decodeFrom {α : Type} (kind : CardKind) (f : Format α) :
    (index : Nat) → List Json → Except BadEntry (List α)
  | _, [] => .ok []
  | index, entry :: rest =>
    match f.decode .value entry with
    | .error e => .error ⟨kind, index, entryName entry, e⟩
    | .ok a => (a :: ·) <$> decodeFrom kind f (index + 1) rest

/-- Decodes the entries of a section. -/
def decodeSection {α : Type} (kind : CardKind) (f : Format α) (entries : List Json) :
    Except BadEntry (List α) :=
  decodeFrom kind f 0 entries

/-- Decodes all sections, one after the other. -/
def Sections.decode (s : Sections) : Except BadEntry CardFile := do
  let investigators ← decodeSection .investigator InvestigatorEntry.format s.investigators
  let assets ← decodeSection .asset AssetEntry.format s.assets
  let events ← decodeSection .event EventEntry.format s.events
  let abilities ← decodeSection .ability PlainEntry.format s.abilities
  let skills ← decodeSection .skill PlainEntry.format s.skills
  return { investigators, assets, events, abilities, skills }

end CardRules
