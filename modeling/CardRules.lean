import CardRules.CardFile.Layout
import CardRules.CardFile.Sections
import CardRules.Catalogue
import CardRules.Effect.Summary
import CardRules.Format.Decode
import CardRules.Json.Writer
import CardRules.Keyword
import CardRules.Layout.Card
import CardRules.Layout.Effect
import CardRules.Layout.Record
import CardRules.Layout.Setup
import CardRules.Load.Directory
import CardRules.Proofs.Card.Filing
import CardRules.Proofs.Card.RoundTrip
import CardRules.Proofs.CardFile.BadEntry
import CardRules.Proofs.CardFile.Edit
import CardRules.Proofs.CardFile.EditFile
import CardRules.Proofs.CardFile.Entries
import CardRules.Proofs.CardFile.Meaning
import CardRules.Proofs.CardFile.Modifiers
import CardRules.Proofs.CardFile.Passive
import CardRules.Proofs.CardFile.RoundTrip
import CardRules.Proofs.CardFile.Sections
import CardRules.Proofs.CardFile.Varies
import CardRules.Proofs.CardFile.WrittenModifier
import CardRules.Proofs.Catalogue.Amount
import CardRules.Proofs.Catalogue.Build
import CardRules.Proofs.Catalogue.Edit
import CardRules.Proofs.Catalogue.FirstFault
import CardRules.Proofs.Catalogue.Index
import CardRules.Proofs.Catalogue.Policies
import CardRules.Proofs.Catalogue.Printed
import CardRules.Proofs.Catalogue.Warnings
import CardRules.Proofs.Catalogue.WellFormed
import CardRules.Proofs.Compile.Accounts
import CardRules.Proofs.Compile.DecisionTable
import CardRules.Proofs.Compile.Faults
import CardRules.Proofs.Effect.FirstUsable
import CardRules.Proofs.Effect.SkillIn
import CardRules.Proofs.Effect.Summary
import CardRules.Proofs.Format.Accepted
import CardRules.Proofs.Format.Order
import CardRules.Proofs.Format.Reaches
import CardRules.Proofs.Format.Record
import CardRules.Proofs.Format.Replace
import CardRules.Proofs.Format.RoundTrip
import CardRules.Proofs.Format.Settled
import CardRules.Proofs.Format.Value
import CardRules.Proofs.Format.Varies
import CardRules.Proofs.Json.Replace
import CardRules.Proofs.Json.Value
import CardRules.Proofs.KeyMap
import CardRules.Proofs.KeyMap.Layers
import CardRules.Proofs.Keyword
import CardRules.Proofs.Layout.Modifier
import CardRules.Proofs.Load.Directory
import CardRules.Proofs.Record.RoundTrip
import CardRules.Proofs.Skill
import CardRules.Proofs.SkillTest
import CardRules.Proofs.SkillTest.Overflow
import CardRules.Proofs.Token.Accounts
import CardRules.Proofs.Token.IdleSteps
import CardRules.Proofs.Token.Replay
import CardRules.Proofs.Token.Run
import CardRules.Proofs.Vocabulary.Register
import CardRules.Random.Basic
import CardRules.Setup
import CardRules.SkillTest
import CardRules.Token.Bag
import CardRules.Token.Script
