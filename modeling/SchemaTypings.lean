import SchemaTypings.Files.Tree
import SchemaTypings.Main
import SchemaTypings.Proofs.Markup.Rendering
import SchemaTypings.Proofs.Markup.Spelling
import SchemaTypings.Proofs.Markup.TagReading
import SchemaTypings.Proofs.Schema.Writing
import SchemaTypings.Proofs.Conversion
import SchemaTypings.Proofs.Typings.Noting
import SchemaTypings.Proofs.Typings.Token
import SchemaTypings.Proofs.Typings.Accounting
import SchemaTypings.Proofs.Naming.Literal
import SchemaTypings.Proofs.Naming.Policy
import SchemaTypings.Proofs.Typings.Spelling
import SchemaTypings.Proofs.Typings.Unambiguous
import SchemaTypings.Proofs.ListedValues
import SchemaTypings.Proofs.Typings.References
import SchemaTypings.Proofs.Schema.Independence
import SchemaTypings.Proofs.Markup.Source
import SchemaTypings.Proofs.Markup.SourceConstructs
import SchemaTypings.Proofs.Markup.SourceReading
import SchemaTypings.Proofs.Files.Location
import SchemaTypings.Proofs.Files.Path
import SchemaTypings.Proofs.Files.Machine
import SchemaTypings.Proofs.Files.Folder
import SchemaTypings.Proofs.Files.Creation
import SchemaTypings.Proofs.Batch.Outcomes
import SchemaTypings.Proofs.Batch.Isolation
import SchemaTypings.Proofs.Batch.Alone
import SchemaTypings.Proofs.Markup.Bounded
import SchemaTypings.Proofs.ResourceBounds
import SchemaTypings.Proofs.Markup.Balance
import SchemaTypings.Proofs.Markup.OpenTags
import SchemaTypings.Proofs.WiderLimits
import SchemaTypings.Proofs.Markup.TopLevel
import SchemaTypings.Proofs.Markup.Construction
import SchemaTypings.Proofs.Markup.DocumentOrder
import SchemaTypings.Proofs.Text.Uppercase
import SchemaTypings.Proofs.Typings.Placeholders
import SchemaTypings.Proofs.Typings.Respelling
import SchemaTypings.Proofs.Typings.MemberLine
import SchemaTypings.Proofs.PrefixOrder
import SchemaTypings.Proofs.Schema.Making
import SchemaTypings.Proofs.Markup.Rewriting
import SchemaTypings.Proofs.Typings.Emission
import SchemaTypings.Proofs.Typings.Shadowing
import SchemaTypings.Proofs.Typings.LookupPaths
import SchemaTypings.Proofs.Files.Siblings
import SchemaTypings.Proofs.Command.Agreement
import SchemaTypings.Proofs.Naming.Quoting
import SchemaTypings.Proofs.PrefixPlaces
import SchemaTypings.Proofs.Settings.Layers
