import ManagementSchema.CommandLine
import ManagementSchema.Constraint.Coercion
import ManagementSchema.Constraint.Descriptor
import ManagementSchema.Constraint.Error
import ManagementSchema.Constraint.Info
import ManagementSchema.Constraint.Raw
import ManagementSchema.Constraint.Validation
import ManagementSchema.Dictionary
import ManagementSchema.Error
import ManagementSchema.Json.Number
import ManagementSchema.Json.Reader
import ManagementSchema.Json.Value
import ManagementSchema.Kind
import ManagementSchema.Manifest.Basic
import ManagementSchema.Manifest.Document
import ManagementSchema.Manifest.Reader
import ManagementSchema.Manifest.Report
import ManagementSchema.Manifest.Resolve
import ManagementSchema.Number.Binary
import ManagementSchema.Number.BinaryText
import ManagementSchema.Number.Decimal
import ManagementSchema.Number.Shortest
import ManagementSchema.Number.Whole
import ManagementSchema.ObjectName
import ManagementSchema.OpenType.Basic
import ManagementSchema.OpenType.Build
import ManagementSchema.OpenType.Compare
import ManagementSchema.Text.Blank
import ManagementSchema.Text.Cut
import ManagementSchema.Text.Hidden
import ManagementSchema.Text.Quoted
import ManagementSchema.Time.Calendar
import ManagementSchema.Time.Instant
import ManagementSchema.Time.Text
import ManagementSchema.Value.Basic
import ManagementSchema.Value.Build
import ManagementSchema.Value.Scalar
import ManagementSchema.Value.Table
import ManagementSchema.Yaml.Draft
import ManagementSchema.Yaml.Folding
import ManagementSchema.Yaml.Node
import ManagementSchema.Yaml.Scalar
import ManagementSchema.Yaml.Tag
import ManagementSchema.Yaml.Token
import ManagementSchema.Main
import ManagementSchema.Proofs.BuiltTypes
import ManagementSchema.Proofs.BuiltValues
import ManagementSchema.Proofs.NaturalOrder
import ManagementSchema.Proofs.Coercion
import ManagementSchema.Proofs.Equality
import ManagementSchema.Proofs.ValidationRules
import ManagementSchema.Proofs.Revalidation
import ManagementSchema.Proofs.ExportedDescriptors
import ManagementSchema.Proofs.Acceptance
import ManagementSchema.Proofs.ValueSets
import ManagementSchema.Proofs.DeepConformance
import ManagementSchema.Value.Change
import ManagementSchema.Proofs.TableKeys
import ManagementSchema.Proofs.TableRuns
import ManagementSchema.Proofs.References
import ManagementSchema.Proofs.Resolution
import ManagementSchema.Proofs.Congruence
import ManagementSchema.Proofs.TypeEntries
import ManagementSchema.Proofs.IntegerText
import ManagementSchema.Proofs.IntegerGrammar
import ManagementSchema.Proofs.DecimalGrammar
import ManagementSchema.Proofs.DecimalText
import ManagementSchema.Proofs.DecimalOrder
import ManagementSchema.Proofs.Calendar
import ManagementSchema.Proofs.InstantText
import ManagementSchema.Proofs.ObjectNameText
import ManagementSchema.Proofs.TextualPath
import ManagementSchema.Proofs.EqualTypes
import ManagementSchema.Proofs.RecognizedFields
import ManagementSchema.Proofs.Reports
import ManagementSchema.Proofs.BinaryPatterns
import ManagementSchema.Proofs.DigitRows
import ManagementSchema.Proofs.IntegerLiterals
import ManagementSchema.Proofs.Batches
import ManagementSchema.Proofs.ObjectNameGrammar
import ManagementSchema.Proofs.TotalOrder
import ManagementSchema.Proofs.InsertionOrder
import ManagementSchema.Proofs.LegalValues
import ManagementSchema.Proofs.LegalSets
import ManagementSchema.Proofs.Records
import ManagementSchema.Proofs.BinaryRounding
import ManagementSchema.Proofs.ArrayReferences
import ManagementSchema.Proofs.IntegerKinds
import ManagementSchema.Proofs.Registrations
import ManagementSchema.Proofs.BinaryText
import ManagementSchema.Proofs.ArrayLayers
import ManagementSchema.Proofs.JsonShapes
