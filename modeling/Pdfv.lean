import Pdfv.Basic.Search
import Pdfv.Basic.Slots
import Pdfv.Basic.Bytes
import Pdfv.Basic.Loop
import Pdfv.Basic.OrdMap
import Pdfv.Basic.F64
import Pdfv.Core.Types
import Pdfv.Core.Crates
import Pdfv.Cos.Object
import Pdfv.Parser.Source
import Pdfv.Parser.Tokens
import Pdfv.Parser.Syntax
import Pdfv.Parser.Filters
import Pdfv.Parser.Encryption
import Pdfv.Parser.Stream
import Pdfv.Parser.Document
import Pdfv.Parser.SourceSpec
import Pdfv.Parser.LogSpec
import Pdfv.Parser.EncryptionDetection
import Pdfv.Parser.Threshold
import Pdfv.Parser.StorageSim
import Pdfv.Parser.Unpacking
import Pdfv.Parser.StorageTransparency
import Pdfv.Parser.Reading
import Pdfv.Parser.Revision
import Pdfv.Parser.XrefReading
import Pdfv.Parser.RevisionScan
import Pdfv.Parser.LatestRevision
import Pdfv.Parser.Spelling
import Pdfv.Parser.Printing
import Pdfv.Parser.PrintedObjects
import Pdfv.Parser.RoundTrip
import Pdfv.Basic.Double
import Pdfv.Content.Summary
import Pdfv.Core.Errors
import Pdfv.Profile.Builtin
import Pdfv.Profile.Evaluator
import Pdfv.Basic.Budgets
import Pdfv.Basic.LossyText
import Pdfv.Basic.DepthFirst
import Pdfv.Profile.BoundedEvaluation
import Pdfv.Validation.Objects
import Pdfv.Parser.CompressedDefinitions
import Pdfv.Parser.DecryptionInverse
import Pdfv.Parser.DeepNesting
import Pdfv.Accessibility.Content
import Pdfv.Basic.Walk
import Pdfv.Validation.Accounting
import Pdfv.Report.Writers
import Pdfv.Validation.Allowance
import Pdfv.Validation.Features
import Pdfv.Validation.PolicyVerdicts
import Pdfv.Accessibility.Elements
import Pdfv.Accessibility.Relations
import Pdfv.Xmp.Detection
import Pdfv.Xmp.Values
import Pdfv.Xmp.PacketHeaders
import Pdfv.Xmp.Namespaces
import Pdfv.Profile.ExprPanics
import Pdfv.Profile.ImportedText
import Pdfv.Cli.Redaction
import Pdfv.Report.Reproduction
import Pdfv.Parser.HashLoop
import Pdfv.Parser.ExemptStreams
import Pdfv.Accessibility.TextStrings
import Pdfv.Accessibility.Annotations
import Pdfv.Basic.Preorder
import Pdfv.Accessibility.DocumentOrder
import Pdfv.Accessibility.ReadElements
import Pdfv.Accessibility.ParentTree
import Pdfv.Accessibility.Attribution
import Pdfv.Accessibility.Headings
import Pdfv.Accessibility.TableHeaders
import Pdfv.Accessibility.TableGrid
import Pdfv.Accessibility.TableAnalysis
import Pdfv.Content.Forward
import Pdfv.Content.Operations
import Pdfv.Accessibility.PropertyLists
import Pdfv.Content.Spelling
import Pdfv.Content.Numbers
import Pdfv.Content.PrintedTokens
import Pdfv.Content.PrintRoundTrip
import Pdfv.Content.InlineImages
import Pdfv.Parser.StoredKeys
import Pdfv.Validation.IdentityKeys
import Pdfv.Validation.DeferredHeadings
import Pdfv.Validation.FlavourVerdicts
import Pdfv.Parser.Ascii85
import Pdfv.Parser.Predictors
import Pdfv.Parser.TiffPredictor
import Pdfv.Parser.FilterParams
import Pdfv.Parser.LiteralStrings
import Pdfv.Parser.XrefCompliance
import Pdfv.Parser.StreamPayload
import Pdfv.Parser.LegacyPasswords
import Pdfv.Parser.ObjectStreams
import Pdfv.Parser.LzwEncoding
import Pdfv.Parser.LzwInverse
import Pdfv.Parser.RunLength
import Pdfv.Basic.Stages
import Pdfv.Parser.FilterChains
import Pdfv.Parser.Aes256Passwords
import Pdfv.Basic.Brackets
import Pdfv.Content.Spans
import Pdfv.Content.Effects
import Pdfv.Content.Cuts
import Pdfv.Accessibility.ContentCuts
import Pdfv.Profile.ExactFlavours
import Pdfv.Content.Names
import Pdfv.Profile.ExprLevels
import Pdfv.Profile.ExprOperands
import Pdfv.Profile.ExprPrinting
import Pdfv.Profile.StringReading
import Pdfv.Profile.ExprStrings
import Pdfv.Profile.LambdaTexts
import Pdfv.Profile.LambdaSplitting
import Pdfv.Profile.LambdaChains
import Pdfv.Profile.LambdaReading
import Pdfv.Profile.LambdaMarks
import Pdfv.Profile.LambdaSoundness
import Pdfv.Validation.PageTree
import Pdfv.Validation.NamedLinks
import Pdfv.Validation.NameTrees
import Pdfv.Xmp.InfoDates
import Pdfv.Basic.Interleaving
import Pdfv.Repair.Program
import Pdfv.Repair.Interleavings
import Pdfv.Validation.SchemaChecks
import Pdfv.Basic.Grouping
import Pdfv.Profile.RuleClusters
