import BundleAudit.Baseline
import BundleAudit.Catalog.Basic
import BundleAudit.Catalog.File
import BundleAudit.Catalog.Language
import BundleAudit.Catalog.Rendering
import BundleAudit.Command.Arguments
import BundleAudit.Command.Check
import BundleAudit.Command.Display
import BundleAudit.Command.Program
import BundleAudit.Command.Session
import BundleAudit.Command.Transfer
import BundleAudit.Command.Word
import BundleAudit.Failure
import BundleAudit.FileKind
import BundleAudit.Files.Read
import BundleAudit.Files.Tree
import BundleAudit.Files.Walk
import BundleAudit.Files.Write
import BundleAudit.Finding
import BundleAudit.Json.Basic
import BundleAudit.Json.Reader
import BundleAudit.KeyedList
import BundleAudit.Layer
import BundleAudit.Log
import BundleAudit.Main
import BundleAudit.Manifest
import BundleAudit.Module.Basic
import BundleAudit.Module.Discovery
import BundleAudit.Module.Scan
import BundleAudit.Occurrence
import BundleAudit.Package.Basic
import BundleAudit.Package.Source
import BundleAudit.Package.Translation
import BundleAudit.Path
import BundleAudit.Report.Basic
import BundleAudit.Report.Collection
import BundleAudit.Scan
import BundleAudit.Settings
import BundleAudit.Table.Basic
import BundleAudit.Table.Csv
import BundleAudit.Table.File
import BundleAudit.Text.Basic
import BundleAudit.Text.Blank
import BundleAudit.Text.Decimal
import BundleAudit.Text.Encoding
import BundleAudit.Text.Escape
import BundleAudit.Text.Lines
import BundleAudit.Text.LowerCase
import BundleAudit.Text.Quoted
import BundleAudit.Text.Utf16
import BundleAudit.Text.Utf8
import BundleAudit.Text.Word
import BundleAudit.Token.Basic
import BundleAudit.Token.Indented
import BundleAudit.Token.Java
import BundleAudit.Token.Source
import BundleAudit.Xml.Character
import BundleAudit.Xml.Charset
import BundleAudit.Xml.Content
import BundleAudit.Xml.Definitions
import BundleAudit.Xml.Document
import BundleAudit.Xml.Element
import BundleAudit.Xml.Input
import BundleAudit.Xml.Lexical
import BundleAudit.Xml.Namespace
import BundleAudit.Xml.Subset
import BundleAudit.Proofs.Occurrence.Suppression
import BundleAudit.Proofs.Source.Suppression
import BundleAudit.Proofs.Text.Order
import BundleAudit.Proofs.Catalog.Usage
import BundleAudit.Proofs.Package.Reading
import BundleAudit.Proofs.Package.Classification
import BundleAudit.Proofs.Module.Marking
import BundleAudit.Proofs.Module.Usage
import BundleAudit.Proofs.Report.Collection
import BundleAudit.Proofs.Scan.Completion
import BundleAudit.Proofs.Text.Escape
import BundleAudit.Proofs.Text.Whole
import BundleAudit.Proofs.Text.Lines
import BundleAudit.Proofs.Text.Weight
import BundleAudit.Proofs.Catalog.Reading
import BundleAudit.Proofs.Catalog.Rendering
import BundleAudit.Proofs.Package.Translation
import BundleAudit.Proofs.Package.Copying
import BundleAudit.Proofs.Catalog.Return
import BundleAudit.Proofs.Text.Splitting
import BundleAudit.Proofs.Files.Path
import BundleAudit.Proofs.Files.Walk
import BundleAudit.Proofs.Files.Write
import BundleAudit.Proofs.Table.File
import BundleAudit.Proofs.Catalog.Language
import BundleAudit.Proofs.Module.Files
import BundleAudit.Proofs.Module.Addressing
import BundleAudit.Proofs.Failure
import BundleAudit.Proofs.KeyedList
import BundleAudit.Proofs.Text.Scalar
import BundleAudit.Proofs.Table.Reading
import BundleAudit.Proofs.Files.Refusal
import BundleAudit.Proofs.Files.Sound
import BundleAudit.Proofs.Files.Difference
import BundleAudit.Proofs.Files.Resolution
import BundleAudit.Proofs.Files.Way
import BundleAudit.Proofs.Files.Overwriting
import BundleAudit.Proofs.Files.Replacement
import BundleAudit.Proofs.Module.Packages
import BundleAudit.Proofs.Module.Outcome
import BundleAudit.Proofs.Module.Collection
import BundleAudit.Proofs.Module.Discovery
import BundleAudit.Proofs.Module.Rows
import BundleAudit.Proofs.Module.Generation
import BundleAudit.Proofs.Module.Placement
import BundleAudit.Proofs.Module.Rediscovery
import BundleAudit.Proofs.Module.Recollection
import BundleAudit.Proofs.Module.Regeneration
import BundleAudit.Proofs.Module.Retranslation
import BundleAudit.Proofs.Command.Session
import BundleAudit.Proofs.Command.Import
import BundleAudit.Proofs.Command.Export
import BundleAudit.Proofs.Command.Repetition
import BundleAudit.Proofs.Text.Newlines
import BundleAudit.Proofs.Token.JavaEnds
import BundleAudit.Proofs.Token.JavaCut
import BundleAudit.Proofs.Occurrence.Composition
import BundleAudit.Proofs.Occurrence.Comments
import BundleAudit.Proofs.Source.Unmarking
import BundleAudit.Proofs.Module.Report
import BundleAudit.Proofs.Files.Content
import BundleAudit.Proofs.Module.Layer
import BundleAudit.Proofs.Xml.Charset
import BundleAudit.Proofs.Scan.Layer
import BundleAudit.Proofs.Catalog.Deletion
import BundleAudit.Proofs.Package.Deletion
import BundleAudit.Proofs.Module.Deletion
import BundleAudit.Proofs.Module.UnusedEntry
import BundleAudit.Proofs.Module.Enumeration
import BundleAudit.Proofs.Report.Aggregation
import BundleAudit.Proofs.Module.Platform
import BundleAudit.Proofs.Package.Alike
import BundleAudit.Proofs.Module.Rearrangement
import BundleAudit.Proofs.Package.SecondaryCatalogs
import BundleAudit.Proofs.Module.Findings
import BundleAudit.Proofs.Module.SecondaryFiles
import BundleAudit.Proofs.Module.SecondaryCatalogs
import BundleAudit.Proofs.Place
import BundleAudit.Proofs.Occurrence.Reading
import BundleAudit.Proofs.Catalog.Records
import BundleAudit.Proofs.Json.Writing
import BundleAudit.Proofs.Json.Reading
import BundleAudit.Proofs.Report.Agreement
import BundleAudit.Proofs.Baseline
import BundleAudit.Proofs.Text.Surrogates
import BundleAudit.Proofs.Wording
import BundleAudit.Proofs.Files.Opening
import BundleAudit.Proofs.Token.Literals
import BundleAudit.Proofs.Xml.Values
import BundleAudit.Proofs.Xml.Elements
import BundleAudit.Proofs.Package.Wording
import BundleAudit.Proofs.Module.Wording
import BundleAudit.Proofs.Scan.Wording
import BundleAudit.Proofs.Command.Check
import BundleAudit.Proofs.Token.Tiling
import BundleAudit.Proofs.Token.Spans
import BundleAudit.Proofs.Token.Agreement
import BundleAudit.Proofs.Text.Invertible
import BundleAudit.Proofs.Catalog.Rereading
import BundleAudit.Proofs.Catalog.Composition
import BundleAudit.Proofs.Catalog.Wrapping
import BundleAudit.Proofs.Table.Contents
import BundleAudit.Proofs.Table.Ordering
import BundleAudit.Proofs.Command.Rejection
import BundleAudit.Proofs.Module.TableCatalogs
import BundleAudit.Proofs.Module.ExportedRows
import BundleAudit.Proofs.Files.Lines
import BundleAudit.Proofs.Files.Directories
import BundleAudit.Proofs.Files.Atomicity
import BundleAudit.Proofs.Package.Unreadable
import BundleAudit.Proofs.Module.Requirements
import BundleAudit.Proofs.Package.TranslationName
import BundleAudit.Proofs.Text.Utf16
import BundleAudit.Proofs.Files.Encoding
import BundleAudit.Proofs.Manifest
import BundleAudit.Proofs.Files.Links
import BundleAudit.Proofs.Module.Search
import BundleAudit.Proofs.Xml.Positions
import BundleAudit.Proofs.Layer
import BundleAudit.Proofs.Token.Delimiters
import BundleAudit.Proofs.Text.Decimal
import BundleAudit.Proofs.Acceptance
