import SourceRecovery.Address
import SourceRecovery.Archive.Bzip2
import SourceRecovery.Archive.Checksum
import SourceRecovery.Archive.Content
import SourceRecovery.Archive.Directory
import SourceRecovery.Archive.Error
import SourceRecovery.Archive.Inflate
import SourceRecovery.Archive.Lzma
import SourceRecovery.Archive.Packed
import SourceRecovery.Catalog.Basic
import SourceRecovery.Catalog.Error
import SourceRecovery.CommandLine.Options
import SourceRecovery.CommandLine.Run
import SourceRecovery.Console.Box
import SourceRecovery.Console.Figures
import SourceRecovery.Console.Output
import SourceRecovery.Console.Palette
import SourceRecovery.Console.Stream
import SourceRecovery.Decompiler.Basic
import SourceRecovery.Decompiler.External
import SourceRecovery.Fault
import SourceRecovery.Files.Operations
import SourceRecovery.Files.Path
import SourceRecovery.Files.Tree
import SourceRecovery.Files.Walk
import SourceRecovery.Identity
import SourceRecovery.Image.Constant
import SourceRecovery.Image.Error
import SourceRecovery.Image.Frame
import SourceRecovery.Image.Metadata
import SourceRecovery.Image.Rows
import SourceRecovery.Image.Schema
import SourceRecovery.Image.Tables
import SourceRecovery.Image.View
import SourceRecovery.Image.Word
import SourceRecovery.Json.Basic
import SourceRecovery.Json.Reader
import SourceRecovery.Main
import SourceRecovery.Number.Binary64
import SourceRecovery.Number.Decimal
import SourceRecovery.Number.Numeral
import SourceRecovery.Project
import SourceRecovery.Proofs.Action
import SourceRecovery.Proofs.Archive
import SourceRecovery.Proofs.Bar
import SourceRecovery.Proofs.Boxes
import SourceRecovery.Proofs.Catalog.Loading
import SourceRecovery.Proofs.Catalog.Naming
import SourceRecovery.Proofs.Catalog.Reporting
import SourceRecovery.Proofs.CommandLine.Recovery
import SourceRecovery.Proofs.CommandLine.Run
import SourceRecovery.Proofs.Console
import SourceRecovery.Proofs.Console.Share
import SourceRecovery.Proofs.Decompiler.Contract
import SourceRecovery.Proofs.Decompiler.Course
import SourceRecovery.Proofs.Decompiler.External
import SourceRecovery.Proofs.Decompiler.Faults
import SourceRecovery.Proofs.Decompiler.Gate
import SourceRecovery.Proofs.Decompiler.Log
import SourceRecovery.Proofs.Decompiler.Output
import SourceRecovery.Proofs.Decompiler.Overwriting
import SourceRecovery.Proofs.Decompiler.Progress
import SourceRecovery.Proofs.Decompiler.ProjectFile
import SourceRecovery.Proofs.Decompiler.Protection
import SourceRecovery.Proofs.Decompiler.Starts
import SourceRecovery.Proofs.Failing
import SourceRecovery.Proofs.Figures
import SourceRecovery.Proofs.Files.Absolute
import SourceRecovery.Proofs.Files.Directories
import SourceRecovery.Proofs.Files.Operations
import SourceRecovery.Proofs.Files.Path
import SourceRecovery.Proofs.Files.Tree
import SourceRecovery.Proofs.Files.Walk
import SourceRecovery.Proofs.Identity
import SourceRecovery.Proofs.Image.Classification
import SourceRecovery.Proofs.Image.Constant
import SourceRecovery.Proofs.Json.Grammar
import SourceRecovery.Proofs.Json.Reading
import SourceRecovery.Proofs.Number.Numeral
import SourceRecovery.Proofs.Project
import SourceRecovery.Proofs.References
import SourceRecovery.Proofs.References.Confinement
import SourceRecovery.Proofs.References.Contents
import SourceRecovery.Proofs.References.Repetition
import SourceRecovery.Proofs.References.Resolution
import SourceRecovery.Proofs.Resolver
import SourceRecovery.Proofs.Resolver.Directories
import SourceRecovery.Proofs.Resolver.Search
import SourceRecovery.Proofs.Server.Download
import SourceRecovery.Proofs.Server.Extraction
import SourceRecovery.Proofs.Server.Faults
import SourceRecovery.Proofs.Server.Gathering
import SourceRecovery.Proofs.Server.Recovery
import SourceRecovery.Proofs.Server.Repetition
import SourceRecovery.Proofs.Server.Selection
import SourceRecovery.Proofs.Server.Staging
import SourceRecovery.Proofs.Sources
import SourceRecovery.Proofs.Sources.Discovery
import SourceRecovery.Proofs.Starts
import SourceRecovery.Proofs.Template.Overreach
import SourceRecovery.References
import SourceRecovery.Resolver
import SourceRecovery.Server.Archive
import SourceRecovery.Server.Image
import SourceRecovery.Server.Recovery
import SourceRecovery.Server.Selection
import SourceRecovery.Sources
import SourceRecovery.Template.Expansion
import SourceRecovery.Template.Flaw
import SourceRecovery.Template.FormatSpec
import SourceRecovery.Template.Markup
import SourceRecovery.Template.Rendering
import SourceRecovery.Template.Value
import SourceRecovery.Text.Blank
import SourceRecovery.Text.Digit
import SourceRecovery.Text.Line
import SourceRecovery.Text.Printable
import SourceRecovery.Text.Quoted
import SourceRecovery.Text.Replace
import SourceRecovery.Text.Surrogate
import SourceRecovery.Text.Utf8
import SourceRecovery.World
