import GrpcStubs.Bytes
import GrpcStubs.Client
import GrpcStubs.Client.Skeleton
import GrpcStubs.CommandLine
import GrpcStubs.CrateMap
import GrpcStubs.Descriptor
import GrpcStubs.Descriptor.Index
import GrpcStubs.Descriptor.Resolve
import GrpcStubs.Disk
import GrpcStubs.Disk.Entry
import GrpcStubs.Disk.Fault
import GrpcStubs.Disk.Path
import GrpcStubs.DocComment
import GrpcStubs.Error
import GrpcStubs.Failure
import GrpcStubs.GeneratedFile
import GrpcStubs.Host
import GrpcStubs.Identifier
import GrpcStubs.Main
import GrpcStubs.Options
import GrpcStubs.Parameter
import GrpcStubs.Path
import GrpcStubs.Path.Type
import GrpcStubs.Plugin
import GrpcStubs.Proofs.Answer
import GrpcStubs.Proofs.Binding
import GrpcStubs.Proofs.Blanks
import GrpcStubs.Proofs.Brackets
import GrpcStubs.Proofs.Casing
import GrpcStubs.Proofs.CommentLines
import GrpcStubs.Proofs.CommentText
import GrpcStubs.Proofs.CrateGroups
import GrpcStubs.Proofs.DeclaredNames
import GrpcStubs.Proofs.Dedenting
import GrpcStubs.Proofs.Erasure
import GrpcStubs.Proofs.Flatness
import GrpcStubs.Proofs.Forms
import GrpcStubs.Proofs.GeneratedNames
import GrpcStubs.Proofs.Halves
import GrpcStubs.Proofs.Lines
import GrpcStubs.Proofs.MessageChains
import GrpcStubs.Proofs.ModuleBlocks
import GrpcStubs.Proofs.ModulePath
import GrpcStubs.Proofs.Moving
import GrpcStubs.Proofs.NameChars
import GrpcStubs.Proofs.NameClashes
import GrpcStubs.Proofs.Names
import GrpcStubs.Proofs.Nesting
import GrpcStubs.Proofs.Outcome
import GrpcStubs.Proofs.ParameterMeaning
import GrpcStubs.Proofs.PathGrammar
import GrpcStubs.Proofs.PathReading
import GrpcStubs.Proofs.RegularFiles
import GrpcStubs.Proofs.Reordering
import GrpcStubs.Proofs.Resolution
import GrpcStubs.Proofs.Roots
import GrpcStubs.Proofs.Rows
import GrpcStubs.Proofs.Saving
import GrpcStubs.Proofs.Sequencing
import GrpcStubs.Proofs.Skeleton
import GrpcStubs.Proofs.Substitution
import GrpcStubs.Proofs.TemplateBrackets
import GrpcStubs.Proofs.Trace
import GrpcStubs.Proofs.TypePaths
import GrpcStubs.Proofs.WireContract
import GrpcStubs.Schema
import GrpcStubs.Server
import GrpcStubs.Server.Skeleton
import GrpcStubs.Standalone
import GrpcStubs.Stub
import GrpcStubs.Template.Layout
import GrpcStubs.Template.Placeholder
import GrpcStubs.Template.Printer
import GrpcStubs.Template.Step
import GrpcStubs.Text.Blank
import GrpcStubs.Text.Decimal
import GrpcStubs.Text.Split
import GrpcStubs.Text.Width
import GrpcStubs.Wire.Exchange
import GrpcStubs.Wire.Field
import GrpcStubs.Wire.Schema
import GrpcStubs.Wire.Unused
import GrpcStubs.Wire.Varint
