import ProtoSchema.Json.Reader
import ProtoSchema.Main
import ProtoSchema.Storage.Disk
import ProtoSchema.Proofs.Results
import ProtoSchema.Proofs.Text.Splitting
import ProtoSchema.Proofs.Text.Trimming
import ProtoSchema.Proofs.Text.Ascii
import ProtoSchema.Proofs.Text.Numerals
import ProtoSchema.Proofs.Comments.Lines
import ProtoSchema.Proofs.Options.Parameter
import ProtoSchema.Proofs.Directives.Tags
import ProtoSchema.Proofs.Directives.LastTag
import ProtoSchema.Proofs.Directives.Spelling
import ProtoSchema.Proofs.Catalog.DottedNames
import ProtoSchema.Proofs.Catalog.FileSet
import ProtoSchema.Proofs.Catalog.Twins
import ProtoSchema.Proofs.Catalog.AbsoluteNames
import ProtoSchema.Proofs.Catalog.Scoping
import ProtoSchema.Proofs.Catalog.Correspondence
import ProtoSchema.Proofs.Catalog.Namespaces
import ProtoSchema.Proofs.Catalog.Numbering
import ProtoSchema.Proofs.Catalog.Hierarchy
import ProtoSchema.Proofs.Catalog.LastFiling
import ProtoSchema.Proofs.Catalog.Qualified
import ProtoSchema.Proofs.Catalog.Extension
import ProtoSchema.Proofs.Expansion.Basic
import ProtoSchema.Proofs.Expansion.Context
import ProtoSchema.Proofs.Expansion.FirstFault
import ProtoSchema.Proofs.Expansion.Cycles
import ProtoSchema.Proofs.Expansion.Steps
import ProtoSchema.Proofs.Expansion.Uncommented
import ProtoSchema.Proofs.Identifier.Words
import ProtoSchema.Proofs.Identifier.Stability
import ProtoSchema.Proofs.Identifier.Gaps
import ProtoSchema.Proofs.Identifier.Spellings
import ProtoSchema.Proofs.Schema.Inlining
import ProtoSchema.Proofs.Schema.Everywhere
import ProtoSchema.Proofs.Schema.Names
import ProtoSchema.Proofs.Schema.Parts
import ProtoSchema.Proofs.Schema.Shape
import ProtoSchema.Proofs.Schema.Rendering
import ProtoSchema.Proofs.Schema.FieldOrder
import ProtoSchema.Proofs.Schema.NumberOrder
import ProtoSchema.Proofs.Schema.Permissions
import ProtoSchema.Proofs.Schema.Annotated
import ProtoSchema.Proofs.Schema.Directed
import ProtoSchema.Proofs.Schema.Independence
import ProtoSchema.Proofs.Schema.Aliases
import ProtoSchema.Proofs.Schema.Faithful
import ProtoSchema.Proofs.Schema.Bounds
import ProtoSchema.Proofs.Schema.Simulation
import ProtoSchema.Proofs.Generation.Documents
import ProtoSchema.Proofs.Generation.Imports
import ProtoSchema.Proofs.Generation.Choices
import ProtoSchema.Proofs.Generation.SharedFiles
import ProtoSchema.Proofs.Generation.Outlines
import ProtoSchema.Proofs.Generation.Faults
import ProtoSchema.Proofs.Generation.Requests
import ProtoSchema.Proofs.Json.Reading
import ProtoSchema.Proofs.Wire.Reading
import ProtoSchema.Proofs.Wire.Appending
import ProtoSchema.Proofs.Loading.JoinedSets
import ProtoSchema.Proofs.Loading.Spots
import ProtoSchema.Proofs.Loading.RoundTrip
import ProtoSchema.Proofs.Loading.ByPath
import ProtoSchema.Proofs.Storage.Places
import ProtoSchema.Proofs.Storage.Listing
import ProtoSchema.Proofs.Storage.Passing
import ProtoSchema.Proofs.Storage.Changes
import ProtoSchema.Proofs.Storage.Joining
import ProtoSchema.Proofs.Generation.OutputNames
import ProtoSchema.Proofs.Program.Arguments
import ProtoSchema.Proofs.Program.Failures
import ProtoSchema.Proofs.Program.Channels
import ProtoSchema.Proofs.Program.Answers
import ProtoSchema.Proofs.Program.Stores
import ProtoSchema.Proofs.Program.Kept
import ProtoSchema.Proofs.Program.Inside
