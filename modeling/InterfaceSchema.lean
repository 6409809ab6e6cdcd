import InterfaceSchema.Command.Directory
import InterfaceSchema.Main
import InterfaceSchema.Proofs.Schema.Merge
import InterfaceSchema.Proofs.Parser.Grammar
import InterfaceSchema.Proofs.Parser.Reading
import InterfaceSchema.Proofs.Parser.Recognition
import InterfaceSchema.Proofs.Source.Lexeme
import InterfaceSchema.Proofs.Source.Scanning
import InterfaceSchema.Proofs.Schema.Denotation
import InterfaceSchema.Proofs.Parser.Writing
import InterfaceSchema.Proofs.Compilation.Joining
import InterfaceSchema.Proofs.Schema.Lookup
import InterfaceSchema.Proofs.Compilation.Meaning
import InterfaceSchema.Proofs.Schema.Monoid
import InterfaceSchema.Proofs.Schema.Compatible
import InterfaceSchema.Proofs.Compilation.Order
import InterfaceSchema.Proofs.Source.Coverage
import InterfaceSchema.Proofs.Compilation.Names
import InterfaceSchema.Proofs.Package.Layout
import InterfaceSchema.Proofs.Package.Registry
import InterfaceSchema.Proofs.Package.Scoping
import InterfaceSchema.Proofs.Parser.Unambiguous
import InterfaceSchema.Proofs.Schema.Walk
import InterfaceSchema.Proofs.Schema.Conservation
import InterfaceSchema.Proofs.Parser.Reports
import InterfaceSchema.Proofs.Compilation.Conservation
import InterfaceSchema.Proofs.Source.Positions
import InterfaceSchema.Proofs.Package.Dependencies
import InterfaceSchema.Proofs.Compilation.Shape
import InterfaceSchema.Proofs.Json.RoundTrip
import InterfaceSchema.Proofs.Package.Unresolved
import InterfaceSchema.Proofs.Package.Preorder
import InterfaceSchema.Proofs.Package.Outline
import InterfaceSchema.Proofs.Package.Skeleton
import InterfaceSchema.Proofs.Package.Paths
import InterfaceSchema.Proofs.Package.Growth
import InterfaceSchema.Proofs.Compilation.Failures
import InterfaceSchema.Proofs.Schema.Encoding
import InterfaceSchema.Proofs.Parser.Completion
import InterfaceSchema.Proofs.Parser.Nesting
import InterfaceSchema.Proofs.Parser.Viable
import InterfaceSchema.Proofs.Source.Viable
import InterfaceSchema.Proofs.Source.Lockstep
import InterfaceSchema.Proofs.Parser.Unterminated
import InterfaceSchema.Proofs.Compilation.Spelling
import InterfaceSchema.Proofs.Parser.Erasure
import InterfaceSchema.Proofs.Package.Ancestry
import InterfaceSchema.Proofs.Package.Canonical
import InterfaceSchema.Proofs.Parser.Descent
import InterfaceSchema.Proofs.Source.Halting
import InterfaceSchema.Proofs.Text.Words
import InterfaceSchema.Proofs.Parser.Lockstep
import InterfaceSchema.Proofs.Parser.Progress
