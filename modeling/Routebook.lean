import Routebook.Assoc
import Routebook.Compile
import Routebook.Entity.Fields
import Routebook.Entity.Kind
import Routebook.Entity.Leaf
import Routebook.Entity.Scope
import Routebook.Error
import Routebook.Expansion.Command
import Routebook.Expansion.Context
import Routebook.Expansion.Include
import Routebook.Expansion.Inclusions
import Routebook.Expansion.Schema
import Routebook.Expansion.Walk
import Routebook.Files.Basic
import Routebook.Files.Tree
import Routebook.Fragment.Apply
import Routebook.Fragment.Placeholder
import Routebook.Fragment.Registry
import Routebook.Json
import Routebook.Keyword
import Routebook.Number.Basic
import Routebook.Number.Binary64
import Routebook.Number.Decimal
import Routebook.Number.Layout
import Routebook.Number.Shortest
import Routebook.Options
import Routebook.Path.Basic
import Routebook.Path.Location
import Routebook.Route.Basic
import Routebook.Route.Build
import Routebook.Route.Document
import Routebook.Route.Level
import Routebook.Route.Printer
import Routebook.Route.Visit
import Routebook.Text.Replace
import Routebook.Text.Segments
import Routebook.Yaml.Equality
import Routebook.Yaml.Fault
import Routebook.Yaml.Line
import Routebook.Yaml.Mapping
import Routebook.Yaml.Merge
import Routebook.Yaml.Node.Anchors
import Routebook.Yaml.Node.Basic
import Routebook.Yaml.Node.Document
import Routebook.Yaml.Node.Grammar
import Routebook.Yaml.Read
import Routebook.Yaml.Resolve
import Routebook.Yaml.Scalar
import Routebook.Yaml.Token.Basic
import Routebook.Yaml.Token.Block
import Routebook.Yaml.Token.Fold
import Routebook.Yaml.Token.Lexer
import Routebook.Yaml.Token.Plain
import Routebook.Yaml.Token.Property
import Routebook.Yaml.Token.Quoted
import Routebook.Yaml.Value
import Routebook.Proofs.Outcome
import Routebook.Proofs.Fragment.OwnFields
import Routebook.Proofs.Path.Canonical
import Routebook.Proofs.Expansion.Parallel
import Routebook.Proofs.Expansion.Course
import Routebook.Proofs.Expansion.Session
import Routebook.Proofs.Expansion.Bookkeeping
import Routebook.Proofs.Expansion.History
import Routebook.Proofs.Expansion.Recursion
import Routebook.Proofs.Expansion.Nesting
import Routebook.Proofs.Fragment.Parts
import Routebook.Proofs.Expansion.Material
import Routebook.Proofs.Expansion.Plain
import Routebook.Proofs.Path.Parent
import Routebook.Proofs.Yaml.SingleEntry
import Routebook.Proofs.Expansion.Apart
import Routebook.Proofs.Expansion.InPlace
import Routebook.Proofs.Route.Places
import Routebook.Proofs.Compile.Names
import Routebook.Proofs.Route.Positions
import Routebook.Proofs.Route.Inheritance
import Routebook.Proofs.Route.WellFormed
import Routebook.Proofs.Compile.RootFile
import Routebook.Proofs.Compile.PlainData
import Routebook.Proofs.Expansion.Provider
import Routebook.Proofs.Expansion.Lockstep
import Routebook.Proofs.Expansion.FreshSchemas
import Routebook.Proofs.Expansion.UnusedTrait
import Routebook.Proofs.Route.Subtree
import Routebook.Proofs.Expansion.Arrival
import Routebook.Proofs.Compile.Inclusion
import Routebook.Proofs.Fragment.Presence
import Routebook.Proofs.Fragment.Union
import Routebook.Proofs.Route.Declared
import Routebook.Proofs.Entity.Alike
import Routebook.Proofs.Route.Alike
import Routebook.Proofs.Route.NullFields
import Routebook.Proofs.Fragment.Field
import Routebook.Proofs.Fragment.Variables
import Routebook.Proofs.Fragment.Repeated
import Routebook.Proofs.Interchange
import Routebook.Proofs.Fragment.Reordered
import Routebook.Proofs.Text.Replaced
import Routebook.Proofs.Fragment.Slot
import Routebook.Proofs.Fragment.Walk
import Routebook.Proofs.Fragment.LocalUpdate
import Routebook.Proofs.Fragment.EmptySegment
import Routebook.Proofs.Path.Resolve
import Routebook.Proofs.Entity.TestExample
import Routebook.Proofs.Route.Rearranged
import Routebook.Proofs.Json.Keys
import Routebook.Proofs.Json.Routes
