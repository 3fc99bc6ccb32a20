import ObjectModel.Text.CharClass
import ObjectModel.Text.Alphabetic
import ObjectModel.Text.Extending
import ObjectModel.Text.Ignorable
import ObjectModel.Text.Unprintable
import ObjectModel.Text.Quoted
import ObjectModel.Double.Basic
import ObjectModel.Double.Shortest
import ObjectModel.Double.Text
import ObjectModel.Bignum.Basic
import ObjectModel.Bignum.Numeral
import ObjectModel.Bindings
import ObjectModel.Symbol
import ObjectModel.Shape
import ObjectModel.GuardChain
import ObjectModel.Run
import ObjectModel.Value
import ObjectModel.Method
import ObjectModel.Registry.Basic
import ObjectModel.Registry.Ancestors
import ObjectModel.Registry.Name
import ObjectModel.Registry.Define
import ObjectModel.Registry.Operation
import ObjectModel.Foreign.Object
import ObjectModel.Foreign.Script
import ObjectModel.Core.Types
import ObjectModel.Raise
import ObjectModel.Errno
import ObjectModel.Globals
import ObjectModel.Globals.Operation
import ObjectModel.Files.Tree
import ObjectModel.Files.Patches
import ObjectModel.Machine.Options
import ObjectModel.Machine.Lifecycle
import ObjectModel.Machine.Basic
import ObjectModel.Machine.Flags
import ObjectModel.Core.Primitives
import ObjectModel.Send.Outgoing
import ObjectModel.Send.Step
import ObjectModel.Site.Types
import ObjectModel.Site.Lookup
import ObjectModel.Site.Dispatch
import ObjectModel.Scope.Frames
import ObjectModel.Scope.Site
import ObjectModel.Scope.Access
import ObjectModel.Boot.Error
import ObjectModel.Boot.Start
import ObjectModel.Boot.Load
import ObjectModel.Boot.Script
import ObjectModel.CommandLine
import ObjectModel.Main
import ObjectModel.Machine.Diagnostic
import ObjectModel.Proofs.Bindings
import ObjectModel.Proofs.Bignum.Integer
import ObjectModel.Proofs.Bignum.Checked
import ObjectModel.Proofs.Bignum.Composition
import ObjectModel.Proofs.Bignum.Numeral
import ObjectModel.Proofs.Core.Arithmetic
import ObjectModel.Proofs.Registry.WellFormed
import ObjectModel.Proofs.Registry.TypeGraph
import ObjectModel.Proofs.Registry.Chain
import ObjectModel.Proofs.Registry.Epoch
import ObjectModel.Proofs.Registry.AncestorOrder
import ObjectModel.Proofs.Registry.Mixin
import ObjectModel.Proofs.Registry.Refusals
import ObjectModel.Proofs.Registry.NewClass
import ObjectModel.Proofs.Registry.Paths
import ObjectModel.Proofs.Registry.Naming
import ObjectModel.Proofs.Registry.QualifiedNames
import ObjectModel.Proofs.Registry.LexicalParents
import ObjectModel.Proofs.Registry.Singletons
import ObjectModel.Proofs.Registry.SingletonRequest
import ObjectModel.Proofs.Registry.Mirror
import ObjectModel.Proofs.Registry.Descent
import ObjectModel.Proofs.Registry.Inheritance
import ObjectModel.Proofs.Registry.MethodDefinition
import ObjectModel.Proofs.Scope.Change
import ObjectModel.Proofs.Scope.Ownership
import ObjectModel.Proofs.Scope.Nearest
import ObjectModel.Proofs.Scope.Site
import ObjectModel.Proofs.Scope.Isolation
import ObjectModel.Proofs.Site.Chain
import ObjectModel.Proofs.Site.Coherence
import ObjectModel.Proofs.Site.Members
import ObjectModel.Proofs.Site.Run
import ObjectModel.Proofs.Site.Occupancy
import ObjectModel.Proofs.Site.History
import ObjectModel.Proofs.Site.Life
import ObjectModel.Proofs.Site.Types
import ObjectModel.Proofs.Site.Unboxing
import ObjectModel.Proofs.Machine.Globals
import ObjectModel.Proofs.Globals.Entries
import ObjectModel.Proofs.Globals.Sharing
import ObjectModel.Proofs.Files.Paths
import ObjectModel.Proofs.Files.Patches
import ObjectModel.Proofs.Machine.SingletonLookup
import ObjectModel.Proofs.Machine.SingletonMethods
import ObjectModel.Proofs.Boot.Start
import ObjectModel.Proofs.Boot.Tables
import ObjectModel.Proofs.Boot.Record
import ObjectModel.Proofs.Boot.Loader
import ObjectModel.Proofs.Boot.Protocol
import ObjectModel.Proofs.Boot.Flags
import ObjectModel.Proofs.Boot.Configuration
import ObjectModel.Proofs.Boot.ErrnoClasses
import ObjectModel.Proofs.Boot.ErrnoAccount
import ObjectModel.Proofs.Interning
import ObjectModel.Proofs.Registry.Founded
import ObjectModel.Proofs.Registry.Recursions
import ObjectModel.Proofs.Site.Installation
