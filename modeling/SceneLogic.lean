import SceneLogic.CommandLine.Help
import SceneLogic.CommandLine.Report
import SceneLogic.CommandLine.Request
import SceneLogic.CommandLine.Response
import SceneLogic.Comparison
import SceneLogic.Event.Basic
import SceneLogic.Event.Codec
import SceneLogic.Event.Editing
import SceneLogic.Event.Instruction
import SceneLogic.Event.Symbol
import SceneLogic.Event.Tree
import SceneLogic.Execution.Builtin
import SceneLogic.Execution.Context
import SceneLogic.Execution.Error
import SceneLogic.Execution.Host
import SceneLogic.Execution.Registry
import SceneLogic.Execution.Run
import SceneLogic.Expression
import SceneLogic.Instance
import SceneLogic.Json.Document
import SceneLogic.Json.Number
import SceneLogic.Json.Parser
import SceneLogic.Json.Printer
import SceneLogic.Json.Record
import SceneLogic.Layout
import SceneLogic.Lookup
import SceneLogic.Main
import SceneLogic.NameMap
import SceneLogic.Number.Binary64
import SceneLogic.Number.Decimal
import SceneLogic.Number.Seconds
import SceneLogic.Objects.Handle
import SceneLogic.Objects.Links
import SceneLogic.Objects.Picking
import SceneLogic.Objects.Store
import SceneLogic.Project.Basic
import SceneLogic.Project.FileTree
import SceneLogic.Project.Manifest
import SceneLogic.Project.Path
import SceneLogic.Scene
import SceneLogic.Text.Digits
import SceneLogic.Text.WhiteSpace
import SceneLogic.Toml.Parser
import SceneLogic.Toml.Scalar
import SceneLogic.Toml.Table
import SceneLogic.Toml.Value
import SceneLogic.Proofs.Event.Uses
import SceneLogic.Proofs.Execution.Contract
import SceneLogic.Proofs.Execution.Builtin
import SceneLogic.Proofs.Execution.StaticCheck
import SceneLogic.Proofs.Event.Lookup
import SceneLogic.Proofs.Event.Plain
import SceneLogic.Proofs.Execution.Presentation
import SceneLogic.Proofs.Objects.LinkPairs
import SceneLogic.Proofs.Objects.LinkRefinement
import SceneLogic.Proofs.Objects.LinkHistory
import SceneLogic.Proofs.Objects.StoreInvariant
import SceneLogic.Proofs.Objects.StoreHistory
import SceneLogic.Proofs.Objects.StoreBalance
import SceneLogic.Proofs.Execution.LiveLinks
import SceneLogic.Proofs.Number.Rounding
import SceneLogic.Proofs.Json.NumberText
import SceneLogic.Proofs.Json.StringText
import SceneLogic.Proofs.Json.RoundTrip
import SceneLogic.Proofs.Json.Canonical
import SceneLogic.Proofs.Json.Depth
import SceneLogic.Proofs.Json.Record
import SceneLogic.Proofs.Event.Codec
import SceneLogic.Proofs.Layout.Text
import SceneLogic.Proofs.Layout.Depth
import SceneLogic.Proofs.Project.Path
import SceneLogic.Proofs.Project.Scenes
import SceneLogic.Proofs.Project.Listing
import SceneLogic.Proofs.Project.Directory
import SceneLogic.Proofs.Project.Saving
import SceneLogic.Proofs.Project.Reloading
import SceneLogic.Proofs.Event.Alike
import SceneLogic.Proofs.Execution.Equations
import SceneLogic.Proofs.Execution.Simulation
import SceneLogic.Proofs.Execution.CallDepth
import SceneLogic.Proofs.Event.Replacement
import SceneLogic.Proofs.Execution.Disabled
import SceneLogic.Proofs.Objects.Issued
import SceneLogic.Proofs.Objects.LinkAgreement
import SceneLogic.Proofs.Execution.Guarded
import SceneLogic.Proofs.Execution.Pruning
import SceneLogic.Proofs.Event.Symbol
import SceneLogic.Proofs.Execution.Recursion
import SceneLogic.Proofs.Json.Fields
import SceneLogic.Proofs.Json.Change
import SceneLogic.Proofs.Json.Denotation
import SceneLogic.Proofs.Event.Reading
import SceneLogic.Proofs.Event.Element
import SceneLogic.Proofs.Event.Attribute
import SceneLogic.Proofs.Event.Lenience
import SceneLogic.Proofs.Project.SceneMap
import SceneLogic.Proofs.Objects.Staleness
import SceneLogic.Proofs.Execution.Isolation
import SceneLogic.Proofs.Event.Paths
import SceneLogic.Proofs.Event.Shadowing
import SceneLogic.Proofs.Execution.Shadowed
import SceneLogic.Proofs.Objects.Picking
import SceneLogic.Proofs.Execution.Machine
import SceneLogic.Proofs.Execution.Nesting
import SceneLogic.Proofs.Execution.Narrowing
import SceneLogic.Proofs.Objects.Distinct
import SceneLogic.Proofs.Execution.PickedOnce
import SceneLogic.Proofs.Execution.Host
import SceneLogic.Proofs.Execution.PlainConditions
import SceneLogic.Proofs.Execution.LinkedPicking
import SceneLogic.Proofs.Objects.LinkSet
import SceneLogic.Proofs.Execution.LinkActions
import SceneLogic.Proofs.Execution.ObjectActions
import SceneLogic.Proofs.Execution.Failure
import SceneLogic.Proofs.Event.Editing
import SceneLogic.Proofs.Layout.Functions
import SceneLogic.Proofs.Project.Order
import SceneLogic.Proofs.Number.Nearest
import SceneLogic.Proofs.Comparison.Integers
import SceneLogic.Proofs.Json.Agreement
import SceneLogic.Proofs.Comparison.Coherence
import SceneLogic.Proofs.Objects.LiveView
import SceneLogic.Proofs.Event.Visitor
