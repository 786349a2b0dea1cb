import ScopeForest.CharSet
import ScopeForest.Declaration.Basic
import ScopeForest.Declaration.Json
import ScopeForest.Failure
import ScopeForest.FlagSet
import ScopeForest.Forest.Basic
import ScopeForest.Forest.Merge
import ScopeForest.Forest.Plan
import ScopeForest.Graph.Basic
import ScopeForest.Graph.Search
import ScopeForest.Id
import ScopeForest.Json.Basic
import ScopeForest.Json.Decode
import ScopeForest.Json.Overlay
import ScopeForest.Json.Printer
import ScopeForest.Json.Reader
import ScopeForest.Kind
import ScopeForest.LogLevel
import ScopeForest.Matcher.Acceptance
import ScopeForest.Matcher.Basic
import ScopeForest.Matcher.Json
import ScopeForest.Matcher.Text
import ScopeForest.NameMap
import ScopeForest.Pattern.Brackets
import ScopeForest.Pattern.Escape
import ScopeForest.Pattern.Property
import ScopeForest.Pattern.Reader
import ScopeForest.Pattern.Regex
import ScopeForest.Pattern.Weight
import ScopeForest.Proofs.Arena
import ScopeForest.Proofs.Entity
import ScopeForest.Proofs.Forest.Acceptance
import ScopeForest.Proofs.Forest.Acyclic
import ScopeForest.Proofs.Forest.Apart
import ScopeForest.Proofs.Forest.Appending
import ScopeForest.Proofs.Forest.Definitions
import ScopeForest.Proofs.Forest.Growth
import ScopeForest.Proofs.Forest.History
import ScopeForest.Proofs.Forest.Idempotence
import ScopeForest.Proofs.Forest.Integrity
import ScopeForest.Proofs.Forest.Keys
import ScopeForest.Proofs.Forest.Merged
import ScopeForest.Proofs.Forest.Merging
import ScopeForest.Proofs.Forest.Nodes
import ScopeForest.Proofs.Forest.Paths
import ScopeForest.Proofs.Forest.Placed
import ScopeForest.Proofs.Forest.Planning
import ScopeForest.Proofs.Forest.Progress
import ScopeForest.Proofs.Forest.Run
import ScopeForest.Proofs.Forest.Seclusion
import ScopeForest.Proofs.Forest.Sessions
import ScopeForest.Proofs.Forest.Sightings
import ScopeForest.Proofs.Forest.Steps
import ScopeForest.Proofs.Forest.Tree
import ScopeForest.Proofs.Forest.Unnamed
import ScopeForest.Proofs.Forest.Views
import ScopeForest.Proofs.Graph.Aliases
import ScopeForest.Proofs.Graph.Ancestors
import ScopeForest.Proofs.Graph.Indexes
import ScopeForest.Proofs.Graph.Integrity
import ScopeForest.Proofs.Graph.Order
import ScopeForest.Proofs.Graph.Search
import ScopeForest.Proofs.Graph.Sight
import ScopeForest.Proofs.Json.RoundTrip
import ScopeForest.Proofs.Matcher.Ancestors
import ScopeForest.Proofs.Matcher.Hint
import ScopeForest.Proofs.Matcher.Qualified
import ScopeForest.Proofs.Matcher.RoundTrip
import ScopeForest.Proofs.Matcher.Total
import ScopeForest.Proofs.Preorder
import ScopeForest.Proofs.Record.RoundTrip
import ScopeForest.Proofs.References
import ScopeForest.Proofs.Scoped
import ScopeForest.Proofs.Text.Bytes
import ScopeForest.Proofs.Text.Segment
import ScopeForest.Proofs.Tour
import ScopeForest.Proofs.Types.Agreement
import ScopeForest.Proofs.Types.Aliases
import ScopeForest.Proofs.Types.Blurring
import ScopeForest.Proofs.Types.Cycles
import ScopeForest.Proofs.Types.Decomposition
import ScopeForest.Proofs.Types.Embedding
import ScopeForest.Proofs.Types.Equality
import ScopeForest.Proofs.Types.Expansion
import ScopeForest.Proofs.Types.Forms
import ScopeForest.Proofs.Types.Heads
import ScopeForest.Proofs.Types.Layers
import ScopeForest.Proofs.Types.Mirror
import ScopeForest.Proofs.Types.Neutral
import ScopeForest.Proofs.Types.Phrases
import ScopeForest.Proofs.Types.Refusals
import ScopeForest.Proofs.Types.Requests
import ScopeForest.Proofs.Types.Sight
import ScopeForest.Proofs.Types.Spelling
import ScopeForest.Proofs.Types.Tangles
import ScopeForest.Proofs.Types.Texts
import ScopeForest.Proofs.Types.Trees
import ScopeForest.Proofs.Types.Unnamed
import ScopeForest.Proofs.Unit.Admission
import ScopeForest.Proofs.Unit.Allocation
import ScopeForest.Proofs.Unit.Bases
import ScopeForest.Proofs.Unit.Binding
import ScopeForest.Proofs.Unit.Building
import ScopeForest.Proofs.Unit.Circles
import ScopeForest.Proofs.Unit.Describing
import ScopeForest.Proofs.Unit.Faithful
import ScopeForest.Proofs.Unit.Inventory
import ScopeForest.Proofs.Unit.Matching
import ScopeForest.Proofs.Unit.Numbering
import ScopeForest.Proofs.Unit.Owning
import ScopeForest.Proofs.Unit.Placing
import ScopeForest.Proofs.Unit.Reading
import ScopeForest.Proofs.Unit.Relabelling
import ScopeForest.Proofs.Unit.Rendering
import ScopeForest.Proofs.Unit.Reordering
import ScopeForest.Proofs.Unit.Resolution
import ScopeForest.Proofs.Unit.Scopes
import ScopeForest.Record.Basic
import ScopeForest.Record.Json
import ScopeForest.Registry
import ScopeForest.Settings.Basic
import ScopeForest.Settings.Environment
import ScopeForest.Settings.Json
import ScopeForest.Settings.Load
import ScopeForest.Store.Basic
import ScopeForest.Store.Equality
import ScopeForest.Store.Layers
import ScopeForest.Store.MergeName
import ScopeForest.Store.Preorder
import ScopeForest.Store.Spelling
import ScopeForest.Store.Strip
import ScopeForest.Text.Blank
import ScopeForest.Text.Decimal
import ScopeForest.Text.Printable
import ScopeForest.Text.Quoted
import ScopeForest.Text.Segment
import ScopeForest.Text.Utf8
import ScopeForest.Toml.Moment
import ScopeForest.Toml.Number
import ScopeForest.Toml.Quoted
import ScopeForest.Toml.Reader
import ScopeForest.Toml.Text
import ScopeForest.Toml.Tree
import ScopeForest.Ty.Basic
import ScopeForest.Ty.Json
import ScopeForest.Unicode.Age
import ScopeForest.Unicode.Category
import ScopeForest.Unicode.Derived
import ScopeForest.Unicode.Folding
import ScopeForest.Unicode.Property
import ScopeForest.Unicode.Script
import ScopeForest.Unicode.ScriptExtensions
import ScopeForest.Unicode.Segmentation
import ScopeForest.Unicode.Table
import ScopeForest.Unit.Acyclic
import ScopeForest.Unit.Declarations
import ScopeForest.Unit.Fields
import ScopeForest.Unit.Resolve
import ScopeForest.Unit.Slots
import ScopeForest.Unit.Types
