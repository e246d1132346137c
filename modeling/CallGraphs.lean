import CallGraphs.Analysis.DirectCalls
import CallGraphs.Analysis.Failure
import CallGraphs.Analysis.LifetimeCalls
import CallGraphs.Analysis.Options
import CallGraphs.Analysis.PointerCalls
import CallGraphs.Analysis.Progress
import CallGraphs.Analysis.Scope
import CallGraphs.Analysis.UnitGraph
import CallGraphs.Analysis.VirtualCalls
import CallGraphs.Classes.Dispatch
import CallGraphs.Classes.Hierarchy
import CallGraphs.Classes.Lifetime
import CallGraphs.Classes.Lookup
import CallGraphs.Classes.Order
import CallGraphs.Classes.Table
import CallGraphs.Classes.Unions
import CallGraphs.CommandLine.Arguments
import CallGraphs.CommandLine.Commands
import CallGraphs.CommandLine.Failure
import CallGraphs.CommandLine.Help
import CallGraphs.CommandLine.Invocation
import CallGraphs.CommandLine.Output
import CallGraphs.CommandLine.Program
import CallGraphs.CommandLine.Tables
import CallGraphs.Config.Basic
import CallGraphs.Config.Files
import CallGraphs.Config.Toml.Parser
import CallGraphs.Config.Toml.Quoted
import CallGraphs.Config.Toml.Scalar
import CallGraphs.Config.Toml.Table
import CallGraphs.Data.Counting
import CallGraphs.Data.Double
import CallGraphs.Data.LossyTable
import CallGraphs.Data.Results
import CallGraphs.Data.SortedMap
import CallGraphs.Data.SortedSet
import CallGraphs.Data.Word
import CallGraphs.Data.Worklist
import CallGraphs.Facts.Class
import CallGraphs.Facts.Document
import CallGraphs.Facts.Encoding
import CallGraphs.Facts.Loading
import CallGraphs.Facts.Slot
import CallGraphs.Facts.TranslationUnit
import CallGraphs.Files.Host
import CallGraphs.Files.Path
import CallGraphs.Files.Search
import CallGraphs.Files.Tree
import CallGraphs.Flow.Program
import CallGraphs.Flow.Solve
import CallGraphs.Formats
import CallGraphs.Formats.Dot
import CallGraphs.Formats.Listing
import CallGraphs.Formats.MetaCg
import CallGraphs.Graph.Basic
import CallGraphs.Graph.Diagnostic
import CallGraphs.Graph.Distance
import CallGraphs.Graph.Edge
import CallGraphs.Graph.Encoding
import CallGraphs.Graph.Function
import CallGraphs.Graph.Stats
import CallGraphs.Json.Basic
import CallGraphs.Json.Parser
import CallGraphs.Json.Printer
import CallGraphs.Json.Record
import CallGraphs.Main
import CallGraphs.Merge.Arbitration
import CallGraphs.Merge.Body
import CallGraphs.Merge.Encoding
import CallGraphs.Merge.WholeProgram
import CallGraphs.Pattern.Glob
import CallGraphs.Pattern.Like
import CallGraphs.Pattern.Regex
import CallGraphs.Pattern.Regex.Automaton
import CallGraphs.Pattern.Regex.Bracket
import CallGraphs.Pattern.Regex.Flags
import CallGraphs.Pattern.Regex.Lexeme
import CallGraphs.Pattern.Regex.Parser
import CallGraphs.Pattern.Regex.Property
import CallGraphs.Pattern.Regex.Simple
import CallGraphs.Pattern.Wildcard
import CallGraphs.Store.Basic
import CallGraphs.Store.Encoding
import CallGraphs.Store.Location
import CallGraphs.Store.Query
import CallGraphs.Store.Rows
import CallGraphs.Text.CaseFolding
import CallGraphs.Text.Category
import CallGraphs.Text.Classes
import CallGraphs.Text.Duration
import CallGraphs.Text.Invisible
import CallGraphs.Text.Numerals
import CallGraphs.Text.Properties
import CallGraphs.Text.Quoted
import CallGraphs.Text.Ranges
import CallGraphs.Text.Recent
import CallGraphs.Text.Runs
import CallGraphs.Text.Script
import CallGraphs.Text.Table
import CallGraphs.Text.Utf8
import CallGraphs.Text.Width
import CallGraphs.Vocabulary
import CallGraphs.Proofs.Worklists
import CallGraphs.Proofs.Classes.Inheritance
import CallGraphs.Proofs.Classes.Dispatch
import CallGraphs.Proofs.Flow.Constraints
import CallGraphs.Proofs.Flow.Program
import CallGraphs.Proofs.Flow.Binding
import CallGraphs.Proofs.Flow.Fixpoint
import CallGraphs.Proofs.Graph.Features
import CallGraphs.Proofs.Analysis.Passes
import CallGraphs.Proofs.Analysis.Pointers
import CallGraphs.Proofs.Analysis.Resolution
import CallGraphs.Proofs.Merge.Renumbering
import CallGraphs.Proofs.Merge.Union
import CallGraphs.Proofs.Merge.Completeness
import CallGraphs.Proofs.Classes.Virtuality
import CallGraphs.Proofs.Classes.Growth
import CallGraphs.Proofs.Analysis.Derivation
import CallGraphs.Proofs.Analysis.Growth
import CallGraphs.Proofs.Analysis.Deletion
import CallGraphs.Proofs.Analysis.Arguments
import CallGraphs.Proofs.Analysis.Unresolved
import CallGraphs.Proofs.Merge.Derivation
import CallGraphs.Proofs.Merge.Precision
import CallGraphs.Proofs.Merge.Sites
import CallGraphs.Proofs.Analysis.Marks
import CallGraphs.Proofs.Analysis.Reaching
import CallGraphs.Proofs.Merge.Arbitration
import CallGraphs.Proofs.Merge.Virtuality
import CallGraphs.Proofs.Flow.Rounds
import CallGraphs.Proofs.Flow.Limits
import CallGraphs.Proofs.Flow.Reordering
import CallGraphs.Proofs.Analysis.Reordering
import CallGraphs.Proofs.Analysis.Success
import CallGraphs.Proofs.Graph.Sorting
import CallGraphs.Proofs.Merge.Reordering
import CallGraphs.Proofs.Merge.Losers
import CallGraphs.Proofs.Analysis.Tracking
import CallGraphs.Proofs.Graph.Reachable
import CallGraphs.Proofs.Graph.Building
import CallGraphs.Proofs.Graph.Encoding
import CallGraphs.Proofs.Json.Texts
import CallGraphs.Proofs.Store.Rows
import CallGraphs.Proofs.Store.RoundTrip
import CallGraphs.Proofs.Search
import CallGraphs.Proofs.Distances
import CallGraphs.Proofs.QueueSearch
import CallGraphs.Proofs.Graph.Distances
import CallGraphs.Proofs.Store.Walks
import CallGraphs.Proofs.Json.Records
import CallGraphs.Proofs.Facts.RoundTrip
import CallGraphs.Proofs.Formats.Listing
import CallGraphs.Proofs.Graph.Requests
import CallGraphs.Proofs.Graph.Arena
import CallGraphs.Proofs.Echo
import CallGraphs.Proofs.Classes.Repetition
import CallGraphs.Proofs.Graph.Resemblance
import CallGraphs.Proofs.Analysis.Entries
import CallGraphs.Proofs.Analysis.Repetition
import CallGraphs.Proofs.Merge.Repetition
import CallGraphs.Proofs.Merge.Overrides
import CallGraphs.Proofs.Analysis.Stubs
import CallGraphs.Proofs.Merge.Stubs
import CallGraphs.Proofs.Flow.Runs
import CallGraphs.Proofs.Flow.Histories
import CallGraphs.Proofs.Flow.Arrivals
import CallGraphs.Proofs.Classes.Joining
import CallGraphs.Proofs.Classes.Lifetimes
import CallGraphs.Proofs.Classes.Destructors
import CallGraphs.Proofs.Classes.Building
import CallGraphs.Proofs.Classes.Parts
import CallGraphs.Proofs.Classes.Permutation
import CallGraphs.Proofs.Classes.Mirroring
import CallGraphs.Proofs.Graph.Traversal
import CallGraphs.Proofs.Store.Names
import CallGraphs.Proofs.Text.Delimited
import CallGraphs.Proofs.Merge.Wording
import CallGraphs.Proofs.Merge.Bodies
import CallGraphs.Proofs.Classes.Overloads
import CallGraphs.Proofs.Classes.Nearest
import CallGraphs.Proofs.Classes.Unions
import CallGraphs.Proofs.Analysis.Declarations
import CallGraphs.Proofs.Formats.MetaCg
import CallGraphs.Proofs.Formats.Dot
