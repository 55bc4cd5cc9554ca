import CodeGraph.Text.Subword
import CodeGraph.Text.Encoding
import CodeGraph.Json.Scan
import CodeGraph.Json.Value
import CodeGraph.Json.Shape
import CodeGraph.Json.Write
import CodeGraph.Tree.Kind
import CodeGraph.Graph.Edge
import CodeGraph.Tree.Format
import CodeGraph.Graph.Basic
import CodeGraph.Fault
import CodeGraph.Build.Cursor
import CodeGraph.Build.Linkage
import CodeGraph.Build.Session
import CodeGraph.Build.OfTree
import CodeGraph.Walk.Dot
import CodeGraph.Record.Format
import CodeGraph.Record.OfEvents
import CodeGraph.Config
import CodeGraph.Dataset.Writer
import CodeGraph.Dataset.Session
import CodeGraph.Dataset.VocabularyDump
import CodeGraph.Cli.FileTree
import CodeGraph.Main
import CodeGraph.Proofs.Graph.Shape
import CodeGraph.Proofs.Build.Moves
import CodeGraph.Proofs.Build.Place
import CodeGraph.Proofs.Build.Links
import CodeGraph.Proofs.Build.Run
import CodeGraph.Proofs.Build.Sites
import CodeGraph.Proofs.Walk.Numbers
import CodeGraph.Proofs.Record.Collect
import CodeGraph.Proofs.Record.Positions
import CodeGraph.Proofs.Record.OfGraph
import CodeGraph.Proofs.Build.Outline
import CodeGraph.Proofs.Build.Drive
import CodeGraph.Proofs.Record.Edges
import CodeGraph.Proofs.Record.WellTyped
import CodeGraph.Proofs.Tree.Rows
import CodeGraph.Proofs.Build.Script
import CodeGraph.Proofs.Build.Faithful
import CodeGraph.Proofs.Tree.Address
import CodeGraph.Proofs.Tree.Met
import CodeGraph.Proofs.Build.Levels
import CodeGraph.Proofs.Build.Members
import CodeGraph.Proofs.Build.Order
import CodeGraph.Proofs.Build.Checked
import CodeGraph.Proofs.Build.Arena
import CodeGraph.Proofs.Build.Returns
import CodeGraph.Proofs.Walk.Reading
import CodeGraph.Proofs.Walk.Announced
import CodeGraph.Proofs.Graph.Label
import CodeGraph.Proofs.Walk.Determined
import CodeGraph.Proofs.Walk.Lossless
import CodeGraph.Proofs.Graph.Ancestry
import CodeGraph.Proofs.Build.Assigned
import CodeGraph.Proofs.Build.Stray
import CodeGraph.Proofs.Walk.Arrows
import CodeGraph.Proofs.Record.Drawn
import CodeGraph.Proofs.Walk.ReadBack
import CodeGraph.Proofs.Build.Shortened
import CodeGraph.Proofs.Record.Composed
import CodeGraph.Proofs.Random.Pick
import CodeGraph.Proofs.Dataset.Mutants
import CodeGraph.Proofs.Dataset.ErrorLocation
import CodeGraph.Proofs.Build.Continuation
import CodeGraph.Proofs.Record.Stable
import CodeGraph.Proofs.Json.Written
import CodeGraph.Proofs.Json.Brackets
import CodeGraph.Proofs.Tree.ReadBack
import CodeGraph.Proofs.Json.OneLine
import CodeGraph.Proofs.Dataset.Unbounded
import CodeGraph.Proofs.Dataset.Lines
import CodeGraph.Proofs.Dataset.Cut
import CodeGraph.Proofs.Build.Uses
import CodeGraph.Proofs.Build.Symbols
import CodeGraph.Proofs.Build.Captured
import CodeGraph.Proofs.Tree.Entered
import CodeGraph.Proofs.Build.Faults
import CodeGraph.Proofs.Build.Offenders
import CodeGraph.Proofs.Build.PassedOver
import CodeGraph.Proofs.Build.Outcome
import CodeGraph.Proofs.Build.Invoked
import CodeGraph.Proofs.Dataset.Flipped
import CodeGraph.Proofs.Dataset.Threaded
import CodeGraph.Proofs.Dataset.Raised
import CodeGraph.Proofs.Text.Segmentation
import CodeGraph.Proofs.Build.Ascents
import CodeGraph.Proofs.Dataset.Dump
import CodeGraph.Proofs.Dataset.DumpReadBack
import CodeGraph.Proofs.Cli.Grammar
