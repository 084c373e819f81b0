import RecursiveMatrix.Arguments.Grammar
import RecursiveMatrix.Arguments.Help
import RecursiveMatrix.Arguments.Parser
import RecursiveMatrix.Bits
import RecursiveMatrix.Command.Generate
import RecursiveMatrix.Command.Inspect
import RecursiveMatrix.Command.Program
import RecursiveMatrix.Command.Task
import RecursiveMatrix.Decimal.Literal
import RecursiveMatrix.Decimal.Numeral
import RecursiveMatrix.Decimal.Positional
import RecursiveMatrix.Decimal.Shortest
import RecursiveMatrix.Directory
import RecursiveMatrix.Edge
import RecursiveMatrix.EdgeList.Format
import RecursiveMatrix.EdgeList.Loader
import RecursiveMatrix.EdgeList.Storage
import RecursiveMatrix.Failure
import RecursiveMatrix.Generator
import RecursiveMatrix.Generator.Partitioned
import RecursiveMatrix.Generator.Simple
import RecursiveMatrix.GraphSize
import RecursiveMatrix.Logging
import RecursiveMatrix.Logging.Entry
import RecursiveMatrix.Main
import RecursiveMatrix.Probabilities
import RecursiveMatrix.Proofs.ArgumentOrder
import RecursiveMatrix.Proofs.Components
import RecursiveMatrix.Proofs.Connection
import RecursiveMatrix.Proofs.Descent
import RecursiveMatrix.Proofs.EdgeCounts
import RecursiveMatrix.Proofs.EdgeListGrammar
import RecursiveMatrix.Proofs.EdgeSequence
import RecursiveMatrix.Proofs.FileLines
import RecursiveMatrix.Proofs.GeneratorRecords
import RecursiveMatrix.Proofs.GivenArguments
import RecursiveMatrix.Proofs.Interruptions
import RecursiveMatrix.Proofs.IsolatedVertices
import RecursiveMatrix.Proofs.Isomorphism
import RecursiveMatrix.Proofs.KeystreamValues
import RecursiveMatrix.Proofs.LineOwnership
import RecursiveMatrix.Proofs.LogSetup
import RecursiveMatrix.Proofs.Numerals
import RecursiveMatrix.Proofs.OwnLines
import RecursiveMatrix.Proofs.Periodicity
import RecursiveMatrix.Proofs.ProgramRuns
import RecursiveMatrix.Proofs.QuadrantPaths
import RecursiveMatrix.Proofs.Refusals
import RecursiveMatrix.Proofs.Reports
import RecursiveMatrix.Proofs.Results
import RecursiveMatrix.Proofs.RoundTrip
import RecursiveMatrix.Proofs.SavedFiles
import RecursiveMatrix.Proofs.Schedules
import RecursiveMatrix.Proofs.Shares
import RecursiveMatrix.Proofs.SimpleGraphs
import RecursiveMatrix.Proofs.SourceUse
import RecursiveMatrix.Proofs.SummaryBounds
import RecursiveMatrix.Proofs.SummaryCounts
import RecursiveMatrix.Proofs.SummaryLimits
import RecursiveMatrix.Proofs.UnitFractions
import RecursiveMatrix.Proofs.VertexBounds
import RecursiveMatrix.Proofs.Words
import RecursiveMatrix.Quadrant
import RecursiveMatrix.Random.Keystream
import RecursiveMatrix.Random.Replay
import RecursiveMatrix.Random.Seeded
import RecursiveMatrix.Random.Source
import RecursiveMatrix.Summary
import RecursiveMatrix.Summary.Components
import RecursiveMatrix.Text.Blank
import RecursiveMatrix.Text.Line
import RecursiveMatrix.Text.OsText
import RecursiveMatrix.Text.Quoted
import RecursiveMatrix.Text.Terminal
import RecursiveMatrix.Text.Unmarked
