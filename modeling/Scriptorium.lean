import Scriptorium.Application
import Scriptorium.Artifact
import Scriptorium.Build.Directives
import Scriptorium.Build.Pipeline
import Scriptorium.Build.Report
import Scriptorium.Build.ScriptBackend
import Scriptorium.Build.Settings
import Scriptorium.Build.Source
import Scriptorium.Bytecode.Chunk
import Scriptorium.Bytecode.Codec
import Scriptorium.Bytecode.Instruction
import Scriptorium.Bytecode.Listing
import Scriptorium.Bytecode.Opcode
import Scriptorium.CommandLine
import Scriptorium.Compile.Code
import Scriptorium.Compile.CompileError
import Scriptorium.Compile.Group
import Scriptorium.Compile.Scope
import Scriptorium.Config
import Scriptorium.Content
import Scriptorium.Decimal.Binary64
import Scriptorium.Decimal.Layout
import Scriptorium.Decimal.Numeral
import Scriptorium.Decimal.Shortest
import Scriptorium.Files.Path
import Scriptorium.Files.Tree
import Scriptorium.Host
import Scriptorium.Json.Number
import Scriptorium.Json.Reader
import Scriptorium.Json.Record
import Scriptorium.Json.Text
import Scriptorium.Json.Tree
import Scriptorium.Log
import Scriptorium.Log.Filter
import Scriptorium.Machine.Fault
import Scriptorium.Machine.Program
import Scriptorium.Machine.Run
import Scriptorium.Machine.Step
import Scriptorium.Main
import Scriptorium.Native
import Scriptorium.Operator
import Scriptorium.Proofs.CallRuns
import Scriptorium.Proofs.CodeShape
import Scriptorium.Proofs.Emission
import Scriptorium.Proofs.Evaluation
import Scriptorium.Proofs.ExpressionRuns
import Scriptorium.Proofs.GroupRuns
import Scriptorium.Proofs.LocalSlots
import Scriptorium.Proofs.MachineRuns
import Scriptorium.Proofs.Safety
import Scriptorium.Proofs.Simulation
import Scriptorium.Proofs.StatementRuns
import Scriptorium.Proofs.UnitRuns
import Scriptorium.Proofs.Visits
import Scriptorium.Script.Environment
import Scriptorium.Script.Lexer
import Scriptorium.Script.ParseError
import Scriptorium.Script.Parser
import Scriptorium.Script.Token
import Scriptorium.Script.Tree
import Scriptorium.ScriptError
import Scriptorium.Text.Blank
import Scriptorium.Text.Inspect
import Scriptorium.Text.Utf8
import Scriptorium.Value
import Scriptorium.Proofs.ChunkContents
import Scriptorium.Proofs.Loading
import Scriptorium.Proofs.BuildLikeness
import Scriptorium.Proofs.GroupSequences
import Scriptorium.Proofs.Nesting
import Scriptorium.Proofs.UnitIsolation
import Scriptorium.Proofs.SymbolTable
import Scriptorium.Proofs.Accounts
import Scriptorium.Proofs.PrintedUnits
import Scriptorium.Proofs.SourcePieces
import Scriptorium.Proofs.DirectiveLines
import Scriptorium.Proofs.WholeNumbers
import Scriptorium.Proofs.BracketTexts
import Scriptorium.Proofs.Tolerance
import Scriptorium.Proofs.NativeCalls
import Scriptorium.Proofs.Contributions
import Scriptorium.Proofs.Composition
import Scriptorium.Proofs.Suppression
import Scriptorium.Proofs.LineTables
import Scriptorium.Proofs.UnexecutedRuns
import Scriptorium.Proofs.CaughtPanics
import Scriptorium.Proofs.ContentJournal
import Scriptorium.Proofs.Reruns
import Scriptorium.Proofs.Scoping
import Scriptorium.Proofs.ScopeChecks
import Scriptorium.Proofs.SymbolErrors
import Scriptorium.Proofs.FaultPlaces
import Scriptorium.Proofs.RunErrors
import Scriptorium.Proofs.TokenLines
import Scriptorium.Proofs.BracketRecovery
import Scriptorium.Proofs.StoredArtifacts
import Scriptorium.Proofs.CallBudget
import Scriptorium.Proofs.NestedActions
import Scriptorium.Proofs.DirectiveGrammar
import Scriptorium.Proofs.FileTrees
import Scriptorium.Proofs.DirectoryListing
import Scriptorium.Proofs.ArtifactNames
import Scriptorium.Proofs.ConfigLines
import Scriptorium.Proofs.InstructionStreams
import Scriptorium.Proofs.OnDemandParsing
import Scriptorium.Proofs.ParserProgress
import Scriptorium.Proofs.ChunkBuilding
