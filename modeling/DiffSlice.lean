import DiffSlice.Cli.Arguments
import DiffSlice.Cli.Command
import DiffSlice.Cli.Run
import DiffSlice.Cli.Task
import DiffSlice.Failure
import DiffSlice.FileLayout
import DiffSlice.Insertion.Indent
import DiffSlice.Insertion.Point
import DiffSlice.Insertion.Splice
import DiffSlice.JavaScript.Cursor
import DiffSlice.JavaScript.Derivation
import DiffSlice.JavaScript.Grammar
import DiffSlice.JavaScript.Lexeme
import DiffSlice.JavaScript.Parser
import DiffSlice.JavaScript.Phrase
import DiffSlice.JavaScript.Production
import DiffSlice.JavaScript.Program
import DiffSlice.JavaScript.Reading
import DiffSlice.JavaScript.Repair
import DiffSlice.JavaScript.Rule
import DiffSlice.JavaScript.Scanner
import DiffSlice.JavaScript.Semicolon
import DiffSlice.JavaScript.Stack
import DiffSlice.JavaScript.State
import DiffSlice.JavaScript.Table
import DiffSlice.JavaScript.Token
import DiffSlice.Json.Options
import DiffSlice.Json.Printer
import DiffSlice.Json.Reader
import DiffSlice.Json.Results
import DiffSlice.Json.Value
import DiffSlice.Main
import DiffSlice.Patch.Compaction
import DiffSlice.Patch.Edit
import DiffSlice.Patch.FileSection
import DiffSlice.Patch.Header
import DiffSlice.Patch.Hunk
import DiffSlice.Patch.Script
import DiffSlice.Patch.Search
import DiffSlice.Patch.Unified
import DiffSlice.Scope.ChangeSet
import DiffSlice.Scope.LineMap
import DiffSlice.Scope.Path
import DiffSlice.Slice.Basic
import DiffSlice.Slice.BlankRuns
import DiffSlice.Slice.Decorator
import DiffSlice.Slice.File
import DiffSlice.Slice.Render
import DiffSlice.Suite.Case
import DiffSlice.Suite.Description
import DiffSlice.Suite.Report
import DiffSlice.Text.Blank
import DiffSlice.Text.Digit
import DiffSlice.Text.Lines
import DiffSlice.Text.Quoted
import DiffSlice.Text.Range
import DiffSlice.Text.Replace
import DiffSlice.Text.Shown
import DiffSlice.Text.Word
import DiffSlice.Tree.Language
import DiffSlice.Tree.Node
import DiffSlice.Proofs.ScriptSearch
import DiffSlice.Proofs.TextLines
import DiffSlice.Proofs.ScriptCompaction
import DiffSlice.Proofs.BlockLayout
import DiffSlice.Proofs.DiffText
import DiffSlice.Proofs.EditAgreement
import DiffSlice.Proofs.RoundTrip
import DiffSlice.Proofs.ScopeRecord
import DiffSlice.Proofs.TouchedCode
import DiffSlice.Proofs.StandardDiff
import DiffSlice.Proofs.EditRecovery
import DiffSlice.Proofs.BlankLines
import DiffSlice.Proofs.RunReplacement
import DiffSlice.Proofs.StrayDecorators
import DiffSlice.Proofs.Reslicing
import DiffSlice.Proofs.AnnotatedLines
import DiffSlice.Proofs.RenderedSlices
import DiffSlice.Proofs.FileSections
import DiffSlice.Proofs.SplicedText
import DiffSlice.Proofs.CommandFiles
import DiffSlice.Proofs.LexicalScopes
import DiffSlice.Proofs.SliceContent
import DiffSlice.Proofs.RangeReplacement
import DiffSlice.Proofs.PlacedLists
import DiffSlice.Proofs.EditPlaces
import DiffSlice.Proofs.CaseMaps
import DiffSlice.Proofs.SuiteNames
import DiffSlice.Proofs.ChangedCases
import DiffSlice.Proofs.BaseIndentation
import DiffSlice.Proofs.ChangeSetUnion
import DiffSlice.Proofs.MemberMaps
import DiffSlice.Proofs.PureInsertion
import DiffSlice.Proofs.SourceOrder
import DiffSlice.Proofs.StackLayout
import DiffSlice.Proofs.VersionLayout
import DiffSlice.Proofs.ReadingLayout
import DiffSlice.Proofs.NodeRows
import DiffSlice.Proofs.InsertionRows
import DiffSlice.Proofs.FileOutcomes
import DiffSlice.Proofs.BlankRuns
import DiffSlice.Proofs.DecoratorPlaces
import DiffSlice.Proofs.CounterRange
import DiffSlice.Proofs.Outlines
import DiffSlice.Proofs.WrittenScopes
import DiffSlice.Proofs.LosslessSections
import DiffSlice.Proofs.BlankCollapse
import DiffSlice.Proofs.DescriptionWords
