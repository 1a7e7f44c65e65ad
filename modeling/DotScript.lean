import DotScript.Bytecode.Chunk
import DotScript.Bytecode.Listing
import DotScript.Bytecode.Opcode
import DotScript.CommandLine.Arguments
import DotScript.CommandLine.Prompt
import DotScript.CommandLine.Response
import DotScript.CommandLine.Run
import DotScript.CommandLine.TestReport
import DotScript.Compile.Builder
import DotScript.Compile.Code
import DotScript.Compile.Unit
import DotScript.Diagnostic.Basic
import DotScript.Diagnostic.Snippet
import DotScript.Files.Path
import DotScript.Files.Tree
import DotScript.Json.Basic
import DotScript.Json.Reader
import DotScript.Json.Writer
import DotScript.Machine.Error
import DotScript.Machine.Exec
import DotScript.Machine.State
import DotScript.Machine.Step
import DotScript.Main
import DotScript.Natives.Call
import DotScript.Natives.Error
import DotScript.Natives.Outside
import DotScript.Natives.Own
import DotScript.Natives.Registry
import DotScript.Natives.Replace
import DotScript.Number.Basic
import DotScript.Number.Rounding
import DotScript.Number.Shortest
import DotScript.Number.Text
import DotScript.Number.Whole
import DotScript.Pattern.Error
import DotScript.Pattern.Node
import DotScript.Pattern.Parser.Class
import DotScript.Pattern.Parser.Cursor
import DotScript.Pattern.Parser.Escape
import DotScript.Pattern.Parser.Group
import DotScript.Pattern.Program
import DotScript.Pattern.Property
import DotScript.Pattern.Search
import DotScript.Pattern.Tree
import DotScript.Proofs.Arrays
import DotScript.Proofs.Bytecode.Listings
import DotScript.Proofs.Compile.ClassFree
import DotScript.Proofs.Compile.Compiled
import DotScript.Proofs.Compile.Emission
import DotScript.Proofs.Compile.Journal
import DotScript.Proofs.Compile.Layout
import DotScript.Proofs.Compile.LoopFree
import DotScript.Proofs.Compile.Occurrence
import DotScript.Proofs.Compile.Offences
import DotScript.Proofs.Compile.Parts
import DotScript.Proofs.Compile.Refusals
import DotScript.Proofs.Compile.Requests
import DotScript.Proofs.Compile.Shape
import DotScript.Proofs.Compile.Stretch
import DotScript.Proofs.Computation
import DotScript.Proofs.Correctness.Activation
import DotScript.Proofs.Correctness.Calls
import DotScript.Proofs.Correctness.Expressions
import DotScript.Proofs.Correctness.Program
import DotScript.Proofs.Correctness.Statements
import DotScript.Proofs.Correspondence.Agreement
import DotScript.Proofs.Correspondence.InStep
import DotScript.Proofs.Correspondence.Instructions
import DotScript.Proofs.Correspondence.Natives
import DotScript.Proofs.Correspondence.Pools
import DotScript.Proofs.Correspondence.Relocation
import DotScript.Proofs.Correspondence.States
import DotScript.Proofs.Correspondence.Steps
import DotScript.Proofs.Correspondence.Units
import DotScript.Proofs.Correspondence.Values
import DotScript.Proofs.Flow.Code
import DotScript.Proofs.Flow.Site
import DotScript.Proofs.Json.Documents
import DotScript.Proofs.Json.Reading
import DotScript.Proofs.Json.RoundTrip
import DotScript.Proofs.Json.Standard
import DotScript.Proofs.Json.Writing
import DotScript.Proofs.Machine.Descent
import DotScript.Proofs.Machine.Effect
import DotScript.Proofs.Machine.History
import DotScript.Proofs.Machine.Instruction
import DotScript.Proofs.Machine.Keys
import DotScript.Proofs.Machine.Level
import DotScript.Proofs.Machine.Loading
import DotScript.Proofs.Machine.Nesting
import DotScript.Proofs.Machine.Preservation
import DotScript.Proofs.Machine.Realm
import DotScript.Proofs.Machine.Runs
import DotScript.Proofs.Machine.Shift
import DotScript.Proofs.Machine.Spawning
import DotScript.Proofs.Machine.Tower
import DotScript.Proofs.Natives.Inert
import DotScript.Proofs.Natives.Keys
import DotScript.Proofs.Number.Equality
import DotScript.Proofs.Number.Integral
import DotScript.Proofs.Number.Literal
import DotScript.Proofs.Parts.Agreement
import DotScript.Proofs.Parts.FirstPart
import DotScript.Proofs.Schedule.Agenda
import DotScript.Proofs.Schedule.Independence
import DotScript.Proofs.Schedule.Joining
import DotScript.Proofs.Schedule.Local
import DotScript.Proofs.Schedule.Settling
import DotScript.Proofs.Semantics.Declared
import DotScript.Proofs.Semantics.Evaluation
import DotScript.Proofs.Semantics.Soundness
import DotScript.Proofs.Session.Calls
import DotScript.Proofs.Session.Compiled
import DotScript.Proofs.Session.Completion
import DotScript.Proofs.Session.Construction
import DotScript.Proofs.Session.Handlers
import DotScript.Proofs.Session.Imports
import DotScript.Proofs.Session.Itself
import DotScript.Proofs.Session.Keys
import DotScript.Proofs.Session.Known
import DotScript.Proofs.Session.Listed
import DotScript.Proofs.Session.Pool
import DotScript.Proofs.Session.Renewal
import DotScript.Proofs.Session.StackLimit
import DotScript.Proofs.Session.Termination
import DotScript.Proofs.Session.Within
import DotScript.Proofs.Syntax.Accounting
import DotScript.Proofs.Syntax.AccountingStatements
import DotScript.Proofs.Syntax.Automaton
import DotScript.Proofs.Syntax.Continuation
import DotScript.Proofs.Syntax.Equations
import DotScript.Proofs.Syntax.Layout
import DotScript.Proofs.Syntax.Lexing
import DotScript.Proofs.Syntax.Lossless
import DotScript.Proofs.Syntax.Nodes
import DotScript.Proofs.Syntax.Plain
import DotScript.Proofs.Syntax.Progress
import DotScript.Proofs.Syntax.ProgressStatements
import DotScript.Proofs.Syntax.Reading
import DotScript.Proofs.Syntax.ReadingStatements
import DotScript.Proofs.Syntax.Recognition
import DotScript.Proofs.Syntax.Rendering
import DotScript.Proofs.Syntax.Rounds
import DotScript.Proofs.Syntax.Spans
import DotScript.Proofs.Syntax.SpansStatements
import DotScript.Proofs.Syntax.Spelling
import DotScript.Proofs.Syntax.Termination
import DotScript.Proofs.Syntax.Words
import DotScript.Proofs.Syntax.Writing
import DotScript.Proofs.Tails.Agreement
import DotScript.Proofs.Tails.Code
import DotScript.Proofs.Tails.Counterparts
import DotScript.Proofs.Tails.Explicit
import DotScript.Proofs.TestFile.Verdicts
import DotScript.Proofs.Text.Lines
import DotScript.Proofs.Text.Positions
import DotScript.Proofs.Values.Equality
import DotScript.Proofs.Values.Keyed
import DotScript.Proofs.Values.MapLiterals
import DotScript.Proofs.Values.Tables
import DotScript.Session.Basic
import DotScript.Session.Settings
import DotScript.Syntax.Lexer
import DotScript.Syntax.Parser.Cursor
import DotScript.Syntax.Parser.Expr
import DotScript.Syntax.Parser.Stmt
import DotScript.Syntax.Token
import DotScript.Syntax.Tree
import DotScript.Table
import DotScript.TestFile.Sections
import DotScript.TestFile.Verdict
import DotScript.Text.Category.Letters
import DotScript.Text.Category.Marking
import DotScript.Text.Category.Marks
import DotScript.Text.Category.Numbers
import DotScript.Text.Category.Others
import DotScript.Text.Character
import DotScript.Text.CodeSet
import DotScript.Text.Folding
import DotScript.Text.Lines
import DotScript.Text.Quoted
import DotScript.Text.Script
import DotScript.Text.Source
import DotScript.Text.Span
import DotScript.Text.Width
import DotScript.Value.Basic
import DotScript.Value.Text
