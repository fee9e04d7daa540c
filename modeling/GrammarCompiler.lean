import GrammarCompiler.Text.CodePointSet
import GrammarCompiler.Text.Blank
import GrammarCompiler.Text.Extender
import GrammarCompiler.Text.Ignorable
import GrammarCompiler.Text.Unprintable
import GrammarCompiler.Text.Escape
import GrammarCompiler.Text.Lines
import GrammarCompiler.Text.Position
import GrammarCompiler.Text.Slot
import GrammarCompiler.Ebnf.Basic
import GrammarCompiler.Ebnf.Canonical
import GrammarCompiler.Ebnf.Printer
import GrammarCompiler.Ebnf.Reader
import GrammarCompiler.Ebnf.Rendering
import GrammarCompiler.Lexeme
import GrammarCompiler.Lexeme.Stream
import GrammarCompiler.Lexeme.Session
import GrammarCompiler.Tree
import GrammarCompiler.Tree.Address
import GrammarCompiler.Tree.Walk
import GrammarCompiler.Tree.Outline
import GrammarCompiler.Grammar.Basic
import GrammarCompiler.Grammar.Check
import GrammarCompiler.Grammar.Printer
import GrammarCompiler.Grammar.WellFormed
import GrammarCompiler.Grammar.LeftCall
import GrammarCompiler.Grammar.Derivation
import GrammarCompiler.Grammar.OfEbnf
import GrammarCompiler.Grammar.Flattening
import GrammarCompiler.Parse.Diagnostic
import GrammarCompiler.Parse.Outcome
import GrammarCompiler.Parse.Descent
import GrammarCompiler.Parse.Calls
import GrammarCompiler.Parse.OrderedChoice
import GrammarCompiler.Generator
import GrammarCompiler.Naja.Category
import GrammarCompiler.Naja.Lexer
import GrammarCompiler.Naja.Segmentation
import GrammarCompiler.Naja.Rules
import GrammarCompiler.Naja.Expression
import GrammarCompiler.Naja.Assembly.Instruction
import GrammarCompiler.Naja.Assembly.Template
import GrammarCompiler.Naja.Assembly.Generators
import GrammarCompiler.Naja.Assembly.Listing
import GrammarCompiler.Naja.Assembly.Machine
import GrammarCompiler.Naja.Assembly.Disassembly
import GrammarCompiler.Naja.Compile
import GrammarCompiler.CommandLine.Path
import GrammarCompiler.CommandLine.FileSystem
import GrammarCompiler.CommandLine.Host
import GrammarCompiler.CommandLine.Arguments
import GrammarCompiler.CommandLine.Spelling
import GrammarCompiler.CommandLine.Run
import GrammarCompiler.Main
import GrammarCompiler.Proofs.Layout
import GrammarCompiler.Proofs.Notation
import GrammarCompiler.Proofs.Printing
import GrammarCompiler.Proofs.Leftover
import GrammarCompiler.Proofs.Reading
import GrammarCompiler.Proofs.Lookahead
import GrammarCompiler.Proofs.Traversal
import GrammarCompiler.Proofs.Outlining
import GrammarCompiler.Proofs.Checking
import GrammarCompiler.Proofs.Definitions
import GrammarCompiler.Proofs.GrammarText
import GrammarCompiler.Proofs.Lowering
import GrammarCompiler.Proofs.Derivation
import GrammarCompiler.Proofs.OrderedChoice
import GrammarCompiler.Proofs.Termination
import GrammarCompiler.Proofs.Simulation
import GrammarCompiler.Proofs.DepthBound
import GrammarCompiler.Proofs.Significance
import GrammarCompiler.Proofs.Invariant
import GrammarCompiler.Proofs.Yield
import GrammarCompiler.Proofs.Configuration
import GrammarCompiler.Proofs.Isolation
import GrammarCompiler.Proofs.Diagnostics
import GrammarCompiler.Proofs.Lexing
import GrammarCompiler.Proofs.Segmentation
import GrammarCompiler.Proofs.Positions
import GrammarCompiler.Proofs.Locations
import GrammarCompiler.Proofs.ConcreteSyntax
import GrammarCompiler.Proofs.PhraseParsing
import GrammarCompiler.Proofs.ContextFree
import GrammarCompiler.Proofs.LeftRecursion
import GrammarCompiler.Proofs.Denotation
import GrammarCompiler.Proofs.SlotFilling
import GrammarCompiler.Proofs.Frame
import GrammarCompiler.Proofs.Generation
import GrammarCompiler.Proofs.Subtrees
import GrammarCompiler.Proofs.Spacing
import GrammarCompiler.Proofs.Execution
import GrammarCompiler.Proofs.Compilation
import GrammarCompiler.Proofs.Arguments
import GrammarCompiler.Proofs.Files
import GrammarCompiler.Proofs.CommandRun
import GrammarCompiler.Proofs.Extensions
import GrammarCompiler.Proofs.DefaultOutput
