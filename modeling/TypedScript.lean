import TypedScript.Main
import TypedScript.Proofs.Outcome
import TypedScript.Proofs.Grammar.Run
import TypedScript.Proofs.Grammar.Reading
import TypedScript.Proofs.Grammar.DeclarationReading
import TypedScript.Proofs.Grammar.Nesting
import TypedScript.Proofs.Grammar.Skipping
import TypedScript.Proofs.Grammar.Agreement
import TypedScript.Proofs.Grammar.Entries
import TypedScript.Proofs.Tree.Items
import TypedScript.Proofs.Typing.Checks
import TypedScript.Proofs.Typing.Passes
import TypedScript.Proofs.Grammar.Numbering
import TypedScript.Proofs.Typing.Growth
import TypedScript.Proofs.Program.Phases
import TypedScript.Proofs.Program.Identity
import TypedScript.Proofs.Typing.Rules
import TypedScript.Proofs.Typing.Validity
import TypedScript.Proofs.Token.Words
import TypedScript.Proofs.Grammar.Writing
import TypedScript.Proofs.Grammar.Announcing
import TypedScript.Proofs.Typing.Recording
import TypedScript.Proofs.Program.Provenance
import TypedScript.Proofs.Token.Spelling
import TypedScript.Proofs.Tree.Yield
import TypedScript.Proofs.Tree.Nodes
import TypedScript.Proofs.Grammar.Normality
import TypedScript.Proofs.Grammar.Spans
import TypedScript.Proofs.Grammar.Yielding
import TypedScript.Proofs.Grammar.Printing
import TypedScript.Proofs.Catalog.Paths
import TypedScript.Proofs.Catalog.Contents
import TypedScript.Proofs.Grammar.Entering
import TypedScript.Proofs.Program.Description
import TypedScript.Proofs.Grammar.Claiming
import TypedScript.Proofs.Typing.Knowing
import TypedScript.Proofs.Program.Pieces
import TypedScript.Proofs.Program.Separate
import TypedScript.Proofs.Program.Order
import TypedScript.Proofs.Token.Lexemes
import TypedScript.Proofs.Token.Segments
import TypedScript.Proofs.Token.Respelling
import TypedScript.Proofs.Typing.Sites
import TypedScript.Proofs.Typing.Walks
import TypedScript.Proofs.Program.Naming
import TypedScript.Proofs.Catalog.Assignability
import TypedScript.Proofs.Catalog.Representation
import TypedScript.Proofs.Typing.Faults
import TypedScript.Proofs.Program.Entered
import TypedScript.Proofs.Program.Returning
import TypedScript.Proofs.Typing.Lexical
import TypedScript.Proofs.Program.Scoping
import TypedScript.Proofs.Grammar.Names
import TypedScript.Proofs.Program.SafeNames
import TypedScript.Proofs.Tandem
import TypedScript.Proofs.Tree.Mirrors
import TypedScript.Proofs.Grammar.Twins
import TypedScript.Proofs.Grammar.TwinTrees
import TypedScript.Proofs.Typing.Twins
import TypedScript.Proofs.Typing.TwinPrograms
import TypedScript.Proofs.Program.Mirrors
import TypedScript.Proofs.Program.Layout
import TypedScript.Proofs.Grammar.Interfaces
import TypedScript.Proofs.Typing.Interfaces
import TypedScript.Proofs.Program.Prelude
import TypedScript.Proofs.Program.Pointing
import TypedScript.Proofs.Grammar.Landing
import TypedScript.Proofs.Grammar.Progress
import TypedScript.Proofs.Grammar.Integers
import TypedScript.Proofs.Program.Failures
import TypedScript.Proofs.Typing.Discipline
import TypedScript.Proofs.Typing.Containers
import TypedScript.Proofs.Typing.Bodies
import TypedScript.Proofs.Program.Containers
import TypedScript.Proofs.Grammar.Extents
import TypedScript.Proofs.Grammar.Adjacency
import TypedScript.Proofs.Grammar.TypePaths
import TypedScript.Proofs.Token.Numerals
import TypedScript.Proofs.Tree.MemberText
import TypedScript.Proofs.Grammar.MemberValues
import TypedScript.Proofs.Program.EnumSources
import TypedScript.Proofs.Diagnostic.Caret
import TypedScript.Proofs.Grammar.Brackets
import TypedScript.Proofs.Token.LongestMatch
