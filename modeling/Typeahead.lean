import Typeahead.Automaton
import Typeahead.Automaton.Kernel
import Typeahead.Automaton.Lookahead
import Typeahead.Automaton.State
import Typeahead.Candidates
import Typeahead.Caret
import Typeahead.Chart
import Typeahead.CommandLine
import Typeahead.CommandLine.Options
import Typeahead.Completion
import Typeahead.Data.Assignment
import Typeahead.Data.Grouping
import Typeahead.Data.OrderedSet
import Typeahead.Data.Slice
import Typeahead.Display
import Typeahead.Display.Emoji
import Typeahead.Display.EmojiName
import Typeahead.Display.Literal
import Typeahead.Display.Literal.Lexeme
import Typeahead.Display.Markup
import Typeahead.Display.Style
import Typeahead.Fault
import Typeahead.FileName
import Typeahead.Forest
import Typeahead.Grammar
import Typeahead.Grammar.Parsing
import Typeahead.Language
import Typeahead.Language.Architecture
import Typeahead.Language.Architecture.Grammar
import Typeahead.Language.Architecture.Lexicon
import Typeahead.Language.Architecture.Rules
import Typeahead.Language.CharClass
import Typeahead.Language.Script
import Typeahead.Language.Script.Grammar
import Typeahead.Language.Script.Layout
import Typeahead.Language.Script.Lexicon
import Typeahead.Language.Script.Rules
import Typeahead.Language.Support
import Typeahead.Lexicon
import Typeahead.Main
import Typeahead.Matcher
import Typeahead.Note
import Typeahead.ParseTree
import Typeahead.ParseTree.Arena
import Typeahead.Pattern
import Typeahead.Position
import Typeahead.Production
import Typeahead.Prompt
import Typeahead.Proofs.Automaton.Acceptable
import Typeahead.Proofs.Automaton.Feed
import Typeahead.Proofs.Automaton.Lookahead
import Typeahead.Proofs.Automaton.Outlook
import Typeahead.Proofs.Automaton.Row
import Typeahead.Proofs.Automaton.Selecting
import Typeahead.Proofs.Automaton.States
import Typeahead.Proofs.Automaton.Trail
import Typeahead.Proofs.Automaton.ViablePrefix
import Typeahead.Proofs.Candidates.Following
import Typeahead.Proofs.Candidates.Preference
import Typeahead.Proofs.Candidates.Skipping
import Typeahead.Proofs.Candidates.Viability
import Typeahead.Proofs.Candidates.Walk
import Typeahead.Proofs.Chart.Columns
import Typeahead.Proofs.Chart.Correctness
import Typeahead.Proofs.Chart.Items
import Typeahead.Proofs.Derivation
import Typeahead.Proofs.DerivationTree
import Typeahead.Proofs.DottedRule
import Typeahead.Proofs.Forest.Assembly
import Typeahead.Proofs.Forest.Condensing
import Typeahead.Proofs.Forest.Leading
import Typeahead.Proofs.Forest.Outgrowing
import Typeahead.Proofs.Forest.Reduction
import Typeahead.Proofs.Forest.Row
import Typeahead.Proofs.Forest.Trial
import Typeahead.Proofs.Forest.Yield
import Typeahead.Proofs.Language.Agreement
import Typeahead.Proofs.Language.Answering
import Typeahead.Proofs.Language.Comments
import Typeahead.Proofs.Language.Hidden
import Typeahead.Proofs.Language.Layout
import Typeahead.Proofs.Language.Locating
import Typeahead.Proofs.Language.Offsets
import Typeahead.Proofs.Language.Ranges
import Typeahead.Proofs.Language.Recovery
import Typeahead.Proofs.Language.Replacing
import Typeahead.Proofs.Language.Sound
import Typeahead.Proofs.Language.Spelling
import Typeahead.Proofs.Language.Suggestions
import Typeahead.Proofs.Language.Trees
import Typeahead.Proofs.Language.Variables
import Typeahead.Proofs.Matching
import Typeahead.Proofs.Nesting
import Typeahead.Proofs.Nullable
import Typeahead.Proofs.ParseTree.Ancestry
import Typeahead.Proofs.ParseTree.Attachment
import Typeahead.Proofs.ParseTree.Hanging
import Typeahead.Proofs.ParseTree.Locating
import Typeahead.Proofs.ParseTree.Nesting
import Typeahead.Proofs.ParseTree.Outline
import Typeahead.Proofs.ParseTree.Renumbering
import Typeahead.Proofs.ParseTree.Stacked
import Typeahead.Proofs.ParseTree.Stopping
import Typeahead.Proofs.ParseTree.Straddling
import Typeahead.Proofs.Parsing.Advance
import Typeahead.Proofs.Parsing.Agreement
import Typeahead.Proofs.Parsing.Closing
import Typeahead.Proofs.Parsing.Coverage
import Typeahead.Proofs.Parsing.Deriving
import Typeahead.Proofs.Parsing.Disturbance
import Typeahead.Proofs.Parsing.PassedOver
import Typeahead.Proofs.Parsing.Run
import Typeahead.Proofs.Parsing.Standing
import Typeahead.Proofs.Parsing.Tracing
import Typeahead.Proofs.Parsing.Trial
import Typeahead.Proofs.Saturation
import Typeahead.Proofs.Symbol.Declaring
import Typeahead.Proofs.Symbol.Filling
import Typeahead.Proofs.Symbol.Nesting
import Typeahead.Proofs.Symbol.Resolving
import Typeahead.Proofs.Symbol.Scopes
import Typeahead.Proofs.Symbol.Stacked
import Typeahead.Proofs.Tokenizing
import Typeahead.Rendering
import Typeahead.RuleTable
import Typeahead.Symbol
import Typeahead.Symbol.Declaration
import Typeahead.Symbol.Table
import Typeahead.Text.Blank
import Typeahead.Text.CaseTable
import Typeahead.Text.CharRange
import Typeahead.Text.Decimal
import Typeahead.Text.Digit
import Typeahead.Text.Integer
import Typeahead.Text.LineCounter
import Typeahead.Text.Lowercase
import Typeahead.Text.Place
import Typeahead.Text.Printable
import Typeahead.Text.Quoted
import Typeahead.Text.WordChar
import Typeahead.Token
import Typeahead.Token.Stream
import Typeahead.Token.Vocabulary
