import Typeahead.Grammar.Parsing
import Typeahead.Language.Script.Lexicon
import Typeahead.Language.Script.Rules

namespace Typeahead.Language.Script

/-! The grammar of Kotlin scripts. -/

/-- The token types.  All that come before the first keyword are hidden, punctuation or operators,
and are never suggested. -/
def terminalNames : List String := [
    "DELIMITED_COMMENT", "LINE_COMMENT", "WS", "NL", "ERROR_CHAR", "DOT", "COMMA", "LPAREN",
    "RPAREN", "LSQUARE", "RSQUARE", "LCURL", "RCURL", "MULT", "MOD", "DIV", "ADD", "SUB",
    "INCR", "DECR", "CONJ", "DISJ", "EXCL", "COLON", "SEMICOLON", "ASSIGNMENT",
    "ADD_ASSIGNMENT", "SUB_ASSIGNMENT", "MULT_ASSIGNMENT", "DIV_ASSIGNMENT", "MOD_ASSIGNMENT",
    "ARROW", "RANGE", "SAFE_DOT", "ELVIS", "QUEST", "LANGLE", "RANGLE", "LE", "GE", "EXCL_EQ",
    "EXCL_EQEQ", "EQEQ", "EQEQEQ", "AS_SAFE", "PACKAGE", "IMPORT", "CLASS", "OBJECT", "FUN",
    "VAL", "VAR", "THIS", "IF", "ELSE", "WHEN", "TRY", "CATCH", "FINALLY", "FOR", "DO", "WHILE",
    "THROW", "RETURN", "CONTINUE", "BREAK", "AS", "IS", "IN", "NOT_IS", "NOT_IN",
    "LABEL_REFERENCE", "LABEL_DEFINITION", "REAL", "DOUBLE", "INTEGER", "HEX", "BIN", "LONG",
    "BOOLEAN", "NULL", "CHARACTER", "IDENTIFIER", "QUOTE_OPEN", "TRIPLE_QUOTE_OPEN",
    "QUOTE_CLOSE", "LINE_STR_TEXT", "TRIPLE_QUOTE_CLOSE", "MULTI_LINE_STR_TEXT"]

def vocabulary : Vocabulary := ⟨terminalNames.map some⟩

def comments : List String := ["DELIMITED_COMMENT", "LINE_COMMENT"]

def grammar : Grammar where
  name := "kotlin"
  lexicon := lexicon
  vocabulary := vocabulary
  hidden := comments ++ ["WS", "ERROR_CHAR"]
  comments := comments
  repairs := ["RPAREN", "RSQUARE", "RCURL", "RANGLE", "QUOTE_CLOSE", "TRIPLE_QUOTE_CLOSE",
    "IDENTIFIER", "COLON", "ARROW", "IN"]
  transparent := transparentRules
  automaton := .ofRules (.closed productions startRule)

end Typeahead.Language.Script
