import Typeahead.Lexicon
import Typeahead.Language.CharClass
import Typeahead.Language.Script.Layout

namespace Typeahead.Language.Script

/-! The terminals of Kotlin scripts. -/

open Pattern

def digits : Pattern := atLeastOne Char.isDigit

def exponent : Pattern :=
  inOrder [.one (fun c => c == 'e' || c == 'E'),
    .maybe (.one fun c => c == '+' || c == '-'), digits]

/-- Digits, a point, digits and perhaps an exponent. -/
def fraction : Pattern := inOrder [digits, literal ".", digits, .maybe exponent]

def hexNumber : Pattern :=
  inOrder [literal "0", .one (fun c => c == 'x' || c == 'X'),
    atLeastOne fun c => isHexDigit c || c == '_']

def binaryNumber : Pattern :=
  inOrder [literal "0", .one (fun c => c == 'b' || c == 'B'),
    atLeastOne fun c => c == '0' || c == '1' || c == '_']

def plainNumber : Pattern := .both (.one Char.isDigit) (.run fun c => c.isDigit || c == '_')

def word : Pattern := .both (.one isWordStart) (.run isWordPart)

/-- The end of a word: no character follows that could go on with it. -/
def wordEnd : Pattern := .unless (.one isWordPart)

/-- The words after which a label is a reference, not a definition. -/
def labelled : Pattern :=
  .both (anyOf [literal "return", literal "break", literal "continue", literal "this"])
    (literal "@")

def character : Pattern :=
  inOrder [literal "'",
    .either escape (.one fun c => !(c == '\'' || c == '\\' || isLineEnd c)),
    literal "'"]

def keywords : List (String × Pattern) :=
  [("PACKAGE", "package"), ("IMPORT", "import"), ("CLASS", "class"), ("OBJECT", "object"),
    ("FUN", "fun"), ("VAL", "val"), ("VAR", "var"), ("THIS", "this"), ("IF", "if"),
    ("ELSE", "else"), ("WHEN", "when"), ("TRY", "try"), ("CATCH", "catch"),
    ("FINALLY", "finally"), ("FOR", "for"), ("DO", "do"), ("WHILE", "while"),
    ("THROW", "throw"), ("RETURN", "return"), ("CONTINUE", "continue"), ("BREAK", "break"),
    ("AS", "as"), ("IS", "is"), ("IN", "in")].map fun (terminal, text) => (terminal, literal text)

def longOperators : List (String × String) := [("EXCL_EQEQ", "!=="), ("EQEQEQ", "===")]

def mediumOperators : List (String × String) :=
  [("INCR", "++"), ("DECR", "--"), ("CONJ", "&&"), ("DISJ", "||"), ("ADD_ASSIGNMENT", "+="),
    ("SUB_ASSIGNMENT", "-="), ("MULT_ASSIGNMENT", "*="), ("DIV_ASSIGNMENT", "/="),
    ("MOD_ASSIGNMENT", "%="), ("ARROW", "->"), ("RANGE", ".."), ("SAFE_DOT", "?."),
    ("ELVIS", "?:"), ("LE", "<="), ("GE", ">="), ("EXCL_EQ", "!="), ("EQEQ", "==")]

def shortOperators : List (String × String) :=
  [("DOT", "."), ("COMMA", ","), ("LPAREN", "("), ("RPAREN", ")"), ("LSQUARE", "["),
    ("RSQUARE", "]"), ("LCURL", "\x7b"), ("RCURL", "\x7d"), ("MULT", "*"), ("MOD", "%"),
    ("DIV", "/"), ("ADD", "+"), ("SUB", "-"), ("EXCL", "!"), ("COLON", ":"),
    ("SEMICOLON", ";"), ("ASSIGNMENT", "="), ("QUEST", "?"), ("LANGLE", "<"), ("RANGLE", ">")]

def operators (texts : List (String × String)) : List LexicalRule :=
  texts.map fun (terminal, text) => { terminal, pattern := literal text }

def lexicalRules : List LexicalRule := [
    { terminal := "REAL"
      pattern := .both (.either fraction digits) (.one fun c => c == 'f' || c == 'F') },
    { terminal := "DOUBLE", pattern := .either fraction (.both digits exponent) },
    { terminal := "LONG"
      pattern := .both (anyOf [hexNumber, binaryNumber, plainNumber]) (literal "L") },
    { terminal := "MULTI_LINE_STRING"
      pattern := .both (.word tripleQuote) (.through tripleQuote) },
    { terminal := "HEX", pattern := hexNumber },
    { terminal := "BIN", pattern := binaryNumber },
    { terminal := "DELIMITED_COMMENT"
      pattern := .both (literal "/*") (.through ['*', '/']) },
    { terminal := "LINE_STRING", pattern := lineString },
    { terminal := "INTEGER", pattern := plainNumber },
    { terminal := "LINE_COMMENT"
      pattern := .both (literal "//") (.run fun c => !isLineEnd c) },
    { terminal := "CHARACTER", pattern := character },
    { terminal := "NOT_IN", pattern := .both (literal "!in") wordEnd },
    { terminal := "NOT_IS", pattern := .both (literal "!is") wordEnd },
    { terminal := "AS_SAFE", pattern := literal "as?" },
    { terminal := "LABEL_DEFINITION"
      pattern := inOrder [.unless labelled, word, literal "@"] },
    { terminal := "BOOLEAN"
      pattern := .both (.either (literal "true") (literal "false")) wordEnd },
    { terminal := "NULL", pattern := .both (literal "null") wordEnd },
    { terminal := "LABEL_REFERENCE", pattern := .both (literal "@") word },
    { terminal := "IDENTIFIER", pattern := word, reserved := keywords },
    { terminal := "WS", pattern := atLeastOne isSpacing }] ++
  operators longOperators ++ [
    { terminal := "NL", pattern := anyOf [literal "\r\n", literal "\n", literal "\r"] }] ++
  operators mediumOperators ++ operators shortOperators ++ [
    { terminal := "ERROR_CHAR", pattern := .one (· != '\n') }]

def lexicon : Lexicon where
  rules := lexicalRules
  layout := layout

end Typeahead.Language.Script
