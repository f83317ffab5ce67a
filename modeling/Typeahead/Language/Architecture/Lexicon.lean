import Typeahead.Lexicon
import Typeahead.Language.CharClass

namespace Typeahead.Language.Architecture

/-! The terminals of architecture descriptions.  Keywords are written in any letter case. -/

open Pattern

/-- The keywords, longer ones first. -/
def keywords : List (String × String) := [
    ("SOFTWARE_SYSTEM_INSTANCE", "softwareSystemInstance"),
    ("DEPLOYMENT_ENVIRONMENT", "deploymentEnvironment"),
    ("INFRASTRUCTURE_NODE", "infrastructureNode"), ("CONTAINER_INSTANCE", "containerInstance"),
    ("SYSTEM_LANDSCAPE", "systemLandscape"), ("DEPLOYMENT_NODE", "deploymentNode"),
    ("SOFTWARE_SYSTEM", "softwareSystem"), ("CONFIGURATION", "configuration"),
    ("SYSTEM_CONTEXT", "systemContext"), ("IDENTIFIERS", "!identifiers"),
    ("PERSPECTIVES", "perspectives"), ("RELATIONSHIP", "relationship"),
    ("DESCRIPTION", "description"), ("AUTOLAYOUT", "autoLayout"), ("DEPLOYMENT", "deployment"),
    ("ENTERPRISE", "enterprise"), ("PROPERTIES", "properties"), ("TECHNOLOGY", "technology"),
    ("ANIMATION", "animation"), ("COMPONENT", "component"), ("CONTAINER", "container"),
    ("WORKSPACE", "workspace"), ("BRANDING", "branding"), ("FILTERED", "filtered"),
    ("DYNAMIC", "dynamic"), ("ELEMENT", "element"), ("EXCLUDE", "exclude"),
    ("EXTENDS", "extends"), ("INCLUDE", "include"), ("PERSON", "person"), ("STYLES", "styles"),
    ("THEMES", "themes"), ("ADRS", "!adrs"), ("DOCS", "!docs"), ("GROUP", "group"),
    ("MODEL", "model"), ("THEME", "theme"), ("TITLE", "title"), ("USERS", "users"),
    ("VIEWS", "views"), ("NAME", "name"), ("TAGS", "tags"), ("URL", "url")]

def keywordPatterns : List (String × Pattern) :=
  keywords.map fun (terminal, text) => (terminal, .caseless text.toList)

def hexDigits (count : Nat) : Pattern := inOrder (List.replicate count (.one isHexDigit))

def hexColor : Pattern :=
  inOrder [literal "#", .either (hexDigits 6) (hexDigits 3), .unless (.one isWordPart)]

def string : Pattern :=
  inOrder [.one (· == '"'),
    .many (.either (.both (.one (· == '\\')) (.one (· != '\n')))
      (.one fun c => !(c == '"' || c == '\\' || isLineEnd c))),
    .maybe (.one (· == '"'))]

def number : Pattern :=
  .both (atLeastOne Char.isDigit) (.maybe (.both (literal ".") (atLeastOne Char.isDigit)))

def lexicalRules : List LexicalRule := [
    { terminal := "HEX_COLOR", pattern := hexColor },
    { terminal := "BLOCK_COMMENT", pattern := .both (literal "/*") (.through ['*', '/']) },
    { terminal := "LINE_COMMENT"
      pattern := .both (.either (literal "//") (literal "#")) (.run fun c => !isLineEnd c) },
    { terminal := "ID"
      pattern := .both (.one isWordStart) (.run isWordPart)
      reserved := keywordPatterns },
    { terminal := "STRING", pattern := string },
    { terminal := "NUMBER", pattern := number },
    { terminal := "WS", pattern := atLeastOne isSpacing }] ++
  keywordPatterns.map (fun (terminal, pattern) => { terminal := terminal, pattern := pattern }) ++ [
    { terminal := "NL", pattern := anyOf [literal "\r\n", literal "\n", literal "\r"] },
    { terminal := "ARROW", pattern := literal "->" },
    { terminal := "LBRACE", pattern := literal "\x7b" },
    { terminal := "RBRACE", pattern := literal "\x7d" },
    { terminal := "EQUALS", pattern := literal "=" },
    { terminal := "WILDCARD", pattern := literal "*" },
    { terminal := "ERROR_CHAR", pattern := .one (· != '\n') }]

def lexicon : Lexicon where
  rules := lexicalRules

end Typeahead.Language.Architecture
