import Typeahead.Grammar.Parsing
import Typeahead.Language.Architecture.Lexicon
import Typeahead.Language.Architecture.Rules

namespace Typeahead.Language.Architecture

/-! The grammar of architecture descriptions. -/

def terminalNames : List String := [
    "WS", "LINE_COMMENT", "BLOCK_COMMENT", "ERROR_CHAR", "NL", "LBRACE", "RBRACE", "EQUALS",
    "ARROW", "WILDCARD", "WORKSPACE", "EXTENDS", "NAME", "DESCRIPTION", "PROPERTIES",
    "IDENTIFIERS", "DOCS", "ADRS", "MODEL", "ENTERPRISE", "GROUP", "PERSON", "SOFTWARE_SYSTEM",
    "CONTAINER", "COMPONENT", "DEPLOYMENT_ENVIRONMENT", "DEPLOYMENT_NODE",
    "INFRASTRUCTURE_NODE", "SOFTWARE_SYSTEM_INSTANCE", "CONTAINER_INSTANCE", "TAGS", "URL",
    "TECHNOLOGY", "PERSPECTIVES", "VIEWS", "SYSTEM_LANDSCAPE", "SYSTEM_CONTEXT", "DYNAMIC",
    "DEPLOYMENT", "FILTERED", "INCLUDE", "EXCLUDE", "AUTOLAYOUT", "TITLE", "ANIMATION",
    "STYLES", "ELEMENT", "RELATIONSHIP", "THEME", "THEMES", "BRANDING", "CONFIGURATION",
    "USERS", "HEX_COLOR", "NUMBER", "STRING", "ID"]

def vocabulary : Vocabulary := ⟨terminalNames.map some⟩

def comments : List String := ["LINE_COMMENT", "BLOCK_COMMENT"]

def grammar : Grammar where
  name := "structurizr"
  lexicon := lexicon
  vocabulary := vocabulary
  hidden := ["WS", "LINE_COMMENT", "BLOCK_COMMENT", "ERROR_CHAR"]
  comments := comments
  repairs := ["RBRACE", "LBRACE", "ID", "STRING"]
  automaton := .ofRules (.closed productions startRule)

end Typeahead.Language.Architecture
