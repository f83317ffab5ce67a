import Typeahead.Language.Support
import Typeahead.Language.Script.Grammar

namespace Typeahead.Language.Script

/-! Completion of Kotlin scripts: visible variables where a name is read, and keywords. -/

def literals : List String :=
  ["BIN", "BOOLEAN", "CHARACTER", "DOUBLE", "HEX", "INTEGER", "LONG", "NULL", "REAL"]

/-- The types that come before the first keyword. -/
def typesBeforeKeywords : List Int :=
  (terminalNames.takeWhile (· ≠ "PACKAGE")).filterMap vocabulary.type?

def ignored : List Int :=
  typesBeforeKeywords ++
    (literals ++ comments ++ ["QUOTE_OPEN", "QUOTE_CLOSE", "TRIPLE_QUOTE_OPEN", "LABEL_DEFINITION",
      "LABEL_REFERENCE"]).filterMap vocabulary.type?

def declarations : Declarations := [
    ("function_declaration", ⟨.function, some "simple_identifier"⟩),
    ("class_declaration", ⟨.classLike, some "simple_identifier"⟩),
    ("object_declaration", ⟨.classLike, some "simple_identifier"⟩),
    ("block", ⟨.block, none⟩),
    ("lambda_literal", ⟨.block, none⟩),
    ("for_statement", ⟨.block, none⟩),
    ("catch_block", ⟨.block, none⟩),
    ("variable_declaration", ⟨.variable, some "simple_identifier"⟩),
    ("class_parameter", ⟨.variable, some "simple_identifier"⟩),
    ("for_variable", ⟨.variable, some "simple_identifier"⟩),
    ("function_value_parameter", ⟨.parameter, some "simple_identifier"⟩),
    ("lambda_parameter", ⟨.parameter, some "simple_identifier"⟩),
    ("catch_parameter", ⟨.parameter, some "simple_identifier"⟩)]

def support : LanguageSupport where
  language := .kotlin
  grammar := grammar
  renderings := [(.name "IDENTIFIER", none), (.name "NOT_IN", some "!in"),
    (.name "NOT_IS", some "!is")]
  ignored := ignored
  preferred := ["variable_read", "suggest_argument"]
  declarations := declarations
  variableReading := some
    { language := "kotlin", kind := .variable, readingRule := "variable_read" }
  colouring := some "kotlin"

end Typeahead.Language.Script
