import Typeahead.Language.Support
import Typeahead.Language.Architecture.Grammar

namespace Typeahead.Language.Architecture

/-! Completion of architecture descriptions: keywords only, never identifiers. -/

def declarations : Declarations := [
    ("element", ⟨.element, some "identifier"⟩),
    ("model", ⟨.block, none⟩),
    ("views", ⟨.block, none⟩),
    ("group", ⟨.block, none⟩),
    ("enterprise", ⟨.block, none⟩)]

def support : LanguageSupport where
  language := .structurizr
  grammar := grammar
  renderings := [(.name "ID", none)]
  ignored := ["NL"].filterMap vocabulary.type?
  declarations := declarations

end Typeahead.Language.Architecture
