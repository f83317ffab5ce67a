import Typeahead.Text.Blank
import Typeahead.Text.Lowercase
import Typeahead.Text.Quoted
import Typeahead.FileName

namespace Typeahead

/-! The languages that can be completed, by name and by file. -/

inductive Language where
  | structurizr
  | kotlin
deriving DecidableEq, Repr

inductive UnknownLanguage where
  | name (given : String)
  | suffix (given : String)
deriving DecidableEq, Repr

namespace Language

def all : List Language := [.structurizr, .kotlin]

def name : Language → String
  | .structurizr => "structurizr"
  | .kotlin => "kotlin"

/-- The suffixes of the language's files. -/
def extensions : Language → List String
  | .structurizr => [".dsl"]
  | .kotlin => [".kt", ".kts"]

/-- The language of a name in any letter case, with blanks around it. -/
def ofName (given : String) : Except UnknownLanguage Language :=
  match all.find? (·.name == Text.lowercase (Text.trim given)) with
  | some language => .ok language
  | none => .error (.name given)

/-- The language of a file, by its suffix. -/
def ofPath (path : String) : Except UnknownLanguage Language :=
  let suffix := Text.lowercase (FileName.suffix path)
  match all.find? (·.extensions.contains suffix) with
  | some language => .ok language
  | none => .error (.suffix suffix)

end Language

namespace UnknownLanguage

def message : UnknownLanguage → String
  | .name given =>
      let known := ", ".intercalate (Language.all.map (·.name))
      s!"Unknown language {Text.quoted given} (known: {known})"
  | .suffix given =>
      let shown := if given = "" then "files without extension" else given
      s!"No language registered for {Text.quoted shown}"

/-- What was looked up. -/
def lookedUp : UnknownLanguage → String
  | .name given => given
  | .suffix given => given

end UnknownLanguage

end Typeahead
