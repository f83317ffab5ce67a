import Typeahead.CommandLine.Options
import Typeahead.Prompt
import Typeahead.Text.Integer

namespace Typeahead.CommandLine

/-! The command line: words for a caret in a file, or a prompt with completion. -/

structure SuggestCommand where
  file : String
  caret : Caret
  /-- The name of the language; the file's suffix tells it otherwise. -/
  language : Option String
  fuzzy : Bool
  verbose : Bool
deriving DecidableEq, Repr

inductive Command where
  | help
  | suggest (command : SuggestCommand)
  | prompt (language : String)
deriving DecidableEq, Repr

inductive UsageError where
  | noCommand
  | unknownCommand (name : String)
  | option (error : OptionError)
  | missing (name : String)
  | badNumber (long text : String)
  | tooSmall (long : String)
  | unexpected (argument : String)
  | unreadable (file : String)
  | language (error : UnknownLanguage)
deriving DecidableEq, Repr

def OptionError.message : OptionError → String
  | .unknown option => s!"No such option: {option}"
  | .valueMissing option => s!"Option {option} requires an argument."
  | .valueUnwanted option => s!"Option {option} does not take a value."

def UsageError.message : UsageError → String
  | .noCommand => "Missing command."
  | .unknownCommand name => s!"No such command: {name}"
  | .option error => error.message
  | .missing name => s!"Missing {name}."
  | .badNumber long text => s!"Option {long}: {Text.quoted text} is not a whole number."
  | .tooSmall long => s!"Option {long}: the number is too small."
  | .unexpected argument => s!"Got unexpected argument {Text.quoted argument}."
  | .unreadable file => s!"Cannot read {file}"
  | .language error => error.message

instance : MonadLift (Except OptionError) (Except UsageError) := ⟨Except.mapError .option⟩

def helpSpec : OptionSpec := { long := "--help", takesValue := false }

def promptSpecs : List OptionSpec := [
    { long := "--language", takesValue := true },
    { long := "--fuzzy", takesValue := false },
    { long := "--verbose", short := some 'v', takesValue := false },
    helpSpec]

def suggestSpecs : List OptionSpec := [
    { long := "--line", short := some 'l', takesValue := true },
    { long := "--column", short := some 'c', takesValue := true }] ++ promptSpecs

/-- The number that an option gives, which must not be below `least`. -/
def numberOption (given : List Given) (long : String) (least : Nat) : Except UsageError Nat :=
  match Given.value? given long with
  | none => .error (.missing long)
  | some text =>
      match Text.wholeNumber text with
      | .error _ => .error (.badNumber long text)
      | .ok value => if value < least then .error (.tooSmall long) else .ok value.toNat

/-- The one argument that names a file. -/
def fileArgument (given : List Given) : Except UsageError String :=
  match Given.arguments given with
  | [] => .error (.missing "FILE")
  | [file] => .ok file
  | _ :: argument :: _ => .error (.unexpected argument)

def readSuggest (args : List String) : Except UsageError Command := do
  let given ← read suggestSpecs args
  if Given.hasFlag given "--help" then
    return .help
  let line ← numberOption given "--line" 1
  let column ← numberOption given "--column" 0
  return .suggest
    { file := ← fileArgument given
      caret := ⟨line, column⟩
      language := Given.value? given "--language"
      fuzzy := Given.hasFlag given "--fuzzy"
      verbose := Given.hasFlag given "--verbose" }

def readPrompt (args : List String) : Except UsageError Command := do
  let given ← read promptSpecs args
  if Given.hasFlag given "--help" then
    return .help
  match Given.arguments given with
  | [] => return .prompt ((Given.value? given "--language").getD Language.kotlin.name)
  | argument :: _ => throw (.unexpected argument)

/-- Options in front of a command's name: whether help is asked for, and the arguments from the name
on.  Two dashes may stand in front of the name. -/
def readLeadingOptions : List String → Except OptionError (Bool × List String)
  | [] => .ok (false, [])
  | text :: rest =>
      if text = "--" then .ok (false, rest)
      else if isOption text then do
        let _ ← readOption [helpSpec] rest text
        let (_, rest) ← readLeadingOptions rest
        return (true, rest)
      else .ok (false, text :: rest)

/-- Reads a command.  A name that no command has is read once more as an option, which after two
dashes it may be, in case that it asks for help. -/
def readCommand (args : List String) : Except UsageError Command := do
  let (help, named) ← readLeadingOptions args
  if help then
    return .help
  match named with
  | [] => throw .noCommand
  | name :: rest =>
      if name = "suggest" then readSuggest rest
      else if name = "repl" then readPrompt rest
      else
        let (help, _) ← readLeadingOptions named
        if help then return .help else throw (.unknownCommand name)

/-- A text with every kind of line end written as a line feed. -/
def unifyLineEnds : List Char → List Char
  | [] => []
  | '\r' :: '\n' :: rest => '\n' :: unifyLineEnds rest
  | '\r' :: rest => '\n' :: unifyLineEnds rest
  | c :: rest => c :: unifyLineEnds rest

/-- What a command comes to. -/
inductive Result where
  | help
  | misused (error : UsageError)
  /-- The suggestions, of which there may be none, with the notes that were asked for. -/
  | suggested (completion : Completion)
  /-- The file is not UTF-8 text. -/
  | undecodable
  | failed (fault : Fault)
  | transcript (text : String)
  /-- What was typed at the prompt cannot be shown. -/
  | unshown (error : Display.MarkupError)

def Result.exitCode : Result → Nat
  | .help | .transcript _ => 0
  | .suggested completion => if completion.suggestions.isEmpty then 1 else 0
  | .undecodable | .failed _ | .unshown _ => 1
  | .misused _ => 2

/-- The language that a name gives, or the file's if there is no name. -/
def languageFor (name : Option String) (file : String) : Except UnknownLanguage Language :=
  match name with
  | some name => if name = "" then Language.ofPath file else Language.ofName name
  | none => Language.ofPath file

/-- The suggestions in a text. -/
def SuggestCommand.runOn (command : SuggestCommand) (language : Language) (text : String) :
    Result :=
  let engine : Engine :=
    { language, matcher := if command.fuzzy then Matcher.fuzzy else Matcher.startsWith }
  match engine.suggest (.ofList (unifyLineEnds text.toList)) command.caret with
  | .error fault => .failed fault
  | .ok completion =>
      .suggested { completion with notes := if command.verbose then completion.notes else [] }

/-- The suggestions in a file, given what it holds if it can be read. -/
def SuggestCommand.run (command : SuggestCommand) (contents : Option ByteArray) : Result :=
  match contents with
  | none => .misused (.unreadable command.file)
  | some bytes =>
      match String.fromUTF8? bytes with
      | none => .undecodable
      | some text =>
          match languageFor command.language command.file with
          | .error error => .misused (.language error)
          | .ok language => command.runOn language text

def runPrompt (language keys : String) : Result :=
  match Language.ofName language with
  | .error error => .misused (.language error)
  | .ok _ =>
      match (Session.type keys).transcript with
      | .ok text => .transcript text
      | .error error => .unshown error

/-- Runs a command, given what files hold and which keys are typed at the prompt. -/
def run (contents : String → Option ByteArray) (keys : String) (args : List String) : Result :=
  match readCommand args with
  | .error error => .misused error
  | .ok .help => .help
  | .ok (.suggest command) => command.run (contents command.file)
  | .ok (.prompt language) => runPrompt language keys

end Typeahead.CommandLine
