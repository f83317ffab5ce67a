import Typeahead.CommandLine

namespace Typeahead.CommandLine

/-! The program: reads files and keys, and prints what a command comes to. -/

def usage : String :=
  "usage: typeahead suggest FILE --line L --column C [--language NAME] [--fuzzy] [--verbose]\n" ++
  "       typeahead repl [--language NAME] [--fuzzy] [--verbose]"

/-- The bytes of a file, if it can be read. -/
def readBytes? (path : String) : IO (Option ByteArray) := do
  try
    return some (← IO.FS.readBinFile path)
  catch _ =>
    return none

def report : Result → IO Unit
  | .help => IO.println usage
  | .misused error => do
      IO.eprintln usage
      IO.eprintln error.message
  | .suggested completion => do
      completion.notes.forM fun note => IO.eprintln note.text
      if completion.suggestions.isEmpty then
        IO.eprintln "No suggestions."
      completion.suggestions.forM fun word => IO.println word
  | .undecodable => IO.eprintln "The file is not UTF-8 text."
  | .failed fault => IO.eprintln s!"{repr fault}"
  | .transcript text => IO.print text
  | .unshown error => IO.eprintln s!"{repr error}"

end Typeahead.CommandLine

open Typeahead.CommandLine in
/-- The command line's entry point. -/
def main (args : List String) : IO UInt32 := do
  let command := readCommand args
  let contents ←
    match command with
    | .ok (.suggest command) => readBytes? command.file
    | _ => pure none
  let keys ←
    match command with
    | .ok (.prompt _) => (← IO.getStdin).readToEnd
    | _ => pure ""
  let result := run (fun _ => contents) keys args
  report result
  return result.exitCode.toUInt32
