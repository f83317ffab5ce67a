namespace Typeahead.CommandLine

/-!
Options and arguments of a command.  A long option may carry its value after an equals sign, a short
one right behind its letter; short options without a value can be written together.  Options may
stand after arguments; two dashes end them.
-/

structure OptionSpec where
  long : String
  short : Option Char := none
  takesValue : Bool
deriving DecidableEq, Repr

inductive Given where
  | flag (long : String)
  | value (long value : String)
  | argument (text : String)
deriving DecidableEq, Repr

inductive OptionError where
  | unknown (option : String)
  | valueMissing (option : String)
  | valueUnwanted (option : String)
deriving DecidableEq, Repr

variable (specs : List OptionSpec)

/-- Reads the letters of short options written together, in front of the arguments `rest`.  Gives
what was found and the arguments that remain. -/
def readShort (rest : List String) :
    List Char → Except OptionError (List Given × List String)
  | [] => .ok ([], rest)
  | letter :: letters =>
      match specs.find? (·.short == some letter) with
      | none => .error (.unknown (.ofList ['-', letter]))
      | some spec =>
          if spec.takesValue then
            match letters, rest with
            | [], [] => .error (.valueMissing spec.long)
            | [], value :: rest => .ok ([.value spec.long value], rest)
            | _, _ => .ok ([.value spec.long (.ofList letters)], rest)
          else do
            let (given, rest) ← readShort rest letters
            return (.flag spec.long :: given, rest)

/-- Reads one option in front of the arguments `rest`. -/
def readOption (rest : List String) (option : String) :
    Except OptionError (List Given × List String) :=
  let cs := option.toList
  let name := String.ofList (cs.takeWhile (· != '='))
  let attached := cs.dropWhile (· != '=')
  match specs.find? (·.long == name) with
  | some spec =>
      match spec.takesValue, attached, rest with
      | true, _ :: value, rest => .ok ([.value spec.long (.ofList value)], rest)
      | true, [], value :: rest => .ok ([.value spec.long value], rest)
      | true, [], [] => .error (.valueMissing name)
      | false, [], rest => .ok ([.flag spec.long], rest)
      | false, _, _ => .error (.valueUnwanted name)
  | none =>
      if cs.take 2 == ['-', '-'] then .error (.unknown name) else readShort specs rest (cs.drop 1)

/-- Whether an argument is read as an option: it starts with a dash and has more. -/
def isOption (text : String) : Bool :=
  text.toList.head? == some '-' && text != "-"

/-- Reads at most `fuel` arguments, options and values among them. -/
def readUpTo : (fuel : Nat) → List String → Except OptionError (List Given)
  | 0, _ => .ok []
  | _, [] => .ok []
  | fuel + 1, text :: rest => do
      if text = "--" then
        return rest.map .argument
      else if isOption text then
        let (given, rest) ← readOption specs rest text
        return given ++ (← readUpTo fuel rest)
      else
        return .argument text :: (← readUpTo fuel rest)

def read (args : List String) : Except OptionError (List Given) :=
  readUpTo specs args.length args

namespace Given

def arguments (given : List Given) : List String :=
  given.filterMap fun
    | .argument text => some text
    | _ => none

/-- The value of an option; of several the last holds. -/
def value? (given : List Given) (long : String) : Option String :=
  (given.filterMap fun
    | .value name text => if name = long then some text else none
    | _ => none).getLast?

def hasFlag (given : List Given) (long : String) : Bool := given.contains (.flag long)

end Given

end Typeahead.CommandLine
