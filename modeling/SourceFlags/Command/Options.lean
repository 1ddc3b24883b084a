import SourceFlags.Text.Quoted

namespace SourceFlags.Command

open Text

inductive UsageError
  | missingCommand
  | unknownCommand (name : String)
  | unknownOption (name : String)
  | missingValue (option : String)
  | unexpectedValue (option : String)
  | missingArgument (name : String)
  | unexpectedArgument (word : String)
  | notThere (path : String)
  | notDirectory (path : String)
  | notFile (path : String)
  deriving DecidableEq, Repr

def UsageError.message : UsageError → String
  | .missingCommand => "Missing command."
  | .unknownCommand name => "No such command " ++ quoted name ++ "."
  | .unknownOption name => "No such option: " ++ name
  | .missingValue option => "Option " ++ quoted option ++ " requires an argument."
  | .unexpectedValue option => "Option " ++ quoted option ++ " does not take a value."
  | .missingArgument name => "Missing argument " ++ quoted name ++ "."
  | .unexpectedArgument word => "Got unexpected extra argument (" ++ word ++ ")"
  | .notThere path => "Path " ++ quoted path ++ " does not exist."
  | .notDirectory path => "Directory " ++ quoted path ++ " is a file."
  | .notFile path => "File " ++ quoted path ++ " is a directory."

structure Options where
  flags : List String
  valued : List String

structure Words where
  flags : List String
  values : List (String × String)
  arguments : List String
  deriving DecidableEq, Repr

namespace Words

def empty : Words := ⟨[], [], []⟩

def has (ws : Words) (flag : String) : Bool :=
  ws.flags.contains flag

def valuesOf (ws : Words) (option : String) : List String :=
  (ws.values.filter (·.1 == option)).map (·.2)

-- Of an option that is repeated, the last value counts.
def value? (ws : Words) (option : String) : Option String :=
  (ws.valuesOf option).getLast?

def addFlag (flag : String) (ws : Words) : Words :=
  { ws with flags := flag :: ws.flags }

def addValue (option value : String) (ws : Words) : Words :=
  { ws with values := (option, value) :: ws.values }

def addArgument (word : String) (ws : Words) : Words :=
  { ws with arguments := word :: ws.arguments }

end Words

def separator : String := "--"

def isOption (word : String) : Bool :=
  word.toList.head? == some '-' && word != "-"

def parts (word : String) : String × Option String :=
  let name := word.toList.takeWhile (· != '=')
  match word.toList.dropWhile (· != '=') with
  | [] => (String.ofList name, none)
  | _ :: value => (String.ofList name, some (String.ofList value))

namespace Options

-- A value is written with its option, or else it is the next word, whatever that is.
def readAfter (o : Options) : (waiting : Option String) → List String → Except UsageError Words
  | none, [] => .ok .empty
  | some option, [] => .error (.missingValue option)
  | some option, word :: rest => (o.readAfter none rest).map (.addValue option word)
  | none, word :: rest =>
    if word = separator then .ok { Words.empty with arguments := rest }
    else if !isOption word then (o.readAfter none rest).map (.addArgument word)
    else
      let (name, value?) := parts word
      if o.flags.contains name then
        if value?.isSome then .error (.unexpectedValue name)
        else (o.readAfter none rest).map (.addFlag name)
      else if o.valued.contains name then
        match value? with
        | some value => (o.readAfter none rest).map (.addValue name value)
        | none => o.readAfter (some name) rest
      else .error (.unknownOption name)

def read (o : Options) (words : List String) : Except UsageError Words :=
  o.readAfter none words

end Options

def isVerbose (word : String) : Bool :=
  word == "--verbose" ||
    match word.toList with
    | '-' :: cs => !cs.isEmpty && cs.all (· == 'v')
    | _ => false

def leading : List String → Except UsageError (Bool × List String)
  | [] => .ok (false, [])
  | word :: rest =>
    if word = separator then .ok (false, rest)
    else if !isOption word then .ok (false, word :: rest)
    else if isVerbose word then (leading rest).map fun (_, rest) => (true, rest)
    else .error (.unknownOption word)

end SourceFlags.Command
