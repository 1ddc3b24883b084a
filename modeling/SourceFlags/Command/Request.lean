import SourceFlags.Command.Options
import SourceFlags.World.Basic

namespace SourceFlags.Command

inductive Name
  | types
  | detect
  | probe
  | flags
  deriving DecidableEq, Repr

def Name.text : Name → String
  | .types => "types"
  | .detect => "detect"
  | .probe => "probe"
  | .flags => "flags"

def Name.all : List Name :=
  [.types, .detect, .probe, .flags]

inductive Request
  | types
  | detect (directory : String)
  | probe (compiler : Option String) (listMacros : Bool)
  | flags (source : String) (trust : List String) (target : Option String)
      (fileMacros asJson : Bool)
  deriving DecidableEq, Repr

def Name.options : Name → Options
  | .types => ⟨[], []⟩
  | .detect => ⟨[], []⟩
  | .probe => ⟨["--macros"], ["--compiler"]⟩
  | .flags => ⟨["--file-macros", "--json"], ["--trust", "--target"]⟩

def single (name : String) : List String → Except UsageError String
  | [] => .error (.missingArgument name)
  | [word] => .ok word
  | _ :: word :: _ => .error (.unexpectedArgument word)

def noArguments : List String → Except UsageError Unit
  | [] => .ok ()
  | word :: _ => .error (.unexpectedArgument word)

def directory (w : World) (path : String) : Except UsageError String :=
  if !w.isThere path then .error (.notThere path)
  else if w.isFile path then .error (.notDirectory path)
  else .ok path

def file (w : World) (path : String) : Except UsageError String :=
  if !w.isThere path then .error (.notThere path)
  else if w.isDirectory path then .error (.notFile path)
  else .ok path

namespace Request

def ofWords (w : World) (name : Name) (ws : Words) : Except UsageError Request :=
  match name with
  | .types => (noArguments ws.arguments).map fun _ => .types
  | .detect => (single "DIRECTORY" ws.arguments >>= directory w).map .detect
  | .probe =>
    (noArguments ws.arguments).map fun _ => .probe (ws.value? "--compiler") (ws.has "--macros")
  | .flags =>
    (single "SOURCE_FILE" ws.arguments >>= file w).map fun source =>
      .flags source (ws.valuesOf "--trust") (ws.value? "--target") (ws.has "--file-macros")
        (ws.has "--json")

def ofArguments (w : World) (name : Name) (arguments : List String) : Except UsageError Request :=
  name.options.read arguments >>= ofWords w name

end Request

structure Line where
  isVerbose : Bool
  name : Name
  arguments : List String
  deriving DecidableEq, Repr

def Line.read (arguments : List String) : Except UsageError Line :=
  match leading arguments with
  | .error e => .error e
  | .ok (_, []) => .error .missingCommand
  | .ok (isVerbose, word :: rest) =>
    match Name.all.find? (·.text == word) with
    | some name => .ok ⟨isVerbose, name, rest⟩
    | none => .error (.unknownCommand word)

end SourceFlags.Command
