import SourceFlags.Command.Document
import SourceFlags.Command.Request
import SourceFlags.Logging
import SourceFlags.Session
import SourceFlags.Text.Escapes

namespace SourceFlags.Command

open Text

structure Report where
  status : Nat
  output : List String
  errors : List String
  deriving DecidableEq, Repr

inductive Result
  | usage (e : UsageError)
  | done (r : Report)
  deriving DecidableEq, Repr

def usageStatus : Nat := 2

def printed (ls : List String) : String :=
  let text := String.join (ls.map (· ++ "\n"))
  String.ofList (withoutEscapes text.toList)

def Report.outputText (r : Report) : String :=
  printed r.output

def Report.errorText (r : Report) : String :=
  printed r.errors

def Report.ok (output : List String) : Report :=
  ⟨0, output, []⟩

def padded (width : Nat) (s : String) : String :=
  s ++ String.ofList (List.replicate (width - s.length) ' ')

def dynamicMarker : String := "<dynamic>"

def markerText (t : ProjectType) : String :=
  match t.marker with
  | some (.file name) => name
  | _ => dynamicMarker

def typeLine (t : ProjectType) : String :=
  "  " ++ padded 22 t.name ++ " " ++ padded 16 (markerText t) ++ " " ++
    padded 8 (if t.isGeneric then "generic" else "specific") ++ " " ++
    (if t.isSafe then "safe" else "unsafe")

def types : Report :=
  .ok (Registry.builtin.types.map typeLine)

def detect (w : World) (directory : String) : Except Error Report :=
  (Registry.builtin.owner w directory).map fun
    | none => ⟨1, ["No project type detected in " ++ directory], []⟩
    | some owner =>
      .ok
        ["Project type: " ++ owner.type.name,
         "Root: " ++ owner.root,
         "Safe: " ++ (if owner.type.isSafe then "yes" else "no (requires a trusted directory)")]

def orUnknown (s : Option String) : String :=
  (s.filter (!·.isEmpty)).getD "?"

def pathLines (f : Facts) (language : String) : List String :=
  let paths := f.paths language
  ["", language ++ " include paths (" ++ toString paths.length ++ "):"] ++ paths.map ("  " ++ ·)

def macroLine (name value : String) : String :=
  String.ofList (trimEnd ("  " ++ name ++ " " ++ value).toList)

def factLines (f : Facts) (listMacros : Bool) : List String :=
  ["Compiler: " ++ f.executable, "Version: " ++ orUnknown f.version,
    "Target: " ++ orUnknown f.target] ++
    ((f.installRoot.filter (!·.isEmpty)).toList.map ("Prefix: " ++ ·)) ++
    pathLines f Language.c.name ++ pathLines f Language.cxx.name ++
    (if f.symbolFiles.isEmpty then []
      else ["", "Symbol files:"] ++ f.symbolFiles.map ("  " ++ ·)) ++
    ["", "Macros: " ++ toString f.macros.length] ++
    (if listMacros then f.macros.map fun (name, value) => macroLine name value else [])

def probe (w : World) (s : Settings) (compiler : Option String) (listMacros : Bool) :
    Probing Report := do
  let compiler := (compiler.filter (!·.isEmpty)).getD s.compiler
  let toolchain := Toolchain.ofSettings { s with compiler } none
  let (entry, _) ← toolchain.setup w .empty
  return .ok (factLines entry.facts listMacros)

def document (r : Resolved) : Document :=
  let project := fun (f : Project → String) =>
    (r.project.map fun m => Document.text (f m.project)).getD .null
  .record
    [("source_file", .text r.source), ("language", .text r.language.name),
     ("project", project Project.kind), ("project_root", project Project.root),
     ("args", .list (r.arguments.map .text)),
     ("macros", .record (r.macros.map fun (name, value) => (name, .text value)))]

-- Refused and empty projects end the command; other errors are for the caller.
def failure (e : Error) : Except Error Report :=
  match e with
  | .untrusted .. => .ok ⟨2, [], ["Error: " ++ e.message]⟩
  | .nothingLoaded .. => .ok ⟨1, [], ["Error: " ++ e.message]⟩
  | e => .error e

def flags (w : World) (s : Settings) (source : String) (trust : List String)
    (target : Option String) (fileMacros asJson : Bool) : Probing (Except Error Report) := do
  let settings := { s with trustedDirectories := s.trustedDirectories ++ trust }
  match Session.startAt w settings none .builtin with
  | .error e => return failure e
  | .ok session =>
    match (← session.resolve w source target fileMacros).1 with
    | .error e => return failure e
    | .ok r => return .ok (.ok (if asJson then [(document r).written] else r.arguments))

def perform (w : World) (s : Settings) : Request → Probing (Except Error Report)
  | .types => return .ok types
  | .detect directory => return detect w directory
  | .probe compiler listMacros => return .ok (← probe w s compiler listMacros)
  | .flags source trust target fileMacros asJson => flags w s source trust target fileMacros asJson

def settings (w : World) (isVerbose : Bool) : Except Error Settings := do
  let s ← Settings.fromEnvironment w
  let _ ← Logging.setup (if isVerbose then "DEBUG" else s.logLevel) s.logFormat
  return s

-- The command's own words are only read once there are settings.
def run (w : World) (arguments : List String) : Probing (Except Error Result) := do
  match Line.read arguments with
  | .error e => return .ok (.usage e)
  | .ok line =>
    match settings w line.isVerbose with
    | .error e => return .error e
    | .ok s =>
      match Request.ofArguments w line.name line.arguments with
      | .error e => return .ok (.usage e)
      | .ok request => return (← perform w s request).map .done

end SourceFlags.Command
