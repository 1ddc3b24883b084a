import SourceFlags.Project.Basic

namespace SourceFlags.Project

open Text

def includeFlag (path : String) : String :=
  "-I" ++ path

def macroFlag (name : String) (value : Value) : String :=
  match value with
  | .null => "-D" ++ name
  | value => "-D" ++ name ++ "=" ++ value.written

def kernelHeader : String := "include/linux/kconfig.h"

def kernelMacro : String := "__KERNEL__"

-- A path below the root, where a slash at its start only separates.
def underRoot (root path : String) : String :=
  if path.toList.head? == some '/' then root ++ path else root ++ "/" ++ path

def rootedFlag (root : String) : Value → Except Error String
  | .text path => .ok (includeFlag (underRoot root path))
  | _ => .error .noMember

def rootedArguments (p : Project) : Except Error (List String) := do
  let below ← (← p.includePaths.items).mapM (rootedFlag p.root)
  let system := (← p.systemIncludePaths.items).map (includeFlag ·.written)
  let macros := (← p.macros.fields).map fun (name, value) => macroFlag name value
  return below ++ system ++ macros ++ [includeFlag p.root]

def counterpart (cwd root buildDirectory directory : String) : String :=
  let way := Path.relative (Path.absolute cwd root) (Path.absolute cwd directory)
  Path.normalText (Path.joinText buildDirectory way.text)

-- The directory of the source, and its counterpart if that is another one.
def sourceArguments (cwd : String) (p : Project) (buildDirectory source : String) : List String :=
  let directory := (Path.absolute cwd source).parent.text
  let other := counterpart cwd p.root buildDirectory directory
  includeFlag directory ::
    if p.contains cwd directory && other != directory then [includeFlag other] else []

def kernelArguments (cwd : String) (p : Project) (buildDirectory : String)
    (source : Option String) : Except Error (List String) := do
  let paths := (← p.includePaths.items).map (includeFlag ·.written)
  let ofSource := (source.map (sourceArguments cwd p buildDirectory)).getD []
  return ["-include", Path.joinText p.root kernelHeader] ++ paths ++ ofSource ++
    ["-D" ++ kernelMacro]

def flagWords (value : String) : List String :=
  ((words value.toList).filter fun w => ['-', 'I'].isPrefixOf w || ['-', 'D'].isPrefixOf w).map
    String.ofList

def describedArguments (p : Project) (bindings : Bindings) (configurations : Configurations)
    (configuration : String) (target : Option Target) : List String :=
  let ofTarget := (target.map (·.configurations.bindings configuration)).getD []
  let all := bindings ++ configurations.bindings configuration ++ ofTarget
  includeFlag p.root :: all.flatMap fun (_, value) => flagWords value

inductive Choice
  | bySource
  | named (name : String)
  | given (target : Target)
  deriving DecidableEq, Repr

def Choice.known? (c : Choice) (p : Project) : Except Error (Option Target) :=
  match c with
  | .bySource => .ok none
  | .named name => p.targets.list.map (·.find? (·.name == name))
  | .given target => .ok (some target)

def Choice.target (c : Choice) (cwd : String) (p : Project) (source : Option String) :
    Except Error (Option Target) := do
  match ← c.known? p, source with
  | none, some source => p.targetFor cwd source
  | chosen, _ => return chosen

def asksFor (p : Project) (choice : Choice) (source : Option String) : Bool :=
  source.any (!·.isEmpty) &&
    match p.variant, choice.known? p with
    | .plain, _ => false
    | .marked _, _ => false
    | .kernel .., _ => true
    | _, .ok none => true
    | _, _ => false

-- An empty path names no file.
def arguments (cwd : String) (p : Project) (choice : Choice) (source : Option String) :
    Except Error (List String) :=
  let source := source.filter (!·.isEmpty)
  let target := choice.target cwd p source
  match p.variant with
  | .plain => .ok []
  | .marked _ => .ok []
  | .rooted => target.bind fun _ => p.rootedArguments
  | .kernel buildDirectory _ => target.bind fun _ => p.kernelArguments cwd buildDirectory source
  | .described bindings configurations configuration =>
    target.map (p.describedArguments bindings configurations configuration)

end SourceFlags.Project
