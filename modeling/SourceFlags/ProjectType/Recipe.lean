import SourceFlags.Automake.Tree
import SourceFlags.BuildDescription
import SourceFlags.Kernel
import SourceFlags.ProjectType.Basic
import SourceFlags.Sketch

namespace SourceFlags

inductive Recipe
  | generic
  | automake
  | kernel
  | sketch
  | buildDescription
  -- A project whose fields are given.
  | rooted
  -- A project at one place, wherever it is looked for.
  | fixed
  | nothing
  deriving DecidableEq, Repr

namespace Recipe

abbrev Arguments := Table Value

def parameters : Recipe → Option (List String)
  | .generic => some ["project_type"]
  | .automake => some []
  | .kernel => some ["arch", "build_dir"]
  | .sketch => some []
  | .buildDescription => some ["makefile_type"]
  | .rooted => some ["name", "include_paths", "system_include_paths", "macros", "targets"]
  | .fixed => some ["at"]
  | .nothing => none

def rootName : String := "root"

-- The root is handed over by its place, so it is never an argument by name.
def takes (r : Recipe) (name : String) : Bool :=
  name != rootName && r.parameters.all (·.contains name)

def unexpected? (r : Recipe) (arguments : Arguments) : Option String :=
  arguments.names.find? (!r.takes ·)

def text? (arguments : Arguments) (name : String) : Except Error (Option String) :=
  match arguments.get? name with
  | none => .ok none
  | some (.text s) => .ok (some s)
  | some v => if v.isVoid then .ok none else .error .wrongKind

def valueOr (arguments : Arguments) (name : String) (usual : Value) : Value :=
  (arguments.get? name).getD usual

def rootedProject (cwd root : String) (arguments : Arguments) : Project :=
  let bare := Project.bare root .rooted
  Project.settle cwd
    { bare with
      name := valueOr arguments "name" bare.name
      includePaths := valueOr arguments "include_paths" bare.includePaths
      systemIncludePaths := valueOr arguments "system_include_paths" bare.systemIncludePaths
      macros := valueOr arguments "macros" bare.macros
      targets := ((arguments.get? "targets").map .odd).getD bare.targets }

def genericType : String := "generic"

def markedType (arguments : Arguments) : Value :=
  valueOr arguments "project_type" (.text genericType)

def make (w : World) (r : Recipe) (arguments : Arguments) (root : String) :
    Except Error (Option Project) :=
  match r with
  | .generic => .ok (some (Project.ofRoot w.cwd root (.marked (markedType arguments))))
  | .automake => (Automake.load w root).map some
  | .kernel => do
    let architecture ← text? arguments "arch"
    let buildDirectory ← text? arguments "build_dir"
    return some (← Kernel.load w root architecture buildDirectory)
  | .sketch => .ok (some (Sketch.project w root))
  | .buildDescription => (BuildDescription.load w root).map some
  | .rooted => .ok (some (rootedProject w.cwd root arguments))
  | .fixed => do
    match ← text? arguments "at" with
    | some place => w.about place (.ok (some (Project.ofRoot w.cwd place .plain)))
    | none => throw .wrongKind
  | .nothing => .ok none

def load (r : Recipe) (arguments : Arguments) : Load := fun w root =>
  match r.unexpected? arguments with
  | some name => .error (.unexpectedArgument name)
  | none => r.make w arguments root

end Recipe
end SourceFlags
