import SourceFlags.Project.Arguments
import SourceFlags.Toolchain.VersionReport

namespace SourceFlags

structure Facts where
  executable : String
  version : Option String
  target : Option String
  installRoot : Option String
  options : VersionReport.Fields
  includePaths : Table (List String)
  macros : Table String
  symbolFiles : List String
  deriving DecidableEq, Repr

namespace Facts

def ofExecutable (executable : String) : Facts :=
  ⟨executable, none, none, none, [], [], [], []⟩

def paths (f : Facts) (language : String) : List String :=
  (f.includePaths.get? language).getD []

def appendNew? (l : List String) (s : String) : Option (List String) :=
  if l.contains s then none else some (l ++ [s])

def addIncludePath (f : Facts) (language path : String) : Bool × Facts :=
  match appendNew? (f.paths language) path with
  | some paths => (true, { f with includePaths := f.includePaths.put language paths })
  | none => (false, f)

def addMacro (f : Facts) (name value : String) : Bool × Facts :=
  if f.macros.has name then (false, f) else (true, { f with macros := f.macros.put name value })

def addSymbolFile (f : Facts) (path : String) : Bool × Facts :=
  match appendNew? f.symbolFiles path with
  | some symbolFiles => (true, { f with symbolFiles })
  | none => (false, f)

def addMacros (f : Facts) (ms : List (String × String)) : Facts :=
  ms.foldl (fun f m => (f.addMacro m.1 m.2).2) f

def addIncludePaths (f : Facts) (language : String) (ps : List String) : Facts :=
  ps.foldl (fun f p => (f.addIncludePath language p).2) f

def includeFlags (f : Facts) (language : String) : List String :=
  (f.paths language).map Project.includeFlag

-- The first text that is there and not empty, else the last one.
def firstFilled : List (Option String) → Option String
  | [] => none
  | [s] => s
  | s :: rest => if s.any (!·.isEmpty) then s else firstFilled rest

-- Takes over the fields of a version report. What is known already stays.
def addReport (f : Facts) (fields : VersionReport.Fields) : Facts :=
  let field := fun name => (fields.get? name).join
  { f with
    options := f.options.overlay fields
    version := firstFilled [f.version, field "version"]
    target := firstFilled [f.target, field "target", field "host"]
    installRoot := firstFilled [f.installRoot, field "prefix"] }

end Facts
end SourceFlags
