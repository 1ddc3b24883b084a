import SourceFlags.Command.Run

namespace SourceFlags.Main

-- Files of these names are read, others are only known to be there.
def readNames : List String :=
  [Automake.fileName, BuildDescription.fileName, "Makefile", "preferences.txt"]

def variableNames : List String :=
  ["HOME", "PATH", "ARCH", "KBUILD_OUTPUT", "ZFLAGS_COMPILER", "ZFLAGS_CXX", "ZFLAGS_CPP",
   "ZFLAGS_TRUSTED_DIRS", "ZFLAGS_PROBE_TIMEOUT", "ZFLAGS_LOG_LEVEL", "ZFLAGS_LOG_FORMAT"]

def environment : IO (Table String) := do
  let found ← variableNames.mapM fun name => do return (← IO.getEnv name).map fun v => (name, v)
  return found.filterMap id

def contentOf (path : String) : IO Content := do
  try return .octets (← IO.FS.readBinFile path).toList
  catch _ => return .text ""

def takeIn (t : FileTree) (path : String) (isRead : Bool) : IO FileTree := do
  let file := (← IO.currentDir) / path
  let parts := (Path.ofText path).parts
  if ← file.isDir then return t.create parts .empty
  else if ← file.pathExists then
    let content ← if isRead then contentOf path else pure (.text "")
    return t.create parts (.file content false)
  else return t

def namesIn (path : String) : IO (List String) := do
  try
    let entries ← ((← IO.currentDir) / path).readDir
    return entries.toList.map (·.fileName)
  catch _ => return []

-- Takes in the entries of a directory and, where there are makefiles, all below it.
def takeDirectory : (depth : Nat) → FileTree → String → IO FileTree
  | 0, t, _ => return t
  | depth + 1, t, path => do
    let names ← namesIn path
    let t ← names.foldlM (fun t name =>
      takeIn t (Path.joinText path name) (readNames.contains name)) t
    if names.contains Automake.fileName then
      names.foldlM (fun t name => takeDirectory depth t (Path.joinText path name)) t
    else return t

def maxDepth : Nat := 16

def takeAround (cwd : String) (t : FileTree) (path : String) : IO FileTree := do
  let place := Path.absolute cwd path
  let t ← takeIn t place.text true
  (place :: place.ancestors).foldlM (fun t directory => do
    let t ← takeDirectory maxDepth t directory.text
    takeIn t (directory.append Kernel.marker).text false) t

def notStarted : Responder := fun _ run =>
  .notLaunched (run.command.headD "" ++ " is not started")

def world (arguments : List String) : IO World := do
  let cwd := (← IO.currentDir).toString
  let environment ← environment
  let home := (environment.get? "HOME").getD "/"
  let preferences := Sketch.preferenceFiles.map (Path.expandHome home)
  let files ← preferences.foldlM (fun t path => takeIn t path true) .empty
  let files ← (cwd :: arguments).foldlM (takeAround cwd) files
  return { files, cwd, hasCwd := true, environment, machine := "x86_64", systemDirectories := [],
           nesting := 900, respond := notStarted }

end SourceFlags.Main

open SourceFlags Command

def main (arguments : List String) : IO UInt32 := do
  let w ← Main.world arguments
  match (Command.run w arguments []).1 with
  | .error e =>
    IO.eprintln e.message
    return 1
  | .ok (.usage e) =>
    IO.eprintln ("Error: " ++ e.message)
    return usageStatus.toUInt32
  | .ok (.done r) =>
    IO.print r.outputText
    IO.eprint r.errorText
    return r.status.toUInt32
