import SourceFlags.Error
import SourceFlags.Project.Basic
import SourceFlags.World.Basic

namespace SourceFlags.Sketch

open Text

def suffix : Chars := ".ino".toList

def marker (directory : String) : String :=
  let cs := (directory.toList.reverse.dropWhile (· == '/')).reverse
  String.ofList ((Path.ofChars cs).name ++ suffix)

def isSketch (w : World) (directory : Path) : Except Error Bool :=
  w.checkFile (directory.append (marker directory.text)).text

def root? (w : World) (directory : String) : Except Error (Option String) := do
  let start ← w.resolved directory
  return (← (start :: start.ancestors).findM? (isSketch w)).map Path.text

def preferenceFiles : List String :=
  ["~/.arduino15/preferences.txt", "~/.arduino/preferences.txt"]

-- The first of the paths that is a file, else the first.
def preferences (w : World) : Except Error String :=
  match (preferenceFiles.map Path.ofText).mapM (Path.fromHome? w.home) with
  | none => .error (.unknownUser w.home)
  | some paths =>
    let texts := paths.map Path.text
    (texts.findM? w.checkFile).map fun found => (found.or texts.head?).getD ""

def project (w : World) (root : String) : Project :=
  Project.ofRoot w.cwd root (.marked (.text "arduino"))

end SourceFlags.Sketch
