import SourceFlags.Error
import SourceFlags.Path.Home
import SourceFlags.Table
import SourceFlags.World.Run
import SourceFlags.World.Trail

namespace SourceFlags

open Text

structure World where
  files : FileTree
  cwd : String
  hasCwd : Bool
  environment : Table String
  machine : String
  -- Directories that are known to be there though the tree does not hold them.
  systemDirectories : List String
  -- How many directories can be gone through within each other before the stack is full.
  nesting : Nat
  respond : Responder

namespace World

def valueOf? (w : World) (name : String) : Option String :=
  w.environment.get? name

def home (w : World) : String :=
  (w.valueOf? "HOME").getD "/"

def absolute (w : World) (path : String) : Path :=
  Path.absolute w.cwd path

def absoluteText (w : World) (path : String) : String :=
  Path.absoluteText w.cwd path

-- A relative path leads nowhere once the current directory is gone.
def reaches (w : World) (path : String) : Bool :=
  w.hasCwd || Path.isAbsolute path

def about {α : Type} (w : World) (path : String) (answer : Except Error α) : Except Error α :=
  if w.reaches path then answer else .error .cwdGone

theorem about_of_reaches {α : Type} {w : World} {path : String} (h : w.reaches path = true)
    (answer : Except Error α) : w.about path answer = answer := by
  simp [about, h]

theorem reaches_of_hasCwd {w : World} (h : w.hasCwd = true) (path : String) :
    w.reaches path = true := by
  simp [reaches, h]

def partsOf (w : World) (path : String) : List Part :=
  let parts := splitOn '/' path.toList
  if Path.isAbsolute path then parts else (Path.ofText w.cwd).parts ++ parts

def maxPath : Nat := 4095

def isTooLong (path : String) : Bool :=
  maxPath < Utf8.size path.toList

def locate (w : World) (path : String) : Except Errno FileTree :=
  if isTooLong path then .error .nameTooLong
  else if path.isEmpty || !w.reaches path then .error .noEntry
  else w.files.locate (w.partsOf path)

def isThere (w : World) (path : String) : Bool :=
  match w.locate path with
  | .ok _ => true
  | .error _ => false

def isFile (w : World) (path : String) : Bool :=
  match w.locate path with
  | .ok t => t.isFile
  | .error _ => false

def isDirectory (w : World) (path : String) : Bool :=
  match w.locate path with
  | .ok t => t.isDirectory
  | .error _ => false

-- Whether something of a kind is there. A way that is refused is an error, other than with `isFile`
-- and `isDirectory`.
def check (w : World) (isKind : FileTree → Bool) (path : String) : Except Error Bool :=
  match w.locate path with
  | .ok t => .ok (isKind t)
  | .error e => if e.isAbsence then .ok false else .error (.refused e)

def checkFile (w : World) (path : String) : Except Error Bool :=
  w.check FileTree.isFile path

def checkDirectory (w : World) (path : String) : Except Error Bool :=
  w.check FileTree.isDirectory path

theorem isFile_of_checkFile {w : World} {path : String} {b : Bool}
    (h : w.checkFile path = .ok b) : w.isFile path = b := by
  simp only [checkFile, check] at h
  simp only [isFile]
  split at h
  next => exact Except.ok.inj h
  next =>
    split at h
    next => exact Except.ok.inj h
    next => cases h

theorem checkFile_eq_true_iff {w : World} {path : String} :
    w.checkFile path = .ok true ↔ w.isFile path = true := by
  refine ⟨isFile_of_checkFile, fun h => ?_⟩
  simp only [isFile] at h
  simp only [checkFile, check]
  split at h
  next => exact congrArg Except.ok h
  next => cases h

def isExecutable (w : World) (path : String) : Bool :=
  match w.locate path with
  | .ok t => t.isProgram
  | .error _ => false

def read (w : World) (path : String) : Except Errno String :=
  match w.locate path with
  | .ok (.file content _) => .ok content.read
  | .ok _ => .error .isDirectory
  | .error e => .error e

-- The path of the same place without links, or as far as it exists.
def resolve (w : World) (path : String) : Path :=
  ⟨1, w.files.resolve (w.partsOf path)⟩

def resolved (w : World) (path : String) : Except Error Path :=
  w.about path <|
    match w.locate (w.resolve path).text with
    | .error .tooManyLinks => .error .linkLoop
    | _ => .ok (w.resolve path)

-- The world after a path has been removed. The current directory goes with a directory above it,
-- and does not come back.
def without (w : World) (path : String) : World :=
  let place := w.files.site (w.partsOf path)
  { w with
    files := w.files.remove place
    hasCwd := w.hasCwd && !place.isPrefixOf (Path.ofText w.cwd).parts }

def write (w : World) (path : String) (e : FileTree) : World :=
  let w := w.without path
  { w with files := w.files.create (w.partsOf path) e }

def isSearchable (w : World) (path : String) : Bool :=
  w.systemDirectories.contains path ||
    match w.locate path with
    | .ok (.directory access _) => access.lists && access.searches
    | _ => false

def searchPath (w : World) : List String :=
  match w.valueOf? "PATH" with
  | some s => if s.isEmpty then [] else (splitOn ':' s.toList).map String.ofList
  | none => ["/bin", "/usr/bin"]

-- The file that a program's name stands for. A name with a slash is not searched for.
def which (w : World) (program : String) : Option String :=
  if program.toList.contains '/' then
    if w.isExecutable program then some program else none
  else
    (w.searchPath.map (Path.joinText · program)).find? w.isExecutable

end World
end SourceFlags
