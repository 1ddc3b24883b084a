import SourceFlags.Matcher.Basic
import SourceFlags.Project.Basic

namespace SourceFlags

-- The name of the file that marks a directory. It may depend on the directory, and be absent; what
-- is found may turn out to be no name.
inductive Marker
  | file (name : String)
  | found (find : World → String → Except Error Value)

abbrev Load := World → String → Except Error (Option Project)

structure ProjectType where
  name : String
  marker : Option Marker
  matcher : Option Matcher
  -- Whether a directory where the type is recognised is a root already.
  rootOnly : Bool
  rootFinder : Option (World → String → Except Error (Option String))
  load : Load
  isSafe : Bool
  isChoice : Bool
  isGeneric : Bool

namespace ProjectType

-- A type as it is declared. Marker and loader may be something that cannot serve as one.
structure Declaration where
  name : String
  marker : Except Value (Option Marker)
  matcher : Option Matcher
  rootOnly : Bool
  rootFinder : Option (World → String → Except Error (Option String))
  load : Option Load
  isSafe : Bool
  isChoice : Bool

def declare (d : Declaration) : Except Error ProjectType :=
  match d.marker, d.matcher, d.load with
  | .ok none, none, _ => .error (.markerMissing d.name)
  | .error v, _, _ => .error (.markerUnsupported d.name v.kind)
  | .ok _, _, none => .error (.loaderMissing d.name)
  | .ok marker, matcher, some load =>
    .ok ⟨d.name, marker, matcher, d.rootOnly, d.rootFinder, load, d.isSafe, d.isChoice, false⟩

def markerName (w : World) (t : ProjectType) (directory : String) : Except Error Value :=
  match t.marker with
  | none => .ok .null
  | some (.file name) => .ok (.text name)
  | some (.found find) => find w directory

def isPlaced (w : World) (t : ProjectType) (directory : String) : Except Error Bool :=
  match t.matcher with
  | none => .ok false
  | some m =>
    match m.isInstalled w with
    | .ok true => m.accepts w directory
    | other => other

def isMarked (w : World) (t : ProjectType) (directory : String) : Except Error Bool :=
  match t.markerName w directory with
  | .error e => .error e
  | .ok (.text name) => .ok (!name.isEmpty && w.isThere (directory ++ name))
  | .ok v => if v.isVoid then .ok false else .error .wrongKind

def isIn (w : World) (t : ProjectType) (directory : String) : Except Error Bool :=
  match t.isPlaced w directory with
  | .ok false => t.isMarked w directory
  | other => other

def detects (w : World) (t : ProjectType) (directory : String) : Except Error Bool :=
  w.about directory (t.isIn w (Path.asDirectory w.cwd directory))

def consulted (w : World) (t : ProjectType) : ProjectType :=
  { t with matcher := t.matcher.map (·.consulted w) }

end ProjectType
end SourceFlags
