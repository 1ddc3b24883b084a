import SourceFlags.Registry.Basic

namespace SourceFlags

namespace ProjectType

def above (w : World) (directory : String) : List String :=
  (w.absolute directory).ancestors.map Path.text

def rise (w : World) (t : ProjectType) (current : String) : List String → Except Error String
  | [] => .ok current
  | next :: rest =>
    match t.detects w next with
    | .error e => .error e
    | .ok false => .ok current
    | .ok true => t.rise w next rest

-- The root by the marker: the directory itself, or the uppermost one that still has the marker.
def markedRoot (w : World) (t : ProjectType) (directory : String) : Except Error String :=
  if t.rootOnly || t.marker.isNone then .ok directory
  else t.rise w directory (above w directory)

-- The root to which a directory belongs. What the type's own finder says comes first.
def rootOf (w : World) (t : ProjectType) (directory : String) : Except Error String :=
  w.about directory (
    let directory := w.absoluteText directory
    match t.rootFinder with
    | none => t.markedRoot w directory
    | some find =>
      match find w directory with
      | .error e => .error e
      | .ok (some root) =>
        if root.isEmpty then t.markedRoot w directory
        else w.about root (.ok (w.absoluteText root))
      | .ok none => t.markedRoot w directory)

def asksAbove (w : World) (t : ProjectType) (directory : String) : Bool :=
  let directory := w.absoluteText directory
  let found :=
    match t.rootFinder.map fun find => find w directory with
    | none => false
    | some (.ok root) => root.any (!·.isEmpty)
    | some (.error _) => true
  !found && !t.rootOnly && t.marker.isSome && !(above w directory).isEmpty

end ProjectType

structure Owner where
  type : ProjectType
  root : String

namespace Registry

open ProjectType

def firstIn (w : World) (directory : String) : List ProjectType → Except Error (Option ProjectType)
  | [] => .ok none
  | t :: ts =>
    match t.detects w directory with
    | .error e => .error e
    | .ok true => .ok (some t)
    | .ok false => firstIn w directory ts

def askedIn (w : World) (directory : String) : List ProjectType → List ProjectType
  | [] => []
  | t :: ts =>
    match t.detects w directory with
    | .ok false => t :: askedIn w directory ts
    | _ => [t]

def firstAmong (w : World) (ts : List ProjectType) :
    List String → Except Error (Option (ProjectType × String))
  | [] => .ok none
  | directory :: rest =>
    match firstIn w directory ts with
    | .error e => .error e
    | .ok (some t) => .ok (some (t, directory))
    | .ok none => firstAmong w ts rest

def askedAmong (w : World) (ts : List ProjectType) : List String → List ProjectType
  | [] => []
  | directory :: rest =>
    match firstIn w directory ts with
    | .ok none => askedIn w directory ts ++ askedAmong w ts rest
    | _ => askedIn w directory ts

def detect (r : Registry) (w : World) (directory : String) : Except Error (Option ProjectType) :=
  w.about directory (firstIn w directory r.types)

def rooted (r : Registry) : List ProjectType :=
  r.types.filter fun t => t.rootOnly && !t.isGeneric

def ownedBy (w : World) (t : ProjectType) (directory : String) : Except Error (Option Owner) :=
  (t.rootOf w directory).map fun root => some ⟨t, root⟩

def ownerAbove (r : Registry) (w : World) (directory : String) (here : Option ProjectType) :
    Except Error (Option Owner) :=
  match firstAmong w r.rooted (above w directory) with
  | .error e => .error e
  | .ok (some (t, root)) => ownedBy w t root
  | .ok none =>
    match here with
    | some t => ownedBy w t directory
    | none => .ok none

def ownerOf (r : Registry) (w : World) (directory : String) : Except Error (Option Owner) :=
  match r.detect w directory with
  | .error e => .error e
  | .ok (some t) => if t.isGeneric then r.ownerAbove w directory (some t) else ownedBy w t directory
  | .ok none => r.ownerAbove w directory none

def owner (r : Registry) (w : World) (directory : String) : Except Error (Option Owner) :=
  w.about directory (r.ownerOf w (w.absoluteText directory))

def consult (r : Registry) (w : World) (directory : String) (asked : List ProjectType) : Registry :=
  if w.reaches directory then
    { r with
      types := r.types.map fun t => if asked.any (·.name == t.name) then t.consulted w else t }
  else r

def afterDetects (r : Registry) (w : World) (t : ProjectType) (directory : String) : Registry :=
  r.consult w directory [t]

def afterDetect (r : Registry) (w : World) (directory : String) : Registry :=
  r.consult w directory (askedIn w directory r.types)

def afterRootOf (r : Registry) (w : World) (t : ProjectType) (directory : String) : Registry :=
  r.consult w directory (if t.asksAbove w directory then [t] else [])

-- The types that are asked for the owner of an absolute directory: those that are tried in it, and
-- those that are tried above it unless a specific type is there.
def askedForOwner (r : Registry) (w : World) (directory : String) : List ProjectType :=
  let here := askedIn w directory r.types
  match r.detect w directory with
  | .error _ => here
  | .ok (some t) =>
    if t.isGeneric then here ++ askedAmong w r.rooted (above w directory) else here
  | .ok none => here ++ askedAmong w r.rooted (above w directory)

def afterOwner (r : Registry) (w : World) (directory : String) : Registry :=
  r.consult w directory (r.askedForOwner w (w.absoluteText directory))

end Registry
end SourceFlags
