import SourceFlags.Error
import SourceFlags.World.FileTree

namespace SourceFlags

open Text

-- The way down that was taken from the top of a tree: each part with what it led to, the last part
-- first.
abbrev Trail := List (Part × FileTree)

namespace FileTree

def atEnd (t : FileTree) : Trail → FileTree
  | [] => t
  | (_, last) :: _ => last

def placeOf (trail : Trail) : Place :=
  (trail.map (·.1)).reverse

def goalStart (trail : Trail) (goal : String) : Trail :=
  if Path.isAbsolute goal then [] else trail

def goalParts (goal : String) : List Part :=
  splitOn '/' goal.toList

def maxName : Nat := 255

def absence (part : Part) : Errno :=
  if maxName < Utf8.size part then .nameTooLong else .noEntry

-- Follows parts from a directory. The trail to what they lead to has no link on it.
def follow (t : FileTree) (links : Nat) (trail : Trail) : List Part → Except Errno Trail
  | [] => .ok trail
  | part :: rest =>
    if !part.isEmpty && (t.atEnd trail).isClosed then .error .noAccess
    else if !Path.names part then t.follow links trail rest
    else if part = Path.up then t.follow links trail.tail rest
    else
      match (t.atEnd trail).child? part with
      | none => .error (absence part)
      | some (.directory access children) =>
        t.follow links ((part, .directory access children) :: trail) rest
      | some (.file content executable) =>
        if rest.isEmpty then .ok ((part, .file content executable) :: trail)
        else .error .notDirectory
      | some (.link goal) =>
        match links with
        | 0 => .error .tooManyLinks
        | links + 1 => t.follow links (goalStart trail goal) (goalParts goal ++ rest)
  termination_by parts => (links, parts.length)

def maxLinks : Nat := 40

def locate (t : FileTree) (parts : List Part) : Except Errno FileTree :=
  (t.follow maxLinks [] parts).map t.atEnd

abbrev Known := List (Place × Trail)

-- The trail that parts stand for once links are resolved; what does not exist holds nothing. There
-- is none where links lie deeper within each other's goals than `depth`.
def resolve? (t : FileTree) (depth : Nat) (known : Known) (trail : Trail) :
    List Part → Option (Trail × Known)
  | [] => some (trail, known)
  | part :: rest =>
    if !Path.names part then t.resolve? depth known trail rest
    else if part = Path.up then t.resolve? depth known trail.tail rest
    else
      match (t.atEnd trail).child? part with
      | some (.link goal) =>
        let place := placeOf ((part, .link goal) :: trail)
        match known.lookup place with
        | some trail => t.resolve? depth known trail rest
        | none =>
          match depth with
          | 0 => none
          | depth + 1 =>
            match t.resolve? depth known (goalStart trail goal) (goalParts goal) with
            | some (trail, known) => t.resolve? (depth + 1) ((place, trail) :: known) trail rest
            | none => none
      | next => t.resolve? depth known ((part, next.getD empty) :: trail) rest
  termination_by parts => (depth, parts.length)

-- Only links that lead back to themselves lie deeper than there are links. A path through such a
-- link is kept as written.
def resolve (t : FileTree) (parts : List Part) : Place :=
  match t.resolve? t.countLinks [] [] parts with
  | some (trail, _) => placeOf trail
  | none => parts.filter Path.names

def site (t : FileTree) (parts : List Part) : Place :=
  match parts.getLast? with
  | some last => t.resolve parts.dropLast ++ [last]
  | none => []

-- Creates something with the directories above it. Files are written to where a link leads that is
-- there already. A directory that is there already is left as it is.
def create (t : FileTree) (parts : List Part) (e : FileTree) : FileTree :=
  let t := t.makeDirectories (t.site parts).dropLast
  match e with
  | .link _ => t.put e (t.site parts)
  | .file .. => t.put e (t.resolve parts)
  | .directory .. =>
    if ((t.find? (t.resolve parts)).any isDirectory) then t else t.put e (t.resolve parts)

end FileTree
end SourceFlags
