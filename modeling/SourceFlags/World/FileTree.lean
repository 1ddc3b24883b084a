import SourceFlags.Path.Basic
import SourceFlags.Text.Utf8

namespace SourceFlags

open Text

-- A file holds a text, or octets that are read as one.
inductive Content
  | text (s : String)
  | octets (bs : List UInt8)
  deriving DecidableEq, Repr

def Content.read : Content → String
  | .text s => String.ofList (foldNewlines s.toList)
  | .octets bs => String.ofList (foldNewlines (Utf8.decode bs).toList)

structure Access where
  lists : Bool
  searches : Bool
  deriving DecidableEq, Repr

def Access.full : Access :=
  ⟨true, true⟩

-- Of two children with one name, the first one counts.
inductive FileTree
  | file (content : Content) (executable : Bool)
  | link (goal : String)
  | directory (access : Access) (children : List (Part × FileTree))
  deriving Repr

abbrev Place := List Part

namespace FileTree

def empty : FileTree :=
  .directory .full []

def child? (t : FileTree) (part : Part) : Option FileTree :=
  match t with
  | .directory access children => if access.searches then children.lookup part else none
  | _ => none

def find? (t : FileTree) : Place → Option FileTree
  | [] => some t
  | part :: place =>
    match t.child? part with
    | some c => c.find? place
    | none => none

def isFile : FileTree → Bool
  | .file .. => true
  | _ => false

def isDirectory : FileTree → Bool
  | .directory .. => true
  | _ => false

def isClosed : FileTree → Bool
  | .directory access _ => !access.searches
  | _ => false

def isProgram : FileTree → Bool
  | .file _ executable => executable
  | _ => false

mutual

def directories : FileTree → List Place
  | .directory _ children => [] :: directoriesIn children
  | _ => []

def directoriesIn : List (Part × FileTree) → List Place
  | [] => []
  | (part, t) :: ts => t.directories.map (part :: ·) ++ directoriesIn ts

end

mutual

def countLinks : FileTree → Nat
  | .file .. => 0
  | .link _ => 1
  | .directory _ children => countLinksIn children

def countLinksIn : List (Part × FileTree) → Nat
  | [] => 0
  | (_, t) :: ts => t.countLinks + countLinksIn ts

end

def others (part : Part) (children : List (Part × FileTree)) : List (Part × FileTree) :=
  children.filter (·.1 != part)

-- Puts something under a name, over what is there. What is no directory becomes one.
def setChild (t : FileTree) (part : Part) (c : FileTree) : FileTree :=
  match t with
  | .directory access children => .directory access ((part, c) :: others part children)
  | _ => .directory .full [(part, c)]

def dropChild (t : FileTree) (part : Part) : FileTree :=
  match t with
  | .directory access children => .directory access (others part children)
  | t => t

def childOrNew (t : FileTree) (part : Part) : FileTree :=
  (t.child? part).getD empty

def put (t : FileTree) (e : FileTree) : Place → FileTree
  | [] => e
  | part :: place => t.setChild part ((t.childOrNew part).put e place)

def makeDirectories (t : FileTree) : Place → FileTree
  | [] => t
  | part :: place => t.setChild part ((t.childOrNew part).makeDirectories place)

def remove (t : FileTree) : Place → FileTree
  | [] => t
  | [part] => t.dropChild part
  | part :: place =>
    match t.child? part with
    | some c => t.setChild part (c.remove place)
    | none => t

theorem lookup_of_child? {access : Access} {children : List (Part × FileTree)} {part : Part}
    {c : FileTree} (h : (directory access children).child? part = some c) :
    children.lookup part = some c := by
  simp only [child?] at h
  split at h
  next => exact h
  next => cases h

theorem mem_directoriesIn_of_lookup {children : List (Part × FileTree)} {part : Part}
    {c : FileTree} {place : Place} (h : children.lookup part = some c) (hp : place ∈ c.directories) :
    part :: place ∈ directoriesIn children := by
  induction children with
  | nil => simp at h
  | cons d children ih =>
    obtain ⟨p, d⟩ := d
    simp only [directoriesIn, List.mem_append, List.mem_map, List.cons.injEq]
    rw [List.lookup_cons] at h
    split at h
    next hq =>
      cases h
      exact .inl ⟨place, hp, (beq_iff_eq.mp hq).symm, rfl⟩
    next => exact .inr (ih h)

theorem mem_directories_of_find? {t d : FileTree} {place : Place} (h : t.find? place = some d)
    (hd : d.isDirectory = true) : place ∈ t.directories := by
  induction place generalizing t with
  | nil =>
    cases h
    cases d <;> simp_all [isDirectory, directories]
  | cons part place ih =>
    simp only [find?] at h
    split at h
    next c hc =>
      cases t with
      | directory access children =>
        have hl : children.lookup part = some c := lookup_of_child? hc
        exact List.mem_cons_of_mem _ (mem_directoriesIn_of_lookup hl (ih h))
      | file => simp [child?] at hc
      | link => simp [child?] at hc
    next => simp at h

end FileTree
end SourceFlags
