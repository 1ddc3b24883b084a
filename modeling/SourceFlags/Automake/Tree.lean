import SourceFlags.Automake.Makefile
import SourceFlags.Project.Basic

namespace SourceFlags.Automake

def without (places : List Place) (place : Place) : List Place :=
  places.filter (· != place)

theorem without_length_lt {places : List Place} {place : Place} (h : place ∈ places) :
    (without places place).length < places.length :=
  List.length_filter_lt_length_iff_exists.mpr ⟨place, h, by simp⟩

-- A directory that waits to be visited, and how many visits that one lies within.
structure Visit where
  path : Path
  depth : Nat

def Makefile.visits (m : Makefile) (depth : Nat) : List Visit :=
  m.subdirectories.map (⟨·, depth⟩)

def Visit.enter (w : World) (visit : Visit) : Except Error (Option Path) :=
  match w.checkFile (visit.path.append fileName).text with
  | .error e => .error e
  | .ok false => .ok none
  | .ok true =>
    if w.nesting < visit.depth then .error .tooDeep else (w.resolved visit.path.text).map some

-- The makefiles of the waiting directories and of all that they lead to, each directory before
-- those that it names. Those that have been visited, or that do not exist, are not among the unseen
-- ones, so cycles end.
def walk (w : World) (root : Path) (unseen : List Place) :
    (waiting : List Visit) → Except Error (List Makefile)
  | [] => .ok []
  | visit :: waiting =>
    match visit.enter w with
    | .error e => .error e
    | .ok none => walk w root unseen waiting
    | .ok (some directory) =>
      if directory.parts ∈ unseen then
        let unseen := without unseen directory.parts
        match Makefile.read? w root directory with
        | some m => (walk w root unseen (m.visits (visit.depth + 1) ++ waiting)).map (m :: ·)
        | none => walk w root unseen waiting
      else walk w root unseen waiting
  termination_by waiting => (unseen.length, waiting.length)
  decreasing_by
    · exact Prod.Lex.right _ (Nat.lt_succ_self _)
    · exact Prod.Lex.left _ _ (without_length_lt ‹_›)
    · exact Prod.Lex.left _ _ (without_length_lt ‹_›)
    · exact Prod.Lex.right _ (Nat.lt_succ_self _)

-- The root is visited without a look whether it has a makefile.
def makefiles (w : World) (root : Path) : Except Error (List Makefile) :=
  match Makefile.read? w root root with
  | some m => (walk w root (without w.files.directories root.parts) (m.visits 1)).map (m :: ·)
  | none => .ok []

-- The variables of the root directory are the flags of the project.
def project (cwd : String) (root : Path) (all : List Makefile) : Project :=
  let own := (all.head?.map Makefile.directoryFlags).getD []
  Project.settle cwd
    { Project.bare root.text (.described own [] configuration) with
      targets := .known (all.flatMap Makefile.targets) }

def load (w : World) (path : String) : Except Error Project :=
  (w.resolved path).bind fun root => (makefiles w root).map (project w.cwd root)

end SourceFlags.Automake
