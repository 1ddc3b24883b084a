import SourceFlags.Project.Arguments
import SourceFlags.Project.List
import SourceFlags.World.Basic

namespace SourceFlags

namespace Project

-- A project as it is made, with a root that may lead nowhere.
def settleAt (w : World) (p : Project) : Except Error Project :=
  w.about p.root (.ok (p.settle w.cwd))

def containsAt (w : World) (p : Project) (path : String) : Except Error Bool :=
  w.about path (.ok (p.contains w.cwd path))

def targetForAt (w : World) (p : Project) (source : String) : Except Error (Option Target) :=
  w.about source (p.targetFor w.cwd source)

def argumentsAt (w : World) (p : Project) (choice : Choice) (source : Option String) :
    Except Error (List String) :=
  let answer := p.arguments w.cwd choice source
  if p.asksFor choice source then w.about (source.getD "") answer else answer

end Project

-- Without projects nothing is asked of the path.
def ProjectList.findAt (w : World) (l : ProjectList) (path : String) :
    Except Error (Option Loaded) :=
  if l.isEmpty then .ok none else w.about path (.ok (l.find w.cwd path))

end SourceFlags
