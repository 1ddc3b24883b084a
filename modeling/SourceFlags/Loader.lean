import SourceFlags.Project.List
import SourceFlags.Registry.Owner
import SourceFlags.Trust

namespace SourceFlags

structure LoaderRun where
  type : ProjectType
  directory : String

structure Loader where
  registry : Registry
  trust : Trust
  projects : ProjectList
  -- How many projects have been made; it numbers the next one.
  made : Nat
  runs : List LoaderRun

namespace Loader

def ofRegistry (r : Registry) (t : Trust) : Loader :=
  ⟨r, t, [], 0, []⟩

def allows (w : World) (l : Loader) (t : ProjectType) (directory : String) : Bool :=
  t.isSafe || l.trust.isTrusted w.cwd directory

def ran (l : Loader) (t : ProjectType) (directory : String) : Loader :=
  { l with runs := l.runs ++ [⟨t, directory⟩] }

-- Enters a new project, unless there is one for its root.
def keep (l : Loader) (p : Project) : Loaded × Loader :=
  let (m, projects) := l.projects.add ⟨l.made, p⟩
  (m, { l with projects, made := l.made + 1 })

def loadAt (w : World) (l : Loader) (t : ProjectType) (directory : String) :
    Except Error Loaded × Loader :=
  if l.allows w t directory then
    let l := l.ran t directory
    match t.load w directory with
    | .error e => (.error e, l)
    | .ok none => (.error (.nothingLoaded t.name directory), l)
    | .ok (some p) =>
      let (m, l) := l.keep p
      (.ok m, l)
  else (.error (.untrusted t.name directory), l)

def load (w : World) (l : Loader) (t : ProjectType) (directory : String) :
    Except Error Loaded × Loader :=
  if w.reaches directory then l.loadAt w t (w.absoluteText directory) else (.error .cwdGone, l)

def loadFor (w : World) (l : Loader) (directory : String) :
    Except Error (Option Loaded) × Loader :=
  if w.reaches directory then
    match l.projects.find w.cwd directory with
    | some m => (.ok (some m), l)
    | none =>
      let asked := { l with registry := l.registry.afterOwner w directory }
      match l.registry.owner w directory with
      | .error e => (.error e, asked)
      | .ok none => (.ok none, asked)
      | .ok (some owner) =>
        let (r, l) := asked.load w owner.type owner.root
        (r.map some, l)
  else (.error .cwdGone, l)

def trustAlso (w : World) (l : Loader) (directory : String) : Loader :=
  { l with trust := l.trust.add w directory }

def trustAt (w : World) (l : Loader) (directory : String) : Except Error Unit × Loader :=
  if w.reaches (Path.expandHome w.home directory) then (.ok (), l.trustAlso w directory)
  else (.error .cwdGone, l)

end Loader
end SourceFlags
