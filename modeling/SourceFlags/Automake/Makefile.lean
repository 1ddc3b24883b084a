import SourceFlags.Automake.Expansion
import SourceFlags.Automake.Bindings
import SourceFlags.Project.Target
import SourceFlags.World.Basic

namespace SourceFlags.Automake

open Text

def fileName : String := "Makefile.am"

def configuration : String := "default"

-- Both paths are absolute and without links.
structure Makefile where
  root : Path
  directory : Path
  bindings : Table String
  deriving Repr

namespace Makefile

def read? (w : World) (root directory : Path) : Option Makefile :=
  match w.read (directory.append fileName).text with
  | .ok content => some ⟨root, directory, Automake.bindings content⟩
  | .error _ => none

def builtins (m : Makefile) : Table String :=
  let top := m.root.text
  let here := m.directory.text
  [("top_srcdir", top), ("abs_top_srcdir", top), ("top_builddir", top),
    ("srcdir", here), ("abs_srcdir", here), ("builddir", here)]

def value? (m : Makefile) (name : String) : Option String :=
  (m.bindings.get? name).map (expand m.bindings m.builtins)

def wordsOf (m : Makefile) (name : String) : List String :=
  (words ((m.value? name).getD "").toList).map String.ofList

def valuesOf (m : Makefile) (names : List String) : Bindings :=
  names.filterMap fun name => (m.value? name).map fun value => (name, value)

def directoryFlagNames : List String :=
  ["AM_CPPFLAGS", "AM_CFLAGS", "AM_CXXFLAGS", "INCLUDES", "DEFS"]

def targetFlagSuffixes : List String :=
  ["_CPPFLAGS", "_CFLAGS", "_CXXFLAGS"]

def directoryFlags (m : Makefile) : Bindings :=
  m.valuesOf directoryFlagNames

def targetFlags (m : Makefile) (target : String) : Bindings :=
  m.valuesOf (targetFlagSuffixes.map (canonicalName target ++ ·))

def place (m : Makefile) : String :=
  let way := Path.relative m.root m.directory
  if way.parts.isEmpty then "" else way.text

def declaresTargets (name : String) : Bool :=
  ["_PROGRAMS", "_LIBRARIES", "_LTLIBRARIES"].any (·.toList.isSuffixOf name.toList) &&
    !"EXTRA_".toList.isPrefixOf name.toList

def targetNames (m : Makefile) : List String :=
  (m.bindings.names.filter declaresTargets).flatMap m.wordsOf

-- The flags of the directory that its targets repeat. Those of the root directory are the
-- project's own.
def sharedFlags (m : Makefile) : Bindings :=
  if m.place.isEmpty then [] else m.directoryFlags

def target (m : Makefile) (path : String) (shared : Bindings) (name : String) : Target where
  name := name
  path := path
  sources := m.wordsOf (canonicalName name ++ "_SOURCES")
  configurations := [(configuration, shared ++ m.targetFlags name)]

def targets (m : Makefile) : List Target :=
  m.targetNames.map (m.target m.place m.sharedFlags)

-- The directories that are named, whether or not they have makefiles.
def subdirectories (m : Makefile) : List Path :=
  ((m.wordsOf "SUBDIRS").filter (· != ".")).map m.directory.append

end Makefile
end SourceFlags.Automake
