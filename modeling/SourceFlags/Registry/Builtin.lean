import SourceFlags.ProjectType.Recipe
import SourceFlags.Registry.Basic

namespace SourceFlags.Registry

def marked (name marker : String) (rootOnly : Bool) (load : Load) : ProjectType where
  name := name
  marker := some (.file marker)
  matcher := none
  rootOnly := rootOnly
  rootFinder := none
  load := load
  isSafe := true
  isChoice := false
  isGeneric := false

-- Descriptions can carry forms that are executed, so their types are not safe.
def described (name : String) (marker : Marker) (makefile : String) : ProjectType :=
  { marked name "" false (Recipe.buildDescription.load [("makefile_type", .text makefile)]) with
    marker := some marker
    isSafe := false
    isChoice := true }

def sketchbook : Matcher :=
  .file
    { source := .asked ⟨"function", "preferences", fun w => (Sketch.preferences w).map .text⟩
      pattern := .sketchbook
      group := 1
      stash := none }

def specificTypes : List ProjectType :=
  [described "edeproject-automake"
      (.found fun w directory => .ok (.ofText? (BuildDescription.automakeMarker w directory)))
      "Makefile.am",
   described "edeproject-makefile" (.file BuildDescription.fileName) "Makefile",
   marked "automake" Automake.fileName false (Recipe.automake.load []),
   marked "linux" Kernel.marker true (Recipe.kernel.load []),
   { marked "arduino" "" true (Recipe.sketch.load []) with
     marker := some (.found fun _ directory => .ok (.text (Sketch.marker directory)))
     matcher := some sketchbook
     rootFinder := some Sketch.root? }]

def genericMarkers : List (String × String × Bool) :=
  [("generic-makefile", "Makefile", false), ("generic-scons", "SConstruct", true),
   ("generic-cmake", "CMakeLists.txt", false), ("generic-git", ".git", true),
   ("generic-bzr", ".bzr", true), ("generic-hg", ".hg", true), ("generic-svn", ".svn", false),
   ("generic-cvs", "CVS", false)]

def genericTypes : List ProjectType :=
  genericMarkers.map fun (name, marker, rootOnly) =>
    marked name marker rootOnly (Recipe.generic.load [("project_type", .text name)])

def builtin : Registry :=
  let r := empty.seed specificTypes
  { r with types := genericTypes.foldl (fun ts t => place t .generic ts) r.types }

end SourceFlags.Registry
