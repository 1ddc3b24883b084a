import SourceFlags.Project.Basic
import SourceFlags.Text.Case
import SourceFlags.World.Basic

namespace SourceFlags.Kernel

open Text

def marker : String := "scripts/ver_linux"

def versionNames : List String :=
  ["VERSION", "PATCHLEVEL", "SUBLEVEL", "EXTRAVERSION"]

def versionField? (line : Chars) : Option (String × String) :=
  versionNames.findSome? fun name => do
    let rest ← after? name.toList line
    let rest ← after? ['='] (rest.dropWhile isSpaceOrTab)
    some (name, String.ofList ((rest.dropWhile isSpaceOrTab).takeWhile (!isBlank ·)))

def versionFields (content : String) : Table String :=
  Table.ofPairs ((feedLines content.toList).filterMap versionField?)

def versionOf (fields : Table String) : Option String :=
  let number? := fun name => (fields.get? name).filter (!·.isEmpty)
  match number? "VERSION" with
  | none => none
  | some _ =>
    let numbers := ["VERSION", "PATCHLEVEL", "SUBLEVEL"].filterMap number?
    some (String.ofList (join ['.'] (numbers.map String.toList)) ++
      (fields.get? "EXTRAVERSION").getD "")

def version (w : World) (root : String) : Option String :=
  match w.read ((Path.ofText root).append "Makefile").text with
  | .ok content => versionOf (versionFields content)
  | .error _ => none

def architectures : List (String × String) :=
  [("x86_64", "x86"), ("amd64", "x86"), ("i386", "x86"), ("i686", "x86"), ("aarch64", "arm64"),
   ("arm64", "arm64"), ("armv7l", "arm"), ("armv6l", "arm"), ("ppc64", "powerpc"),
   ("ppc64le", "powerpc"), ("riscv64", "riscv"), ("s390x", "s390"), ("mips", "mips"),
   ("mips64", "mips")]

def architectureName (w : World) : String :=
  match (w.valueOf? "ARCH").filter (!·.isEmpty) with
  | some name => name
  | none => (architectures.lookup (lower w.machine)).getD "x86"

-- Its directory is looked for, but need not be there.
def architecture (w : World) (root : String) : Except Error String :=
  let name := architectureName w
  (w.checkDirectory (((Path.ofText root).append "arch").append name).text).map fun _ => name

def includePaths (root buildDirectory architecture : String) : List String :=
  let below := fun base parts => parts.foldl Path.joinText base
  [below root ["arch", architecture, "include"],
   below buildDirectory ["arch", architecture, "include", "generated"],
   below root ["include"],
   below root ["arch", architecture, "include", "uapi"],
   below buildDirectory ["arch", architecture, "include", "generated", "uapi"],
   below root ["include", "uapi"],
   below buildDirectory ["include", "generated", "uapi"]]

def filled (s : Option String) : Option String :=
  s.filter (!·.isEmpty)

def buildDirectory (w : World) (root : String) (given : Option String) : String :=
  ((filled given).or (filled (w.valueOf? "KBUILD_OUTPUT"))).getD root

def project (w : World) (root build arch : String) : Project :=
  let name := ((version w root).map ("linux-" ++ ·)).getD "linux"
  Project.settle w.cwd
    { Project.bare root (.kernel build arch) with
      name := .text name
      includePaths := .texts (includePaths root build arch) }

-- Architecture and build directory may be given; empty ones are not.
def load (w : World) (path : String) (architecture? buildDirectory? : Option String) :
    Except Error Project :=
  let root := w.absoluteText path
  let build := buildDirectory w root buildDirectory?
  let arch := (filled architecture?).elim (architecture w root) .ok
  w.about path (arch.bind fun arch =>
    w.about build (.ok (project w root (w.absoluteText build) arch)))

end SourceFlags.Kernel
