import SourceFlags.Project.Target

namespace SourceFlags

open Text

inductive Variant
  | plain
  | rooted
  | kernel (buildDirectory architecture : String)
  | described (bindings : Bindings) (configurations : Configurations) (configuration : String)
  | marked (type : Value)
  deriving Repr, Inhabited

namespace Variant

def kind : Variant → String
  | .plain => "Project"
  | .rooted => "CppRootProject"
  | .kernel .. => "KernelProject"
  | .described .. => "BuildDescriptionProject"
  | .marked _ => "GenericProject"

def settle (v : Variant) (root : String) : Variant :=
  match v with
  | .kernel buildDirectory architecture =>
    .kernel (if buildDirectory.isEmpty then root else buildDirectory) architecture
  | v => v

end Variant

structure Project where
  root : String
  name : Value
  includePaths : Value
  systemIncludePaths : Value
  -- A record of macros, where null stands for one without a value.
  macros : Value
  targets : Targets
  variant : Variant
  deriving Repr, Inhabited

namespace Project

def kind (p : Project) : String :=
  p.variant.kind

-- An absolute path without slashes at its end, unless it is nothing else.
def rootOf (cwd path : String) : String :=
  let cs := ((Path.absoluteText cwd path).toList.reverse.dropWhile (· == '/')).reverse
  if cs.isEmpty then "/" else String.ofList cs

-- Makes the root absolute, and takes from it what the project does not say itself.
def settle (cwd : String) (p : Project) : Project :=
  let root := rootOf cwd p.root
  { p with
    root
    name := if p.name.isVoid then .text (String.ofList (Path.ofText root).name) else p.name
    variant := p.variant.settle root }

def bare (root : String) (variant : Variant) : Project where
  root := root
  name := .text ""
  includePaths := .list []
  systemIncludePaths := .list []
  macros := .record []
  targets := .known []
  variant := variant

def ofRoot (cwd root : String) (variant : Variant) : Project :=
  (bare root variant).settle cwd

def contains (cwd : String) (p : Project) (path : String) : Bool :=
  let candidate := Path.absoluteText cwd path
  let start := if p.root.toList.getLast? == some '/' then p.root else p.root ++ "/"
  candidate == p.root || start.toList.isPrefixOf candidate.toList

def targetFor (cwd : String) (p : Project) (source : String) : Except Error (Option Target) :=
  let file := Path.absoluteText cwd source
  p.targets.list.map (·.find? (·.names p.root file))

@[simp]
theorem settle_root (cwd : String) (p : Project) : (p.settle cwd).root = rootOf cwd p.root := by
  simp only [settle]

@[simp]
theorem settle_kind (cwd : String) (p : Project) : (p.settle cwd).kind = p.kind := by
  simp only [settle, kind, Variant.settle]
  split
  next h => simp [h, Variant.kind]
  next => rfl

example : rootOf "/w" "a/" = "/w/a" ∧ rootOf "/w" "/" = "/" ∧ rootOf "/w" "//" = "/" := by
  decide +kernel

end Project
end SourceFlags
