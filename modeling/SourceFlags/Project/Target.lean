import SourceFlags.Path.Basic
import SourceFlags.Table
import SourceFlags.Value

namespace SourceFlags

abbrev Bindings := List (String × String)

abbrev Configurations := Table Bindings

structure Target where
  name : String
  -- The directory of the sources, seen from the project's root.
  path : String
  sources : List String
  configurations : Configurations
  deriving DecidableEq, Repr, Inhabited

def Configurations.bindings (cs : Configurations) (configuration : String) : Bindings :=
  (cs.get? configuration).getD []

namespace Target

def files (t : Target) (root : String) : List String :=
  let directory := Path.joinText root t.path
  t.sources.map fun source => Path.normalText (Path.joinText directory source)

def names (t : Target) (root file : String) : Bool :=
  (t.files root).contains file

end Target

inductive Targets
  | known (ts : List Target)
  | odd (v : Value)
  deriving Repr, Inhabited

-- No value is a target, so a value only serves if it holds nothing.
def Targets.list : Targets → Except Error (List Target)
  | .known ts => .ok ts
  | .odd v =>
    match v.items with
    | .error e => .error e
    | .ok [] => .ok []
    | .ok _ => .error .noMember

end SourceFlags
