import SourceFlags.Path.Basic
import SourceFlags.Text.Case

namespace SourceFlags

inductive Language
  | c
  | cxx
  deriving DecidableEq, Repr

namespace Language

def name : Language → String
  | .c => "c"
  | .cxx => "c++"

def cxxSuffixes : List String :=
  [".cc", ".cpp", ".cxx", ".c++", ".hh", ".hpp", ".hxx", ".h++", ".ipp", ".tcc"]

def ofFile (path : String) : Language :=
  let suffix := String.ofList (Path.suffix (Path.ofText path).name)
  if cxxSuffixes.contains (Text.lower suffix) then .cxx else .c

example : ofFile "a.CPP" = .cxx ∧ ofFile "a.c" = .c ∧ ofFile ".cc" = .c ∧ ofFile "a.cpp." = .c := by
  decide +kernel

end Language
end SourceFlags
