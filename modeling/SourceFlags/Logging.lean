import SourceFlags.Error
import SourceFlags.Text.Case

namespace SourceFlags.Logging

open Text

def levels : List (String × Nat) :=
  [("CRITICAL", 50), ("FATAL", 50), ("ERROR", 40), ("WARN", 30), ("WARNING", 30), ("INFO", 20),
   ("DEBUG", 10), ("NOTSET", 0)]

inductive Format
  | console
  | json
  deriving DecidableEq, Repr

def Format.name : Format → String
  | .console => "console"
  | .json => "json"

-- An unknown format is taken as the one for people.
def Format.ofName (s : String) : Format :=
  if lower s = Format.json.name then .json else .console

structure Setup where
  level : Nat
  otherLevel : Nat
  format : Format
  deriving DecidableEq, Repr

def setup (level format : String) : Except Error Setup :=
  let name := upper level
  match levels.lookup name with
  | some level => .ok ⟨level, 30, .ofName format⟩
  | none => .error (.unknownLogLevel name)

end SourceFlags.Logging
