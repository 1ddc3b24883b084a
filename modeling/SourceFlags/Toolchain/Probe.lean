import SourceFlags.Settings
import SourceFlags.Toolchain.Language
import SourceFlags.Toolchain.MacroDump
import SourceFlags.Toolchain.SearchList
import SourceFlags.Toolchain.VersionReport

namespace SourceFlags

abbrev Probing := StateM History

namespace Probe

def locale : String := "C"

def nullFile : String := "/dev/null"

structure Answer where
  program : String
  arguments : List String
  code : Option Int
  output : String
  error : Option String
  deriving DecidableEq, Repr

def Answer.isLaunched (a : Answer) : Bool :=
  a.code.isSome

def Answer.isOk (a : Answer) : Bool :=
  a.code == some 0

def start (w : World) (run : Run) : Probing Outcome := fun past =>
  (w.respond past run, past ++ [run])

def Answer.ofOutcome (program : String) (arguments : List String) : Outcome → Answer
  | .exited code output => ⟨program, arguments, some code, output.getD "", none⟩
  | .timedOut => ⟨program, arguments, none, "", some "timeout"⟩
  | .notLaunched reason => ⟨program, arguments, none, "", some reason⟩

def query (w : World) (program : String) (arguments : List String) (input : Option String) :
    Probing Answer := do
  let run := fun fromHome => Run.mk (program :: arguments) input fromHome locale
  match ← start w (run false) with
  | .notLaunched _ => return .ofOutcome program arguments (← start w (run true))
  | outcome => return .ofOutcome program arguments outcome

-- The program for a language; a language that is not known is taken as a program itself.
def programFor (s : Settings) (language : String) : String :=
  if language = Language.c.name then s.compiler
  else if language = Language.cxx.name then s.cxxCompiler
  else language

def programOr (s : Settings) (language program : String) : String :=
  if program.isEmpty then programFor s language else program

def fields (w : World) (s : Settings) (program : String) : Probing VersionReport.Fields := do
  let answer ← query w (if program.isEmpty then s.compiler else program) ["-v"] none
  return if answer.isLaunched then VersionReport.read answer.output else []

def includePaths (w : World) (s : Settings) (language program : String) :
    Probing (List String) := do
  let answer ← query w (programOr s language program) ["-v", "-E", "-x", language, nullFile] none
  return if answer.isOk then (SearchList.read Platform.host answer.output).filter w.isSearchable
    else []

def macrosOf (a : Answer) : Option (List (String × String)) :=
  if a.isOk then some (MacroDump.read a.output) else none

-- The macros that are defined from the start, or nothing if the program fails.
def macros (w : World) (s : Settings) (language program : String) :
    Probing (Option (List (String × String))) := do
  return macrosOf
    (← query w (programOr s language program) ["-E", "-dM", "-x", language, nullFile] none)

def bufferOf (directives : List String) : String :=
  String.ofList (Text.join ['\n'] (directives.map String.toList) ++ ['\n'])

def sourceMacros (w : World) (s : Settings) (directives : List String) (language : String)
    (extra : List String) (program : String) : Probing (Option (List (String × String))) := do
  let arguments := extra ++ ["-E", "-dM", "-x", language, "-"]
  return macrosOf
    (← query w (programOr s language program) arguments (some (bufferOf directives)))

structure Guess where
  c : List String
  cxx : List String
  deriving DecidableEq, Repr

def isFilled (s : Option String) : Bool :=
  s.any (!·.isEmpty)

def guessCandidates (root : String) (version target : Option String) : Guess :=
  let general := Path.joinText root "include"
  let cxx := Path.joinText general "c++"
  let versioned := (version.filter (!·.isEmpty)).toList.flatMap fun version =>
    let directory := Path.joinText cxx version
    directory :: (target.filter (!·.isEmpty)).toList.map (Path.joinText directory)
  let usual := "/usr/include"
  ⟨[usual, general], [usual, general, cxx] ++ versioned⟩

def guess (w : World) (program : String) (version target : Option String) : Guess :=
  match w.which program with
  | none => ⟨[], []⟩
  | some file =>
    let root := (w.absolute file).parent.parent.text
    let found := guessCandidates root version target
    let existing := fun (ds : List String) => (ds.filter w.isSearchable).eraseDups
    ⟨existing found.c, existing found.cxx⟩

end Probe
end SourceFlags
