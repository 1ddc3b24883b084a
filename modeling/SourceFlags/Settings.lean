import SourceFlags.Decimal.Literal
import SourceFlags.Decimal.Shortest
import SourceFlags.Error
import SourceFlags.Text.Case
import SourceFlags.World.Basic

namespace SourceFlags

open Text

structure Settings where
  compiler : String
  cxxCompiler : String
  preprocessor : String
  trustedDirectories : List String
  probeTimeout : Decimal.Binary
  logLevel : String
  logFormat : String
  deriving DecidableEq, Repr

namespace Settings

def standard : Settings where
  compiler := "gcc"
  cxxCompiler := "c++"
  preprocessor := "cpp"
  trustedDirectories := []
  probeTimeout := .ofDecimal false 30 0
  logLevel := "INFO"
  logFormat := "console"

def pathsOf (s : String) : List String :=
  ((splitOn ':' s.toList).filter (!·.isEmpty)).map String.ofList

def timeoutOf : Option String → Except Error Decimal.Binary
  | none => .ok standard.probeTimeout
  | some s =>
    match Decimal.ofText? s with
    | some x => .ok x
    | none => .error (.badNumber s)

def fromEnvironment (w : World) : Except Error Settings :=
  let given := fun name usual => (w.valueOf? name).getD usual
  (timeoutOf (w.valueOf? "ZFLAGS_PROBE_TIMEOUT")).map fun probeTimeout =>
    { compiler := given "ZFLAGS_COMPILER" standard.compiler
      cxxCompiler := given "ZFLAGS_CXX" standard.cxxCompiler
      preprocessor := given "ZFLAGS_CPP" standard.preprocessor
      trustedDirectories := pathsOf (given "ZFLAGS_TRUSTED_DIRS" "")
      probeTimeout
      logLevel := upper (given "ZFLAGS_LOG_LEVEL" standard.logLevel)
      logFormat := lower (given "ZFLAGS_LOG_FORMAT" standard.logFormat) }

end Settings
end SourceFlags
