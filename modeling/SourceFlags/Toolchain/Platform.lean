import SourceFlags.Text.Lines

namespace SourceFlags

open Text

abbrev Platform := String

namespace Platform

def host : Platform := "linux"

def orHost (p : Option Platform) : Platform :=
  match p with
  | some p => if p.isEmpty then host else p
  | none => host

def usesDrives (p : Platform) : Bool :=
  ["win32", "cygwin", "msys"].any fun s => s.toList.isPrefixOf p.toList

def startsAtDrive : Chars → Bool
  | '\\' :: '\\' :: _ => true
  | c :: ':' :: s :: _ => c.isAlpha && (s == '\\' || s == '/')
  | _ => false

def isAbsolute (p : Platform) (path : String) : Bool :=
  if p.usesDrives then startsAtDrive path.toList else path.toList.head? == some '/'

end Platform
end SourceFlags
