import SourceFlags.Path.Basic
import SourceFlags.Toolchain.Platform

namespace SourceFlags.SearchList

open Text

def startMarker : Chars := "#include <...> search starts here:".toList

def endMarker : Chars := "End of search list.".toList

def frameworkMark : Chars := " (framework directory)".toList

def isStart (line : Chars) : Bool :=
  match after? startMarker line with
  | some rest => rest.all isBlank
  | none => false

def isEnd (line : Chars) : Bool :=
  endMarker.isPrefixOf line

-- The lines after the first start marker, up to an end marker or the end of the text.
def block (ls : List Chars) : List Chars :=
  ((ls.dropWhile (!isStart ·)).drop 1).takeWhile (!isEnd ·)

def listed? : Chars → Option Chars
  | ' ' :: c :: cs => if isBlank c then none else some (trimEnd (c :: cs))
  | _ => none

def withoutMark (entry : Chars) : Chars :=
  if frameworkMark.isSuffixOf entry then entry.take (entry.length - frameworkMark.length) else entry

def directory? (platform : Platform) (line : Chars) : Option String :=
  (listed? line).bind fun entry =>
    let path := String.ofList (withoutMark entry)
    if platform.isAbsolute path then some (Path.normalText path) else none

def read (platform : Platform) (output : String) : List String :=
  ((block (feedLines output.toList)).flatMap lines).filterMap (directory? platform)

end SourceFlags.SearchList
