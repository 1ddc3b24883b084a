import SourceFlags.Error
import SourceFlags.Matcher.Pattern
import SourceFlags.Value
import SourceFlags.World.Basic

namespace SourceFlags

open Text

structure Inquiry where
  kind : String
  shown : String
  answer : World → Except Error Value

inductive Source
  | path (s : String)
  | asked (i : Inquiry)
  | odd (v : Value)

namespace Source

def kind : Source → String
  | .path _ => (Value.text "").kind
  | .asked i => i.kind
  | .odd v => v.kind

def shown : Source → String
  | .path s => quoted s
  | .asked i => i.shown
  | .odd v => v.shown

def unknown (s : Source) : Error :=
  .sourceUnknown s.kind s.shown

def fromHome (w : World) (path : String) : Except Error (Option Path) :=
  match Path.fromHome? w.home (Path.ofText path) with
  | some p => .ok (some p)
  | none => .error (.unknownUser path)

def file (w : World) (s : Source) : Except Error (Option Path) :=
  match s with
  | .path p => fromHome w p
  | .asked i =>
    match i.answer w with
    | .error e => .error e
    | .ok .null => .ok none
    | .ok (.text p) => fromHome w p
    | .ok _ => .error s.unknown
  | .odd _ => .error s.unknown

end Source

structure FileMatcher where
  source : Source
  pattern : Pattern
  group : Int
  stash : Option String

namespace FileMatcher

def isInstalled (w : World) (m : FileMatcher) : Except Error Bool :=
  match m.source.file w with
  | .error e => .error e
  | .ok none => .ok false
  | .ok (some p) => w.checkFile p.text

def select (m : FileMatcher) (groups : Groups) : Except Error Chars :=
  if m.group < 0 then .error (.noSuchGroup m.group)
  else
    match groups[m.group.toNat]? with
    | none => .error (.noSuchGroup m.group)
    | some none => .error (.absentGroup m.group)
    | some (some cs) => .ok cs

def valueIn (w : World) (m : FileMatcher) (content : String) : Except Error (Option String) :=
  match m.pattern.search content with
  | none => .ok none
  | some groups =>
    match m.select groups with
    | .error e => .error e
    | .ok cs => .ok (some (Path.expandHome w.home (String.ofList (trim cs))))

-- The text that is looked for: the remembered one, or the one that the file holds now.
def value (w : World) (m : FileMatcher) : Except Error (Option String) :=
  match m.stash with
  | some v => .ok (some v)
  | none =>
    match m.source.file w with
    | .error e => .error e
    | .ok none => .ok none
    | .ok (some p) =>
      match w.read p.text with
      | .error _ => .ok none
      | .ok content => m.valueIn w content

def accepts (w : World) (m : FileMatcher) (path : String) : Except Error Bool :=
  match m.isInstalled w with
  | .error e => .error e
  | .ok false => .ok false
  | .ok true =>
    match m.value w with
    | .error e => .error e
    | .ok none => .ok false
    | .ok (some v) => .ok (occursIn v.toList path.toList)

def consulted (w : World) (m : FileMatcher) : FileMatcher :=
  match m.isInstalled w, m.value w with
  | .ok true, .ok v => { m with stash := v }
  | _, _ => m

end FileMatcher

inductive Matcher
  | literal (s : String)
  | file (m : FileMatcher)

namespace Matcher

def isInstalled (w : World) : Matcher → Except Error Bool
  | .literal _ => .ok true
  | .file m => m.isInstalled w

def accepts (w : World) (m : Matcher) (path : String) : Except Error Bool :=
  match m with
  | .literal s => .ok (occursIn s.toList path.toList)
  | .file m => m.accepts w path

def consulted (w : World) : Matcher → Matcher
  | .literal s => .literal s
  | .file m => .file (m.consulted w)

def stash : Matcher → Option String
  | .literal _ => none
  | .file m => m.stash

def shown : Matcher → String
  | .literal s => "LiteralDirMatcher(" ++ quoted s ++ ")"
  | .file m =>
    "ConfigDirMatcher(" ++ m.source.shown ++ ", " ++ quoted m.pattern.text ++ ", " ++
      toString m.group ++ ")"

end Matcher

theorem FileMatcher.value_of_stash {m : FileMatcher} {v : String} (w : World)
    (h : m.stash = some v) : m.value w = .ok (some v) := by
  simp [value, h]

end SourceFlags
