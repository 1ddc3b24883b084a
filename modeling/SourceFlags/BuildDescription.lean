import SourceFlags.Error
import SourceFlags.Project.Basic
import SourceFlags.SExpr.Reader
import SourceFlags.Text.WordChar
import SourceFlags.World.Basic

namespace SourceFlags.BuildDescription

open Text SExpr

def fileName : String := "Project.ede"

def defaultConfiguration : String := "debug"

def path (directory : String) : Path :=
  (Path.ofText directory).append fileName

-- The forms that a form holds; a text holds its characters.
def items (f : Form) : Except Error (List Form) :=
  if f.isVoid then .ok []
  else
    match f with
    | .list fs => .ok fs
    | .pair a b => .ok [a, b]
    | .str s => .ok (s.toList.map fun c => .str (String.singleton c))
    | .sym s => .ok (s.toList.map fun c => .str (String.singleton c))
    | _ => .error .notIterable

-- A pair as a variable; a value of nil is empty.
def binding? : Form → Option (String × String)
  | .pair name .nil => some (name.text, "")
  | .pair name value => some (name.text, value.text)
  | _ => none

def bindingsOf (fs : List Form) : Bindings :=
  fs.filterMap binding?

def configuration? : Form → Option (String × Bindings)
  | .list (f :: fs) => f.name?.map fun name => (name, bindingsOf fs)
  | _ => none

-- What is said of one configuration in several places is put together.
def gather (cs : Configurations) (c : String × Bindings) : Configurations :=
  cs.put c.1 (cs.bindings c.1 ++ c.2)

def configurationsOf (fs : List Form) : Configurations :=
  (fs.filterMap configuration?).foldl gather []

def bindings (slot : Form) : Except Error Bindings :=
  (items slot).map bindingsOf

def configurations (slot : Form) : Except Error Configurations :=
  (items slot).map configurationsOf

def slot (t : Table Form) (name : String) : Form :=
  (t.get? name).getD .nil

def textOr (f other : Form) : String :=
  if f.isVoid then other.text else f.text

def listName : String := "list"

def listItems : Form → List Form
  | .list [] => []
  | .list (f :: fs) => if f.name? == some listName then fs else f :: fs
  | _ => []

def target? : Form → Option (Except Error Target)
  | .list (.sym _ :: name :: fs) =>
    let t := slots fs
    some (
      match items (slot t "source"), configurations (slot t "configuration-variables") with
      | .ok sources, .ok cs =>
        .ok ⟨textOr (slot t "name") name, textOr (slot t "path") (.str ""),
          sources.map Form.text, cs⟩
      | .error e, _ => .error e
      | _, .error e => .error e)
  | _ => none

def targets (slot : Form) : Except Error (List Target) :=
  ((listItems slot).filterMap target?).mapM id

def projectClass : String := "ede-proj-project"

def projectForm? : Form → Option (List Form)
  | .list (.sym s :: fs) => if projectClass.toList.isPrefixOf s.toList then some fs else none
  | _ => none

def project (cwd root : String) (fs : List Form) : Except Error Project :=
  let t := slots fs.tail
  match targets (slot t "targets"), bindings (slot t "variables"),
      configurations (slot t "configuration-variables") with
  | .ok ts, .ok vs, .ok cs =>
    let name := textOr (slot t "name") (fs.head?.getD (.str ""))
    let configuration := textOr (slot t "configuration-default") (.str defaultConfiguration)
    .ok (Project.settle cwd
      { Project.bare root (.described vs cs configuration) with
        name := .text name
        targets := .known ts })
  | .error e, _, _ => .error e
  | _, .error e, _ => .error e
  | _, _, .error e => .error e

def ofText (cwd root content : String) : Except Error Project :=
  match SExpr.read content with
  | .error e => .error (.form e)
  | .ok fs =>
    match fs.findSome? projectForm? with
    | none => .error (.noProjectForm (path root).text)
    | some fs => project cwd root fs

def load (w : World) (root : String) : Except Error Project :=
  let file := (path root).text
  match w.read file with
  | .error e => .error (.unreadable file (e.text ++ ": " ++ quoted file))
  | .ok content => ofText w.cwd root content

def generatesAutomake (cs : Chars) : Bool :=
  match after? ":makefile-type".toList cs with
  | some (c :: rest) =>
    let rest := trimStart rest
    let rest := (after? ['\''] rest).getD rest
    isBlank c && ((after? "Makefile.am".toList rest).map (·.head?.all (!isWordChar ·))).getD false
  | _ => false

def anywhere (p : Chars → Bool) : Chars → Bool
  | [] => p []
  | c :: cs => p (c :: cs) || anywhere p cs

def automakeMarker (w : World) (directory : String) : Option String :=
  match w.read (path directory).text with
  | .ok content => if anywhere generatesAutomake content.toList then some fileName else none
  | .error _ => none

end SourceFlags.BuildDescription
