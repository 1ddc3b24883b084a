import SourceFlags.Loader
import SourceFlags.Registry.Builtin
import SourceFlags.Toolchain.Setup

namespace SourceFlags

structure Session where
  loader : Loader
  toolchain : Toolchain
  cache : Cache

structure Resolved where
  source : String
  language : Language
  arguments : List String
  macros : Table String
  project : Option Loaded
  facts : Cached
  deriving Repr

namespace Session

def start (w : World) (settings : Settings) (platform : Option Platform) (r : Registry) : Session :=
  ⟨.ofRegistry r (.ofDirectories w settings.trustedDirectories),
    .ofSettings settings platform, .empty⟩

-- The same where trusted directories may lead nowhere.
def startAt (w : World) (settings : Settings) (platform : Option Platform) (r : Registry) :
    Except Error Session :=
  (Trust.ofDirectoriesAt w settings.trustedDirectories).map fun _ => start w settings platform r

-- The project that owns a file. A project file that cannot be read counts as none.
def projectFor (w : World) (s : Session) (source : String) :
    Except Error (Option Loaded) × Session :=
  if w.reaches source then
    let (found, loader) := s.loader.loadFor w (w.absolute source).parent.text
    let s := { s with loader }
    match found with
    | .ok m => (.ok m, s)
    | .error e => (if e.isProjectFile then .ok none else .error e, s)
  else (.error .cwdGone, s)

def addFlags (arguments flags : List String) : List String :=
  flags.foldl (fun args flag => if args.contains flag then args else args ++ [flag]) arguments

def macrosFor (w : World) (s : Session) (wanted : Bool) (facts : Facts) (source : String)
    (arguments : List String) : Probing (Table String × Toolchain) := do
  if !wanted then return (facts.macros, s.toolchain)
  let (own, toolchain) ← s.toolchain.macrosOfFile w source arguments
  return (facts.macros.overlay own, toolchain)

def ownArguments (w : World) (project : Option Loaded) (source : String) (target : Option String) :
    Except Error (List String) :=
  match project with
  | none => .ok []
  | some m =>
    m.project.arguments w.cwd ((target.map Project.Choice.named).getD .bySource) (some source)

def complete (w : World) (s : Session) (project : Option Loaded) (source : String)
    (own : List String) (fileMacros : Bool) : Probing (Resolved × Session) := do
  let language := Language.ofFile source
  let (entry, cache) ← s.toolchain.setup w s.cache
  let arguments := addFlags own (entry.facts.includeFlags language.name)
  let (macros, toolchain) ← s.macrosFor w fileMacros entry.facts source arguments
  return (⟨source, language, arguments, macros, project, entry⟩, { s with toolchain, cache })

def resolve (w : World) (s : Session) (source : String) (target : Option String)
    (fileMacros : Bool) : Probing (Except Error Resolved × Session) := do
  match s.projectFor w source with
  | (.error e, s) => return (.error e, s)
  | (.ok project, s) =>
    let source := w.absoluteText source
    match ownArguments w project source target with
    | .error e => return (.error e, s)
    | .ok own =>
      let (resolved, s) ← s.complete w project source own fileMacros
      return (.ok resolved, s)

def addProject (s : Session) (p : Project) : Loaded × Session :=
  let (m, loader) := s.loader.keep p
  (m, { s with loader })

def trust (w : World) (s : Session) (directory : String) : Session :=
  { s with loader := s.loader.trustAlso w directory }

def trustAt (w : World) (s : Session) (directory : String) : Except Error Unit × Session :=
  let (trusted, loader) := s.loader.trustAt w directory
  (trusted, { s with loader })

end Session
end SourceFlags
