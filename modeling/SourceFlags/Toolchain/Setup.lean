import SourceFlags.Toolchain.Cache
import SourceFlags.Toolchain.Directive
import SourceFlags.Toolchain.Probe

namespace SourceFlags

structure Toolchain where
  settings : Settings
  platform : Platform
  fileMacros : Table (Table String)
  deriving DecidableEq, Repr

namespace Toolchain

def ofSettings (settings : Settings) (platform : Option Platform) : Toolchain :=
  ⟨settings, Platform.orHost platform, []⟩

def resolved (w : World) (program : String) : String :=
  (w.which program).getD program

def key (w : World) (t : Toolchain) : Key :=
  ⟨resolved w t.settings.compiler, resolved w t.settings.cxxCompiler,
    resolved w t.settings.preprocessor, t.platform⟩

def compatHeaders : List String :=
  ["bits/c++config.h", "sys/cdefs.h", "features.h"]

def darwin : Platform := "darwin"

-- The headers of this platform can only be read with this macro.
def darwinMacro : String × String := ("__i386__", "")

def orElse {α : Type} (first second : Probing (Option α)) : Probing (Option α) := do
  match ← first with
  | some a => return some a
  | none => second

-- The preprocessor may be missing; the compiler then does its work.
def predefined (w : World) (s : Settings) : Probing (Option (List (String × String))) :=
  orElse (Probe.macros w s Language.cxx.name s.preprocessor)
    (Probe.macros w s Language.cxx.name s.compiler)

def addPredefined (w : World) (t : Toolchain) (f : Facts) : Probing Facts := do
  let f := f.addMacros ((← predefined w t.settings).getD [])
  return if t.platform = darwin then f.addMacros [darwinMacro] else f

def symbolFilesIn (w : World) (path : String) : List String :=
  (compatHeaders.map (Path.joinText path)).filter w.isFile

def addCxxPath (w : World) (f : Facts) (path : String) : Facts :=
  (symbolFilesIn w path).foldl (fun f file => (f.addSymbolFile file).2)
    (f.addIncludePath Language.cxx.name path).2

def searchLists (w : World) (s : Settings) (f : Facts) : Probing Probe.Guess := do
  let c ← Probe.includePaths w s Language.c.name s.compiler
  let cxx ← Probe.includePaths w s Language.cxx.name s.cxxCompiler
  if c.isEmpty && (w.which s.compiler).isSome then
    let guessed := Probe.guess w s.compiler f.version f.target
    return ⟨guessed.c, if cxx.isEmpty then guessed.cxx else cxx⟩
  else return ⟨c, cxx⟩

def addPaths (w : World) (f : Facts) (lists : Probe.Guess) : Facts :=
  lists.cxx.foldl (addCxxPath w) (f.addIncludePaths Language.c.name lists.c)

def populate (w : World) (t : Toolchain) (f : Facts) : Probing Facts := do
  let f := f.addReport (← Probe.fields w t.settings t.settings.compiler)
  let f ← t.addPredefined w f
  return addPaths w f (← searchLists w t.settings f)

def symbolDirective (path : String) : String :=
  "#include \"" ++ path ++ "\""

def addSymbolMacros (w : World) (t : Toolchain) (f : Facts) : Probing Facts := do
  if f.symbolFiles.isEmpty then return f
  let directives := f.symbolFiles.map symbolDirective
  let ask := Probe.sourceMacros w t.settings directives Language.cxx.name []
  return f.addMacros ((← orElse (ask t.settings.preprocessor) (ask t.settings.compiler)).getD [])

def repopulate (w : World) (t : Toolchain) (f : Facts) : Probing Facts := do
  t.addSymbolMacros w (← t.populate w f)

def setup (w : World) (t : Toolchain) (c : Cache) : Probing (Cached × Cache) := do
  let key := t.key w
  match c.get? key with
  | some entry => return (entry, c)
  | none => return c.keep key (← t.populate w (.ofExecutable key.compiler))

def update (w : World) (t : Toolchain) (change : Facts → Probing Facts) (c : Cache) :
    Probing (Cached × Cache) := do
  let key := t.key w
  let old := ((c.get? key).map (·.facts)).getD (.ofExecutable key.compiler)
  return c.keep key (← change old)

def refresh (w : World) (t : Toolchain) (c : Cache) : Probing (Cached × Cache) :=
  t.update w (t.repopulate w) c

def refreshMacros (w : World) (t : Toolchain) (c : Cache) : Probing (Cached × Cache) :=
  t.update w (t.addSymbolMacros w) c

def cached? (w : World) (t : Toolchain) (c : Cache) : Option Cached :=
  c.get? (t.key w)

def sourceOf (w : World) (file : String) : String :=
  match w.read file with
  | .ok s => s
  | .error _ => ""

-- The macros after the directives of a file. They are asked for once.
def macrosOfFile (w : World) (t : Toolchain) (file : String) (extra : List String) :
    Probing (Table String × Toolchain) := do
  let file := w.absoluteText file
  match t.fileMacros.get? file with
  | some known => return (known, t)
  | none =>
    let directives := Directive.read (sourceOf w file)
    let found ← Probe.sourceMacros w t.settings directives (Language.ofFile file).name extra ""
    let table := Table.ofPairs (found.getD [])
    return (table, { t with fileMacros := t.fileMacros.put file table })

def forget (w : World) (t : Toolchain) (file : String) : Toolchain :=
  { t with fileMacros := t.fileMacros.erase (w.absoluteText file) }

def macrosAt (w : World) (t : Toolchain) (file : String) (extra : List String) :
    Probing (Except Error (Table String) × Toolchain) := do
  if w.reaches file then
    let (found, t) ← t.macrosOfFile w file extra
    return (.ok found, t)
  else return (.error .cwdGone, t)

def forgetAt (w : World) (t : Toolchain) (file : String) : Except Error Unit × Toolchain :=
  if w.reaches file then (.ok (), t.forget w file) else (.error .cwdGone, t)

end Toolchain
end SourceFlags
