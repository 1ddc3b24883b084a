import SourceFlags.Proofs.Toolchain.Probing

namespace SourceFlags

namespace Probe

def fieldsOf (a : Answer) : VersionReport.Fields :=
  if a.isLaunched then VersionReport.read a.output else []

def listOf (w : World) (a : Answer) : List String :=
  if a.isOk then (SearchList.read Platform.host a.output).filter w.isSearchable else []

def searchArguments (language : Language) : List String :=
  ["-v", "-E", "-x", language.name, nullFile]

def search (w : World) (s : Settings) (language : Language) : Probing Answer :=
  query w (programFor s language.name) (searchArguments language) none

@[simp]
theorem programFor_c (s : Settings) : programFor s Language.c.name = s.compiler :=
  rfl

@[simp]
theorem programFor_cxx (s : Settings) : programFor s Language.cxx.name = s.cxxCompiler :=
  rfl

theorem programOr_programFor (s : Settings) (language : String) :
    programOr s language (programFor s language) = programFor s language :=
  ite_self _

theorem fields_eq (w : World) (s : Settings) :
    fields w s s.compiler = fieldsOf <$> query w s.compiler ["-v"] none := by
  simp only [fields, ite_self]
  rfl

theorem includePaths_eq (w : World) (s : Settings) (language : Language) :
    includePaths w s language.name (programFor s language.name) =
      listOf w <$> search w s language := by
  simp only [includePaths, programOr_programFor]
  rfl

end Probe

namespace Toolchain

open Probe

structure Answers where
  version : Answer
  macros  : Option (List (String × String))
  search  : Language → Answer

def ask (w : World) (s : Settings) : Probing Answers := do
  let version ← query w s.compiler ["-v"] none
  let macros ← predefined w s
  let c ← Probe.search w s .c
  let cxx ← Probe.search w s .cxx
  return ⟨version, macros, fun | .c => c | .cxx => cxx⟩

-- The directories that are taken for each language. Without a list for C they are guessed from what
-- is known.
def chosen (w : World) (compiler : String) (f : Facts) (listed : Guess) : Guess :=
  if listed.c.isEmpty && (w.which compiler).isSome then
    let guessed := guess w compiler f.version f.target
    ⟨guessed.c, if listed.cxx.isEmpty then guessed.cxx else listed.cxx⟩
  else listed

namespace Answers

def macrosOn (platform : Platform) (a : Answers) : List (String × String) :=
  a.macros.getD [] ++ if platform = darwin then [darwinMacro] else []

def lists (w : World) (compiler : String) (a : Answers) (f : Facts) : Guess :=
  chosen w compiler f ⟨listOf w (a.search .c), listOf w (a.search .cxx)⟩

def addTo (w : World) (t : Toolchain) (a : Answers) (f : Facts) : Facts :=
  let f := (f.addReport (fieldsOf a.version)).addMacros (a.macrosOn t.platform)
  addPaths w f (a.lists w t.settings.compiler f)

end Answers

theorem addPredefined_eq (w : World) (t : Toolchain) (f : Facts) :
    t.addPredefined w f =
      (fun ms => f.addMacros (ms.getD [] ++ if t.platform = darwin then [darwinMacro] else [])) <$>
        predefined w t.settings := by
  by_cases hp : t.platform = darwin
  case pos =>
    simp only [addPredefined, if_pos hp, Facts.addMacros, List.foldl_append]
    rfl
  case neg =>
    simp only [addPredefined, if_neg hp, List.append_nil]
    rfl

theorem searchLists_eq (w : World) (s : Settings) (f : Facts) :
    searchLists w s f = (do
      let c ← Probe.search w s .c
      let cxx ← Probe.search w s .cxx
      return chosen w s.compiler f ⟨listOf w c, listOf w cxx⟩) := by
  have hc := includePaths_eq w s .c
  have hx := includePaths_eq w s .cxx
  simp only [programFor_c, programFor_cxx] at hc hx
  simp only [searchLists, hc, hx, map_eq_pure_bind, bind_assoc, pure_bind]
  refine bind_congr fun c => bind_congr fun cxx => ?_
  simp only [chosen]
  split <;> rfl

theorem populate_eq (w : World) (t : Toolchain) (f : Facts) :
    t.populate w f = (·.addTo w t f) <$> ask w t.settings := by
  simp only [populate, fields_eq, addPredefined_eq, searchLists_eq, ask, map_eq_pure_bind,
    bind_assoc, pure_bind]
  rfl

def symbolMacros (w : World) (s : Settings) (files : List String) :
    Probing (List (String × String)) := do
  if files.isEmpty then return []
  let ask := sourceMacros w s (files.map symbolDirective) Language.cxx.name []
  return (← orElse (ask s.preprocessor) (ask s.compiler)).getD []

theorem addSymbolMacros_eq (w : World) (t : Toolchain) (f : Facts) :
    t.addSymbolMacros w f = f.addMacros <$> symbolMacros w t.settings f.symbolFiles := by
  unfold addSymbolMacros symbolMacros
  split
  case isTrue  => rfl
  case isFalse => rfl

end Toolchain
end SourceFlags
