import SourceFlags.Proofs.Table
import SourceFlags.Proofs.Toolchain.Probing

namespace SourceFlags

namespace Facts

structure Grows (f g : Facts) : Prop where
  paths       : ∀ language, f.paths language <+: g.paths language
  macros      : f.macros <+: g.macros
  symbolFiles : f.symbolFiles <+: g.symbolFiles

structure Adds (f g : Facts) : Prop extends Grows f g where
  version     : g.version = f.version
  target      : g.target = f.target
  installRoot : g.installRoot = f.installRoot
  options     : g.options = f.options

variable {f g k : Facts}

theorem Grows.refl (f : Facts) : f.Grows f where
  paths       := fun _ => List.prefix_refl _
  macros      := List.prefix_refl _
  symbolFiles := List.prefix_refl _

theorem Grows.trans (h₁ : f.Grows g) (h₂ : g.Grows k) : f.Grows k where
  paths       := fun language => (h₁.paths language).trans (h₂.paths language)
  macros      := h₁.macros.trans h₂.macros
  symbolFiles := h₁.symbolFiles.trans h₂.symbolFiles

namespace Adds

theorem refl (f : Facts) : f.Adds f :=
  ⟨.refl f, rfl, rfl, rfl, rfl⟩

theorem trans (h₁ : f.Adds g) (h₂ : g.Adds k) : f.Adds k where
  toGrows     := h₁.toGrows.trans h₂.toGrows
  version     := h₂.version.trans h₁.version
  target      := h₂.target.trans h₁.target
  installRoot := h₂.installRoot.trans h₁.installRoot
  options     := h₂.options.trans h₁.options

theorem foldl {α : Type} {step : Facts → α → Facts} (h : ∀ (f : Facts) a, f.Adds (step f a))
    (f : Facts) (l : List α) : f.Adds (l.foldl step f) := by
  induction l generalizing f
  case nil => exact refl f
  case cons a l hi => exact (h f a).trans (hi _)

end Adds

theorem appendNew?_prefix {l l' : List String} {s : String} (h : appendNew? l s = some l') :
    l <+: l' := by
  simp only [appendNew?] at h
  split at h <;> cases h
  exact List.prefix_append ..

theorem addIncludePath_adds (f : Facts) (language path : String) :
    f.Adds (f.addIncludePath language path).2 := by
  simp only [addIncludePath]
  split
  case h_2 => exact .refl f
  case h_1 ps hp =>
    refine ⟨⟨fun other => ?_, List.prefix_refl _, List.prefix_refl _⟩, rfl, rfl, rfl, rfl⟩
    by_cases h : other = language
    case neg => simp [paths, Table.get?_put_of_ne _ h]
    case pos =>
      subst h
      have hg : Facts.paths { f with includePaths := f.includePaths.put other ps } other = ps := by
        simp [paths, Table.get?_put_self]
      rw [hg]
      exact appendNew?_prefix hp

theorem addMacro_adds (f : Facts) (name value : String) : f.Adds (f.addMacro name value).2 := by
  simp only [addMacro]
  split
  case isTrue => exact .refl f
  case isFalse h =>
    have hm := Table.put_of_not_mem (mt Table.has_iff.mpr h) value
    exact ⟨⟨fun _ => List.prefix_refl _, hm ▸ List.prefix_append .., List.prefix_refl _⟩,
      rfl, rfl, rfl, rfl⟩

theorem addSymbolFile_adds (f : Facts) (path : String) : f.Adds (f.addSymbolFile path).2 := by
  simp only [addSymbolFile]
  split
  case h_2 => exact .refl f
  case h_1 hp =>
    exact ⟨⟨fun _ => List.prefix_refl _, List.prefix_refl _, appendNew?_prefix hp⟩,
      rfl, rfl, rfl, rfl⟩

theorem addMacros_adds (f : Facts) (ms : List (String × String)) : f.Adds (f.addMacros ms) :=
  .foldl (fun f (m : String × String) => f.addMacro_adds m.1 m.2) f ms

theorem addIncludePaths_adds (f : Facts) (language : String) (ps : List String) :
    f.Adds (f.addIncludePaths language ps) :=
  .foldl (fun f p => f.addIncludePath_adds language p) f ps

theorem addReport_grows (f : Facts) (fields : VersionReport.Fields) :
    f.Grows (f.addReport fields) :=
  ⟨fun _ => List.prefix_refl _, List.prefix_refl _, List.prefix_refl _⟩

end Facts

namespace Toolchain

open Probing

variable {w : World} {t : Toolchain} {f : Facts}

theorem addCxxPath_adds (w : World) (f : Facts) (path : String) : f.Adds (addCxxPath w f path) :=
  (f.addIncludePath_adds _ path).trans <| .foldl Facts.addSymbolFile_adds _ _

theorem addPaths_adds (w : World) (f : Facts) (lists : Probe.Guess) :
    f.Adds (addPaths w f lists) :=
  (f.addIncludePaths_adds _ lists.c).trans <| .foldl (addCxxPath_adds w) _ _

theorem addPredefined_adds (w : World) (t : Toolchain) (f : Facts) :
    (t.addPredefined w f).Always f.Adds := by
  refine .of_any fun ms => ?_
  split
  case isTrue  => exact .pure <| (f.addMacros_adds _).trans (Facts.addMacros_adds _ _)
  case isFalse => exact .pure <| f.addMacros_adds _

theorem addSymbolMacros_adds (w : World) (t : Toolchain) (f : Facts) :
    (t.addSymbolMacros w f).Always f.Adds := by
  unfold addSymbolMacros
  split
  case isTrue  => exact .pure <| .refl f
  case isFalse => exact .of_any fun _ => .pure <| f.addMacros_adds _

theorem populate_adds {P : VersionReport.Fields → Prop} (f : Facts)
    (h : (Probe.fields w t.settings t.settings.compiler).Always P) :
    (t.populate w f).Always fun g => ∃ fields, P fields ∧ (f.addReport fields).Adds g :=
  .bind h fun fields hf => .bind (addPredefined_adds w t _) fun _ hg =>
    .of_any fun _ => .pure ⟨fields, hf, hg.trans (addPaths_adds w _ _)⟩

end Toolchain
end SourceFlags
